import SignalGraph.Proofs.Builtin.Delivery
import SignalGraph.Proofs.Wave.Stopping

/-!
One counter in a graph of any nodes, over some calls of an instance. Signals may reach the counter again while
an earlier one still runs, and may fail behind it; its deliveries are numbered as they begin. What other nodes
make of the counts, and of the error after an overflow, is left open.
-/

namespace SignalGraph

open Builtin

variable {β : Type}

/-! ### Sums -/

theorem fits_toInt (v : Int64) : Fits v.toInt :=
  fits_iff.mpr ⟨v.le_toInt, v.toInt_lt⟩

namespace CounterState

variable {s t : CounterState} {m n : Nat}

theorem fits_of_le (le : m ≤ n) (fits : Fits (s.after n)) : Fits (s.after m) := by
  induction le with
  | refl => exact fits
  | step _ ih => exact ih (fits_after fits)

/-- How many of the first sums fit. -/
def fitting (s : CounterState) (n : Nat) : Nat :=
  (List.range n).countP fun k => Fits (s.after (k + 1))

theorem fitting_of_fits (fits : Fits (s.after n)) : s.fitting n = n := by
  have all : s.fitting n = (List.range n).length := by
    refine List.countP_eq_length.mpr fun k mem => ?_
    have less : k + 1 ≤ n := List.mem_range.mp mem
    exact decide_eq_true (fits_of_le less fits)
  rw [all, List.length_range]

theorem fitting_succ_of_not_fits (large : ¬ Fits (s.after (n + 1))) :
    s.fitting (n + 1) = s.fitting n := by
  simp [fitting, List.range_succ, large]

theorem not_fits_fitting (large : ¬ Fits (s.after (n + 1))) : ¬ Fits (s.after (s.fitting n + 1)) := by
  induction n with
  | zero => exact large
  | succ n ih =>
      by_cases fits : Fits (s.after (n + 1))
      · rwa [fitting_of_fits fits]
      · rw [fitting_succ_of_not_fits fits]
        exact ih fits

structure Counted (s : CounterState) (n : Nat) (t : CounterState) : Prop where
  step : t.step = s.step
  count : t.count.toInt = s.after (s.fitting n)

theorem counted_zero (s : CounterState) : s.Counted 0 s where
  step := rfl
  count := by simp [fitting, after]

theorem Counted.add (counted : s.Counted n t) (fits : Fits (s.after (n + 1))) :
    ∃ v : Int64, checkedAdd t.count t.step = some v ∧ v.toInt = s.after (n + 1) ∧
      s.Counted (n + 1) { t with count := v } := by
  have sum : t.count.toInt + t.step.toInt = s.after (n + 1) := by
    rw [counted.count, counted.step, fitting_of_fits (fits_after fits), after_succ]
  have exact := toInt_ofInt_of_fits fits
  refine ⟨Int64.ofInt (s.after (n + 1)), ?_, exact, counted.step, ?_⟩
  · rw [checkedAdd, sum]
    exact if_pos fits
  · rw [exact, fitting_of_fits fits]

theorem Counted.overflow (counted : s.Counted n t) (large : ¬ Fits (s.after (n + 1))) :
    checkedAdd t.count t.step = none ∧ s.Counted (n + 1) t := by
  have sum : t.count.toInt + t.step.toInt = s.after (s.fitting n + 1) := by
    rw [counted.count, counted.step, after_succ]
  refine ⟨?_, counted.step, by rw [counted.count, fitting_succ_of_not_fits large]⟩
  rw [checkedAdd, sum]
  exact if_neg (not_fits_fitting large)

end CounterState

/-! ### The record of a counter -/

def Event.arrivesAt (key : NodeKey) : Event → Bool
  | .signal k .. => k = key
  | _ => false

def Event.leaves (key : NodeKey) : Event → Bool
  | .send source _ => source.node = key
  | _ => false

def deliveries (key : NodeKey) (events : List Event) : Nat := events.countP (·.arrivesAt key)

theorem deliveries_concat_of_far {key : NodeKey} {e : Event} (far : e.arrivesAt key = false)
    (events : List Event) : deliveries key (events ++ [e]) = deliveries key events := by
  simp [deliveries, far]

theorem deliveries_concat_signal (key : NodeKey) (events : List Event) (spot : Nat) (source : SpotRef)
    (args : List Value) :
    deliveries key (events ++ [.signal key spot source args]) = deliveries key events + 1 := by
  simp [deliveries, Event.arrivesAt]

theorem split_concat {α : Type} {xs before after : List α} {a b : α}
    (split : xs ++ [b] = before ++ a :: after) :
    (∃ rest, xs = before ++ a :: rest ∧ after = rest ++ [b]) ∨ xs = before ∧ b = a ∧ after = [] := by
  obtain rfl | ⟨rest, last, rfl⟩ := List.eq_nil_or_concat after
  · obtain ⟨rfl, same⟩ := List.append_inj' split rfl
    exact .inr ⟨rfl, List.singleton_inj.mp same, rfl⟩
  · rw [List.concat_eq_append, ← List.cons_append, ← List.append_assoc] at split
    obtain ⟨rfl, same⟩ := List.append_inj' split rfl
    exact .inl ⟨rest, rfl, by rw [List.concat_eq_append, same]⟩

structure Counter (β : Type) where
  wrap : Builtin → β
  key : NodeKey
  nodeId : String
  start : CounterState

namespace Counter

structure At (c : Counter β) (n : Nat) (g : Graph β) : Prop where
  node : ∃ node, g.node? c.key = some node ∧ node.id = c.nodeId
  state : ∃ t, g.behavior? c.key = some (c.wrap (.counter t)) ∧ c.start.Counted n t

/-- An error that a delivery after some events ends with at once, the count being what it was. -/
structure Refusal (c : Counter β) (past : List Event) (call : Event)
    (e : Failure (Graph β × List Event)) : Prop where
  origin : e.origin = .hook c.key
  cause : e.cause = .nodeFailed c.nodeId "counter overflow"
  record : e.moment.2 = past ++ [call]
  count : c.At (deliveries c.key past) e.moment.1

/-- A record in which each delivery to the counter is followed by the sum that it sends, or has raised an
error if the sum does not fit; besides, the counter sends nothing. -/
inductive Tally (c : Counter β) (raised : Failure (Graph β × List Event) → Prop) :
    List Event → Prop
  | nil : Tally c raised []
  | other {events : List Event} (tally : Tally c raised events) {e : Event}
      (arrives : e.arrivesAt c.key = false) (leaves : e.leaves c.key = false) :
      Tally c raised (events ++ [e])
  | forwarded {events : List Event} (tally : Tally c raised events) (spot : Nat) (source : SpotRef)
      (args : List Value) {v : Int64}
      (exact : v.toInt = c.start.after (deliveries c.key events + 1)) :
      Tally c raised
        (events ++ [.signal c.key spot source args, .send ⟨c.key, 1⟩ (args ++ [.int v])])
  | refused {events : List Event} (tally : Tally c raised events) {spot : Nat} {source : SpotRef}
      {args : List Value} (large : ¬ Fits (c.start.after (deliveries c.key events + 1)))
      {e : Failure (Graph β × List Event)} (mem : raised e)
      (refusal : c.Refusal events (.signal c.key spot source args) e) :
      Tally c raised (events ++ [.signal c.key spot source args])

inductive Outcome (c : Counter β) (raised : Failure (Graph β × List Event) → Prop)
    (past : List Event) (call : Event) (args : List Value) : List Event → Prop
  | forwarded {v : Int64} (exact : v.toInt = c.start.after (deliveries c.key past + 1))
      (more : List Event) : Outcome c raised past call args (.send ⟨c.key, 1⟩ (args ++ [.int v]) :: more)
  | refused (large : ¬ Fits (c.start.after (deliveries c.key past + 1)))
      {e : Failure (Graph β × List Event)} (mem : raised e) (refusal : c.Refusal past call e)
      (rest : List Event) : Outcome c raised past call args rest

variable {c : Counter β} {raised : Failure (Graph β × List Event) → Prop} {events past rest : List Event}

theorem Outcome.append {call : Event} {args : List Value} (outcome : c.Outcome raised past call args rest)
    (more : List Event) : c.Outcome raised past call args (rest ++ more) := by
  cases outcome with
  | forwarded exact early => exact .forwarded exact (early ++ more)
  | refused large mem refusal => exact .refused large mem refusal _

theorem Tally.delivery (tally : c.Tally raised events) {spot : Nat} {source : SpotRef}
    {args : List Value} (split : events = past ++ .signal c.key spot source args :: rest) :
    c.Outcome raised past (.signal c.key spot source args) args rest := by
  -- A record grows at its end, so its last events are split off first.
  induction tally generalizing rest with
  | nil => simp at split
  | other _ arrives _ ih =>
      obtain ⟨later, early, rfl⟩ | ⟨_, rfl, _⟩ := split_concat split
      · exact (ih early).append _
      · simp [Event.arrivesAt] at arrives
  | forwarded _ _ _ _ exact ih =>
      rw [List.append_cons] at split
      obtain ⟨later, early, rfl⟩ | ⟨_, same, _⟩ := split_concat split
      · obtain ⟨sooner, first, rfl⟩ | ⟨rfl, same, rfl⟩ := split_concat early
        · exact ((ih first).append _).append _
        · cases same
          exact .forwarded exact []
      · cases same
  | refused _ large mem refusal ih =>
      obtain ⟨later, early, rfl⟩ | ⟨rfl, same, rfl⟩ := split_concat split
      · exact (ih early).append _
      · cases same
        exact .refused large mem refusal []

theorem Tally.sending (tally : c.Tally raised events) {ref : SpotRef} {args : List Value}
    (split : events = past ++ .send ref args :: rest) (own : ref.node = c.key) :
    ∃ before spot source args', past = before ++ [.signal c.key spot source args'] ∧
      Fits (c.start.after (deliveries c.key before + 1)) := by
  induction tally generalizing rest with
  | nil => simp at split
  | other _ _ leaves ih =>
      obtain ⟨later, early, _⟩ | ⟨_, rfl, _⟩ := split_concat split
      · exact ih early
      · simp [Event.leaves, own] at leaves
  | forwarded _ _ _ _ exact ih =>
      rw [List.append_cons] at split
      obtain ⟨later, early, _⟩ | ⟨rfl, _, _⟩ := split_concat split
      · obtain ⟨sooner, first, _⟩ | ⟨_, same, _⟩ := split_concat early
        · exact ih first
        · cases same
      · exact ⟨_, _, _, _, rfl, exact ▸ fits_toInt _⟩
  | refused _ _ _ _ ih =>
      obtain ⟨later, early, _⟩ | ⟨_, same, _⟩ := split_concat split
      · exact ih early
      · cases same

/-- The counter at a moment of a run: its record is in order, and its state agrees with it. -/
structure Tallied (c : Counter β) (raised : Failure (Graph β × List Event) → Prop)
    (m : Graph β × List Event) : Prop where
  state : c.At (deliveries c.key m.2) m.1
  tally : c.Tally raised m.2

end Counter

/-! ### Waves -/

def Wave.told (past : List Event) (w : Wave β) : Graph β × List Event :=
  (w.graph, past ++ w.record.toList)

theorem Wave.told_push (past : List Event) (w : Wave β) (e : Event) :
    (w.push e).told past = (w.graph, (w.told past).2 ++ [e]) := by
  simp [told, push]

namespace Counter

variable {c : Counter β} {raised : Failure (Graph β × List Event) → Prop} {past : List Event}
  {send : Send β} {sent : Watch β} {n : Nat} {g : Graph β}

theorem At.label (at_n : c.At n g) : g.label c.key = c.nodeId := by
  obtain ⟨node, found, named⟩ := at_n.node
  rw [Graph.label_eq found, named]

theorem At.setBehavior_of_ne (at_n : c.At n g) {key : NodeKey} (other : key ≠ c.key) (b : β) :
    c.At n (g.setBehavior key b) where
  node := by simpa only [Graph.node?_eq_of_shape (g.shape_setBehavior key b)] using at_n.node
  state := by simpa only [Graph.behavior?_setBehavior, if_neg other.symm] using at_n.state

theorem At.count (at_n : c.At n g) {t : CounterState} (counted : c.start.Counted (n + 1) t) :
    c.At (n + 1) (g.setBehavior c.key (c.wrap (.counter t))) where
  node := by
    have same := Graph.node?_eq_of_shape (g.shape_setBehavior c.key (c.wrap (.counter t)))
    simpa only [same] using at_n.node
  state := by
    obtain ⟨_, found, _⟩ := at_n.state
    exact ⟨t, by rw [Graph.behavior?_setBehavior, if_pos rfl, found]; rfl, counted⟩

theorem Tallied.push {w : Wave β} (tallied : c.Tallied raised (w.told past)) {e : Event}
    (arrives : e.arrivesAt c.key = false) (leaves : e.leaves c.key = false) :
    c.Tallied raised ((w.push e).told past) := by
  rw [Wave.told_push]
  refine ⟨?_, .other tallied.tally arrives leaves⟩
  rw [deliveries_concat_of_far arrives]
  exact tallied.state

def Keeps (c : Counter β) (raised : Failure (Graph β × List Event) → Prop) (past : List Event)
    (send : Send β) (sent : Watch β) : Prop :=
  ∀ source args w, (∀ e ∈ sent source args w, raised (e.map (Wave.told past))) →
    c.Tallied raised (w.told past) → c.Tallied raised ((send source args w).2.told past)

/-- Other nodes reach the counter by signals only. -/
theorem Keeps.run (keeps : c.Keeps raised past send sent) {self : NodeKey} (other : self ≠ c.key)
    (source : Option SpotRef) (r : Reaction β) (w : Wave β)
    (all : ∀ e ∈ r.failures send sent self source w, raised (e.map (Wave.told past)))
    (tallied : c.Tallied raised (w.told past)) :
    c.Tallied raised ((r.run send self source w).2.told past) := by
  induction r generalizing w with
  | done _ => exact tallied
  | look _ ih => exact ih _ w all tallied
  | become b _ ih =>
      exact ih _ all ⟨tallied.state.setBehavior_of_ne other b, tallied.tally⟩
  | setState state _ ih => exact ih { w with state } all tallied
  | log _ _ _ ih | note _ _ ih => exact ih _ all (tallied.push rfl rfl)
  | signal spot args next ih =>
      simp only [Reaction.failures, List.mem_append] at all
      have start := tallied.push (e := .send ⟨self, spot⟩ args) rfl (by simp [Event.leaves, other])
      have after := keeps ⟨self, spot⟩ args _ (fun e mem => all e (.inl mem)) start
      simp only [Reaction.run]
      rcases ran : send ⟨self, spot⟩ args (w.push (.send ⟨self, spot⟩ args)) with
        ⟨_ | result, v⟩ <;> simp only [ran] at all after
      · exact after
      · exact ih result v (fun e mem => all e (.inr mem)) after

theorem Keeps.count (keeps : c.Keeps raised past send sent) {w : Wave β}
    (tallied : c.Tallied raised (w.told past)) {t : CounterState}
    (found : w.graph.behavior? c.key = some (c.wrap (.counter t)))
    (counted : c.start.Counted (deliveries c.key (w.told past).2) t) (spot : Nat) (source : SpotRef)
    (args : List Value)
    (all : ∀ e ∈ ((Builtin.counter t).onSignal c.wrap args).failures send sent c.key (some source)
      (w.push (.signal c.key spot source args)), raised (e.map (Wave.told past))) :
    c.Tallied raised ((((Builtin.counter t).onSignal c.wrap args).run send c.key (some source)
      (w.push (.signal c.key spot source args))).2.told past) := by
  have told : (w.push (.signal c.key spot source args)).told past =
      (w.graph, (w.told past).2 ++ [.signal c.key spot source args]) := Wave.told_push past w _
  by_cases fits : Fits (c.start.after (deliveries c.key (w.told past).2 + 1))
  · -- The sum is in the graph before it is sent, so a delivery on the way counts on from it.
    obtain ⟨v, sum, exact, next⟩ := counted.add fits
    simp only [onSignal, sum, Reaction.failures, Reaction.forward, List.mem_append] at all
    simp only [run_onSignal, work, sum]
    refine keeps _ _ _ (fun e mem => all e (.inl mem)) ?_
    rw [Wave.told_push]
    change c.Tallied raised (_, ((w.push (.signal c.key spot source args)).told past).2 ++ _)
    rw [told, List.append_assoc]
    refine ⟨?_, .forwarded tallied.tally spot source args exact⟩
    rw [← List.append_assoc, deliveries_concat_of_far rfl, deliveries_concat_signal]
    exact tallied.state.count next
  · obtain ⟨sum, next⟩ := counted.overflow fits
    simp only [onSignal, sum, Reaction.fail, Reaction.failures, List.mem_singleton,
      forall_eq] at all
    simp only [run_onSignal, work, sum]
    rw [told]
    refine ⟨?_, .refused tallied.tally fits all ⟨rfl, ?_, congrArg Prod.snd told, tallied.state⟩⟩
    · rw [deliveries_concat_signal]
      exact ⟨tallied.state.node, t, found, next⟩
    · exact congrArg (RunError.nodeFailed · "counter overflow") tallied.state.label

section Calls

variable [Behavior β] (hosted : Hosted c.wrap)
include hosted

theorem Keeps.deliver (keeps : c.Keeps raised past send sent) (source : SpotRef) (args : List Value)
    (id : LinkId) (w : Wave β)
    (all : ∀ e ∈ Wave.deliverFailures send sent source args id w, raised (e.map (Wave.told past)))
    (tallied : c.Tallied raised (w.told past)) :
    c.Tallied raised ((Wave.deliver send source args id w).2.told past) := by
  cases live : w.graph.link? id with
  | none =>
      simp only [Wave.deliver, live]
      exact tallied
  | some l =>
  cases far : l.farEnd source with
  | error cause =>
      simp only [Wave.deliver, live, far]
      exact tallied
  | ok target =>
  cases crossed : w.cross id source target with
  | error cause =>
      simp only [Wave.deliver, live, far, crossed]
      exact tallied
  | ok v =>
  have start : c.Tallied raised (v.told past) := by
    rw [Wave.eq_of_cross crossed]
    exact tallied
  cases found : v.graph.behavior target.node with
  | error cause =>
      simp only [Wave.deliver, live, far, crossed, found]
      exact start
  | ok b =>
  simp only [Wave.deliverFailures, live, far, crossed, found] at all
  simp only [Wave.deliver, live, far, crossed, found]
  by_cases own : target.node = c.key
  · obtain ⟨t, here, counted⟩ := start.state.state
    rw [own] at all found ⊢
    cases (Graph.behavior_eq_ok_iff.mpr here).symm.trans found
    simp only [hosted.onSignal] at all ⊢
    exact keeps.count start here counted target.index source args all
  · exact keeps.run own (some source) _ _ all
      (start.push (by simp [Event.arrivesAt, own]) rfl)

theorem Keeps.deliverAll (keeps : c.Keeps raised past send sent) (source : SpotRef)
    (args : List Value) (ids : List LinkId) (w : Wave β)
    (all : ∀ e ∈ Wave.deliverAllFailures send sent source args ids w,
      raised (e.map (Wave.told past)))
    (tallied : c.Tallied raised (w.told past)) :
    c.Tallied raised ((Wave.deliverAll send source args ids w).2.told past) := by
  induction ids generalizing w with
  | nil => exact tallied
  | cons id ids ih =>
      simp only [Wave.deliverAllFailures, List.mem_append] at all
      have first := keeps.deliver hosted source args id w (fun e mem => all e (.inl mem)) tallied
      simp only [Wave.deliverAll]
      rcases ran : Wave.deliver send source args id w with ⟨_ | _ | _, v⟩ <;>
        simp only [ran] at all first
      · exact first
      · exact first
      · exact ih v (fun e mem => all e (.inr mem)) first

theorem keeps_propagate (depth : Nat) :
    c.Keeps raised past (Wave.propagate depth) (Wave.propagateFailures depth) := by
  induction depth with
  | zero => exact fun _ _ _ _ tallied => tallied
  | succ depth ih =>
      intro source args w all tallied
      simp only [Wave.propagate]
      simp only [Wave.propagateFailures] at all
      cases found : w.graph.spot source with
      | error cause => exact tallied
      | ok s =>
          simp only [found] at all
          exact ih.deliverAll hosted source args s.links w all tallied

theorem tallied_begin (depth : Nat) (key : NodeKey) (w : Wave β)
    (all : ∀ e ∈ w.beginFailures depth key, raised (e.map (Wave.told past)))
    (tallied : c.Tallied raised (w.told past)) :
    c.Tallied raised ((w.begin depth key).2.told past) := by
  simp only [Wave.begin]
  simp only [Wave.beginFailures] at all
  have start : c.Tallied raised ((w.push (.begin key)).told past) := tallied.push rfl rfl
  cases found : w.graph.behavior key with
  | error cause => exact tallied
  | ok b =>
  simp only [found] at all
  by_cases own : key = c.key
  · obtain ⟨t, here, _⟩ := tallied.state.state
    subst own
    cases (Graph.behavior_eq_ok_iff.mpr here).symm.trans found
    simp only [hosted.onBegin]
    exact start
  · exact (keeps_propagate hosted depth).run own none _ _ all start

end Calls
end Counter

/-! ### Calls -/

namespace Instance

instance (i : Instance β) : (s : Stimulus) → Decidable (i.Admits s)
  | .begin => inferInstanceAs (Decidable (i.started = false))
  | .tick _ => inferInstanceAs (Decidable (i.started = true))
  | .signal _ _ => inferInstanceAs (Decidable True)

variable [Behavior β]

/-- The instance after some calls, each within a depth, and their record; the results do not matter. -/
def respondAll : List (Nat × Stimulus) → Instance β → Instance β × List Event
  | [], i => (i, [])
  | (depth, s) :: rest, i =>
    let (_, j, events) := i.respond depth s
    let (k, later) := j.respondAll rest
    (k, events ++ later)

/-- The errors raised during these calls, each with the instance and the record at that moment. -/
def allFailures : List (Nat × Stimulus) → Instance β → List (Failure (Instance β × List Event))
  | [], _ => []
  | (depth, s) :: rest, i =>
    let (_, j, events) := i.respond depth s
    (if i.Admits s then i.failures depth s else []) ++
      (j.allFailures rest).map (.map fun (k, later) => (k, events ++ later))

end Instance

namespace Counter

open Instance

variable [Behavior β] {c : Counter β} {raised : Failure (Graph β × List Event) → Prop}
  (hosted : Hosted c.wrap)

def seen (past : List Event) (e : Failure (Instance β × List Event)) : Failure (Graph β × List Event) :=
  e.map fun m => (m.1.graph, past ++ m.2)

include hosted

theorem tallied_conclude (depth : Nat) (key : NodeKey) (i : Instance β) (past : List Event)
    (all : ∀ e ∈ (i.wave.beginFailures depth key).map (.map i.snapshot), raised (seen past e))
    (tallied : c.Tallied raised (i.graph, past)) :
    c.Tallied raised ((i.conclude (i.wave.begin depth key)).2.1.graph,
      past ++ (i.conclude (i.wave.begin depth key)).2.2) := by
  have start : i.wave.told past = (i.graph, past) := by simp [Wave.told, wave]
  exact tallied_begin hosted depth key i.wave (fun e mem => all _ (List.mem_map_of_mem mem))
    (start ▸ tallied)

theorem tallied_fire (depth : Nat) (keys : List NodeKey) (i : Instance β) (past : List Event)
    (all : ∀ e ∈ i.fireFailures depth keys, raised (seen past e))
    (tallied : c.Tallied raised (i.graph, past)) :
    c.Tallied raised ((i.fire depth keys).2.1.graph, past ++ (i.fire depth keys).2.2) := by
  induction keys generalizing i past with
  | nil => simpa [fire] using tallied
  | cons key keys ih =>
      simp only [fireFailures, List.mem_append] at all
      have first := tallied_conclude hosted depth key i past (fun e mem => all e (.inl mem)) tallied
      simp only [fire, andThen]
      rcases ran : i.conclude (i.wave.begin depth key) with ⟨_ | _ | _, j, events⟩ <;>
        simp only [ran] at all first
      · exact first
      · exact first
      · have rest := ih j (past ++ events) (fun e mem => ?_) first
        · simpa only [List.append_assoc] using rest
        · have later := all _ (.inr (List.mem_map_of_mem mem))
          simpa only [seen, Failure.map, List.append_assoc] using later

theorem tallied_respond (depth : Nat) (s : Stimulus) (i : Instance β) (past : List Event)
    (all : i.Admits s → ∀ e ∈ i.failures depth s, raised (seen past e))
    (tallied : c.Tallied raised (i.graph, past)) :
    c.Tallied raised ((i.respond depth s).2.1.graph, past ++ (i.respond depth s).2.2) := by
  cases s with
  | begin =>
      simp only [respond, Instance.begin]
      split
      · simpa using tallied
      · next fresh =>
          exact tallied_conclude hosted depth i.entry { i with started := true } past
            (all (by simpa [Admits] using fresh)) tallied
  | tick delta =>
      simp only [respond, tick]
      split
      · next begun =>
          exact tallied_fire hosted depth _ { i with state := i.state.advance delta } past (all begun)
            tallied
      · simpa using tallied
  | signal spot args =>
      have start : i.wave.told past = (i.graph, past) := by simp [Wave.told, wave]
      exact keeps_propagate hosted depth spot args i.wave
        (fun e mem => all trivial _ (List.mem_map_of_mem mem)) (start ▸ tallied)

theorem tallied_respondAll (calls : List (Nat × Stimulus)) (i : Instance β) (past : List Event)
    (all : ∀ e ∈ i.allFailures calls, raised (seen past e))
    (tallied : c.Tallied raised (i.graph, past)) :
    c.Tallied raised ((i.respondAll calls).1.graph, past ++ (i.respondAll calls).2) := by
  induction calls generalizing i past with
  | nil => simpa [respondAll] using tallied
  | cons call calls ih =>
      obtain ⟨depth, s⟩ := call
      simp only [allFailures, List.mem_append] at all
      have first := tallied_respond hosted depth s i past
        (fun admitted e mem => all e (.inl (by rwa [if_pos admitted]))) tallied
      have rest := ih _ _ (fun e mem => ?_) first
      · simpa only [respondAll, List.append_assoc] using rest
      · have later := all _ (.inr (List.mem_map_of_mem mem))
        simpa only [seen, Failure.map, List.append_assoc] using later

omit hosted

/-- What the record of some calls, the errors raised, and the last graph tell of a counter. -/
structure CountsAll (c : Counter β) (i : Instance β) (calls : List (Nat × Stimulus)) : Prop where
  forwards : ∀ past spot source args rest,
    (i.respondAll calls).2 = past ++ .signal c.key spot source args :: rest →
    Fits (c.start.after (deliveries c.key past + 1)) →
    ∃ v more, v.toInt = c.start.after (deliveries c.key past + 1) ∧
      rest = .send ⟨c.key, 1⟩ (args ++ [.int v]) :: more
  refuses : ∀ past spot source args rest,
    (i.respondAll calls).2 = past ++ .signal c.key spot source args :: rest →
    ¬ Fits (c.start.after (deliveries c.key past + 1)) →
    ∃ e ∈ i.allFailures calls, c.Refusal past (.signal c.key spot source args) (seen [] e)
  /-- From then on all do. -/
  later : ∀ m n, m ≤ n → ¬ Fits (c.start.after m) → ¬ Fits (c.start.after n)
  sends : ∀ past ref args rest, (i.respondAll calls).2 = past ++ .send ref args :: rest →
    ref.node = c.key → ∃ before spot source args',
      past = before ++ [.signal c.key spot source args'] ∧
        Fits (c.start.after (deliveries c.key before + 1))
  keeps : c.At (deliveries c.key (i.respondAll calls).2) (i.respondAll calls).1.graph

/-- A counter loses no update, whatever signals it and whatever happens behind it. -/
theorem counts_every_delivery (hosted : Hosted c.wrap) {i : Instance β} {n : Node}
    (found : i.graph.node? c.key = some n) (named : n.id = c.nodeId)
    (starts : i.graph.behavior? c.key = some (c.wrap (.counter c.start)))
    (calls : List (Nat × Stimulus)) : c.CountsAll i calls := by
  let raised (e : Failure (Graph β × List Event)) : Prop := ∃ f ∈ i.allFailures calls, e = seen [] f
  have start : c.Tallied raised (i.graph, []) :=
    ⟨⟨⟨n, found, named⟩, c.start, starts, c.start.counted_zero⟩, .nil⟩
  obtain ⟨state, tally⟩ := tallied_respondAll hosted calls i [] (fun e mem => ⟨e, mem, rfl⟩) start
  rw [List.nil_append] at state tally
  constructor
  case forwards =>
    intro past spot source args rest split fits
    cases tally.delivery split with
    | forwarded exact more => exact ⟨_, more, exact, rfl⟩
    | refused large => exact absurd fits large
  case refuses =>
    intro past spot source args rest split large
    cases tally.delivery split with
    | forwarded exact more => exact absurd (exact ▸ fits_toInt _) large
    | refused _ mem refusal =>
        obtain ⟨e, listed, rfl⟩ := mem
        exact ⟨e, listed, refusal⟩
  case later => exact fun m n le large fits => large (CounterState.fits_of_le le fits)
  case sends => exact fun past ref args rest split own => tally.sending split own
  case keeps => exact state

/-- An entry that leads to a counter at one less than its limit, which is linked to itself. -/
def brimming : Graph Builtin :=
  let nodes := ((Graph.empty "brimming").addNode "start" "Start" .entry (.entry none)).2.1.addNode
    "count" "Count" .counter (.counter ⟨Int64.maxValue - 1, 1⟩)
  ((nodes.2.1.link ⟨⟨0⟩, 0⟩ ⟨⟨1⟩, 0⟩).2.link ⟨⟨1⟩, 1⟩ ⟨⟨1⟩, 0⟩).2

/-- The second delivery begins while the first one runs, and is refused; so is the third one, of a later
call. The count of the first one stays. -/
theorem brimming_counts :
    let i : Instance Builtin := ⟨⟨0⟩, brimming, .initial, .collector, ⟨0⟩, false, false⟩
    let c : Counter Builtin := ⟨id, ⟨1⟩, "count", ⟨Int64.maxValue - 1, 1⟩⟩
    let calls : List (Nat × Stimulus) := [(4, .begin), (4, .signal ⟨⟨0⟩, 0⟩ [])]
    let args : List Value := [.instanceRef ⟨0⟩]
    let past : List Event := [.begin ⟨0⟩, .send ⟨⟨0⟩, 0⟩ args, .signal ⟨1⟩ 0 ⟨⟨0⟩, 0⟩ args,
      .send ⟨⟨1⟩, 1⟩ (args ++ [.int Int64.maxValue])]
    let second : Event := .signal ⟨1⟩ 0 ⟨⟨1⟩, 1⟩ (args ++ [.int Int64.maxValue])
    (i.respondAll calls).2 = past ++ second :: [.signal ⟨1⟩ 0 ⟨⟨0⟩, 0⟩ []] ∧
      (∃ e ∈ i.allFailures calls, c.Refusal past second (seen [] e)) ∧
      c.At 3 (i.respondAll calls).1.graph ∧ c.start.fitting 3 = 1 := by
  intro i c calls args past second
  have record : (i.respondAll calls).2 = past ++ second :: [.signal ⟨1⟩ 0 ⟨⟨0⟩, 0⟩ []] := by
    decide +kernel
  have found : i.graph.node? ⟨1⟩ = some ⟨"count", "Count", .counter, ⟨1⟩,
      [⟨inDecl, ⟨1⟩, [⟨0⟩, ⟨1⟩]⟩, ⟨outDecl, ⟨1⟩, [⟨1⟩]⟩]⟩ := by
    decide +kernel
  have counts : c.CountsAll i calls :=
    counts_every_delivery hosted_id found rfl (by decide +kernel) calls
  have three : deliveries ⟨1⟩ (i.respondAll calls).2 = 3 := by
    rw [record]
    decide
  exact ⟨record, counts.refuses past 0 _ _ _ record (by decide +kernel), three ▸ counts.keeps,
    by decide +kernel⟩

end Counter
end SignalGraph
