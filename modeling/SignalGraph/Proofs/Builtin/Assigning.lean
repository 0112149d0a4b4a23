import Mathlib.Data.List.Induction
import SignalGraph.Proofs.Builtin.Declared
import SignalGraph.Proofs.Wave.Watching

/-!
What runs of library nodes leave in the state of an instance: the variables that the record tells of,
assigned one after the other, and nothing else. It also holds of runs that fail and of runs that are cut
off. What a counter has counted by then is left out.
-/

namespace SignalGraph

variable {β : Type}

def Event.begun? : Event → Option NodeKey
  | .begin key => some key
  | _ => none

namespace Builtin

/-- A behavior as far as no run changes it. -/
def lasting : Builtin → Builtin
  | entry _ => entry none
  | counter s => counter ⟨0, s.step⟩
  | b => b

def assignment? : Builtin → List Value → Option (String × Value)
  | setVariable name, args => if name.isEmpty then none else args.getLast?.map fun v => (name, v)
  | _, _ => none

theorem assignment?_lasting (b : Builtin) (args : List Value) :
    b.lasting.assignment? args = b.assignment? args := by
  cases b <;> rfl

theorem type_lasting (b : Builtin) : b.lasting.type = b.type := by
  cases b <;> rfl

end Builtin

/-- The assignments that a record tells of, by what the nodes are. -/
def assignments (own : NodeKey → Builtin) (events : List Event) : List (String × Value) :=
  events.filterMap fun
    | .signal key _ _ args => (own key).assignment? args
    | _ => none

theorem assignments_append (own : NodeKey → Builtin) (events later : List Event) :
    assignments own (events ++ later) = assignments own events ++ assignments own later :=
  List.filterMap_append

namespace InstanceState

def assignAll (s : InstanceState) (as : List (String × Value)) : InstanceState :=
  as.foldl (fun s a => s.setVariable a.1 a.2) s

theorem assignAll_append (s : InstanceState) (as more : List (String × Value)) :
    s.assignAll (as ++ more) = (s.assignAll as).assignAll more :=
  List.foldl_append

theorem assignAll_eq (s : InstanceState) (as : List (String × Value)) :
    s.assignAll as = { s with bindings := (s.assignAll as).bindings } := by
  induction as generalizing s with
  | nil => rfl
  | cons a as ih =>
      have rest := ih (s.setVariable a.1 a.2)
      rw [assignAll, List.foldl_cons]
      exact rest

theorem names_assign (name : String) (value : Value) (bindings : List (String × Value)) :
    (assign name value bindings).map (·.1) =
      bindings.map (·.1) ++ [name].removeAll (bindings.map (·.1)) := by
  induction bindings with
  | nil => rfl
  | cons a bindings ih =>
      rw [assign]
      split
      · next same => simp [List.removeAll, same]
      · next apart =>
          have skipped : [name].removeAll (a.1 :: bindings.map (·.1)) =
              [name].removeAll (bindings.map (·.1)) := by
            simp only [List.removeAll, List.filter_cons, List.filter_nil, List.elem_cons,
              beq_false_of_ne (Ne.symm apart)]
          rw [List.map_cons, ih, List.map_cons, skipped, List.cons_append]

theorem lookup_cons_eq_ite (a : String × Value) (bindings : List (String × Value)) (name : String) :
    (a :: bindings).lookup name = if name = a.1 then some a.2 else bindings.lookup name := by
  by_cases here : name = a.1
  · rw [if_pos here, here, List.lookup_cons_self]
  · rw [if_neg here, List.lookup_cons, beq_false_of_ne here]

theorem lookup_assign (name other : String) (value : Value) (bindings : List (String × Value)) :
    (assign name value bindings).lookup other =
      if other = name then some value else bindings.lookup other := by
  induction bindings with
  | nil => exact lookup_cons_eq_ite (name, value) [] other
  | cons a bindings ih =>
      rw [assign]
      split
      · next here =>
          subst here
          simp only [lookup_cons_eq_ite]
          split <;> rfl
      · next apart =>
          simp only [lookup_cons_eq_ite, ih]
          split
          · next first => rw [if_neg (by rw [first]; exact apart)]
          · rfl

theorem names_assignAll (s : InstanceState) (as : List (String × Value)) (fresh : s.bindings = []) :
    (s.assignAll as).bindings.map (·.1) = (as.map (·.1)).eraseDups := by
  induction as using List.reverseRecOn with
  | nil => rw [assignAll, List.foldl_nil, fresh]; rfl
  | append_singleton as a ih =>
      have known : [a.1].removeAll (as.map (·.1)).eraseDups = [a.1].removeAll (as.map (·.1)) := by
        simp only [List.removeAll, List.elem_eq_mem, List.mem_eraseDups]
      have one : ([a.1].removeAll (as.map (·.1))).eraseDups = [a.1].removeAll (as.map (·.1)) := by
        simp only [List.removeAll, List.filter_cons, List.filter_nil]
        split <;> rfl
      rw [assignAll_append, List.map_append, List.map_singleton, List.eraseDups_append, ← ih, one]
      change (assign a.1 a.2 (s.assignAll as).bindings).map (·.1) = _
      rw [names_assign, ih, known]

theorem lookup_assignAll (s : InstanceState) (as : List (String × Value)) (name : String) :
    (s.assignAll as).bindings.lookup name = (as.reverse.lookup name).or (s.bindings.lookup name) := by
  induction as using List.reverseRecOn with
  | nil => rfl
  | append_singleton as a ih =>
      rw [assignAll_append, List.reverse_append, List.reverse_singleton, List.singleton_append]
      change (assign a.1 a.2 (s.assignAll as).bindings).lookup name = _
      rw [lookup_assign, ih, lookup_cons_eq_ite]
      split <;> rfl

end InstanceState

/-- Every node behaves as the library node that it was made as, as far as runs do not change that. -/
def Graph.Lasts (wrap : Builtin → β) (own : NodeKey → Builtin) (g : Graph β) : Prop :=
  ∀ key b, g.behavior? key = some b → ∃ c : Builtin, b = wrap c ∧ c.lasting = (own key).lasting

theorem Graph.Lasts.setBehavior {wrap : Builtin → β} {own : NodeKey → Builtin} {g : Graph β}
    (lasts : g.Lasts wrap own) {key : NodeKey} {c : Builtin} (same : c.lasting = (own key).lasting) :
    (g.setBehavior key (wrap c)).Lasts wrap own := by
  intro k b found
  rw [Graph.behavior?_setBehavior] at found
  split at found
  · next here =>
      subst here
      obtain ⟨_, _, rfl⟩ := Option.map_eq_some_iff.mp found
      exact ⟨c, rfl, same⟩
  · exact lasts k b found

theorem Graph.Carries.lasts {wrap : Builtin → β} {own : NodeKey → Builtin} {g : Graph β}
    (carries : g.Carries wrap own) : g.Lasts wrap own := by
  intro key b found
  obtain ⟨s, at_key, rfl⟩ := Option.map_eq_some_iff.mp found
  exact ⟨own key, (carries key s at_key).1, rfl⟩

theorem Graph.Lasts.exists_carries {wrap : Builtin → β} {own : NodeKey → Builtin} {g h : Graph β}
    (lasts : h.Lasts wrap own) (carries : g.Carries wrap own) (same : h.shape = g.shape) :
    ∃ own', h.Carries wrap own' ∧ ∀ key, (own' key).lasting = (own key).lasting := by
  have each (key : NodeKey) : ∃ c : Builtin, c.lasting = (own key).lasting ∧
      ∀ b, h.behavior? key = some b → b = wrap c := by
    cases found : h.behavior? key with
    | none => exact ⟨own key, rfl, by simp⟩
    | some b =>
        obtain ⟨c, rfl, same⟩ := lasts key b found
        exact ⟨c, same, by simp⟩
  choose own' kept wrapped using each
  refine ⟨own', ?_, kept⟩
  intro key s found
  refine ⟨wrapped key s.behavior (by rw [behavior?, found]; rfl), ?_⟩
  have node : g.node? key = some s.node := by
    rw [← node?_eq_of_shape same, node?, found]
    rfl
  obtain ⟨t, at_key, typed⟩ := Option.map_eq_some_iff.mp node
  rw [← typed, (carries key t at_key).2, ← Builtin.type_lasting, ← kept, Builtin.type_lasting]

/-! ### Waves -/

namespace Wave

variable {wrap : Builtin → β} {own : NodeKey → Builtin} {u v w : Wave β} {begun more : List NodeKey}

/-- From one moment of a wave to a later one, some nodes begin, and the variables are assigned that the
record tells of. -/
structure Assigns (wrap : Builtin → β) (own : NodeKey → Builtin) (begun : List NodeKey)
    (w v : Wave β) : Prop where
  lasts : v.graph.Lasts wrap own
  grows : ∃ later, v.record.toList = w.record.toList ++ later ∧
    v.state = w.state.assignAll (assignments own later) ∧ later.filterMap Event.begun? = begun

namespace Assigns

theorem of_eq (lasts : v.graph.Lasts wrap own) (record : v.record = w.record)
    (state : v.state = w.state) : Assigns wrap own [] w v :=
  ⟨lasts, [], by rw [record, List.append_nil], state, rfl⟩

theorem trans (first : Assigns wrap own begun u v) (second : Assigns wrap own more v w) :
    Assigns wrap own (begun ++ more) u w := by
  obtain ⟨early, grown, state, began⟩ := first.grows
  obtain ⟨late, grown', state', began'⟩ := second.grows
  refine ⟨second.lasts, early ++ late, by rw [grown', grown, List.append_assoc], ?_, ?_⟩
  · rw [state', state, assignments_append, InstanceState.assignAll_append]
  · rw [List.filterMap_append, began, began']

theorem push (w : Wave β) (lasts : w.graph.Lasts wrap own) (e : Event) (other : e.isSignal = false) :
    Assigns wrap own e.begun?.toList w (w.push e) := by
  refine ⟨lasts, [e], by simp [Wave.push], ?_, by cases h : e.begun? <;> simp [h]⟩
  cases e with
  | signal => cases other
  | _ => rfl

end Assigns

def Assigning (wrap : Builtin → β) (own : NodeKey → Builtin) (send : Send β) : Prop :=
  ∀ source args w, w.graph.Lasts wrap own → Assigns wrap own [] w (send source args w).2

end Wave

open Wave

namespace Builtin

variable {wrap : Builtin → β} {own : NodeKey → Builtin} {send : Send β} {w : Wave β}

theorem work_assigns {self : NodeKey} {b : Builtin} (same : b.lasting = (own self).lasting)
    (lasts : w.graph.Lasts wrap own) (spot : Nat) (source : SpotRef) (args : List Value) :
    let called := w.push (.signal self spot source args)
    (∃ cause, b.work wrap self args called = .error cause ∧ Assigns wrap own [] w called) ∨
      ∃ v out, b.work wrap self args called = .ok (v, out) ∧ Assigns wrap own [] w v := by
  intro called
  have named : (own self).assignment? args = b.assignment? args := by
    rw [← assignment?_lasting, ← same, assignment?_lasting]
  have signalled (s : InstanceState)
      (assigned : w.state.assignAll (b.assignment? args).toList = s) :
      Assigns wrap own [] w { called with state := s } := by
    refine ⟨lasts, [.signal self spot source args], by simp [called, Wave.push], ?_, rfl⟩
    have one : assignments own [.signal self spot source args] = ((own self).assignment? args).toList := by
      cases given : (own self).assignment? args <;> simp [assignments, given]
    rw [one, named, assigned]
  cases b with
  | entry _ | update | deltaTime => exact .inr ⟨called, _, rfl, signalled w.state rfl⟩
  | console =>
      exact .inr ⟨_, args, rfl, (signalled w.state rfl).trans
        (.push called lasts (.log .info (called.tagOf self) (Value.listText args)) rfl)⟩
  | counter s =>
      cases sum : checkedAdd s.count s.step with
      | none => exact .inl ⟨_, by simp only [work, sum]; rfl, signalled w.state rfl⟩
      | some count =>
          have next : (called.graph.setBehavior self (wrap (counter { s with count }))).Lasts wrap own :=
            lasts.setBehavior same
          exact .inr ⟨{ called with graph := called.graph.setBehavior self _ }, _,
            by simp only [work, sum]; rfl, (signalled w.state rfl).trans (.of_eq next rfl rfl)⟩
  | setVariable name =>
      by_cases unset : name.isEmpty
      · refine .inl ⟨_, by simp only [work, if_pos unset]; rfl, signalled w.state ?_⟩
        simp only [assignment?, if_pos unset]
        rfl
      cases last : args.getLast? with
      | none =>
          refine .inl ⟨_, by simp only [work, if_neg unset, last]; rfl, signalled w.state ?_⟩
          simp only [assignment?, if_neg unset, last]
          rfl
      | some value =>
          refine .inr ⟨_, _, by simp only [work, if_neg unset, last]; rfl, signalled _ ?_⟩
          simp only [assignment?, if_neg unset, last]
          rfl

theorem onSignal_assigns (assigning : Assigning wrap own send) {self : NodeKey} {b : Builtin}
    (same : b.lasting = (own self).lasting) (lasts : w.graph.Lasts wrap own) (spot : Nat)
    (source : SpotRef) (args : List Value) :
    Assigns wrap own [] w ((b.onSignal wrap args).run send self (some source)
      (w.push (.signal self spot source args))).2 := by
  rw [run_onSignal]
  obtain ⟨cause, failed, assigns⟩ | ⟨v, _ | args', done, assigns⟩ :=
    work_assigns same lasts spot source args
  · rw [failed]
    exact assigns
  · rw [done]
    exact assigns
  · rw [done]
    exact (assigns.trans (.push v assigns.lasts (.send ⟨self, 1⟩ args') rfl)).trans
      (assigning _ _ _ assigns.lasts)

theorem onBegin_assigns (assigning : Assigning wrap own send) {self : NodeKey} {b : Builtin}
    (same : b.lasting = (own self).lasting) (lasts : w.graph.Lasts wrap own) :
    Assigns wrap own [self] w ((b.onBegin wrap).run send self none (w.push (.begin self))).2 := by
  have began : Assigns wrap own [self] w (w.push (.begin self)) := .push w lasts (.begin self) rfl
  cases b with
  | entry begunBy =>
      rw [run_onBegin_entry]
      have become : Assigns wrap own [] (w.push (.begin self)) { w.push (.begin self) with
          graph := w.graph.setBehavior self (wrap (entry (some w.instanceId))) } :=
        .of_eq (lasts.setBehavior same) rfl rfl
      have sends := (began.trans become).trans
        (.push _ become.lasts (.send ⟨self, 0⟩ [.instanceRef w.instanceId]) rfl)
      exact sends.trans (assigning _ _ _ sends.lasts)
  | update =>
      have sends := began.trans (.push _ began.lasts
        (.send ⟨self, 0⟩ [.instanceRef w.instanceId, .float w.state.deltaTime]) rfl)
      simp only [onBegin, Reaction.run, run_forward]
      exact sends.trans (assigning _ _ _ sends.lasts)
  | deltaTime | console | counter s | setVariable name => exact began

end Builtin

/-! ### Whole waves -/

namespace Wave

variable [Behavior β] {wrap : Builtin → β} {own : NodeKey → Builtin}

theorem deliver_assigns (hosted : Builtin.Hosted wrap) {send : Send β}
    (assigning : Assigning wrap own send) (source : SpotRef) (args : List Value) (id : LinkId)
    (w : Wave β) (lasts : w.graph.Lasts wrap own) :
    Assigns wrap own [] w (deliver send source args id w).2 := by
  simp only [deliver]
  split
  · exact .of_eq lasts rfl rfl
  split
  · exact .of_eq lasts rfl rfl
  next target _ =>
  split
  · exact .of_eq lasts rfl rfl
  next v crossed =>
  have start : Assigns wrap own [] w v := by
    rw [eq_of_cross crossed]
    exact .of_eq lasts rfl rfl
  split
  · exact start
  next b found =>
  obtain ⟨c, rfl, same⟩ := start.lasts target.node b (Graph.behavior_eq_ok_iff.mp found)
  rw [hosted.onSignal]
  exact start.trans (Builtin.onSignal_assigns assigning same start.lasts target.index source args)

theorem deliverAll_assigns (hosted : Builtin.Hosted wrap) {send : Send β}
    (assigning : Assigning wrap own send) (source : SpotRef) (args : List Value)
    (ids : List LinkId) (w : Wave β) (lasts : w.graph.Lasts wrap own) :
    Assigns wrap own [] w (deliverAll send source args ids w).2 := by
  induction ids generalizing w with
  | nil => exact .of_eq lasts rfl rfl
  | cons id ids ih =>
      have first := deliver_assigns hosted assigning source args id w lasts
      simp only [deliverAll]
      split
      · next v delivered =>
          rw [delivered] at first
          exact first.trans (ih v first.lasts)
      · exact first

theorem propagate_assigning (hosted : Builtin.Hosted wrap) (depth : Nat) :
    Assigning wrap own (propagate (β := β) depth) := by
  induction depth with
  | zero => exact fun _ _ w lasts => .of_eq lasts rfl rfl
  | succ depth ih =>
      intro source args w lasts
      simp only [propagate]
      split
      · exact .of_eq lasts rfl rfl
      · exact deliverAll_assigns hosted ih source args _ w lasts

theorem begin_assigns (hosted : Builtin.Hosted wrap) (depth : Nat) (key : NodeKey) (w : Wave β)
    (lasts : w.graph.Lasts wrap own) :
    ∃ begun, begun.Sublist [key] ∧ Assigns wrap own begun w (w.begin depth key).2 := by
  simp only [begin]
  split
  · exact ⟨[], List.nil_sublist _, .of_eq lasts rfl rfl⟩
  next b found =>
  obtain ⟨c, rfl, same⟩ := lasts key b (Graph.behavior_eq_ok_iff.mp found)
  rw [hosted.onBegin]
  exact ⟨[key], .refl _,
    Builtin.onBegin_assigns (propagate_assigning hosted depth) same lasts⟩

end Wave

/-! ### Calls -/

namespace Instance

variable {wrap : Builtin → β} {own : NodeKey → Builtin} {i : Instance β} {begun more : List NodeKey}

structure Assigns (wrap : Builtin → β) (own : NodeKey → Builtin) (begun : List NodeKey)
    (i : Instance β) (c : Call β) : Prop where
  lasts : c.2.1.graph.Lasts wrap own
  leaves : c.2.1 = { i with
    graph := c.2.1.graph, state := i.state.assignAll (assignments own c.2.2) }
  begins : c.2.2.filterMap Event.begun? = begun

theorem Assigns.idle (lasts : i.graph.Lasts wrap own) (result : Option (Except RunError Unit)) :
    Assigns wrap own [] i (result, i, []) :=
  ⟨lasts, rfl, rfl⟩

theorem conclude_assigns {p : Progress β} (assigns : Wave.Assigns wrap own begun i.wave p.2) :
    Assigns wrap own begun i (i.conclude p) := by
  obtain ⟨lasts, later, grown, state, began⟩ := assigns
  have record : p.2.record.toList = later := by simpa [wave] using grown
  refine ⟨lasts, ?_, ?_⟩
  · simp only [conclude, settle, record, state, wave]
  · simpa only [conclude, record] using began

theorem Assigns.andThen {c : Call β} {next : Instance β → Call β} {all : List NodeKey}
    (first : Assigns wrap own begun i c)
    (goes : ∀ j, j.graph.Lasts wrap own → ∃ more, more.Sublist all ∧ Assigns wrap own more j (next j)) :
    ∃ more, more.Sublist all ∧ Assigns wrap own (begun ++ more) i (andThen c next) := by
  obtain ⟨_ | _ | u, j, events⟩ := c
  · exact ⟨[], List.nil_sublist _, (List.append_nil begun).symm ▸ first⟩
  · exact ⟨[], List.nil_sublist _, (List.append_nil begun).symm ▸ first⟩
  obtain ⟨lasts, leaves, begins⟩ := first
  obtain ⟨k, rfl⟩ : ∃ k, j = { i with
      graph := k, state := i.state.assignAll (assignments own events) } := ⟨j.graph, leaves⟩
  obtain ⟨more, sub, lasts', leaves', begins'⟩ := goes _ lasts
  refine ⟨more, sub, lasts', ?_, ?_⟩
  · simp only [Instance.andThen, assignments_append, InstanceState.assignAll_append]
    exact leaves'
  · simp only [Instance.andThen, List.filterMap_append]
    exact congrArg₂ _ begins begins'

/-- The instance as the waves of a call find it. -/
def struck (i : Instance β) : Stimulus → Instance β
  | .begin => { i with started := true }
  | .tick delta => if i.started then { i with state := i.state.advance delta } else i
  | .signal _ _ => i

theorem struck_eq (i : Instance β) (s : Stimulus) :
    ∃ state started, i.struck s = { i with state := state, started := started } := by
  cases s with
  | begin => exact ⟨i.state, true, rfl⟩
  | tick delta =>
      rw [struck]
      split
      · exact ⟨i.state.advance delta, i.started, rfl⟩
      · exact ⟨i.state, i.started, rfl⟩
  | signal => exact ⟨i.state, i.started, rfl⟩

/-- The nodes that a call lets begin, if nothing fails. -/
def starters (i : Instance β) : Stimulus → List NodeKey
  | .begin => if i.started then [] else [i.entry]
  | .tick _ => i.graph.keysOfType .update
  | .signal _ _ => []

variable [Behavior β]

theorem fire_assigns (hosted : Builtin.Hosted wrap) (depth : Nat) (keys : List NodeKey)
    (i : Instance β) (lasts : i.graph.Lasts wrap own) :
    ∃ begun, begun.Sublist keys ∧ Assigns wrap own begun i (i.fire depth keys) := by
  induction keys generalizing i with
  | nil => exact ⟨[], .refl _, .idle lasts _⟩
  | cons key keys ih =>
      obtain ⟨begun, sub, first⟩ := Wave.begin_assigns hosted depth key i.wave lasts
      obtain ⟨more, sub', assigns⟩ := (conclude_assigns first).andThen (ih : ∀ j, j.graph.Lasts wrap own → ∃ more,
        more.Sublist keys ∧ Assigns wrap own more j (fire depth keys j))
      exact ⟨begun ++ more, List.Sublist.append sub sub', assigns⟩

theorem respond_assigns (hosted : Builtin.Hosted wrap) (depth : Nat) (s : Stimulus) (i : Instance β)
    (lasts : i.graph.Lasts wrap own) : ∃ begun, begun.Sublist (i.starters s) ∧
      Assigns wrap own begun (i.struck s) (i.respond depth s) := by
  cases s with
  | begin =>
      cases started : i.started with
      | true =>
          have same : i.struck .begin = i := by
            rw [struck, ← started]
          simp only [respond, Instance.begin, started, if_true, same]
          exact ⟨[], List.nil_sublist _, .idle lasts _⟩
      | false =>
          simp only [respond, Instance.begin, starters, started, Bool.false_eq_true, if_false]
          obtain ⟨begun, sub, first⟩ := Wave.begin_assigns hosted depth i.entry
            ({ i with started := true } : Instance β).wave lasts
          exact ⟨begun, sub, conclude_assigns first⟩
  | tick delta =>
      cases started : i.started with
      | true =>
          simp only [respond, tick, struck, starters, started, if_true]
          exact fire_assigns hosted depth _
            { i with state := i.state.advance delta, started := true } lasts
      | false =>
          simp only [respond, tick, struck, started, Bool.false_eq_true, if_false]
          exact ⟨[], List.nil_sublist _, .idle lasts _⟩
  | signal spot args =>
      exact ⟨[], .refl _,
        conclude_assigns (Wave.propagate_assigning hosted depth spot args i.wave lasts)⟩

end Instance

end SignalGraph
