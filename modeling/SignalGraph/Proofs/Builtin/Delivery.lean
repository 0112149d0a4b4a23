import Mathlib.Algebra.Group.Int.Defs
import Mathlib.Data.List.Forall2
import SignalGraph.Proofs.Builtin.Declared
import SignalGraph.Proofs.Graph.Walks

/-!
One delivery in a graph of library nodes without the cycle guard. What a call carries and what a counter
counts are functions of the walks delivered so far; `Trace` says that a wave agrees with them, and one
delivery takes it from some walks to one walk more. Nothing here says in which order walks are delivered.
-/

namespace SignalGraph

open Builtin

variable {β : Type} {wrap : Builtin → β}

/-- What a counter has counted to after some visits, if it does not overflow. -/
def CounterState.after (s : CounterState) (visits : Nat) : Int :=
  s.count.toInt + visits * s.step.toInt

def Fits (n : Int) : Prop := Int64.minValue.toInt ≤ n ∧ n ≤ Int64.maxValue.toInt

instance (n : Int) : Decidable (Fits n) := inferInstanceAs (Decidable (_ ∧ _))

theorem fits_iff {n : Int} : Fits n ↔ -2 ^ 63 ≤ n ∧ n < 2 ^ 63 := by
  rw [Fits, Int64.toInt_minValue, Int64.toInt_maxValue]
  omega

theorem toInt_ofInt_of_fits {n : Int} (fits : Fits n) : (Int64.ofInt n).toInt = n :=
  Int64.toInt_ofInt_of_le (fits_iff.mp fits).1 (fits_iff.mp fits).2

theorem CounterState.after_succ (s : CounterState) (n : Nat) :
    s.after (n + 1) = s.after n + s.step.toInt := by
  simp only [after, Int.natCast_add, Int.natCast_one, Int.add_mul, Int.one_mul]
  omega

theorem CounterState.fits_after {s : CounterState} {n : Nat} (fits : Fits (s.after (n + 1))) :
    Fits (s.after n) := by
  have low := s.count.le_toInt
  have high := s.count.toInt_lt
  have whole : s.after n = s.count.toInt + n * s.step.toInt := rfl
  rw [fits_iff, after_succ] at fits
  rw [fits_iff]
  obtain up | down := Int.le_total 0 s.step.toInt
  · have : 0 ≤ (n : Int) * s.step.toInt := Int.mul_nonneg (Int.natCast_nonneg n) up
    omega
  · have : (n : Int) * s.step.toInt ≤ 0 :=
      Int.mul_nonpos_of_nonneg_of_nonpos (Int.natCast_nonneg n) down
    omega

theorem checkedAdd_eq_of_fits {s : CounterState} {n : Nat} (fits : Fits (s.after (n + 1))) :
    checkedAdd (Int64.ofInt (s.after n)) s.step = some (Int64.ofInt (s.after (n + 1))) := by
  rw [checkedAdd, toInt_ofInt_of_fits (CounterState.fits_after fits), ← s.after_succ]
  exact if_pos fits

namespace Builtin

/-- A node after some visits. -/
def after : Builtin → (visits : Nat) → Builtin
  | counter s, visits => counter { s with count := Int64.ofInt (s.after visits) }
  | b, _ => b

@[simp]
theorem after_zero (b : Builtin) : b.after 0 = b := by
  cases b with
  | counter s => simp [after, CounterState.after]
  | entry _ | update | deltaTime | console | setVariable _ => rfl

end Builtin

def Hop.end? (p : List Hop) : Option NodeKey := p.getLast?.map (·.target.node)

@[simp]
theorem Hop.end?_concat (p : List Hop) (h : Hop) : end? (p ++ [h]) = some h.target.node := by
  simp [end?]

/-- The deliveries of a run and what they depend on: which node is where at the start, the instance,
the length of the tick, and the walks in the order of their delivery. -/
structure Course where
  own : NodeKey → Builtin
  instanceId : InstanceId
  delta : Binary32
  walks : List (List Hop)

namespace Course

def visits (done : List (List Hop)) (key : NodeKey) : Nat :=
  done.countP fun p => Hop.end? p = some key

variable (c : Course)

def upTo (p : List Hop) : List (List Hop) := c.walks.take (c.walks.idxOf p + 1)

def contribution (p : List Hop) : Option Value :=
  match Hop.end? p with
  | none => none
  | some key =>
    match c.own key with
    | .deltaTime => some (.float c.delta)
    | .counter s => some (.int (Int64.ofInt (s.after (visits (c.upTo p) key))))
    | _ => none

/-- The arguments that leave the end of a walk: the instance, and what every node on the walk added,
in the order of the walk. -/
def carried (p : List Hop) : List Value :=
  .instanceRef c.instanceId ::
    (List.range p.length).filterMap fun n => c.contribution (p.take (n + 1))

/-- The call that a walk leads to. Its arguments are those that left the node before the last. -/
def IsCall (p : List Hop) (call : Event) : Prop :=
  ∃ q h, p = q ++ [h] ∧ call = .signal h.target.node h.target.index h.source (c.carried q)

def proceeds (p : List Hop) : Bool :=
  match Hop.end? p with
  | none => true
  | some key =>
    match c.own key with
    | .counter s => Fits (s.after (visits (c.upTo p) key))
    | .setVariable name => name ≠ ""
    | _ => true

theorem carried_concat (p : List Hop) (h : Hop) :
    c.carried (p ++ [h]) = c.carried p ++ (c.contribution (p ++ [h])).toList := by
  have before : (List.range p.length).filterMap (fun n => c.contribution ((p ++ [h]).take (n + 1))) =
      (List.range p.length).filterMap fun n => c.contribution (p.take (n + 1)) := by
    refine List.filterMap_congr ?_
    intro n mem
    rw [List.take_append_of_le_length (List.mem_range.mp mem)]
  have whole : (p ++ [h]).take (p.length + 1) = p ++ [h] := List.take_of_length_le (by simp)
  rw [carried, List.length_append, List.length_singleton, List.range_succ, List.filterMap_append,
    before, carried, List.cons_append]
  simp only [List.filterMap_cons, List.filterMap_nil, whole]
  cases c.contribution (p ++ [h]) <;> rfl

theorem visits_concat (done : List (List Hop)) (p : List Hop) (h : Hop) (key : NodeKey) :
    visits (done ++ [p ++ [h]]) key =
      if key = h.target.node then visits done key + 1 else visits done key := by
  rw [visits, List.countP_append, List.countP_singleton, Hop.end?_concat]
  by_cases here : key = h.target.node
  · simp [here, visits]
  · simp [here, Ne.symm here, visits]

variable {c}

theorem upTo_eq {done : List (List Hop)} {p : List Hop} (nodup : c.walks.Nodup)
    (next : done ++ [p] <+: c.walks) : c.upTo p = done ++ [p] := by
  obtain ⟨rest, whole⟩ := next
  have new : p ∉ done := by
    rw [← whole, List.append_assoc] at nodup
    intro old
    exact (List.nodup_append.mp nodup).2.2 p old p (by simp) rfl
  have place : c.walks.idxOf p = done.length := by
    rw [← whole, List.append_assoc, List.idxOf_append_of_notMem new]
    simp
  rw [upTo, place, ← whole]
  exact List.take_left' (by simp)

/-! ### Agreement of a wave with its deliveries -/

/-- A wave on the graph `g` that has made the calls of the given walks, and no others. -/
structure Trace (c : Course) (wrap : Builtin → β) (g : Graph β) (done : List (List Hop))
    (w : Wave β) : Prop where
  shape : w.graph.shape = g.shape
  crossed : w.crossed = none
  delta : w.state.deltaTime = c.delta
  behavior : ∀ key n, g.node? key = some n → (c.own key).spots = [inDecl, outDecl] →
    w.graph.behavior? key = some (wrap ((c.own key).after (visits done key)))
  calls : List.Forall₂ c.IsCall done w.calls

theorem Trace.push {g : Graph β} {done : List (List Hop)} {w : Wave β}
    (trace : c.Trace wrap g done w) {e : Event} (other : e.isSignal = false) :
    c.Trace wrap g done (w.push e) where
  shape := trace.shape
  crossed := trace.crossed
  delta := trace.delta
  behavior := trace.behavior
  calls := by
    rw [Wave.calls_push_of_not_signal other]
    exact trace.calls

theorem work_eq {done : List (List Hop)} {p : List Hop} {h : Hop} {w : Wave β}
    (upTo : c.upTo (p ++ [h]) = done ++ [p ++ [h]]) (delta : w.state.deltaTime = c.delta)
    (spots : (c.own h.target.node).spots = [inDecl, outDecl])
    (proceeds : c.proceeds (p ++ [h])) :
    ∃ v, ((c.own h.target.node).after (visits done h.target.node)).work wrap h.target.node
        (c.carried p) w = .ok (v, some (c.carried (p ++ [h]))) ∧
      v.calls = w.calls ∧ v.crossed = w.crossed ∧ v.state.deltaTime = w.state.deltaTime ∧
      (v.graph = w.graph ∧ (∀ n, (c.own h.target.node).after n = c.own h.target.node) ∨
        v.graph = w.graph.setBehavior h.target.node
          (wrap ((c.own h.target.node).after (visits done h.target.node + 1)))) := by
  have visited : visits (c.upTo (p ++ [h])) h.target.node = visits done h.target.node + 1 := by
    rw [upTo, visits_concat, if_pos rfl]
  have fine := proceeds
  rw [Course.proceeds, Hop.end?_concat] at fine
  rw [carried_concat, contribution, Hop.end?_concat]
  cases own : c.own h.target.node with
  | entry _ | update => simp [own, Builtin.spots] at spots
  | deltaTime =>
      refine ⟨w, ?_, rfl, rfl, rfl, .inl ⟨rfl, fun _ => rfl⟩⟩
      simp [own, after, work, delta]
  | console =>
      refine ⟨w.push (.log .info (w.tagOf h.target.node) (Value.listText (c.carried p))), ?_,
        Wave.calls_push_of_not_signal rfl, rfl, rfl, .inl ⟨rfl, fun _ => rfl⟩⟩
      simp [after, work, own]
  | counter s =>
      simp only [own, visited, decide_eq_true_iff] at fine
      let count := Int64.ofInt (s.after (visits done h.target.node + 1))
      refine ⟨{ w with graph := w.graph.setBehavior h.target.node (wrap (counter { s with count })) },
        ?_, rfl, rfl, rfl, .inr rfl⟩
      simp only [after, work, own, checkedAdd_eq_of_fits fine, visited, Option.toList_some, count]
  | setVariable name =>
      simp only [own, decide_eq_true_iff] at fine
      have carries : (c.carried p).getLast? ≠ none := by simp [carried]
      obtain ⟨value, last⟩ := Option.ne_none_iff_exists'.mp carries
      refine ⟨{ w with state := w.state.setVariable name value }, ?_, rfl, rfl, rfl,
        .inl ⟨rfl, fun _ => rfl⟩⟩
      simp [after, work, own, fine, last]

variable [Behavior β]

theorem deliver_eq (hosted : Hosted wrap) {g : Graph β} (legal : g.Legal)
    (nodup : c.walks.Nodup) {done : List (List Hop)} {w : Wave β} (trace : c.Trace wrap g done w)
    {p : List Hop} {h : Hop} (hop : g.IsHop h)
    (spots : (c.own h.target.node).spots = [inDecl, outDecl])
    (next : done ++ [p ++ [h]] <+: c.walks) (proceeds : c.proceeds (p ++ [h])) (send : Send β) :
    ∃ v, Wave.deliver send h.source (c.carried p) h.link w =
        send ⟨h.target.node, 1⟩ (c.carried (p ++ [h])) v ∧
      c.Trace wrap g (done ++ [p ++ [h]]) v := by
  obtain ⟨l, live, far⟩ := Graph.farEnd_of_isHop legal hop
  obtain ⟨t, into, _⟩ := hop.into
  obtain ⟨n, at_target, _⟩ := Graph.spot?_eq_some_iff.mp into
  have still : w.graph.link? h.link = some l := by
    rw [Graph.link?, Graph.links_eq_of_shape trace.shape]
    exact live
  have crossing : w.cross h.link h.source h.target = .ok w := by
    simp only [Wave.cross, trace.crossed]
  have found := Graph.behavior_eq_ok_iff.mpr (trace.behavior h.target.node n at_target spots)
  let call := Event.signal h.target.node h.target.index h.source (c.carried p)
  obtain ⟨v, worked, calls, crossed, delta, graph⟩ :=
    work_eq (w := w.push call) (upTo_eq nodup next) trace.delta spots proceeds
  refine ⟨v.push (.send ⟨h.target.node, 1⟩ (c.carried (p ++ [h]))), ?_, Trace.push ?_ rfl⟩
  · simp only [Wave.deliver, still, far, crossing, found, hosted.onSignal]
    rw [run_onSignal, worked]
  constructor
  case shape =>
    obtain ⟨same, _⟩ | same := graph
    · rw [same]
      exact trace.shape
    · rw [same, Graph.shape_setBehavior]
      exact trace.shape
  case crossed => exact crossed.trans trace.crossed
  case delta => exact delta.trans trace.delta
  case behavior =>
    intro key m at_key spots_key
    have before := trace.behavior key m at_key spots_key
    rw [visits_concat]
    by_cases here : key = h.target.node
    · subst here
      rw [if_pos rfl]
      obtain ⟨same, constant⟩ | same := graph
      · rw [same, constant, ← constant (visits done h.target.node)]
        exact before
      · rw [same, Graph.behavior?_setBehavior, if_pos rfl]
        change (w.graph.behavior? _).map _ = _
        rw [before]
        rfl
    · rw [if_neg here]
      obtain ⟨same, _⟩ | same := graph
      · rw [same]
        exact before
      · rw [same, Graph.behavior?_setBehavior, if_neg here]
        exact before
  case calls =>
    rw [calls, Wave.calls_push_signal]
    exact List.rel_append trace.calls (.cons ⟨p, h, rfl, rfl⟩ .nil)

end Course
end SignalGraph
