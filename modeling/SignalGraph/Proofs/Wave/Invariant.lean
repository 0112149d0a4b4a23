import SignalGraph.Instance
import SignalGraph.Proofs.Graph.View

/-!
What single steps of a wave keep, whole waves keep. The steps are the ones that a reaction can take,
the crossing of a link and the call that follows it; `Wave.Invariant` asks for each of them once, and
the induction over reactions, link lists and depth is made here for all invariants.
-/

namespace SignalGraph

variable {β : Type}

def Event.isSignal : Event → Bool
  | .signal .. => true
  | _ => false

/-- Every behavior that a reaction takes on is of a kind. -/
def Reaction.Becomes (kind : β → Prop) : Reaction β → Prop
  | .done _ => True
  | .look next => ∀ v, (next v).Becomes kind
  | .become b next => kind b ∧ next.Becomes kind
  | .setState _ next | .log _ _ next | .note _ next => next.Becomes kind
  | .signal _ _ next => ∀ result, (next result).Becomes kind

theorem Reaction.Becomes.mono {kind more : β → Prop} {r : Reaction β} (becomes : r.Becomes kind)
    (sub : ∀ b, kind b → more b) : r.Becomes more := by
  induction r with
  | done _ => trivial
  | look _ ih | signal _ _ _ ih => exact fun x => ih x (becomes x)
  | become b _ ih => exact ⟨sub b becomes.1, ih becomes.2⟩
  | setState _ _ ih | log _ _ _ ih | note _ _ ih => exact ih becomes

theorem Reaction.becomes_of_forall {kind : β → Prop} (all : ∀ b, kind b) (r : Reaction β) :
    r.Becomes kind := by
  induction r with
  | done _ => trivial
  | look _ ih | signal _ _ _ ih => exact ih
  | become b _ ih => exact ⟨all b, ih⟩
  | setState _ _ ih | log _ _ _ ih | note _ _ ih => exact ih

namespace Wave

def calls (w : Wave β) : List Event := w.record.toList.filter Event.isSignal

theorem calls_push_of_not_signal {w : Wave β} {e : Event} (other : e.isSignal = false) :
    (w.push e).calls = w.calls := by
  simp [calls, push, other]

theorem calls_push_signal (w : Wave β) (key : NodeKey) (spot : Nat) (source : SpotRef)
    (args : List Value) :
    (w.push (.signal key spot source args)).calls = w.calls ++ [.signal key spot source args] := by
  simp [calls, push, Event.isSignal]

theorem eq_of_cross {w v : Wave β} {id : LinkId} {source target : SpotRef}
    (crossed : w.cross id source target = .ok v) : v = { w with crossed := v.crossed } := by
  simp only [cross] at crossed
  split at crossed
  · cases crossed
    rfl
  · split at crossed
    · cases crossed
    · cases crossed
      rfl

theorem crossed_of_cross {w v : Wave β} {id : LinkId} {source target : SpotRef}
    (crossed : w.cross id source target = .ok v) :
    v.crossed = w.crossed.map ((id, source) :: ·) := by
  simp only [cross] at crossed
  split at crossed
  · next off =>
      cases crossed
      rw [off]
      rfl
  · next links on =>
      split at crossed
      · cases crossed
      · cases crossed
        rw [on]
        rfl

theorem cross_eq_error_iff {w : Wave β} {id : LinkId} {source target : SpotRef} {cause : RunError} :
    w.cross id source target = .error cause ↔ ∃ crossed, w.crossed = some crossed ∧
      (id, source) ∈ crossed ∧ cause = .cycle id (w.graph.label target.node) := by
  simp only [cross]
  cases w.crossed with
  | none => simp
  | some crossed => by_cases again : (id, source) ∈ crossed <;> simp [again, eq_comm]

/-- A property of waves that every step keeps, where nodes take on behaviors of their kind. -/
structure Invariant [Behavior β] (P : Wave β → Prop) (kind : NodeKey → β → Prop) : Prop where
  push : ∀ w e, e.isSignal = false → P w → P (w.push e)
  setState : ∀ w state, P w → P { w with state }
  become : ∀ w self b, kind self b → P w → P { w with graph := w.graph.setBehavior self b }
  begin : ∀ w key b, P w → w.graph.behavior? key = some b →
    (Behavior.onBegin b).Becomes (kind key)
  lost : ∀ w v id l source target, P w → w.graph.link? id = some l →
    l.farEnd source = .ok target → w.cross id source target = .ok v →
    w.graph.behavior? target.node = none → P v
  call : ∀ w v id l source target args b, P w → w.graph.link? id = some l →
    l.farEnd source = .ok target → w.cross id source target = .ok v →
    w.graph.behavior? target.node = some b →
    P (v.push (.signal target.node target.index source args)) ∧
      (Behavior.onSignal b target.index args).Becomes (kind target.node)

namespace Invariant

variable [Behavior β] {P : Wave β → Prop} {kind : NodeKey → β → Prop}

def Kept (P : Wave β → Prop) (send : Send β) : Prop :=
  ∀ source args w, P w → P (send source args w).2

theorem run (inv : Invariant P kind) {send : Send β} (kept : Kept P send) (self : NodeKey)
    (source : Option SpotRef) (r : Reaction β) (becomes : r.Becomes (kind self)) (w : Wave β)
    (h : P w) : P (r.run send self source w).2 := by
  induction r generalizing w with
  | done result => exact h
  | look next ih => exact ih _ (becomes _) w h
  | become b next ih => exact ih becomes.2 _ (inv.become w self b becomes.1 h)
  | setState state next ih => exact ih becomes _ (inv.setState w state h)
  | log level text next ih => exact ih becomes _ (inv.push w _ rfl h)
  | note text next ih => exact ih becomes _ (inv.push w _ rfl h)
  | signal spot args next ih =>
      have sent := kept ⟨self, spot⟩ args _ (inv.push w (.send ⟨self, spot⟩ args) rfl h)
      simp only [Reaction.run]
      rcases ran : send ⟨self, spot⟩ args (w.push (.send ⟨self, spot⟩ args)) with
        ⟨_ | result, v⟩ <;> rw [ran] at sent
      · exact sent
      · exact ih result (becomes result) v sent

theorem isSome_run (inv : Invariant P kind) {send : Send β} (kept : Kept P send)
    (ends : ∀ source args w, P w → (send source args w).1.isSome) (self : NodeKey)
    (source : Option SpotRef) (r : Reaction β) (becomes : r.Becomes (kind self)) (w : Wave β)
    (h : P w) : (r.run send self source w).1.isSome := by
  induction r generalizing w with
  | done _ => rfl
  | look _ ih => exact ih _ (becomes _) w h
  | become b _ ih => exact ih becomes.2 _ (inv.become w self b becomes.1 h)
  | setState state _ ih => exact ih becomes _ (inv.setState w state h)
  | log _ _ _ ih | note _ _ ih => exact ih becomes _ (inv.push w _ rfl h)
  | signal spot args next ih =>
      have start := inv.push w (.send ⟨self, spot⟩ args) rfl h
      have after := kept ⟨self, spot⟩ args _ start
      have ended := ends ⟨self, spot⟩ args _ start
      simp only [Reaction.run]
      rcases sent : send ⟨self, spot⟩ args (w.push (.send ⟨self, spot⟩ args)) with
        ⟨_ | result, v⟩ <;> rw [sent] at after ended
      · cases ended
      · exact ih result (becomes result) v after

theorem deliver (inv : Invariant P kind) {send : Send β} (kept : Kept P send) (source : SpotRef)
    (args : List Value) (id : LinkId) (w : Wave β) (h : P w) :
    P (deliver send source args id w).2 := by
  simp only [Wave.deliver]
  split
  · exact h
  next l live =>
  split
  · exact h
  next target far =>
  split
  · exact h
  next v crossed =>
  have graph : v.graph = w.graph := by rw [eq_of_cross crossed]
  split
  · next cause missing =>
      refine inv.lost w v id l source target h live far crossed ?_
      cases found : w.graph.behavior? target.node with
      | none => rfl
      | some b => simp [Graph.behavior, graph, found] at missing
  · next b found =>
      have : w.graph.behavior? target.node = some b := by
        rw [← graph]
        exact Graph.behavior_eq_ok_iff.mp found
      obtain ⟨called, becomes⟩ := inv.call w v id l source target args b h live far crossed this
      exact inv.run kept target.node (some source) _ becomes _ called

theorem deliverAll (inv : Invariant P kind) {send : Send β} (kept : Kept P send)
    (source : SpotRef) (args : List Value) (ids : List LinkId) (w : Wave β) (h : P w) :
    P (deliverAll send source args ids w).2 := by
  induction ids generalizing w with
  | nil => exact h
  | cons id ids ih =>
      have first := inv.deliver kept source args id w h
      simp only [Wave.deliverAll]
      split
      · next v delivered =>
          rw [delivered] at first
          exact ih v first
      · exact first

theorem propagate (inv : Invariant P kind) (depth : Nat) : Kept P (propagate depth) := by
  induction depth with
  | zero => exact fun _ _ _ h => h
  | succ depth ih =>
      intro source args w h
      simp only [Wave.propagate]
      split
      · exact h
      · exact inv.deliverAll ih source args _ w h

theorem beginning (inv : Invariant P kind) (depth : Nat) (key : NodeKey) (w : Wave β) (h : P w) :
    P (w.begin depth key).2 := by
  simp only [Wave.begin]
  split
  · exact h
  · next b found =>
      have : w.graph.behavior? key = some b := Graph.behavior_eq_ok_iff.mp found
      exact inv.run (inv.propagate depth) key none _ (inv.begin w key b h this) _
        (inv.push w _ rfl h)

end Invariant
end Wave
end SignalGraph
