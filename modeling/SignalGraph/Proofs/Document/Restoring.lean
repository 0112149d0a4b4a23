import SignalGraph.Document.Load
import SignalGraph.Proofs.Wave.Frame

/-!
Nodes that take on the states of their records. Each node comes to a state of its own, whatever the others
do, and a record without state leaves its node as it is. The order of the records is only the order of the
calls, of which nothing is said here.
-/

namespace SignalGraph.Graph

variable {β : Type} [Behavior β] {g h : Graph β}

/-- The behavior that a node comes to when it takes on the state of a record. -/
def Gives (g : Graph β) (r : NodeRecord) (key : NodeKey) (c : β) : Prop :=
  ∃ b, g.behavior? key = some b ∧
    if r.state = [] then c = b else Behavior.restore b r.state = (.ok (), c)

def restoreOne (g : Graph β) (p : NodeRecord × NodeKey) : Except RunError (Graph β) :=
  if p.1.state.isEmpty then .ok g
  else
    match g.behavior p.2 with
    | .error cause => .error (.graph cause)
    | .ok b =>
      match Behavior.restore b p.1.state with
      | (.error cause, _) => .error (.persist cause)
      | (.ok (), c) => .ok (g.setBehavior p.2 c)

theorem restoreStates_fst (pairs : List (NodeRecord × NodeKey)) (g : Graph β) :
    (g.restoreStates pairs).1 = pairs.foldlM restoreOne g := by
  induction pairs generalizing g with
  | nil => rfl
  | cons p pairs ih =>
      rw [List.foldlM_cons]
      simp only [restoreStates, restoreOne]
      split
      · exact ih g
      · cases g.behavior p.2 with
        | error cause => rfl
        | ok b =>
            rcases restored : Behavior.restore b p.1.state with ⟨cause | u, c⟩
            · simp only [restored, bind, Except.bind]
            · simp only [restored, bind, Except.bind, ih]

theorem exists_restoreOne_iff {p : NodeRecord × NodeKey} (live : (g.behavior? p.2).isSome) :
    (∃ h, g.restoreOne p = .ok h) ↔ ∃ c, g.Gives p.1 p.2 c := by
  obtain ⟨b, found⟩ := Option.isSome_iff_exists.mp live
  simp only [Gives, restoreOne, found, behavior_eq_ok_iff.mpr found, List.isEmpty_iff]
  by_cases bare : p.1.state = []
  · simp [bare]
  · rcases restored : Behavior.restore b p.1.state with ⟨cause | u, c⟩ <;> simp [bare, restored]

theorem restoreOne_spec {p : NodeRecord × NodeKey} (ran : g.restoreOne p = .ok h) :
    h.shape = g.shape ∧ (∀ c, g.Gives p.1 p.2 c → h.behavior? p.2 = some c) ∧
      ∀ key, key ≠ p.2 → h.behavior? key = g.behavior? key := by
  simp only [restoreOne, List.isEmpty_iff] at ran
  split at ran
  · next bare =>
      obtain rfl : g = h := Except.ok.inj ran
      refine ⟨rfl, ?_, fun _ _ => rfl⟩
      intro c gives
      obtain ⟨b, found, rfl⟩ := by simpa only [Gives, bare, if_true] using gives
      exact found
  · next holds =>
      split at ran
      · cases ran
      next b found =>
      split at ran
      · cases ran
      next c restored =>
      obtain rfl := Except.ok.inj ran
      have here := behavior_eq_ok_iff.mp found
      refine ⟨g.shape_setBehavior p.2 c, ?_, ?_⟩
      · intro c' gives
        obtain ⟨b', found', restored'⟩ := gives
        rw [if_neg holds] at restored'
        cases here.symm.trans found'
        cases restored.symm.trans restored'
        rw [behavior?_setBehavior, if_pos rfl, here, Option.map_some]
      · intro key other
        rw [behavior?_setBehavior, if_neg other]

theorem gives_congr {key : NodeKey} (same : h.behavior? key = g.behavior? key) (r : NodeRecord)
    (c : β) : h.Gives r key c ↔ g.Gives r key c := by
  rw [Gives, same, Gives]

omit [Behavior β] in
theorem isSome_behavior?_of_shape (same : h.shape = g.shape) {key : NodeKey} :
    (h.behavior? key).isSome ↔ (g.behavior? key).isSome := by
  rw [behavior?_isSome_iff, behavior?_isSome_iff, node?_eq_of_shape same]

theorem exists_restoreStates_iff {pairs : List (NodeRecord × NodeKey)}
    (nodup : (pairs.map (·.2)).Nodup) (live : ∀ p ∈ pairs, (g.behavior? p.2).isSome) :
    (∃ h, (g.restoreStates pairs).1 = .ok h) ↔ ∀ p ∈ pairs, ∃ c, g.Gives p.1 p.2 c := by
  simp only [restoreStates_fst]
  induction pairs generalizing g with
  | nil => exact ⟨fun _ => by simp, fun _ => ⟨g, rfl⟩⟩
  | cons p pairs ih =>
      rw [List.map_cons, List.nodup_cons] at nodup
      obtain ⟨alive, lives⟩ := List.forall_mem_cons.mp live
      simp only [List.foldlM_cons, bind_eq_ok_iff, List.forall_mem_cons]
      have step {g' : Graph β} (first : g.restoreOne p = .ok g') :
          (∃ h, pairs.foldlM restoreOne g' = .ok h) ↔ ∀ q ∈ pairs, ∃ c, g.Gives q.1 q.2 c := by
        obtain ⟨shape, _, others⟩ := restoreOne_spec first
        rw [ih nodup.2 fun q mem => (isSome_behavior?_of_shape shape).mpr (lives q mem)]
        refine forall₂_congr fun q mem => ?_
        have other : q.2 ≠ p.2 := fun same => nodup.1 (same ▸ List.mem_map_of_mem mem)
        simp only [gives_congr (others q.2 other)]
      constructor
      · intro ran
        obtain ⟨h, g', first, rest⟩ := ran
        exact ⟨(exists_restoreOne_iff alive).mp ⟨g', first⟩, (step first).mp ⟨h, rest⟩⟩
      · intro gives
        obtain ⟨g', first⟩ := (exists_restoreOne_iff alive).mpr gives.1
        obtain ⟨h, rest⟩ := (step first).mpr gives.2
        exact ⟨h, g', first, rest⟩

/-- Once the states are taken on, every node has its own, and nothing else has changed. -/
theorem restoreStates_spec {pairs : List (NodeRecord × NodeKey)} (nodup : (pairs.map (·.2)).Nodup)
    (ran : (g.restoreStates pairs).1 = .ok h) :
    h.shape = g.shape ∧ (∀ p ∈ pairs, ∀ c, g.Gives p.1 p.2 c → h.behavior? p.2 = some c) ∧
      ∀ key, key ∉ pairs.map (·.2) → h.behavior? key = g.behavior? key := by
  rw [restoreStates_fst] at ran
  induction pairs generalizing g with
  | nil =>
      obtain rfl : g = h := Except.ok.inj ran
      exact ⟨rfl, by simp, fun _ _ => rfl⟩
  | cons p pairs ih =>
      rw [List.map_cons, List.nodup_cons] at nodup
      rw [List.foldlM_cons, bind_eq_ok_iff] at ran
      obtain ⟨g', first, rest⟩ := ran
      obtain ⟨shape, own, others⟩ := restoreOne_spec first
      obtain ⟨shape', each, rests⟩ := ih nodup.2 rest
      refine ⟨shape'.trans shape, ?_, ?_⟩
      · intro q mem c gives
        obtain rfl | later := List.mem_cons.mp mem
        · rw [rests q.2 nodup.1]
          exact own c gives
        · have other : q.2 ≠ p.2 := fun same => nodup.1 (same ▸ List.mem_map_of_mem later)
          exact each q later c ((gives_congr (others q.2 other) q.1 c).mpr gives)
      · intro key apart
        rw [List.map_cons, List.mem_cons, not_or] at apart
        rw [rests key apart.2, others key apart.1]

end SignalGraph.Graph
