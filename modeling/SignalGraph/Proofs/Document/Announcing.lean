import SignalGraph.Document.Load
import SignalGraph.Proofs.Wave.Frame

/-!
Nodes that are told of the complete graph. Each may change itself when its turn comes, and it finds those
before it changed already. Whatever they do, the nodes, the spots and the links stay, so everybody is told
of the same numbers of them.
-/

namespace SignalGraph.Graph

variable {β : Type} [Behavior β] {g h : Graph β}

/-- The nodes at some keys are told one after the other, and the graph comes to a second one. Keys of dead
nodes are passed over. -/
inductive Told : Graph β → List NodeKey → Graph β → Prop
  | nil (g : Graph β) : Told g [] g
  | dead {g h : Graph β} {key : NodeKey} {keys : List NodeKey} (dead : g.slot? key = none)
      (rest : Told g keys h) : Told g (key :: keys) h
  | live {g h : Graph β} {key : NodeKey} {keys : List NodeKey} {s : Slot β} {c : β}
      (found : g.slot? key = some s) (content : Behavior.loaded s.behavior g key = .ok c)
      (rest : Told (g.setBehavior key c) keys h) : Told g (key :: keys) h

theorem announce_eq_ok_iff {keys : List NodeKey} : (g.announce keys).1 = .ok h ↔ g.Told keys h := by
  induction keys generalizing g with
  | nil =>
      constructor
      · intro told
        obtain rfl := Except.ok.inj told
        exact .nil g
      · intro told
        cases told
        rfl
  | cons key keys ih =>
      simp only [announce]
      constructor
      · intro told
        split at told
        · next dead => exact .dead dead (ih.mp told)
        next s found =>
        split at told
        · cases told
        next c content => exact .live found content (ih.mp told)
      · intro told
        cases told with
        | dead dead rest => simp only [dead, ih.mpr rest]
        | live found content rest => simp only [found, content, ih.mpr rest]

theorem Told.det {keys : List NodeKey} {k : Graph β} (one : g.Told keys h) (other : g.Told keys k) :
    h = k :=
  Except.ok.inj ((announce_eq_ok_iff.mpr one).symm.trans (announce_eq_ok_iff.mpr other))

theorem Told.shape {keys : List NodeKey} (told : g.Told keys h) : h.shape = g.shape := by
  induction told with
  | nil => rfl
  | dead _ _ ih => exact ih
  | live _ _ _ ih => exact ih.trans (shape_setBehavior _ _ _)

theorem told_self {keys : List NodeKey} (content : ∀ key ∈ keys, ∀ s, g.slot? key = some s →
    Behavior.loaded s.behavior g key = .ok s.behavior) : g.Told keys g := by
  induction keys with
  | nil => exact .nil g
  | cons key keys ih =>
      have rest := ih fun k mem => content k (by simp [mem])
      cases found : g.slot? key with
      | none => exact .dead found rest
      | some s =>
          refine .live found (content key (by simp) s found) ?_
          rwa [setBehavior_self found]

/-- Live nodes are told one after the other, up to the first that objects. What they are told does not
depend on what becomes of their behaviors. -/
theorem announce_answers {α : Type} {pairs : List (α × NodeKey)} {call : α × NodeKey → Event}
    (live : ∀ p ∈ pairs, ∃ n, g.node? p.2 = some n ∧
      call p = .loaded p.2 n.linkCount g.nodeCount g.linkCount) :
    (∃ h, g.Told (pairs.map (·.2)) h ∧ g.announce (pairs.map (·.2)) = (.ok h, pairs.map call)) ∨
    ∃ done p rest t s cause, pairs = done ++ p :: rest ∧ g.Told (done.map (·.2)) t ∧
      t.slot? p.2 = some s ∧ Behavior.loaded s.behavior t p.2 = .error cause ∧
      g.announce (pairs.map (·.2)) = (.error cause, (done ++ [p]).map call) := by
  induction pairs generalizing g with
  | nil => exact .inl ⟨g, .nil g, rfl⟩
  | cons p pairs ih =>
      obtain ⟨⟨n, at_key, same⟩, lives⟩ := List.forall_mem_cons.mp live
      obtain ⟨s, found, rfl⟩ := Option.map_eq_some_iff.mp at_key
      cases content : Behavior.loaded s.behavior g p.2 with
      | error cause =>
          refine .inr ⟨[], p, pairs, g, s, cause, rfl, .nil g, found, content, ?_⟩
          simp [announce, found, content, same]
      | ok c =>
          have shape := g.shape_setBehavior p.2 c
          have counts : (g.setBehavior p.2 c).nodeCount = g.nodeCount ∧
              (g.setBehavior p.2 c).linkCount = g.linkCount := ⟨rfl, rfl⟩
          have still (q : α × NodeKey) (mem : q ∈ pairs) :
              ∃ n, (g.setBehavior p.2 c).node? q.2 = some n ∧ call q = .loaded q.2 n.linkCount
                (g.setBehavior p.2 c).nodeCount (g.setBehavior p.2 c).linkCount := by
            obtain ⟨m, at_q, told⟩ := lives q mem
            exact ⟨m, by rw [node?_eq_of_shape shape, at_q], by rw [counts.1, counts.2, told]⟩
          obtain ⟨h, told, all⟩ | ⟨done, q, rest, t, u, cause, rfl, told, at_q, objects, stopped⟩ :=
            ih still
          · refine .inl ⟨h, .live found content told, ?_⟩
            simp [announce, found, content, all, same]
          · refine .inr ⟨p :: done, q, rest, t, u, cause, rfl, .live found content told, at_q, objects,
              ?_⟩
            rw [List.map_cons]
            simp only [announce, found, content, stopped]
            simp [same]

end SignalGraph.Graph
