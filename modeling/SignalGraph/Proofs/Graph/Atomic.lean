import SignalGraph.Proofs.Graph.Legal

/-!
Edits that fail. An edit that is refused leaves the graph as it was, so later edits give out the same
handles as without it. Linking and removing change a graph in several places one after the other; in a
reachable graph nothing can fail once the first change is made. Which edits are refused is not said here.
-/

namespace SignalGraph.Graph

open LinkArena

variable {β : Type} {g : Graph β}

/-! ### Every edit fails at once or not at all -/

theorem link_cases (sound : g.Sound) (a b : SpotRef) :
    (∃ cause, g.link a b = (.error cause, g)) ∨
    g.link a b = (.ok ⟨g.links.length⟩, g.wire (g.links ++ [some ⟨⟨g.links.length⟩, a, b⟩])) := by
  cases checked : g.checkLink a b with
  | error cause => exact .inl ⟨cause, link_eq_of_refused checked⟩
  | ok u => exact .inr (link_eq_of_checkLink sound.wired checked)

theorem disposeLink_cases (sound : g.Sound) (id : LinkId) :
    (∃ cause, g.disposeLink id = (.error cause, g)) ∨ ∃ l, g.link? id = some l ∧
      g.disposeLink id = (.ok l, g.wire (keep (·.id ≠ id) g.links)) := by
  cases found : g.link? id with
  | none => exact .inl ⟨_, disposeLink_eq_of_dead found⟩
  | some l => exact .inr ⟨l, rfl, disposeLink_eq sound found⟩

theorem removeNode_cases (sound : g.Sound) (key : NodeKey) :
    (∃ cause, g.removeNode key = (.error cause, g)) ∨ ∃ n, g.node? key = some n ∧
      g.removeNode key = (.ok (n.mapSpots fun _ s => { s with links := [] }),
        (g.cutOff key).dropNode key n.id) := by
  cases found : g.node? key with
  | none => exact .inl ⟨_, removeNode_eq_of_dead found⟩
  | some n => exact .inr ⟨n, rfl, removeNode_eq sound found⟩

/-! ### What a success leaves -/

theorem link?_removeNode (sound : g.Sound) {key : NodeKey} {n : Node}
    (found : g.node? key = some n) (id : LinkId) (l : Link) :
    (g.removeNode key).2.link? id = some l ↔ g.link? id = some l ∧ ¬ l.touchesNode key := by
  rw [removeNode_eq sound found, link?_eq_some_iff, link?_eq_some_iff]
  exact getElem?_keep_eq_some_iff.trans (by simp)

theorem Sound.listed_of_live (sound : g.Sound) {id : LinkId} {l : Link}
    (live : g.link? id = some l) : ∃ s t, g.spot l.a = .ok s ∧ id ∈ s.links ∧
      g.spot l.b = .ok t ∧ id ∈ t.links := by
  have lists {ref : SpotRef} {s : Spot} (at_ref : g.spot? ref = some s) (end_of : l.touches ref) :
      id ∈ s.links := by
    rw [sound.wired ref s at_ref, mem_touching_iff sound.numbered]
    exact ⟨l, link?_eq_some_iff.mp live, end_of⟩
  obtain ⟨first, second⟩ := sound.ends id l live
  obtain ⟨s, at_a⟩ := Option.isSome_iff_exists.mp first
  obtain ⟨t, at_b⟩ := Option.isSome_iff_exists.mp second
  exact ⟨s, t, spot_eq_ok_iff.mpr at_a, lists at_a (Link.touches_iff.mpr (.inl rfl)),
    spot_eq_ok_iff.mpr at_b, lists at_b (Link.touches_iff.mpr (.inr rfl))⟩

theorem Sound.live_of_listed (sound : g.Sound) {ref : SpotRef} {s : Spot} {id : LinkId}
    (found : g.spot ref = .ok s) (listed : id ∈ s.links) :
    ∃ l, g.link? id = some l ∧ l.touches ref := by
  rw [sound.wired ref s (spot_eq_ok_iff.mp found), mem_touching_iff sound.numbered] at listed
  obtain ⟨l, at_id, touches⟩ := listed
  exact ⟨l, link?_eq_some_iff.mpr at_id, touches⟩

/-- Every edit is made as a whole or not at all. -/
structure AllOrNothing [Behavior β] (g : Graph β) : Prop where
  addNode : ∀ id tag type b cause h events,
    g.addNode id tag type b = (.error cause, h, events) → h = g
  link : ∀ a b cause h, g.link a b = (.error cause, h) → h = g
  disposeLink : ∀ id cause h, g.disposeLink id = (.error cause, h) → h = g
  removeNode : ∀ key cause h, g.removeNode key = (.error cause, h) → h = g
  /-- The next key is the size of the arena of nodes. -/
  nextKey : ∀ id tag type b key h events,
    g.addNode id tag type b = (.ok key, h, events) → key = ⟨g.slots.length⟩
  /-- The next link id is the size of the arena of links. -/
  nextLink : ∀ a b id h, g.link a b = (.ok id, h) → id = ⟨g.links.length⟩
  removes : ∀ key, (g.node? key).isSome → ∃ n h, g.removeNode key = (.ok n, h) ∧
    h.node? key = none ∧ ∀ id l, h.link? id = some l ↔ g.link? id = some l ∧ ¬ l.touchesNode key
  links : ∀ a b id h, g.link a b = (.ok id, h) → h.link? id = some ⟨id, a, b⟩ ∧
    ∃ s t, h.spot a = .ok s ∧ id ∈ s.links ∧ h.spot b = .ok t ∧ id ∈ t.links
  /-- After linking, whether it succeeds or not, no link is listed at one of its ends only. -/
  bothEnds : ∀ a b answer h, g.link a b = (answer, h) → ∀ ref s id, h.spot ref = .ok s →
    id ∈ s.links → ∃ l t u, h.link? id = some l ∧ l.touches ref ∧ h.spot l.a = .ok t ∧
      id ∈ t.links ∧ h.spot l.b = .ok u ∧ id ∈ u.links

/-- A failed edit of a reachable graph leaves it exactly as it was, whatever the handles are and
wherever a behavior refuses to be set up. A live node is never refused removal. -/
theorem edits_all_or_nothing [Behavior β] (reach : g.Reachable) : g.AllOrNothing := by
  have sound := reach.sound
  constructor
  case addNode =>
    intro id tag type b cause h events failed
    obtain ⟨_, _, same⟩ | ⟨s, _, _, _, _, added⟩ := addNode_cases g id tag type b
    · cases same.symm.trans failed
      rfl
    · cases added.symm.trans failed
  case link =>
    intro a b cause h failed
    obtain ⟨_, same⟩ | linked := link_cases sound a b
    · cases same.symm.trans failed
      rfl
    · cases linked.symm.trans failed
  case disposeLink =>
    intro id cause h failed
    obtain ⟨_, same⟩ | ⟨l, _, disposed⟩ := disposeLink_cases sound id
    · cases same.symm.trans failed
      rfl
    · cases disposed.symm.trans failed
  case removeNode =>
    intro key cause h failed
    obtain ⟨_, same⟩ | ⟨n, _, removed⟩ := removeNode_cases sound key
    · cases same.symm.trans failed
      rfl
    · cases removed.symm.trans failed
  case nextKey =>
    intro id tag type b key h events made
    obtain ⟨_, _, same⟩ | ⟨s, _, _, _, _, added⟩ := addNode_cases g id tag type b
    · cases same.symm.trans made
    · cases added.symm.trans made
      rfl
  case nextLink =>
    intro a b id h made
    obtain ⟨_, same⟩ | linked := link_cases sound a b
    · cases same.symm.trans made
    · cases linked.symm.trans made
      rfl
  case removes =>
    intro key live
    obtain ⟨n, found⟩ := Option.isSome_iff_exists.mp live
    have removed := removeNode_eq sound found
    have kept := link?_removeNode sound found
    rw [removed] at kept
    exact ⟨_, _, removed, by rw [node?_dropNode, if_pos rfl], kept⟩
  case links =>
    intro a b id h made
    have after := sound.link a b
    obtain ⟨_, same⟩ | linked := link_cases sound a b
    · cases same.symm.trans made
    · rw [made] at after
      cases linked.symm.trans made
      have live : (g.wire (g.links ++ [some ⟨⟨g.links.length⟩, a, b⟩])).link? ⟨g.links.length⟩ =
          some ⟨⟨g.links.length⟩, a, b⟩ := link?_eq_some_iff.mpr (by simp)
      exact ⟨live, after.listed_of_live live⟩
  case bothEnds =>
    intro a b answer h made ref s id found listed
    have after := sound.link a b
    rw [made] at after
    obtain ⟨l, live, touches⟩ := after.live_of_listed found listed
    obtain ⟨t, u, listed⟩ := after.listed_of_live live
    exact ⟨l, t, u, live, touches, listed⟩

/-- The cable of the plugged graph holds no second link, and an attempt to make one leaves no trace. -/
theorem second_cable_refused : plugged.link ⟨⟨0⟩, 0⟩ ⟨⟨1⟩, 0⟩ =
    (.error (.spotFull "cable" 1 (.atMost 1)), plugged) := by
  have refused : (plugged.link ⟨⟨0⟩, 0⟩ ⟨⟨1⟩, 0⟩).1 = .error (.spotFull "cable" 1 (.atMost 1)) := by
    decide
  exact Prod.ext refused
    ((edits_all_or_nothing reachable_plugged).link _ _ _ _ (Prod.ext refused rfl))

end SignalGraph.Graph
