import SignalGraph.Proofs.Graph.Sound

/-!
Nodes that come and go. Removing a node is cutting off its links and then dropping it; adding one puts
it behind the others with the spots that its setting up declared. Both keep a graph sound, also when
they fail, because then they change nothing.
-/

namespace SignalGraph

/-- A node whose spots have distinct IDs, belong to it and hold no links. -/
structure Node.Fresh (n : Node) : Prop where
  spotIds_nodup : (n.spots.map (·.id)).Nodup
  owner_eq : ∀ s ∈ n.spots, s.owner = n.key
  links_eq : ∀ s ∈ n.spots, s.links = []

structure Node.SameHead (m n : Node) : Prop where
  id : m.id = n.id
  tag : m.tag = n.tag
  type : m.type = n.type
  key : m.key = n.key

theorem Node.declare_fresh {n m : Node} {d : SpotDecl} {j : Nat} (fresh : n.Fresh)
    (declared : n.declare d = .ok (j, m)) : m.Fresh ∧ m.SameHead n := by
  simp only [declare] at declared
  split at declared
  · cases declared
  · next new =>
      cases declared
      have absent : d.id ∉ n.spots.map (·.id) := by simpa using new
      refine ⟨⟨?_, ?_, ?_⟩, ⟨rfl, rfl, rfl, rfl⟩⟩
      · rw [List.map_append, List.nodup_append]
        refine ⟨fresh.spotIds_nodup, by simp, ?_⟩
        intro a old b last same
        obtain rfl : b = d.id := by simpa [Spot.declare] using last
        exact absent (same ▸ old)
      · intro s mem
        obtain old | last := List.mem_append.mp mem
        · exact fresh.owner_eq s old
        · simp only [List.mem_singleton] at last
          rw [last, Spot.declare]
      · intro s mem
        obtain old | last := List.mem_append.mp mem
        · exact fresh.links_eq s old
        · simp only [List.mem_singleton] at last
          rw [last, Spot.declare]

/-- Whatever a behavior does while it is set up, it only declares spots. -/
theorem Setup.run_fresh {β : Type} (setup : Setup β) {n : Node} (fresh : n.Fresh) :
    (setup.run n).2.Fresh ∧ (setup.run n).2.SameHead n := by
  induction setup generalizing n with
  | ready b => exact ⟨fresh, rfl, rfl, rfl, rfl⟩
  | refuse cause => exact ⟨fresh, rfl, rfl, rfl, rfl⟩
  | declare d next ih =>
      simp only [run]
      cases declared : n.declare d with
      | error cause => exact ih (.error cause) fresh
      | ok answer =>
          obtain ⟨j, m⟩ := answer
          have step := Node.declare_fresh fresh declared
          have rest := ih (.ok j) step.1
          exact ⟨rest.1, rest.2.id.trans step.2.id, rest.2.tag.trans step.2.tag,
            rest.2.type.trans step.2.type, rest.2.key.trans step.2.key⟩

namespace Graph

open LinkArena

variable {β : Type}

def dropNode (g : Graph β) (key : NodeKey) (id : String) : Graph β :=
  { g with slots := g.slots.set key.index none, ids := g.ids.filter (·.1 ≠ id) }

@[simp]
theorem slot?_dropNode (g : Graph β) (key : NodeKey) (id : String) (k : NodeKey) :
    (g.dropNode key id).slot? k = if k = key then none else g.slot? k := by
  simp only [slot?, dropNode, List.getElem?_set]
  by_cases same : k = key
  · subst same
    by_cases bound : k.index < g.slots.length <;> simp [bound]
  · have : key.index ≠ k.index := fun h => same (by cases k; cases key; simp_all)
    simp [same, this]

theorem node?_dropNode (g : Graph β) (key : NodeKey) (id : String) (k : NodeKey) :
    (g.dropNode key id).node? k = if k = key then none else g.node? k := by
  rw [node?, slot?_dropNode]
  split <;> rfl

theorem spot?_dropNode (g : Graph β) (key : NodeKey) (id : String) (ref : SpotRef) :
    (g.dropNode key id).spot? ref = if ref.node = key then none else g.spot? ref := by
  rw [spot?, node?_dropNode]
  split <;> rfl

theorem mem_links_iff_touchesNode {g : Graph β} (sound : g.Sound) {key : NodeKey} {n : Node}
    (found : g.node? key = some n) {l : Link} (mem : l ∈ live g.links) :
    l.id ∈ n.links ↔ l.touchesNode key := by
  have at_id := (mem_live_iff sound.numbered).mp mem
  have spot_at (j : Nat) : g.spot? ⟨key, j⟩ = n.spots[j]? := by simp [spot?, found]
  rw [Node.links, List.mem_flatMap, Link.touchesNode, decide_eq_true_iff]
  constructor
  · intro listing
    obtain ⟨s, owned, listed⟩ := listing
    obtain ⟨j, at_j⟩ := List.mem_iff_getElem?.mp owned
    rw [sound.wired ⟨key, j⟩ s (by rw [spot_at, at_j]), mem_touching_iff sound.numbered] at listed
    obtain ⟨m, at_m, touches⟩ := listed
    rw [at_id] at at_m
    cases at_m
    obtain h | h := Link.touches_iff.mp touches
    · exact .inl (by rw [← h])
    · exact .inr (by rw [← h])
  · have listed_at (ref : SpotRef) (node : ref.node = key) (touches : l.touches ref)
        (exist : (g.spot? ref).isSome) : ∃ s ∈ n.spots, l.id ∈ s.links := by
      obtain ⟨s, at_ref⟩ := Option.isSome_iff_exists.mp exist
      refine ⟨s, List.mem_of_getElem? (i := ref.index) ?_, ?_⟩
      · rw [← spot_at, ← node, ← at_ref]
      · rw [sound.wired ref s at_ref, mem_touching_iff sound.numbered]
        exact ⟨l, at_id, touches⟩
    obtain ⟨first, second⟩ := sound.ends_of_mem_live mem
    intro near
    obtain node | node := near
    · exact listed_at l.a node (Link.touches_iff.mpr (.inl rfl)) first
    · exact listed_at l.b node (Link.touches_iff.mpr (.inr rfl)) second

/-- The graph without the links on a node. -/
def cutOff (g : Graph β) (key : NodeKey) : Graph β :=
  g.wire (keep (fun l => !l.touchesNode key) g.links)

theorem removeNode_eq {g : Graph β} (sound : g.Sound) {key : NodeKey} {n : Node}
    (found : g.node? key = some n) :
    g.removeNode key =
      (.ok (n.mapSpots fun _ s => { s with links := [] }), (g.cutOff key).dropNode key n.id) := by
  have cut : g.disposeLive n.links = (.ok (), g.cutOff key) := by
    rw [disposeLive_eq sound, cutOff]
    congr 2
    apply keep_congr
    intro l mem
    simp [mem_links_iff_touchesNode sound found mem]
  have bare : (g.cutOff key).node? key = some (n.mapSpots fun _ s => { s with links := [] }) := by
    rw [cutOff, node?_wire, found, Option.map_some]
    congr 1
    apply Node.mapSpots_congr
    intro j s _
    have none_left : touching (keep (fun l => !l.touchesNode key) g.links) ⟨key, j⟩ = [] := by
      rw [touching_keep, List.map_eq_nil_iff, List.filter_eq_nil_iff]
      intro l _ both
      rw [Bool.and_eq_true, Link.touches_iff] at both
      obtain ⟨touches, off⟩ := both
      obtain h | h := touches <;> simp [Link.touchesNode, ← h] at off
    rw [relist, none_left]
  simp only [removeNode, node_eq_ok_iff.mpr found, cut, node_eq_ok_iff.mpr bare]
  rfl

theorem removeNode_eq_of_dead {g : Graph β} {key : NodeKey} (dead : g.node? key = none) :
    g.removeNode key = (.error (.deadNode key), g) := by
  simp [removeNode, node, dead]

theorem unique_key {g : Graph β} (sound : g.Sound) {k key : NodeKey} {m n : Node}
    (at_k : g.node? k = some m) (at_key : g.node? key = some n) (same : m.id = n.id) :
    k = key := by
  have first := (sound.mem_ids n.id k).mpr ⟨m, at_k, same⟩
  have second := (sound.mem_ids n.id key).mpr ⟨n, at_key, rfl⟩
  exact congrArg Prod.snd (List.inj_on_of_nodup_map sound.ids_nodup first second rfl)

theorem Sound.dropNode {g : Graph β} (sound : g.Sound) {key : NodeKey} {n : Node}
    (found : g.node? key = some n) (bare : ∀ l ∈ live g.links, !l.touchesNode key) :
    (g.dropNode key n.id).Sound where
  mem_ids id k := by
    rw [node?_dropNode]
    simp only [Graph.dropNode, List.mem_filter, sound.mem_ids, decide_eq_true_iff]
    by_cases same : k = key
    · subst same
      simp [found, eq_comm]
    · simp only [if_neg same, and_iff_left_iff_imp]
      intro h named
      obtain ⟨m, at_k, rfl⟩ := h
      exact same (unique_key sound at_k found named)
  ids_nodup := sound.ids_nodup.sublist (List.filter_sublist.map _)
  keys_sorted := sound.keys_sorted.sublist (List.filter_sublist.map _)
  key_eq k m h := by
    rw [node?_dropNode] at h
    split at h
    · cases h
    · exact sound.key_eq k m h
  spotIds_nodup k m h := by
    rw [node?_dropNode] at h
    split at h
    · cases h
    · exact sound.spotIds_nodup k m h
  owner_eq ref s h := by
    rw [spot?_dropNode] at h
    split at h
    · cases h
    · exact sound.owner_eq ref s h
  numbered := sound.numbered
  ends id l h := by
    have mem : l ∈ live g.links := mem_live_of_link? h
    have apart : l.a.node ≠ key ∧ l.b.node ≠ key := by simpa [Link.touchesNode] using bare l mem
    rw [spot?_dropNode, spot?_dropNode, if_neg apart.1, if_neg apart.2]
    exact sound.ends_of_mem_live mem
  wired ref s h := by
    rw [spot?_dropNode] at h
    split at h
    · cases h
    · exact sound.wired ref s h

theorem Sound.removeNode {g : Graph β} (sound : g.Sound) (key : NodeKey) :
    (g.removeNode key).2.Sound := by
  cases found : g.node? key with
  | none => rwa [removeNode_eq_of_dead found]
  | some n =>
      rw [removeNode_eq sound found]
      have still : (g.cutOff key).node? key =
          some (n.mapSpots fun j => relist (g.cutOff key).links ⟨key, j⟩) := by
        rw [cutOff, node?_wire, found]
        rfl
      refine (sound.wire_keep _).dropNode (n := n.mapSpots _) still ?_
      intro l mem
      change l ∈ live (keep _ g.links) at mem
      rw [live_keep] at mem
      exact (List.mem_filter.mp mem).2

/-! ### Adding a node -/

/-- The graph with one more node, whose links are not made yet. -/
def pushNode (g : Graph β) (s : Slot β) : Graph β :=
  { g with
    slots := g.slots ++ [some s]
    ids := g.ids ++ [(s.node.id, ⟨g.slots.length⟩)] }

theorem slot?_pushNode (g : Graph β) (s : Slot β) (k : NodeKey) :
    (g.pushNode s).slot? k = if k = ⟨g.slots.length⟩ then some s else g.slot? k := by
  by_cases last : k = ⟨g.slots.length⟩
  · subst last
    simp [slot?, pushNode]
  · rw [if_neg last]
    simp only [slot?, pushNode, List.getElem?_append]
    split
    · rfl
    · have : k.index ≠ g.slots.length := fun h => last (by cases k; simp_all)
      rw [List.getElem?_eq_none (by simp; omega), List.getElem?_eq_none (by omega)]

theorem node?_pushNode (g : Graph β) (s : Slot β) (k : NodeKey) :
    (g.pushNode s).node? k = if k = ⟨g.slots.length⟩ then some s.node else g.node? k := by
  rw [node?, slot?_pushNode]
  split <;> rfl

theorem spot?_pushNode (g : Graph β) (s : Slot β) (ref : SpotRef) :
    (g.pushNode s).spot? ref =
      if ref.node = ⟨g.slots.length⟩ then s.node.spots[ref.index]? else g.spot? ref := by
  rw [spot?, node?_pushNode]
  split <;> rfl

theorem lt_length_of_spot? {g : Graph β} {ref : SpotRef} {s : Spot} (found : g.spot? ref = some s) :
    ref.node.index < g.slots.length := by
  obtain ⟨n, at_key, _⟩ := spot?_eq_some_iff.mp found
  exact lt_length_of_node? at_key

theorem spot?_pushNode_of_spot? {g : Graph β} {ref : SpotRef} {t : Spot}
    (found : g.spot? ref = some t) (s : Slot β) : (g.pushNode s).spot? ref = some t := by
  have := lt_length_of_spot? found
  rw [spot?_pushNode, if_neg, found]
  intro last
  simp [last] at this

theorem Sound.touching_eq_nil {g : Graph β} (sound : g.Sound) {ref : SpotRef}
    (vacant : g.spot? ref = none) : touching g.links ref = [] := by
  rw [touching, List.map_eq_nil_iff, List.filter_eq_nil_iff]
  intro l mem touches
  obtain ⟨first, second⟩ := sound.ends_of_mem_live mem
  obtain rfl | rfl := Link.touches_iff.mp touches
  · rw [vacant] at first
    cases first
  · rw [vacant] at second
    cases second

theorem Sound.pushNode {g : Graph β} (sound : g.Sound) {s : Slot β} (fresh : s.node.Fresh)
    (key : s.node.key = ⟨g.slots.length⟩) (new : s.node.id ∉ g.ids.map (·.1)) :
    (g.pushNode s).Sound where
  mem_ids id k := by
    rw [node?_pushNode]
    simp only [Graph.pushNode, List.mem_append, List.mem_singleton, Prod.mk.injEq, sound.mem_ids]
    by_cases last : k = ⟨g.slots.length⟩
    · subst last
      have vacant : g.node? ⟨g.slots.length⟩ = none := by simp [node?, slot?]
      simp [vacant, eq_comm]
    · simp [last]
  ids_nodup := by
    rw [Graph.pushNode, List.map_append, List.nodup_append]
    refine ⟨sound.ids_nodup, by simp, ?_⟩
    intro id old id' last same
    simp only [List.map_cons, List.map_nil, List.mem_singleton] at last
    rw [same, last] at old
    exact new old
  keys_sorted := by
    rw [keys, Graph.pushNode, List.map_append, List.pairwise_append]
    refine ⟨sound.keys_sorted, by simp, ?_⟩
    intro k old k' last
    simp only [List.map_cons, List.map_nil, List.mem_singleton] at last
    obtain ⟨entry, mem, rfl⟩ := List.mem_map.mp old
    obtain ⟨n, at_key, _⟩ := (sound.mem_ids entry.1 entry.2).mp mem
    rw [last]
    exact lt_length_of_node? at_key
  key_eq k n h := by
    rw [node?_pushNode] at h
    split at h
    · next last =>
        cases h
        rw [key, last]
    · exact sound.key_eq k n h
  spotIds_nodup k n h := by
    rw [node?_pushNode] at h
    split at h
    · cases h
      exact fresh.spotIds_nodup
    · exact sound.spotIds_nodup k n h
  owner_eq ref t h := by
    rw [spot?_pushNode] at h
    split at h
    · next last => rw [fresh.owner_eq t (List.mem_of_getElem? h), key, last]
    · exact sound.owner_eq ref t h
  numbered := sound.numbered
  ends id l h := by
    obtain ⟨first, second⟩ := sound.ends id l h
    have old (ref : SpotRef) (exist : (g.spot? ref).isSome) :
        ((g.pushNode s).spot? ref).isSome := by
      obtain ⟨t, found⟩ := Option.isSome_iff_exists.mp exist
      rw [spot?_pushNode_of_spot? found]
      rfl
    exact ⟨old _ first, old _ second⟩
  wired ref t h := by
    rw [spot?_pushNode] at h
    split at h
    · next last =>
        have vacant : g.spot? ref = none := by simp [spot?, node?, slot?, last]
        rw [fresh.links_eq t (List.mem_of_getElem? h)]
        exact (sound.touching_eq_nil vacant).symm
    · exact sound.wired ref t h

def blank (g : Graph β) (id tag : String) (type : TypeKey) : Node :=
  ⟨id, tag, type, ⟨g.slots.length⟩, []⟩

theorem blank_fresh (g : Graph β) (id tag : String) (type : TypeKey) :
    (g.blank id tag type).Fresh :=
  ⟨by simp [blank], by simp [blank], by simp [blank]⟩

theorem addNode_cases [Behavior β] (g : Graph β) (id tag : String) (type : TypeKey) (b : β) :
    (∃ cause events, g.addNode id tag type b = (.error cause, g, events)) ∨
    ∃ s : Slot β, s.node.Fresh ∧ s.node.SameHead (g.blank id tag type) ∧ id ∉ g.ids.map (·.1) ∧
      (Behavior.setup b (g.blank id tag type)).run (g.blank id tag type) =
        (.ok s.behavior, s.node) ∧
      g.addNode id tag type b =
        (.ok ⟨g.slots.length⟩, g.pushNode s, [.setup ⟨g.slots.length⟩]) := by
  by_cases taken : g.ids.any (·.1 = id)
  · exact .inl ⟨_, _, by rw [addNode, if_pos taken]⟩
  by_cases full : capacity ≤ g.slots.length
  · exact .inl ⟨_, _, by rw [addNode, if_neg taken, if_pos full]⟩
  have new : id ∉ g.ids.map (·.1) := by simpa using taken
  have keeps := (Behavior.setup b (g.blank id tag type)).run_fresh (g.blank_fresh id tag type)
  have start : (⟨id, tag, type, ⟨g.slots.length⟩, []⟩ : Node) = g.blank id tag type := rfl
  cases ran : (Behavior.setup b (g.blank id tag type)).run (g.blank id tag type) with
  | mk answer n =>
      rw [ran] at keeps
      cases answer with
      | error cause =>
          refine .inl ⟨cause, [.setup ⟨g.slots.length⟩], ?_⟩
          simp only [addNode, if_neg taken, if_neg full, start, ran]
      | ok c =>
          have named : n.id = id := keeps.2.id
          refine .inr ⟨⟨n, c⟩, keeps.1, keeps.2, new, rfl, ?_⟩
          simp only [addNode, if_neg taken, if_neg full, start, ran, pushNode, named]

theorem Sound.addNode [Behavior β] {g : Graph β} (sound : g.Sound) (id tag : String)
    (type : TypeKey) (b : β) : (g.addNode id tag type b).2.1.Sound := by
  obtain ⟨cause, events, same⟩ | ⟨s, fresh, head, new, _, added⟩ := addNode_cases g id tag type b
  · rwa [same]
  · rw [added]
    exact sound.pushNode fresh head.key (head.id ▸ new)

end Graph
end SignalGraph
