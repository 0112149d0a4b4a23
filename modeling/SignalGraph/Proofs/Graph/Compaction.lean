import SignalGraph.Proofs.Graph.Renaming

/-!
Counting the live parts of a graph in their order. The numbers are the handles that nodes and links have
in a graph that is stored and loaded again; the order of the old handles is kept, and dead ones have no
number of their own.
-/

namespace SignalGraph

theorem getElem?_filterMap_of_isSome {α γ : Type} {f : α → Option γ} {l : List α}
    (all : ∀ a ∈ l, (f a).isSome) (j : Nat) : (l.filterMap f)[j]? = l[j]?.bind f := by
  induction l generalizing j with
  | nil => rfl
  | cons a l ih =>
      obtain ⟨c, image⟩ := Option.isSome_iff_exists.mp (all a (by simp))
      rw [List.filterMap_cons_some image]
      cases j with
      | zero => simp [image]
      | succ j => simpa using ih (fun b mem => all b (by simp [mem])) j

theorem idxOf_eq_of_getElem? {α : Type} [DecidableEq α] {l : List α} (nodup : l.Nodup) {a : α}
    {j : Nat} (at_j : l[j]? = some a) : l.idxOf a = j := by
  obtain ⟨bound, rfl⟩ := List.getElem?_eq_some_iff.mp at_j
  exact nodup.idxOf_getElem j bound

theorem idxOf_lt_idxOf_of_sorted {α : Type} [DecidableEq α] {f : α → Nat} {l : List α}
    (sorted : l.Pairwise (f · < f ·)) {a b : α} (mem : a ∈ l) (mem' : b ∈ l) (less : f a < f b) :
    l.idxOf a < l.idxOf b := by
  have bound := List.idxOf_lt_length_iff.mpr mem
  have bound' := List.idxOf_lt_length_iff.mpr mem'
  obtain before | same | after := Nat.lt_trichotomy (l.idxOf a) (l.idxOf b)
  · exact before
  · rw [(List.idxOf_inj mem).mp same] at less
    exact absurd less (Nat.lt_irrefl _)
  · have reverse := List.pairwise_iff_getElem.mp sorted _ _ bound' bound after
    rw [List.getElem_idxOf bound, List.getElem_idxOf bound'] at reverse
    omega

/-- New handles that stand in the order of the old ones, as far as these are live. -/
structure Renaming.KeepsOrder {β : Type} (r : Renaming) (g : Graph β) : Prop where
  node : ∀ key key', (g.node? key).isSome → (g.node? key').isSome → key.index < key'.index →
    (r.node key).index < (r.node key').index
  link : ∀ id id', (g.link? id).isSome → (g.link? id').isSome → id.index < id'.index →
    (r.link id).index < (r.link id').index

namespace Graph

open LinkArena

variable {β : Type} {g : Graph β}

/-- Numbers the live nodes and the live links, each in their order. -/
def compaction (g : Graph β) : Renaming where
  node key := ⟨g.keys.idxOf key⟩
  link id := ⟨(g.liveLinks.map (·.id)).idxOf id⟩

/-! ### Nodes -/

theorem keys_nodup (sound : g.Sound) : g.keys.Nodup := nodup_of_sorted sound.keys_sorted

theorem mem_keys_iff (sound : g.Sound) {key : NodeKey} :
    key ∈ g.keys ↔ (g.node? key).isSome := by
  simp only [keys, List.mem_map]
  constructor
  · intro listed
    obtain ⟨entry, mem, rfl⟩ := listed
    obtain ⟨n, found, _⟩ := (sound.mem_ids entry.1 entry.2).mp mem
    rw [found]
    rfl
  · intro live
    obtain ⟨n, found⟩ := Option.isSome_iff_exists.mp live
    exact ⟨(n.id, key), (sound.mem_ids n.id key).mpr ⟨n, found, rfl⟩, rfl⟩

theorem nodes_getElem? (sound : g.Sound) (j : Nat) : g.nodes[j]? = g.keys[j]?.bind g.node? :=
  getElem?_filterMap_of_isSome (fun _ mem => (mem_keys_iff sound).mp mem) j

theorem node?_of_mem_nodes (sound : g.Sound) {n : Node} (mem : n ∈ g.nodes) :
    g.node? n.key = some n := by
  obtain ⟨key, _, found⟩ := List.mem_filterMap.mp mem
  rwa [sound.key_eq key n found]

theorem ids_eq_nodes (sound : g.Sound) : g.nodes.map (fun n => (n.id, n.key)) = g.ids := by
  apply List.ext_getElem?
  intro j
  rw [List.getElem?_map, nodes_getElem? sound, keys, List.getElem?_map]
  cases at_j : g.ids[j]? with
  | none => rfl
  | some entry =>
      obtain ⟨id, key⟩ := entry
      obtain ⟨n, found, rfl⟩ := (sound.mem_ids id key).mp (List.mem_of_getElem? at_j)
      simp [found, sound.key_eq key n found]

theorem length_nodes (sound : g.Sound) : g.nodes.length = g.nodeCount := by
  rw [nodeCount, ← ids_eq_nodes sound, List.length_map]

theorem map_key_nodes (sound : g.Sound) : g.nodes.map (·.key) = g.keys := by
  rw [keys, ← ids_eq_nodes sound, List.map_map]
  rfl

theorem nodeIds_nodup (sound : g.Sound) : (g.nodes.map (·.id)).Nodup := by
  have ids := sound.ids_nodup
  rwa [← ids_eq_nodes sound, List.map_map] at ids

theorem nodes_at_compaction (sound : g.Sound) {key : NodeKey} {n : Node}
    (found : g.node? key = some n) : g.nodes[(g.compaction.node key).index]? = some n := by
  have mem : key ∈ g.keys := (mem_keys_iff sound).mpr (by rw [found]; rfl)
  rw [nodes_getElem? sound]
  simp only [compaction]
  rw [List.getElem?_idxOf mem]
  exact found

theorem compaction_node_eq (sound : g.Sound) {j : Nat} {n : Node} (at_j : g.nodes[j]? = some n) :
    g.compaction.node n.key = ⟨j⟩ := by
  have key : g.keys[j]? = some n.key := by
    rw [← map_key_nodes sound, List.getElem?_map, at_j]
    rfl
  simp only [compaction, idxOf_eq_of_getElem? (keys_nodup sound) key]

theorem compaction_node_inj (sound : g.Sound) {key key' : NodeKey} (live : (g.node? key).isSome)
    (same : g.compaction.node key = g.compaction.node key') : key = key' :=
  (List.idxOf_inj ((mem_keys_iff sound).mpr live)).mp (congrArg NodeKey.index same)

theorem compaction_spotRef_inj (sound : g.Sound) {ref ref' : SpotRef}
    (live : (g.node? ref.node).isSome)
    (same : g.compaction.spotRef ref = g.compaction.spotRef ref') : ref = ref' := by
  obtain ⟨node, index⟩ := ref
  obtain ⟨node', index'⟩ := ref'
  simp only [Renaming.spotRef, SpotRef.mk.injEq] at same ⊢
  exact ⟨compaction_node_inj sound live same.1, same.2⟩

/-! ### Links -/

theorem linkIds_sorted (sound : g.Sound) :
    (g.liveLinks.map (·.id)).Pairwise (·.index < ·.index) := by
  rw [List.pairwise_map]
  exact live_sorted sound.numbered

theorem linkIds_nodup (sound : g.Sound) : (g.liveLinks.map (·.id)).Nodup :=
  nodup_of_sorted (linkIds_sorted sound)

theorem mem_linkIds (sound : g.Sound) {id : LinkId} (live : (g.link? id).isSome) :
    id ∈ g.liveLinks.map (·.id) := by
  obtain ⟨l, found⟩ := Option.isSome_iff_exists.mp live
  have own : l.id = id := sound.numbered _ l (link?_eq_some_iff.mp found)
  exact own ▸ List.mem_map_of_mem (mem_live_of_link? found)

theorem compaction_link_eq (sound : g.Sound) {before : List Link} {l : Link}
    (next : before ++ [l] <+: g.liveLinks) : g.compaction.link l.id = ⟨before.length⟩ := by
  have at_end : (g.liveLinks.map (·.id))[before.length]? = some l.id := by
    obtain ⟨rest, whole⟩ := next
    rw [← whole]
    simp
  simp only [compaction, idxOf_eq_of_getElem? (linkIds_nodup sound) at_end]

theorem liveLinks_at_compaction (sound : g.Sound) {id : LinkId} {l : Link}
    (found : g.link? id = some l) : g.liveLinks[(g.compaction.link id).index]? = some l := by
  have mem := mem_live_of_link? found
  obtain rfl : l.id = id := sound.numbered _ l (link?_eq_some_iff.mp found)
  obtain ⟨j, at_j⟩ := List.mem_iff_getElem?.mp mem
  have id_at_j : (g.liveLinks.map (·.id))[j]? = some l.id := by
    rw [List.getElem?_map]
    change (live g.links)[j]?.map _ = _
    rw [at_j]
    rfl
  simp only [compaction, idxOf_eq_of_getElem? (linkIds_nodup sound) id_at_j]
  exact at_j

theorem compaction_link_inj (sound : g.Sound) {id id' : LinkId} (live : (g.link? id).isSome)
    (same : g.compaction.link id = g.compaction.link id') : id = id' :=
  (List.idxOf_inj (mem_linkIds sound live)).mp (congrArg LinkId.index same)

theorem keepsOrder_compaction (sound : g.Sound) : g.compaction.KeepsOrder g where
  node _ _ live live' less := idxOf_lt_idxOf_of_sorted sound.keys_sorted
    ((mem_keys_iff sound).mpr live) ((mem_keys_iff sound).mpr live') less
  link _ _ live live' less := idxOf_lt_idxOf_of_sorted (linkIds_sorted sound)
    (mem_linkIds sound live) (mem_linkIds sound live') less

theorem compaction_touches_iff (sound : g.Sound) {l : Link} (mem : l ∈ g.liveLinks) {ref : SpotRef} :
    (g.compaction.linkOf l).touches (g.compaction.spotRef ref) ↔ l.touches ref := by
  obtain ⟨first, second⟩ := sound.ends_of_mem_live mem
  have live_a := isSome_node?_of_spot? first
  have live_b := isSome_node?_of_spot? second
  rw [Link.touches_iff, Link.touches_iff]
  constructor
  · intro touches
    obtain same | same := touches
    · exact .inl (compaction_spotRef_inj sound live_a same.symm).symm
    · exact .inr (compaction_spotRef_inj sound live_b same.symm).symm
  · intro touches
    obtain rfl | rfl := touches
    · exact .inl rfl
    · exact .inr rfl

theorem numbered_compaction (sound : g.Sound) {ls : List Link} (pre : ls <+: g.liveLinks) :
    Numbered (ls.map fun l => some (g.compaction.linkOf l)) := by
  intro i m at_i
  rw [List.getElem?_map, Option.map_eq_some_iff] at at_i
  obtain ⟨l, at_l, same⟩ := at_i
  obtain rfl := Option.some.inj same
  obtain ⟨bound, rfl⟩ := List.getElem?_eq_some_iff.mp at_l
  have before : ls.take i ++ [ls[i]] <+: g.liveLinks := by
    rw [List.take_append_getElem bound]
    exact (List.take_prefix _ _).trans pre
  change g.compaction.link ls[i].id = _
  rw [compaction_link_eq sound before, List.length_take, Nat.min_eq_left (by omega)]

theorem touching_compaction (sound : g.Sound) {ls : List Link} (sub : ls ⊆ g.liveLinks)
    (ref : SpotRef) :
    touching (ls.map fun l => some (g.compaction.linkOf l)) (g.compaction.spotRef ref) =
      ((ls.filter (·.touches ref)).map (·.id)).map g.compaction.link := by
  have same : (ls.filter fun l => (g.compaction.linkOf l).touches (g.compaction.spotRef ref)) =
      ls.filter (·.touches ref) := by
    refine List.filter_congr ?_
    intro l mem
    rw [Bool.eq_iff_iff]
    exact compaction_touches_iff sound (sub mem)
  have renamed : live (ls.map fun l => some (g.compaction.linkOf l)) =
      ls.map g.compaction.linkOf := by
    simp [live, List.filterMap_map]
  rw [touching, renamed, List.filter_map, List.map_map, List.map_map, ← same]
  rfl

end Graph
end SignalGraph
