import SignalGraph.Proofs.Document.Assembly
import SignalGraph.Proofs.Graph.Capacity
import SignalGraph.Proofs.Graph.Compaction
import SignalGraph.Proofs.Graph.Legal

/-!
Building a graph again from its live parts: first the nodes in the order of their addition, then the links
in the order of their creation. Every link that is legal in the old graph is legal when its turn comes,
since the links before it are some of those that it was legal beside.
-/

namespace SignalGraph

variable {β : Type}

/-- The node under its new handle, with its spots declared anew. -/
def Renaming.bare (r : Renaming) (n : Node) : Node :=
  { n with
    key := r.node n.key
    spots := n.spots.map fun s => Spot.declare s.toSpotDecl (r.node n.key) }

namespace Graph

open LinkArena

variable {g : Graph β} {behavior : NodeKey → β}

def recordOf (bytes : NodeKey → List UInt8) (n : Node) : NodeRecord :=
  ⟨n.id, n.tag, n.type, bytes n.key⟩

/-! ### The nodes -/

/-- The graph of some of the live nodes, without links, in which they have other behaviors. -/
def stage (g : Graph β) (behavior : NodeKey → β) (done : List Node) : Graph β where
  name := g.name
  slots := done.map fun n => some ⟨g.compaction.bare n, behavior n.key⟩
  links := []
  ids := done.map fun n => (n.id, g.compaction.node n.key)

theorem stage_slot? (sound : g.Sound) {key : NodeKey} {n : Node} (found : g.node? key = some n) :
    (g.stage behavior g.nodes).slot? (g.compaction.node key) =
      some ⟨g.compaction.bare n, behavior key⟩ := by
  simp only [slot?, stage, List.getElem?_map, nodes_at_compaction sound found, Option.map_some,
    Option.join_some, sound.key_eq key n found]

theorem stage_node? (sound : g.Sound) {key : NodeKey} {n : Node} (found : g.node? key = some n) :
    (g.stage behavior g.nodes).node? (g.compaction.node key) = some (g.compaction.bare n) := by
  rw [node?, stage_slot? sound found]
  rfl

theorem stage_spot? (sound : g.Sound) {ref : SpotRef} {s : Spot} (found : g.spot? ref = some s) :
    (g.stage behavior g.nodes).spot? (g.compaction.spotRef ref) =
      some (Spot.declare s.toSpotDecl (g.compaction.node ref.node)) := by
  obtain ⟨n, at_key, at_index⟩ := spot?_eq_some_iff.mp found
  refine spot?_eq_some_iff.mpr ⟨_, stage_node? sound at_key, ?_⟩
  have key : n.key = ref.node := sound.key_eq _ n at_key
  simp [Renaming.bare, Renaming.spotRef, at_index, key]

theorem stage_ids (sound : g.Sound) (behavior : NodeKey → β) : (g.stage behavior g.nodes).ids =
    g.ids.map fun entry => (entry.1, g.compaction.node entry.2) := by
  rw [← ids_eq_nodes sound, List.map_map]
  rfl

theorem stage_wired (done : List Node) : (g.stage behavior done).Wired := by
  intro ref s found
  obtain ⟨n, at_key, at_index⟩ := spot?_eq_some_iff.mp found
  obtain ⟨slot, at_slot, rfl⟩ := Option.map_eq_some_iff.mp at_key
  have mem := List.mem_of_getElem? (Option.join_eq_some_iff.mp at_slot)
  obtain ⟨m, _, same⟩ := List.mem_map.mp mem
  cases same
  obtain ⟨t, _, rfl⟩ := List.mem_map.mp (List.mem_of_getElem? at_index)
  rfl

theorem stage_eq_extend (g : Graph β) (behavior : NodeKey → β) :
    g.stage behavior g.nodes =
      (empty g.name).extend (g.nodes.map fun n => ⟨g.compaction.bare n, behavior n.key⟩) := by
  simp only [stage, extend, empty, List.nil_append, List.map_map]
  rfl

theorem addRecords_stage [Behavior β] (sound : g.Sound) (fits : g.Fits)
    {records : List (NodeRecord × β)}
    (yields : List.Forall₂ (fun r n => r.1.Yields r.2 ⟨g.compaction.bare n, behavior n.key⟩)
      records g.nodes) :
    ∃ events, (empty g.name).addRecords records =
      (.ok (g.stage behavior g.nodes, g.nodes.map fun n => g.compaction.node n.key), events) := by
  have ids : records.map (·.1.id) = g.nodes.map (·.id) := by
    generalize g.nodes = ns at yields
    induction yields with
    | nil => rfl
    | cons first _ ih => rw [List.map_cons, List.map_cons, ← first.id_eq, ih]; rfl
  have keys (i : Nat) (s : Slot β)
      (at_i : (g.nodes.map fun n => (⟨g.compaction.bare n, behavior n.key⟩ : Slot β))[i]? = some s) :
      s.node.key = ⟨(empty (β := β) g.name).slots.length + i⟩ := by
    rw [List.getElem?_map, Option.map_eq_some_iff] at at_i
    obtain ⟨n, at_n, rfl⟩ := at_i
    change g.compaction.node n.key = ⟨0 + i⟩
    rw [compaction_node_eq sound at_n, Nat.zero_add]
  have nodup : ((empty (β := β) g.name).ids.map (·.1) ++ records.map (·.1.id)).Nodup := by
    rw [ids]
    exact nodeIds_nodup sound
  have room : (empty (β := β) g.name).slots.length + records.length ≤ capacity := by
    rw [yields.length_eq, length_nodes sound]
    simpa [empty] using Nat.le_trans (nodeCount_le sound) fits.slots
  have added := addRecords_eq_extend ⟨List.forall₂_map_right_iff.mpr yields, keys, nodup, room⟩
  rw [added, stage_eq_extend, List.map_map]
  exact ⟨_, rfl⟩

/-! ### The links -/

/-- The graph of the live nodes with some of the links between them. -/
def restage (g : Graph β) (behavior : NodeKey → β) (done : List Link) : Graph β :=
  (g.stage behavior g.nodes).wire (done.map fun l => some (g.compaction.linkOf l))

theorem restage_resolve (sound : g.Sound) (done : List Link) {ref : SpotRef} {n : Node} {s : Spot}
    (found : g.node? ref.node = some n) (at_index : n.spots[ref.index]? = some s) :
    (g.restage behavior done).resolve n.id s.id = .ok (g.compaction.spotRef ref) := by
  have by_id : (g.restage behavior done).find? n.id = some (g.compaction.node ref.node) := by
    have ids : (g.restage behavior done).ids =
        g.ids.map fun entry => (entry.1, g.compaction.node entry.2) :=
      stage_ids sound behavior
    rw [find?, ids]
    refine lookup_of_mem_nodup ?_ ?_
    · rw [List.map_map]
      exact sound.ids_nodup
    · exact List.mem_map.mpr ⟨(n.id, ref.node), (sound.mem_ids _ _).mpr ⟨n, found, rfl⟩, rfl⟩
  let m := (g.compaction.bare n).mapSpots fun j =>
    relist (done.map fun l => some (g.compaction.linkOf l)) ⟨g.compaction.node ref.node, j⟩
  have node : (g.restage behavior done).node (g.compaction.node ref.node) = .ok m := by
    rw [node_eq_ok_iff, restage, node?_wire, stage_node? sound found]
    rfl
  have ids : m.spots.map (·.id) = n.spots.map (·.id) := by
    apply List.ext_getElem?
    intro j
    rw [List.getElem?_map, Node.mapSpots_getElem?, Renaming.bare, List.getElem?_map,
      List.getElem?_map]
    cases n.spots[j]? <;> rfl
  have at_t : (m.spots[ref.index]?).map (·.id) = some s.id := by
    rw [← List.getElem?_map, ids, List.getElem?_map, at_index]
    rfl
  obtain ⟨t, at_index', id⟩ := Option.map_eq_some_iff.mp at_t
  have index : m.spotIndex? s.id = some ref.index := by
    rw [← id]
    exact Node.spotIndex?_eq_some (ids ▸ sound.spotIds_nodup _ n found) at_index'
  simp only [resolve, by_id, node, bind, Except.bind, index]
  rfl

theorem restage_spot? (sound : g.Sound) (done : List Link) {ref : SpotRef} {s : Spot}
    (found : g.spot? ref = some s) :
    (g.restage behavior done).spot? (g.compaction.spotRef ref) =
      some (relist (done.map fun l => some (g.compaction.linkOf l)) (g.compaction.spotRef ref)
        (Spot.declare s.toSpotDecl (g.compaction.node ref.node))) :=
  spot?_wire_of_spot? (stage_spot? sound found) _

theorem restage_checkLink (sound : g.Sound) (legal : g.Legal) (fits : g.Fits) {done : List Link}
    {l : Link} (next : done ++ [l] <+: g.liveLinks) :
    (g.restage behavior done).checkLink (g.compaction.spotRef l.a) (g.compaction.spotRef l.b) =
      .ok () := by
  have pre : done <+: g.liveLinks := (List.prefix_append done [l]).trans next
  have mem : l ∈ g.liveLinks := next.subset (by simp)
  obtain ⟨s, t, at_a, at_b, direction, category⟩ := legal.joins l mem
  have room {ref : SpotRef} {u : Spot} (found : g.spot? ref = some u) (touches : l.touches ref) :
      u.arity.admits ((touching (done.map fun l => some (g.compaction.linkOf l))
        (g.compaction.spotRef ref)).length + 1) := by
    refine Arity.admits_of_le ?_ (legal.roomy ref u found)
    have fewer : ((done ++ [l]).filter (·.touches ref)).length ≤
        ((live g.links).filter (·.touches ref)).length :=
      (next.sublist.filter _).length_le
    rw [touching_compaction sound pre.subset, List.length_map, List.length_map, touching,
      List.length_map]
    simpa [List.filter_append, touches] using fewer
  have room_a := room at_a (Link.touches_iff.mpr (.inl rfl))
  have room_b := room at_b (Link.touches_iff.mpr (.inr rfl))
  refine checkLink_eq_ok_iff.mpr ⟨_, _, restage_spot? sound done at_a, restage_spot? sound done at_b,
    ⟨direction, category, room_a, room_b⟩, ?_, ?_⟩
  swap
  · have fewer : done.length + 1 ≤ g.linkCount := by simpa [linkCount] using next.length_le
    have size : (g.restage behavior done).links.length = done.length := by simp [restage]
    exact size ▸ Nat.le_trans fewer (Nat.le_trans g.linkCount_le fits.links)
  intro id listed m found again
  obtain ⟨m', at_id, touches⟩ := (mem_touching_iff (numbered_compaction sound pre)).mp listed
  obtain rfl : m = m' := by
    have both := (link?_eq_some_iff.mp found).symm.trans at_id
    cases both
    rfl
  obtain ⟨k, old, same⟩ := List.mem_map.mp (List.mem_of_getElem? at_id)
  obtain rfl := Option.some.inj same
  rw [compaction_touches_iff sound (pre.subset old)] at touches again
  have apart : (done ++ [l]).Pairwise fun l m => ¬ l.Repeats m := legal.apart.sublist next.sublist
  exact (List.pairwise_append.mp apart).2.2 k old l (by simp) ⟨touches, again⟩

theorem linkRecord_restage (sound : g.Sound) (legal : g.Legal) (fits : g.Fits) {done : List Link}
    {l : Link} (next : done ++ [l] <+: g.liveLinks) {record : LinkRecord} (saved : g.saveLink l = .ok record) :
    (g.restage behavior done).linkRecord record = .ok (g.restage behavior (done ++ [l])) := by
  obtain ⟨at_a, at_b⟩ := saveLink_eq_ok_iff.mp saved
  obtain ⟨n, s, node_a, spot_a, first⟩ := address_eq_ok_iff.mp at_a
  obtain ⟨m, t, node_b, spot_b, second⟩ := address_eq_ok_iff.mp at_b
  refine linkRecord_eq_ok_iff.mpr ⟨g.compaction.spotRef l.a, g.compaction.spotRef l.b,
    ⟨done.length⟩, ?_, ?_, ?_⟩
  · rw [first]
    exact restage_resolve sound done node_a spot_a
  · rw [second]
    exact restage_resolve sound done node_b spot_b
  have wired : (g.restage behavior done).Wired := wired_wire _ _
  have size : (g.restage behavior done).links.length = done.length := by simp [restage]
  have last : g.compaction.linkOf l =
      ⟨⟨done.length⟩, g.compaction.spotRef l.a, g.compaction.spotRef l.b⟩ := by
    rw [Renaming.linkOf, compaction_link_eq sound next]
  rw [link_eq_of_checkLink wired (restage_checkLink sound legal fits next), size, ← last]
  simp only [restage, wire_wire, links_wire, List.map_append, List.map_cons, List.map_nil]

theorem linkRecords_restage (sound : g.Sound) (legal : g.Legal) (fits : g.Fits)
    {done rest : List Link} (whole : done ++ rest = g.liveLinks) {records : List LinkRecord}
    (saved : List.Forall₂ (fun l record => g.saveLink l = .ok record) rest records) :
    records.foldlM linkRecord (g.restage behavior done) =
      .ok (g.restage behavior g.liveLinks) := by
  induction saved generalizing done with
  | nil =>
      rw [List.append_nil] at whole
      subst whole
      rfl
  | @cons l record rest records first _ ih =>
      have next : done ++ [l] <+: g.liveLinks := ⟨rest, by simpa using whole⟩
      rw [List.foldlM_cons, linkRecord_restage sound legal fits next first]
      exact ih (by simpa using whole)

end Graph
end SignalGraph
