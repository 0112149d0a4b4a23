import SignalGraph.Proofs.Document.Announcing
import SignalGraph.Proofs.Document.Replay
import SignalGraph.Proofs.Document.Restoring

/-!
Storing a graph and loading it again, whatever behaviors its nodes have. `Regrows` is what is asked of the
registry and of the nodes: they save, new nodes of their types declare the same spots, are content with the
graph, and take on what was saved. Then both succeed, and the loaded graph has the live parts of the first
under the numbers that the compaction gives them.
-/

namespace SignalGraph

variable {β : Type}

namespace Graph

open LinkArena

variable {g h : Graph β} {behavior : NodeKey → β}

/-! ### The graph that is built again -/

theorem restage_behavior? (sound : g.Sound) (done : List Link) {n : Node}
    (mem : n ∈ g.nodes) :
    (g.restage behavior done).behavior? (g.compaction.node n.key) = some (behavior n.key) := by
  rw [restage, behavior?_wire, behavior?, stage_slot? sound (node?_of_mem_nodes sound mem),
    Option.map_some]

theorem exists_node_of_restage (sound : g.Sound) {done : List Link} {key : NodeKey} {s : Slot β}
    (found : (g.restage behavior done).slot? key = some s) :
    ∃ n ∈ g.nodes, key = g.compaction.node n.key ∧ s.behavior = behavior n.key := by
  rw [restage, slot?_wire] at found
  obtain ⟨t, at_key, rfl⟩ := Option.map_eq_some_iff.mp found
  have at_index := Option.join_eq_some_iff.mp at_key
  simp only [stage, List.getElem?_map, Option.map_eq_some_iff] at at_index
  obtain ⟨n, at_n, same⟩ := at_index
  cases same
  exact ⟨n, List.mem_of_getElem? at_n, (compaction_node_eq sound at_n).symm, rfl⟩

theorem compaction_nodes_nodup (sound : g.Sound) :
    (g.nodes.map fun n => g.compaction.node n.key).Nodup := by
  refine List.Nodup.map_on ?_ (List.Nodup.of_map _ (nodeIds_nodup sound))
  intro n mem m mem' same
  have at_n := node?_of_mem_nodes sound mem
  have at_m := node?_of_mem_nodes sound mem'
  rw [compaction_node_inj sound (by rw [at_n]; rfl) same, at_m] at at_n
  exact (Option.some.inj at_n).symm

/-- The graph that is built again has the live parts of the first. -/
theorem renamed_of_restage (sound : g.Sound)
    (shape : h.shape = (g.restage behavior g.liveLinks).shape) : Renamed g.compaction g h where
  name := by
    have same := congrArg Graph.name shape
    exact same
  node key n found := by
    rw [node?_eq_of_shape shape, restage, node?_wire, stage_node? sound found, Option.map_some]
    congr 1
    simp only [Node.mapSpots, Renaming.bare, Renaming.nodeOf, Node.mk.injEq, true_and]
    apply List.ext_getElem?
    intro j
    rw [List.getElem?_mapIdx, List.getElem?_map, List.getElem?_map]
    cases at_j : n.spots[j]? with
    | none => rfl
    | some s =>
        have at_ref : g.spot? ⟨key, j⟩ = some s := spot?_eq_some_iff.mpr ⟨n, found, at_j⟩
        have links := touching_compaction sound (List.Subset.refl g.liveLinks) ⟨key, j⟩
        have list : s.links = (g.liveLinks.filter (·.touches ⟨key, j⟩)).map (·.id) :=
          sound.wired _ s at_ref
        have owner : s.owner = n.key := (sound.owner_eq _ s at_ref).trans (sound.key_eq key n found).symm
        simp only [Renaming.spotRef] at links
        simp only [Option.map_some, relist, links, Renaming.spotOf, list, owner, Spot.declare]
  ids := (ids_eq_of_shape shape).trans (stage_ids sound behavior)
  liveLinks := by
    rw [liveLinks, links_eq_of_shape shape, restage, links_wire, List.filterMap_map,
      ← List.filterMap_eq_map]
    rfl
  link id l found := by
    have at_number := liveLinks_at_compaction sound found
    rw [link?_eq_some_iff, links_eq_of_shape shape, restage, links_wire, List.getElem?_map, at_number]
    rfl
  node_inj _ _ live _ := compaction_node_inj sound live
  link_inj _ _ live _ := compaction_link_inj sound live

variable [Behavior β] {bytes : NodeKey → List UInt8}

/-! ### Storing -/

def Saves (g : Graph β) (bytes : NodeKey → List UInt8) : Prop :=
  ∀ n ∈ g.nodes, ∃ b, g.behavior? n.key = some b ∧ Behavior.save b = .ok (bytes n.key)

theorem exists_saveNodes {ns : List Node}
    (saves : ∀ n ∈ ns, ∃ b, g.behavior? n.key = some b ∧ Behavior.save b = .ok (bytes n.key)) :
    ∃ events, g.saveNodes ns = (.ok (ns.map (recordOf bytes)), events) := by
  induction ns with
  | nil => exact ⟨[], rfl⟩
  | cons n ns ih =>
      obtain ⟨events, rest⟩ := ih fun m mem => saves m (by simp [mem])
      obtain ⟨b, behaves, saved⟩ := saves n (by simp)
      refine ⟨.save n.key :: events, ?_⟩
      simp only [saveNodes, behaves, saved, rest]
      rfl

theorem exists_snapshot (sound : g.Sound) (saves : g.Saves bytes) :
    ∃ records events, g.snapshot = (.ok { Document.empty g.name with
        nodes := g.nodes.map (recordOf bytes), links := records }, events) ∧
      List.Forall₂ (fun l record => g.saveLink l = .ok record) g.liveLinks records := by
  obtain ⟨events, nodes⟩ := exists_saveNodes saves
  obtain ⟨records, each⟩ := exists_forall₂_of_forall_mem fun _ => exists_saveLink sound
  exact ⟨records, events, by simp only [snapshot, nodes, mapM_eq_ok_iff.mpr each], each⟩

/-! ### Loading -/

/-- What becomes of the nodes when the graph is stored and loaded again: their new behaviors as they are
created, once they are set up, and the graph once all are told of it. There each can take on the bytes that
were saved. -/
structure Regrows (types : Registry β) (g : Graph β) (bytes : NodeKey → List UInt8)
    (fresh ready : NodeKey → β) (grown : Graph β) : Prop where
  saves : g.Saves bytes
  created : ∀ i n, g.nodes[i]? = some n → types.create n.type i = .ok (fresh n.key)
  yields : ∀ n ∈ g.nodes,
    (recordOf bytes n).Yields (fresh n.key) ⟨g.compaction.bare n, ready n.key⟩
  told : (g.restage ready g.liveLinks).Told (g.restage ready g.liveLinks).keys grown
  restored : ∀ n ∈ g.nodes, ∃ c, grown.Gives (recordOf bytes n) (g.compaction.node n.key) c

/-- A graph that regrows can be stored and loaded again. -/
theorem exists_load (sound : g.Sound) (legal : g.Legal) (fits : g.Fits) {types : Registry β}
    {fresh ready : NodeKey → β} {grown : Graph β}
    (regrows : g.Regrows types bytes fresh ready grown) :
    ∃ d saves h calls, g.snapshot = (.ok d, saves) ∧ load d types = (.ok h, calls) ∧
      h.shape = (g.restage ready g.liveLinks).shape ∧
      ∀ n ∈ g.nodes, ∀ c, grown.Gives (recordOf bytes n) (g.compaction.node n.key) c →
        h.behavior? (g.compaction.node n.key) = some c := by
  obtain ⟨records, saves, stored, saved⟩ := exists_snapshot sound regrows.saves
  have created : (g.nodes.map (recordOf bytes)).zipIdx.mapM
      (fun p => types.create p.1.type p.2) = .ok (g.nodes.map fun n => fresh n.key) := by
    rw [mapM_eq_ok_iff, List.forall₂_map_right_iff, List.forall₂_iff_get]
    refine ⟨by simp, fun i _ within => ?_⟩
    simpa [recordOf] using regrows.created i _ (List.getElem?_eq_getElem within)
  have yields : List.Forall₂
      (fun r n => r.1.Yields r.2 (⟨g.compaction.bare n, ready n.key⟩ : Slot β))
      (g.nodes.map fun n => (recordOf bytes n, fresh n.key)) g.nodes := by
    rw [List.forall₂_map_left_iff, List.forall₂_same]
    exact regrows.yields
  obtain ⟨setups, start⟩ := addRecords_stage sound fits yields
  have linked : records.foldlM linkRecord (g.stage ready g.nodes) =
      .ok (g.restage ready g.liveLinks) := by
    have bare : g.restage ready [] = g.stage ready g.nodes := (stage_wired g.nodes).wire_self
    rw [← bare]
    exact linkRecords_restage sound legal fits (List.nil_append g.liveLinks) saved
  obtain ⟨calls, announced⟩ : ∃ calls, (g.restage ready g.liveLinks).announce
      (g.restage ready g.liveLinks).keys = (.ok grown, calls) :=
    ⟨_, Prod.ext (announce_eq_ok_iff.mpr regrows.told) rfl⟩
  let pairs := g.nodes.map fun n => (recordOf bytes n, g.compaction.node n.key)
  have nodup : (pairs.map (·.2)).Nodup := by
    simpa [pairs, Function.comp_def] using compaction_nodes_nodup sound
  have live : ∀ p ∈ pairs, (grown.behavior? p.2).isSome := List.forall_mem_map.mpr fun n mem => by
    obtain ⟨_, b, found, _⟩ := regrows.restored n mem
    rw [found]
    rfl
  obtain ⟨h, taken⟩ := (exists_restoreStates_iff nodup live).mpr
    (List.forall_mem_map.mpr regrows.restored)
  obtain ⟨shape, states, _⟩ := restoreStates_spec nodup taken
  have version (nodes : List NodeRecord) (links : List LinkRecord) :
      Document.checkVersion ⟨g.name, Document.currentVersion, nodes, links⟩ = .ok () := rfl
  refine ⟨_, saves, h, setups ++ calls ++ (grown.restoreStates pairs).2, stored, ?_,
    shape.trans regrows.told.shape, ?_⟩
  · simp only [load, Document.empty, version, created, List.zip_map', start, linked, announced]
    exact Prod.ext taken rfl
  · exact fun n mem => states _ (List.mem_map_of_mem mem)

end Graph
end SignalGraph
