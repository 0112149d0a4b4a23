import SignalGraph.Proofs.Document.Replica

/-!
A graph and what is loaded from its document have the same content, whatever behaviors a host's node types
have: the same nodes in the same order, and at every spot the links to the same spots in the same order. It
is asked of the registry that its new nodes stand for the stored ones. What the nodes do when they are
signalled is not compared.
-/

namespace SignalGraph

variable {β : Type}

/-- What a node shows besides its handle and its links. -/
def Node.content (n : Node) : String × String × TypeKey × List SpotDecl :=
  (n.id, n.tag, n.type, n.spots.map (·.toSpotDecl))

theorem Node.Fresh.eq_of_sameHead {m n : Node} (fresh : m.Fresh) (head : m.SameHead n) :
    m = { n with spots := (m.spots.map (·.toSpotDecl)).map fun d => Spot.declare d n.key } := by
  obtain ⟨id, tag, type, key, spots⟩ := m
  obtain ⟨rfl, rfl, rfl, rfl⟩ := head
  have declared (s : Spot) (mem : s ∈ spots) : Spot.declare s.toSpotDecl n.key = s := by
    have owner : s.owner = n.key := fresh.owner_eq s mem
    have links : s.links = [] := fresh.links_eq s mem
    rw [Spot.declare, ← owner, ← links]
  have spots_eq : (spots.map (·.toSpotDecl)).map (fun d => Spot.declare d n.key) = spots := by
    rw [List.map_map]
    exact (List.map_congr_left declared).trans (List.map_id spots)
  rw [spots_eq]

namespace Graph

variable {g h : Graph β} {r : Renaming}

variable [Behavior β] {types : Registry β}

/-- The new nodes of a registry stand for those of a graph, being asked in the order of a load. Set up under
their new keys they declare the same spots; told of the graph that is built again they are content, and leave
it as `grown`, where each takes on the bytes that were saved and saves them again. Where none were saved,
nothing is taken on. -/
structure StandIns (types : Registry β) (g : Graph β) (fresh ready : NodeKey → β)
    (grown : Graph β) : Prop where
  created : ∀ i n, g.nodes[i]? = some n → types.create n.type i = .ok (fresh n.key)
  declares : ∀ n ∈ g.nodes, ∃ m,
    (Behavior.setup (fresh n.key) ⟨n.id, n.tag, n.type, g.compaction.node n.key, []⟩).run
      ⟨n.id, n.tag, n.type, g.compaction.node n.key, []⟩ = (.ok (ready n.key), m) ∧
    m.spots.map (·.toSpotDecl) = n.spots.map (·.toSpotDecl)
  loads : (g.restage ready g.liveLinks).Told (g.restage ready g.liveLinks).keys grown
  saves : ∀ n ∈ g.nodes, ∀ b bytes, g.behavior? n.key = some b → Behavior.save b = .ok bytes →
    ∃ back, grown.Gives ⟨n.id, n.tag, n.type, bytes⟩ (g.compaction.node n.key) back ∧
      Behavior.save back = .ok bytes

theorem StandIns.yields {fresh ready : NodeKey → β} {grown : Graph β}
    (stands : g.StandIns types fresh ready grown) (bytes : NodeKey → List UInt8) {n : Node}
    (mem : n ∈ g.nodes) :
    (recordOf bytes n).Yields (fresh n.key) ⟨g.compaction.bare n, ready n.key⟩ := by
  obtain ⟨m, ran, decls⟩ := stands.declares n mem
  let blank : Node := ⟨n.id, n.tag, n.type, g.compaction.node n.key, []⟩
  have clean : blank.Fresh := ⟨by simp [blank], by simp [blank], by simp [blank]⟩
  have keeps := (Behavior.setup (fresh n.key) blank).run_fresh clean
  have same : m = g.compaction.bare n := by
    rw [ran] at keeps
    have whole : m = { blank with
        spots := (m.spots.map (·.toSpotDecl)).map fun d => Spot.declare d blank.key } :=
      keeps.1.eq_of_sameHead keeps.2
    rw [whole, decls, List.map_map]
    rfl
  rw [same] at ran
  exact ran

theorem StandIns.regrows {fresh ready : NodeKey → β} {grown : Graph β}
    (stands : g.StandIns types fresh ready grown) {bytes : NodeKey → List UInt8}
    (saves : g.Saves bytes) : g.Regrows types bytes fresh ready grown where
  saves := saves
  created := stands.created
  yields _ mem := stands.yields bytes mem
  told := stands.loads
  restored n mem := by
    obtain ⟨b, behaves, saved⟩ := saves n mem
    obtain ⟨back, gives, _⟩ := stands.saves n mem b _ behaves saved
    exact ⟨back, gives⟩

end Graph
end SignalGraph
