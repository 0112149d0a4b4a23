import SignalGraph.Proofs.Builtin.Storing
import SignalGraph.Proofs.Graph.Addresses

/-!
Graphs that are the same but for their handles. `Renamed` compares their live parts, whatever the nodes'
behaviors are; empty slots are not compared. `Alike` also compares the states of library nodes, but for
which instance began an entry. Addresses by ID stand for the renamed spots, and graphs whose behaviors save
the same bytes are stored as the same document.
-/

namespace SignalGraph

open Builtin

variable {β : Type}

structure Renaming where
  node : NodeKey → NodeKey
  link : LinkId → LinkId

namespace Renaming

variable (r : Renaming)

def spotRef (ref : SpotRef) : SpotRef := ⟨r.node ref.node, ref.index⟩

def spotOf (s : Spot) : Spot := { s with owner := r.node s.owner, links := s.links.map r.link }

def nodeOf (n : Node) : Node := { n with key := r.node n.key, spots := n.spots.map r.spotOf }

def linkOf (l : Link) : Link := ⟨r.link l.id, r.spotRef l.a, r.spotRef l.b⟩

def event : Event → Event
  | .setup node => .setup (r.node node)
  | .loaded node ownLinks nodes links => .loaded (r.node node) ownLinks nodes links
  | .save node => .save (r.node node)
  | .restore node state => .restore (r.node node) state
  | .begin node => .begin (r.node node)
  | .signal node spot source args => .signal (r.node node) spot (r.spotRef source) args
  | .send source args => .send (r.spotRef source) args
  | .log level tag text => .log level tag text
  | .note text => .note text

/-- Of the errors of a run among library nodes, only the one of the cycle guard names a handle. -/
def error : RunError → RunError
  | .cycle link label => .cycle (r.link link) label
  | cause => cause

def result (answer : Option (Except RunError Unit)) : Option (Except RunError Unit) :=
  answer.map (Except.mapError r.error)

end Renaming

namespace Graph

variable {r : Renaming} {wrap : Builtin → β} {g h : Graph β}

/-- The live parts of the second graph are those of the first, with renamed handles. -/
structure Renamed (r : Renaming) (g h : Graph β) : Prop where
  name : h.name = g.name
  node : ∀ key n, g.node? key = some n → h.node? (r.node key) = some (r.nodeOf n)
  ids : h.ids = g.ids.map fun entry => (entry.1, r.node entry.2)
  liveLinks : h.liveLinks = g.liveLinks.map r.linkOf
  link : ∀ id l, g.link? id = some l → h.link? (r.link id) = some (r.linkOf l)
  node_inj : ∀ key key', (g.node? key).isSome → (g.node? key').isSome →
    r.node key = r.node key' → key = key'
  link_inj : ∀ id id', (g.link? id).isSome → (g.link? id').isSome →
    r.link id = r.link id' → id = id'

/-- So it is for graphs of library nodes, and each node is in the state that its counterpart is in. -/
structure Alike (r : Renaming) (wrap : Builtin → β) (g h : Graph β) : Prop extends Renamed r g h where
  behavior : ∀ key c, g.behavior? key = some c →
    ∃ b b', c = wrap b ∧ h.behavior? (r.node key) = some (wrap b') ∧ b'.stored = b.stored

theorem isSome_node?_of_find? (sound : g.Sound) {id : String} {key : NodeKey}
    (found : g.find? id = some key) : (g.node? key).isSome := by
  obtain ⟨n, at_key, _⟩ := (find?_eq_some_iff sound).mp found
  rw [at_key]
  rfl

namespace Renamed

theorem label (renamed : Renamed r g h) {key : NodeKey} (live : (g.node? key).isSome) :
    h.label (r.node key) = g.label key := by
  obtain ⟨n, found⟩ := Option.isSome_iff_exists.mp live
  simp only [Graph.label, renamed.node key n found, found]
  rfl

theorem spotRef_inj (renamed : Renamed r g h) {ref ref' : SpotRef}
    (live : (g.node? ref.node).isSome) (live' : (g.node? ref'.node).isSome)
    (same : r.spotRef ref = r.spotRef ref') : ref = ref' := by
  obtain ⟨node, index⟩ := ref
  obtain ⟨node', index'⟩ := ref'
  simp only [Renaming.spotRef, SpotRef.mk.injEq] at same ⊢
  exact ⟨renamed.node_inj node node' live live' same.1, same.2⟩

theorem spot (renamed : Renamed r g h) {ref : SpotRef} (live : (g.node? ref.node).isSome) :
    h.spot (r.spotRef ref) = (g.spot ref).map r.spotOf := by
  obtain ⟨n, found⟩ := Option.isSome_iff_exists.mp live
  have first : g.node ref.node = .ok n := node_eq_ok_iff.mpr found
  have second : h.node (r.node ref.node) = .ok (r.nodeOf n) :=
    node_eq_ok_iff.mpr (renamed.node _ n found)
  simp only [Graph.spot, Renaming.spotRef, first, second, bind, Except.bind, Node.spotAt,
    Renaming.nodeOf, List.getElem?_map, List.length_map]
  cases n.spots[ref.index]? <;> rfl

theorem farEnd (renamed : Renamed r g h) (sound : g.Sound) {id : LinkId} {l : Link}
    (live : g.link? id = some l) {source target : SpotRef} (far : l.farEnd source = .ok target) :
    (r.linkOf l).farEnd (r.spotRef source) = .ok (r.spotRef target) := by
  obtain ⟨first, second⟩ := sound.ends id l live
  have live_a := isSome_node?_of_spot? first
  have live_b := isSome_node?_of_spot? second
  simp only [Link.farEnd] at far
  split at far
  · next same =>
      cases far
      simp [Link.farEnd, Renaming.linkOf, same]
  · next other =>
      split at far
      · next same =>
          cases far
          subst same
          have apart : r.spotRef l.b ≠ r.spotRef l.a :=
            fun both => other (renamed.spotRef_inj live_b live_a both)
          simp [Link.farEnd, Renaming.linkOf, apart]
      · cases far

theorem find? (renamed : Renamed r g h) (id : String) : h.find? id = (g.find? id).map r.node := by
  simp only [Graph.find?, renamed.ids]
  induction g.ids with
  | nil => rfl
  | cons entry rest ih =>
      obtain ⟨name, key⟩ := entry
      simp only [List.map_cons, List.lookup_cons]
      by_cases same : id == name
      · simp [same]
      · simpa [same] using ih

theorem resolve (renamed : Renamed r g h) (sound : g.Sound) (node spot : String) :
    h.resolve node spot = (g.resolve node spot).map r.spotRef := by
  simp only [Graph.resolve, renamed.find? node]
  cases at_id : g.find? node with
  | none => rfl
  | some key =>
      obtain ⟨n, found⟩ := Option.isSome_iff_exists.mp (isSome_node?_of_find? sound at_id)
      have first : g.node key = .ok n := node_eq_ok_iff.mpr found
      have second : h.node (r.node key) = .ok (r.nodeOf n) :=
        node_eq_ok_iff.mpr (renamed.node _ n found)
      have index : (r.nodeOf n).spotIndex? spot = n.spotIndex? spot := by
        simp only [Node.spotIndex?, Renaming.nodeOf, List.findIdx?_map]
        rfl
      simp only [Option.map_some, first, second, bind, Except.bind, index]
      cases n.spotIndex? spot <;> rfl

/-! ### Storing -/

theorem nodes (renamed : Renamed r g h) (sound : g.Sound) :
    h.nodes = g.nodes.map r.nodeOf := by
  have keys : h.keys = g.keys.map r.node := by
    simp [Graph.keys, renamed.ids, Function.comp_def]
  rw [Graph.nodes, keys, List.filterMap_map, Graph.nodes, List.map_filterMap]
  refine List.filterMap_congr ?_
  intro key mem
  obtain ⟨entry, listed, rfl⟩ := List.mem_map.mp mem
  obtain ⟨n, found, _⟩ := (sound.mem_ids entry.1 entry.2).mp listed
  rw [Function.comp_apply, renamed.node _ n found, found]
  rfl

theorem address (renamed : Renamed r g h) {ref : SpotRef} (live : (g.node? ref.node).isSome) :
    h.address (r.spotRef ref) = g.address ref := by
  obtain ⟨n, found⟩ := Option.isSome_iff_exists.mp live
  have first : g.node ref.node = .ok n := node_eq_ok_iff.mpr found
  have second : h.node (r.node ref.node) = .ok (r.nodeOf n) :=
    node_eq_ok_iff.mpr (renamed.node _ n found)
  simp only [Graph.address, Renaming.spotRef, first, second, bind, Except.bind, Node.spotAt,
    Renaming.nodeOf, List.getElem?_map, List.length_map]
  cases n.spots[ref.index]? <;> rfl

theorem saveLink (renamed : Renamed r g h) (sound : g.Sound) {l : Link}
    (mem : l ∈ g.liveLinks) : h.saveLink (r.linkOf l) = g.saveLink l := by
  obtain ⟨first, second⟩ := sound.ends_of_mem_live mem
  have first := renamed.address (isSome_node?_of_spot? first)
  have second := renamed.address (isSome_node?_of_spot? second)
  simp only [Graph.saveLink, Renaming.linkOf, first, second]

variable [Behavior β]

theorem saveNodes {ns : List Node}
    (live : ∀ n ∈ ns, g.node? n.key = some n)
    (saves : ∀ n ∈ ns, ∀ b, g.behavior? n.key = some b →
      ∃ c, h.behavior? (r.node n.key) = some c ∧ Behavior.save c = Behavior.save b) :
    (h.saveNodes (ns.map r.nodeOf)).1 = (g.saveNodes ns).1 := by
  induction ns with
  | nil => rfl
  | cons n ns ih =>
      have found := live n (by simp)
      obtain ⟨b, behaves⟩ : ∃ b, g.behavior? n.key = some b := by
        rw [← Option.isSome_iff_exists, behavior?_isSome_iff, found]
        rfl
      obtain ⟨c, still, same⟩ := saves n (by simp) b behaves
      have rest := ih (fun m mem => live m (by simp [mem])) fun m mem => saves m (by simp [mem])
      have key : (r.nodeOf n).key = r.node n.key := rfl
      simp only [List.map_cons, Graph.saveNodes, key, behaves, still, same]
      cases Behavior.save b with
      | error cause => rfl
      | ok state =>
          revert rest
          obtain ⟨first, _⟩ := h.saveNodes (ns.map r.nodeOf)
          obtain ⟨second, _⟩ := g.saveNodes ns
          intro rest
          obtain rfl : first = second := rest
          cases first <;> rfl

theorem snapshot (renamed : Renamed r g h) (sound : g.Sound)
    (saves : ∀ n ∈ g.nodes, ∀ b, g.behavior? n.key = some b →
      ∃ c, h.behavior? (r.node n.key) = some c ∧ Behavior.save c = Behavior.save b) :
    h.snapshot.1 = g.snapshot.1 := by
  have live (n : Node) (mem : n ∈ g.nodes) : g.node? n.key = some n := by
    obtain ⟨key, _, found⟩ := List.mem_filterMap.mp mem
    rwa [sound.key_eq key n found]
  have nodes := Renamed.saveNodes live saves
  have links (ls : List Link) (sub : ls ⊆ g.liveLinks) :
      (ls.map r.linkOf).mapM h.saveLink = ls.mapM g.saveLink := by
    induction ls with
    | nil => rfl
    | cons l ls ih =>
        obtain ⟨mem, rest⟩ := List.cons_subset.mp sub
        rw [List.map_cons, List.mapM_cons, List.mapM_cons, renamed.saveLink sound mem, ih rest]
  simp only [Graph.snapshot, renamed.nodes sound, renamed.liveLinks, links _ (List.Subset.refl _),
    renamed.name]
  revert nodes
  obtain ⟨first, _⟩ := h.saveNodes (g.nodes.map r.nodeOf)
  obtain ⟨second, _⟩ := g.saveNodes g.nodes
  intro nodes
  obtain rfl : first = second := nodes
  cases first with
  | error cause => rfl
  | ok records =>
      cases g.liveLinks.mapM g.saveLink <;> rfl

end Renamed

namespace Alike

theorem setBehavior (alike : Alike r wrap g h) {key : NodeKey} (live : (g.node? key).isSome)
    {b b' : Builtin} (twin : b'.stored = b.stored) :
    Alike r wrap (g.setBehavior key (wrap b)) (h.setBehavior (r.node key) (wrap b')) := by
  have nodes := node?_eq_of_shape (g.shape_setBehavior key (wrap b))
  have nodes' := node?_eq_of_shape (h.shape_setBehavior (r.node key) (wrap b'))
  refine ⟨⟨alike.name, ?_, alike.ids, alike.liveLinks, alike.link, ?_, alike.link_inj⟩, ?_⟩
  · simpa only [nodes, nodes'] using alike.node
  · simpa only [nodes] using alike.node_inj
  · intro k c found
    rw [behavior?_setBehavior] at found
    split at found
    · next same =>
        subst same
        obtain ⟨c₀, before, rfl⟩ := Option.map_eq_some_iff.mp found
        obtain ⟨_, _, _, still, _⟩ := alike.behavior k c₀ before
        refine ⟨b, b', rfl, ?_, twin⟩
        rw [behavior?_setBehavior, if_pos rfl, still]
        rfl
    · next other =>
        have live' : (g.node? k).isSome := by
          rw [← behavior?_isSome_iff, found]
          rfl
        have apart : r.node k ≠ r.node key :=
          fun both => other (alike.node_inj k key live' live both)
        rw [behavior?_setBehavior, if_neg apart]
        exact alike.behavior k c found

theorem snapshot [Behavior β] (alike : Alike r wrap g h) (hosted : Hosted wrap) (sound : g.Sound) :
    h.snapshot.1 = g.snapshot.1 := by
  refine alike.toRenamed.snapshot sound ?_
  intro n _ c behaves
  obtain ⟨b, b', rfl, still, twin⟩ := alike.behavior n.key c behaves
  have saved : b'.save = b.save := by rw [← save_stored, twin, save_stored]
  exact ⟨_, still, by rw [hosted.save, hosted.save, saved]⟩

end Alike
end Graph
end SignalGraph
