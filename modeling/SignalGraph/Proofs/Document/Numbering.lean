import SignalGraph.Proofs.Document.Assembly
import SignalGraph.Proofs.Document.Linking
import SignalGraph.Proofs.Graph.Reachable

/-!
Where a graph has the parts of the document that it is built from. Nodes and links have their places in the
document as numbers, and a spot lists the numbers of the links that name it. What the nodes do is left out.
-/

namespace SignalGraph

variable {β : Type}

def LinkRecord.names (r : LinkRecord) (place : SpotAddress) : Bool := r.a = place ∨ r.b = place

namespace Document

/-- The places of the links that name a spot, in increasing order. -/
def linksAt (d : Document) (place : SpotAddress) : List LinkId :=
  (d.links.zipIdx.filter (·.1.names place)).map fun p => ⟨p.2⟩

def linkEnds (d : Document) (id : String) : Nat :=
  d.links.countP (·.a.node = id) + d.links.countP (·.b.node = id)

end Document

/-- The graph has the parts of a document, each under its place there, and no others. -/
structure Graph.Follows (g : Graph β) (d : Document) : Prop where
  name : g.name = d.name
  keys : g.keys = d.nodes.mapIdx fun i _ => ⟨i⟩
  slots : g.slots.length = d.nodes.length
  node : ∀ (i : Nat) (r : NodeRecord), d.nodes[i]? = some r → ∃ n, g.node? ⟨i⟩ = some n ∧
    n.key = ⟨i⟩ ∧ n.id = r.id ∧ n.tag = r.tag ∧ n.type = r.type
  links : g.links.length = d.links.length
  link : ∀ (j : Nat) (r : LinkRecord), d.links[j]? = some r → ∃ l, g.link? ⟨j⟩ = some l ∧
    l.id = ⟨j⟩ ∧ g.saveLink l = .ok r
  listed : ∀ ref s place, g.spot? ref = some s → g.address ref = .ok place →
    s.links = d.linksAt place
  nodeCount : g.nodeCount = d.nodes.length
  linkCount : g.linkCount = d.links.length
  /-- A link between two spots of a node counts twice. -/
  ownLinks : ∀ (i : Nat) (r : NodeRecord) (n : Node), d.nodes[i]? = some r →
    g.node? ⟨i⟩ = some n → n.linkCount = d.linkEnds r.id

/-! ### Counting links -/

theorem countP_or_of_disjoint {α : Type} {p q : α → Bool} {l : List α}
    (apart : ∀ a ∈ l, ¬ (p a ∧ q a)) :
    l.countP (fun a => p a || q a) = l.countP p + l.countP q := by
  induction l with
  | nil => rfl
  | cons a l ih =>
      obtain ⟨here, later⟩ := List.forall_mem_cons.mp apart
      rw [List.countP_cons, List.countP_cons, List.countP_cons, ih later]
      cases first : p a <;> cases second : q a <;> simp_all <;> omega

theorem length_touching_spots {key : NodeKey} {ls : List Link} (apart : ∀ l ∈ ls, l.a ≠ l.b)
    {js : List Nat} (nodup : js.Nodup) :
    (js.flatMap fun j => ls.filter (·.touches ⟨key, j⟩)).length =
      ls.countP (fun l => l.a.node = key ∧ l.a.index ∈ js) +
        ls.countP (fun l => l.b.node = key ∧ l.b.index ∈ js) := by
  induction js with
  | nil => simp
  | cons j js ih =>
      rw [List.nodup_cons] at nodup
      have one (f : Link → SpotRef) : ls.countP (fun l => (f l).node = key ∧ (f l).index ∈ j :: js) =
          ls.countP (fun l => f l = ⟨key, j⟩) +
            ls.countP (fun l => (f l).node = key ∧ (f l).index ∈ js) := by
        rw [← countP_or_of_disjoint]
        · refine List.countP_congr fun l _ => ?_
          rcases f l with ⟨k, i⟩
          simp only [List.mem_cons, SpotRef.mk.injEq, decide_eq_true_eq, Bool.or_eq_true]
          tauto
        · intro l _ both
          simp only [decide_eq_true_eq] at both
          obtain ⟨here, _, later⟩ := both
          rw [here] at later
          exact nodup.1 later
      have touching : ls.countP (·.touches ⟨key, j⟩) =
          ls.countP (fun l => l.a = ⟨key, j⟩) + ls.countP (fun l => l.b = ⟨key, j⟩) := by
        rw [← countP_or_of_disjoint]
        · simp [Link.touches]
        · intro l mem both
          simp only [decide_eq_true_eq] at both
          exact apart l mem (both.1.trans both.2.symm)
      rw [List.flatMap_cons, List.length_append, ih nodup.2, ← List.countP_eq_length_filter,
        touching, one (·.a), one (·.b)]
      omega

namespace Graph

open LinkArena

variable {g h : Graph β} {d : Document}

theorem linkCount_node_eq (sound : g.Sound) (apart : ∀ l ∈ g.liveLinks, l.a ≠ l.b) {key : NodeKey}
    {n : Node} (found : g.node? key = some n) :
    n.linkCount = g.liveLinks.countP (·.a.node = key) + g.liveLinks.countP (·.b.node = key) := by
  have lists : n.spots.map (·.links) =
      (List.range n.spots.length).map fun j => touching g.links ⟨key, j⟩ := by
    apply List.ext_getElem (by simp)
    intro j bound _
    rw [List.length_map] at bound
    simp only [List.getElem_map, List.getElem_range]
    exact sound.wired ⟨key, j⟩ _ (spot?_eq_some_iff.mpr ⟨n, found, List.getElem?_eq_getElem bound⟩)
  have ends (f : Link → SpotRef) (exist : ∀ l ∈ g.liveLinks, (g.spot? (f l)).isSome) :
      g.liveLinks.countP (fun l => (f l).node = key ∧ (f l).index ∈ List.range n.spots.length) =
        g.liveLinks.countP (fun l => (f l).node = key) := by
    refine List.countP_congr fun l mem => ?_
    simp only [decide_eq_true_eq, List.mem_range, and_iff_left_iff_imp]
    intro here
    obtain ⟨s, at_ref⟩ := Option.isSome_iff_exists.mp (exist l mem)
    obtain ⟨m, at_key, at_index⟩ := spot?_eq_some_iff.mp at_ref
    rw [here, found] at at_key
    cases at_key
    exact (List.getElem?_eq_some_iff.mp at_index).1
  rw [Node.linkCount, Node.links, List.flatMap_def, lists, ← List.flatMap_def,
    ← ends (·.a) fun l mem => (sound.ends_of_mem_live mem).1,
    ← ends (·.b) fun l mem => (sound.ends_of_mem_live mem).2,
    ← length_touching_spots apart List.nodup_range]
  simp only [touching, List.length_flatMap, List.length_map, liveLinks, live]

/-! ### Numbering the parts -/

theorem slot?_extend_empty (name : String) (slots : List (Slot β)) (key : NodeKey) :
    ((empty name).extend slots).slot? key = slots[key.index]? := by
  simp only [slot?, extend, empty, List.nil_append, List.getElem?_map]
  cases slots[key.index]? <;> rfl

theorem map_id_filter_touches (sound : g.Sound) {ref : SpotRef} {place : SpotAddress}
    (at_ref : g.address ref = .ok place) {pairs : List (LinkRecord × Nat)} {ls : List Link}
    (made : List.Forall₂ g.Makes pairs ls) : (ls.filter (·.touches ref)).map (·.id) =
      (pairs.filter (·.1.names place)).map fun p => ⟨p.2⟩ := by
  induction made with
  | nil => rfl
  | @cons p l pairs ls makes _ ih =>
      obtain ⟨at_a, at_b⟩ := saveLink_eq_ok_iff.mp makes.saved
      have same : l.touches ref = p.1.names place := by
        rw [Bool.eq_iff_iff, Link.touches_iff, LinkRecord.names, decide_eq_true_iff,
          address_eq_iff sound at_a at_ref, address_eq_iff sound at_b at_ref, eq_comm,
          eq_comm (a := ref)]
      rw [List.filter_cons, List.filter_cons, same]
      split
      · rw [List.map_cons, List.map_cons, ih, makes.id]
      · exact ih

theorem countP_ends (sound : g.Sound) {key : NodeKey} {n : Node} (found : g.node? key = some n)
    {pairs : List (LinkRecord × Nat)} {ls : List Link} (made : List.Forall₂ g.Makes pairs ls) :
    ls.countP (·.a.node = key) = (pairs.map (·.1)).countP (·.a.node = n.id) ∧
      ls.countP (·.b.node = key) = (pairs.map (·.1)).countP (·.b.node = n.id) := by
  have same {ref : SpotRef} {place : SpotAddress} (at_ref : g.address ref = .ok place) :
      ref.node = key ↔ place.node = n.id := by
    obtain ⟨m, s, at_key, _, rfl⟩ := address_eq_ok_iff.mp at_ref
    constructor
    · intro here
      rw [here, found] at at_key
      cases at_key
      rfl
    · exact unique_key sound at_key found
  induction made with
  | nil => simp
  | cons makes _ ih =>
      obtain ⟨at_a, at_b⟩ := saveLink_eq_ok_iff.mp makes.saved
      simp [List.countP_cons, same at_a, same at_b, ih]

theorem liveLinks_wire_map_some (g : Graph β) (ls : List Link) :
    (g.wire (ls.map some)).liveLinks = ls := by
  simp [liveLinks, List.filterMap_map]

structure Linked (g : Graph β) (d : Document) (ls : List Link) : Prop where
  bare : g.Sound
  made : List.Forall₂ g.Makes d.links.zipIdx ls
  sound : (g.wire (ls.map some)).Sound

namespace Linked

variable {ls : List Link}

theorem length_eq (linked : g.Linked d ls) : ls.length = d.links.length := by
  rw [← linked.made.length_eq, List.length_zipIdx]

theorem exists_link (linked : g.Linked d ls) {j : Nat} {r : LinkRecord}
    (at_j : d.links[j]? = some r) : ∃ l, (g.wire (ls.map some)).link? ⟨j⟩ = some l ∧
      l.id = ⟨j⟩ ∧ (g.wire (ls.map some)).saveLink l = .ok r := by
  obtain ⟨inside, rfl⟩ := List.getElem?_eq_some_iff.mp at_j
  have within : j < ls.length := linked.length_eq ▸ inside
  have makes := linked.made.get (i := j) (by simpa using inside) within
  simp only [List.get_eq_getElem, List.getElem_zipIdx, Nat.zero_add] at makes
  refine ⟨ls[j], ?_, makes.id, saveLink_wire_eq_ok_iff.mpr makes.saved⟩
  rw [link?_eq_some_iff, links_wire, List.getElem?_map, List.getElem?_eq_getElem within]
  rfl

theorem links_eq (linked : g.Linked d ls) {ref : SpotRef} {s : Spot} {place : SpotAddress}
    (at_ref : (g.wire (ls.map some)).spot? ref = some s)
    (here : (g.wire (ls.map some)).address ref = .ok place) : s.links = d.linksAt place := by
  rw [linked.sound.wired ref s at_ref, Document.linksAt,
    ← map_id_filter_touches linked.bare (address_wire_eq_ok_iff.mp here) linked.made, links_wire,
    touching, ← liveLinks_wire_map_some g ls]
  simp [liveLinks, live, List.filterMap_map]

theorem apart (linked : g.Linked d ls) : ∀ l ∈ ls, l.a ≠ l.b := by
  intro l mem
  obtain ⟨j, within, rfl⟩ := List.mem_iff_getElem.mp mem
  exact (linked.made.get (linked.made.length_eq ▸ within) within).apart

theorem linkCount_eq (linked : g.Linked d ls) {key : NodeKey} {n : Node}
    (found : (g.wire (ls.map some)).node? key = some n) : n.linkCount = d.linkEnds n.id := by
  obtain ⟨m, before, rfl⟩ := Option.map_eq_some_iff.mp (node?_wire g _ key ▸ found)
  rw [linkCount_node_eq linked.sound (by simpa only [liveLinks_wire_map_some] using linked.apart) found,
    liveLinks_wire_map_some, (countP_ends linked.bare before linked.made).1,
    (countP_ends linked.bare before linked.made).2, List.zipIdx_map_fst]
  rfl

end Linked

/-! ### Building the graph of a document -/

section Building

variable [Behavior β] {name : String} {pairs : List (NodeRecord × β)} {slots : List (Slot β)}

namespace Places

theorem sound (places : (empty name).Places pairs slots) :
    ((empty (β := β) name).extend slots).Sound :=
  addRecords_keeps (fun _ id tag type b sound => sound.addNode id tag type b) pairs
    (sound_empty name) (addRecords_eq_extend places)

theorem keys_eq (places : (empty name).Places pairs slots) :
    ((empty (β := β) name).extend slots).keys = (pairs.map (·.1)).mapIdx fun i _ => ⟨i⟩ := by
  have listed : ((empty (β := β) name).extend slots).keys = slots.map (·.node.key) := by
    simp [Graph.keys, extend, empty]
  rw [listed]
  apply List.ext_getElem
  · simp [places.yields.length_eq]
  · intro i inside _
    rw [List.length_map] at inside
    simpa [empty] using places.keys i _ (List.getElem?_eq_getElem inside)

theorem exists_node (places : (empty name).Places pairs slots) {i : Nat} {r : NodeRecord}
    (at_i : (pairs.map (·.1))[i]? = some r) :
    ∃ n, ((empty (β := β) name).extend slots).node? ⟨i⟩ = some n ∧ n.key = ⟨i⟩ ∧
      n.id = r.id ∧ n.tag = r.tag ∧ n.type = r.type := by
  obtain ⟨within, same⟩ := List.getElem?_eq_some_iff.mp at_i
  rw [List.length_map] at within
  rw [List.getElem_map] at same
  have inside : i < slots.length := places.yields.length_eq ▸ within
  have at_slot := List.getElem?_eq_getElem inside
  have head := (places.yields.get within inside).sameHead
  simp only [List.get_eq_getElem, same] at head
  refine ⟨slots[i].node, by rw [node?, slot?_extend_empty, at_slot]; rfl, ?_, head.id, head.tag,
    head.type⟩
  simpa [empty] using places.keys i _ at_slot

end Places

theorem follows_of_places (places : (empty d.name).Places pairs slots)
    (records : pairs.map (·.1) = d.nodes)
    (made : d.links.foldlM linkRecord ((empty d.name).extend slots) = .ok g) :
    g.Follows d ∧ g.Sound := by
  have length : slots.length = d.nodes.length := by
    rw [← records, List.length_map, places.yields.length_eq]
  obtain ⟨ls, makes, rfl, sound⟩ := exists_links_of_linkRecords places.sound made
  have linked : ((empty (β := β) d.name).extend slots).Linked d ls := ⟨places.sound, makes, sound⟩
  have node_at {i : Nat} {r : NodeRecord} (at_i : d.nodes[i]? = some r) :
      ∃ n, (((empty (β := β) d.name).extend slots).wire (ls.map some)).node? ⟨i⟩ = some n ∧
        n.key = ⟨i⟩ ∧ n.id = r.id ∧ n.tag = r.tag ∧ n.type = r.type := by
    obtain ⟨n, found, heads⟩ := places.exists_node (records ▸ at_i)
    exact ⟨n.mapSpots fun j => relist (ls.map some) ⟨⟨i⟩, j⟩,
      by rw [node?_wire, found, Option.map_some], heads⟩
  refine ⟨?_, sound⟩
  constructor
  case name => rfl
  case keys => exact records ▸ places.keys_eq
  case slots => simp [extend, empty, length]
  case node => exact fun i r at_i => node_at at_i
  case links => exact (List.length_map _).trans linked.length_eq
  case link => exact fun j r at_j => linked.exists_link at_j
  case listed => exact fun ref s place at_ref here => linked.links_eq at_ref here
  case nodeCount => simp [nodeCount, extend, empty, length]
  case linkCount =>
    exact (congrArg List.length (liveLinks_wire_map_some _ ls)).trans linked.length_eq
  case ownLinks =>
    intro i r n at_i found
    obtain ⟨m, found', _, id, _⟩ := node_at at_i
    cases found.symm.trans found'
    rw [linked.linkCount_eq found, id]

end Building

end Graph
end SignalGraph
