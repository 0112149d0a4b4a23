import SignalGraph.Proofs.Graph.Atomic

/-!
Parts that are taken out of a graph. Removing a node takes the links on it along, so the removals of a
list overlap; still only the list's members matter, not their order: what is left is the graph without
them, with all else as it was and in its order. Nothing is said of parts that are added in between.
-/

namespace SignalGraph

inductive Part where
  | node (key : NodeKey)
  | link (id : LinkId)
deriving DecidableEq

/-- Whether a link is left where some parts are gone: neither it nor a node at one of its ends is among
them. -/
def Link.outlasts (l : Link) (parts : List Part) : Bool :=
  .link l.id ∉ parts ∧ .node l.a.node ∉ parts ∧ .node l.b.node ∉ parts

theorem Link.outlasts_append (l : Link) (parts more : List Part) :
    l.outlasts (parts ++ more) = (l.outlasts parts && l.outlasts more) := by
  rw [Bool.eq_iff_iff]
  simp only [outlasts, List.mem_append, Bool.and_eq_true, decide_eq_true_iff]
  tauto

def Node.keepLinks (n : Node) (stays : LinkId → Bool) : Node :=
  n.mapSpots fun _ s => { s with links := s.links.filter stays }

theorem Node.keepLinks_keepLinks (n : Node) (stays more : LinkId → Bool) :
    (n.keepLinks stays).keepLinks more = n.keepLinks fun id => more id && stays id := by
  simp [keepLinks, List.filter_filter]

theorem Node.keepLinks_self {n : Node} {stays : LinkId → Bool}
    (all : ∀ (j : Nat) (s : Spot), n.spots[j]? = some s → ∀ id ∈ s.links, stays id) :
    n.keepLinks stays = n := by
  refine mapSpots_self fun j s at_j => ?_
  rw [List.filter_eq_self.mpr (all j s at_j)]

namespace Graph

open LinkArena

variable {β : Type} {g : Graph β}

def takeOut (g : Graph β) : Part → Graph β
  | .node key => (g.removeNode key).2
  | .link id => (g.disposeLink id).2

def takeOutAll (g : Graph β) (parts : List Part) : Graph β := parts.foldl takeOut g

def remains (g : Graph β) (parts : List Part) (id : LinkId) : Bool :=
  (g.link? id).any (·.outlasts parts)

/-- The graph in which some nodes, some links and all links on those nodes are gone. All other nodes,
spots and links keep their places, and every list keeps its order. -/
def without (g : Graph β) (parts : List Part) : Graph β where
  name := g.name
  slots := g.slots.mapIdx fun i slot =>
    if .node ⟨i⟩ ∈ parts then none
    else slot.map fun s => { s with node := s.node.keepLinks (g.remains parts) }
  links := g.links.map (Option.filter (·.outlasts parts))
  ids := g.ids.filter fun entry => .node entry.2 ∉ parts

theorem slot?_without (g : Graph β) (parts : List Part) (key : NodeKey) :
    (g.without parts).slot? key = if .node key ∈ parts then none else
      (g.slot? key).map fun s => { s with node := s.node.keepLinks (g.remains parts) } := by
  simp only [slot?, without, List.getElem?_mapIdx]
  obtain _ | slot := g.slots[key.index]?
  · simp
  · by_cases gone : Part.node key ∈ parts <;> simp [gone]

theorem node?_without (g : Graph β) (parts : List Part) (key : NodeKey) :
    (g.without parts).node? key =
      if .node key ∈ parts then none else (g.node? key).map (·.keepLinks (g.remains parts)) := by
  rw [node?, slot?_without]
  split
  · rfl
  · simp [node?, Function.comp_def]

theorem link?_without (g : Graph β) (parts : List Part) (id : LinkId) :
    (g.without parts).link? id = (g.link? id).filter (·.outlasts parts) := by
  simp only [link?, without, List.getElem?_map]
  obtain _ | _ | l := g.links[id.index]? <;> rfl

/-! ### Parts left out at once and one by one -/

theorem remains_without (g : Graph β) (parts more : List Part) (id : LinkId) :
    ((g.without parts).remains more id && g.remains parts id) = g.remains (parts ++ more) id := by
  simp only [remains, link?_without, Link.outlasts_append]
  obtain _ | l := g.link? id
  · rfl
  · by_cases first : l.outlasts parts <;> simp [first]

/-- It does not matter in how many steps parts are left out. -/
theorem without_without (g : Graph β) (parts more : List Part) :
    (g.without parts).without more = g.without (parts ++ more) := by
  refine eq_of_views rfl (by simp [without]) ?_ ?_ ?_
  · intro key
    rw [slot?_without, slot?_without, slot?_without]
    by_cases first : Part.node key ∈ parts
    · simp [first]
    by_cases second : Part.node key ∈ more
    · simp [second]
    simp only [first, second, List.mem_append, or_self, if_false, Option.map_map,
      Function.comp_def, Node.keepLinks_keepLinks, remains_without]
  · simp only [without, List.map_map]
    congr 1
    funext o
    simp [Option.filter_filter, Link.outlasts_append]
  · simp only [without, List.filter_filter]
    congr 1
    funext entry
    simp [Bool.and_comm]

theorem without_congr (g : Graph β) {parts more : List Part}
    (same : ∀ part, part ∈ parts ↔ part ∈ more) : g.without parts = g.without more := by
  unfold without remains Link.outlasts
  simp only [same]

theorem without_eq_self (sound : g.Sound) {parts : List Part}
    (nodes : ∀ key, .node key ∈ parts → g.node? key = none)
    (links : ∀ id, .link id ∈ parts → g.link? id = none) : g.without parts = g := by
  have present {key : NodeKey} (live : (g.node? key).isSome) : .node key ∉ parts := by
    intro gone
    rw [nodes key gone] at live
    cases live
  have stays {id : LinkId} {l : Link} (live : g.link? id = some l) : l.outlasts parts := by
    have own : l.id = id := sound.numbered _ l (link?_eq_some_iff.mp live)
    obtain ⟨first, second⟩ := sound.ends id l live
    rw [Link.outlasts, decide_eq_true_iff, own]
    refine ⟨?_, present (isSome_node?_of_spot? first), present (isSome_node?_of_spot? second)⟩
    intro gone
    rw [links id gone] at live
    cases live
  refine eq_of_views rfl (by simp [without]) ?_ ?_ ?_
  · intro key
    rw [slot?_without]
    cases at_key : g.slot? key with
    | none => simp
    | some s =>
        rw [if_neg (present (by simp [node?, at_key])), Option.map_some, Node.keepLinks_self]
        intro j t at_j id listed
        have found : g.spot ⟨key, j⟩ = .ok t := by
          rw [spot_eq_ok_iff, spot?_of_slot? at_key, at_j]
        obtain ⟨l, live, _⟩ := sound.live_of_listed found listed
        simpa [remains, live] using stays live
  · exact keep_all fun l mem =>
      stays (link?_eq_some_iff.mpr ((mem_live_iff sound.numbered).mp mem))
  · refine List.filter_eq_self.mpr fun entry mem => ?_
    obtain ⟨n, found, _⟩ := (sound.mem_ids entry.1 entry.2).mp mem
    simpa using present (by rw [found]; rfl)

/-! ### One part -/

theorem relist_outlasts (sound : g.Sound) (parts : List Part) {ref : SpotRef} {s : Spot}
    (found : g.spot? ref = some s) :
    relist (keep (·.outlasts parts) g.links) ref s =
      { s with links := s.links.filter (g.remains parts) } := by
  rw [relist, touching_keep, sound.wired ref s found, touching, List.filter_map,
    List.filter_filter]
  congr 2
  refine List.filter_congr fun l mem => ?_
  have live : g.link? l.id = some l :=
    link?_eq_some_iff.mpr ((mem_live_iff sound.numbered).mp mem)
  simp [remains, live, Bool.and_comm]

theorem slot?_wire_outlasts (sound : g.Sound) (parts : List Part) (key : NodeKey) :
    (g.wire (keep (·.outlasts parts) g.links)).slot? key =
      (g.slot? key).map fun s => { s with node := s.node.keepLinks (g.remains parts) } := by
  rw [slot?_wire]
  refine Option.map_congr fun s at_key => ?_
  rw [Node.keepLinks, Node.mapSpots_congr]
  intro j t at_j
  exact relist_outlasts sound parts (by rw [spot?_of_slot? at_key, at_j])

theorem takeOut_eq (sound : g.Sound) (part : Part) : g.takeOut part = g.without [part] := by
  cases part with
  | link id =>
      obtain dead | ⟨l, live⟩ := Option.eq_none_or_eq_some (g.link? id)
      · rw [takeOut, disposeLink_eq_of_dead dead, without_eq_self sound (by simp) (by simp [dead])]
      have same : (fun l : Link => decide (l.id ≠ id)) = fun l => l.outlasts [.link id] := by
        funext l
        simp [Link.outlasts]
      rw [takeOut, disposeLink_eq sound live, same]
      refine eq_of_views rfl (by simp [without]) ?_ rfl ?_
      · intro key
        rw [slot?_wire_outlasts sound, slot?_without]
        simp
      · simp [without]
  | node key =>
      obtain dead | ⟨n, found⟩ := Option.eq_none_or_eq_some (g.node? key)
      · rw [takeOut, removeNode_eq_of_dead dead, without_eq_self sound (by simp [dead]) (by simp)]
      have same : (fun l : Link => !l.touchesNode key) = fun l => l.outlasts [.node key] := by
        funext l
        simp [Link.outlasts, Link.touchesNode]
      rw [takeOut, removeNode_eq sound found, cutOff, same]
      refine eq_of_views rfl (by simp [without, dropNode]) ?_ rfl ?_
      · intro k
        rw [slot?_dropNode, slot?_wire_outlasts sound, slot?_without]
        simp
      · refine List.filter_congr fun entry mem => ?_
        obtain ⟨m, at_entry, named⟩ := (sound.mem_ids entry.1 entry.2).mp mem
        -- The index drops an ID, the list drops a key.
        have unique : entry.1 = n.id ↔ entry.2 = key := by
          rw [← named]
          constructor
          · exact unique_key sound at_entry found
          · intro same
            rw [same, found] at at_entry
            cases at_entry
            rfl
        simp [unique]

theorem Sound.takeOut (sound : g.Sound) (part : Part) : (g.takeOut part).Sound := by
  cases part with
  | node key => exact sound.removeNode key
  | link id => exact sound.disposeLink id

theorem Sound.takeOutAll (sound : g.Sound) (parts : List Part) : (g.takeOutAll parts).Sound := by
  induction parts generalizing g with
  | nil => exact sound
  | cons part parts ih => exact ih (sound.takeOut part)

theorem takeOutAll_eq (sound : g.Sound) (parts : List Part) :
    g.takeOutAll parts = g.without parts := by
  induction parts generalizing g with
  | nil => exact (without_eq_self sound (by simp) (by simp)).symm
  | cons part parts ih =>
      calc
        g.takeOutAll (part :: parts) = (g.takeOut part).takeOutAll parts := rfl
        _ = (g.takeOut part).without parts := ih (sound.takeOut part)
        _ = (g.without [part]).without parts := by rw [takeOut_eq sound]
        _ = g.without (part :: parts) := without_without g [part] parts

/-- What it comes to that parts are taken out of a graph. They may also be dead, or be listed twice. -/
structure TakesOut (g : Graph β) : Prop where
  result : ∀ parts, g.takeOutAll parts = g.without parts
  order : ∀ parts more, parts.Perm more → g.takeOutAll parts = g.takeOutAll more
  /-- A node is answered as it was, without links, whatever was taken out before it. -/
  node : ∀ before key n, g.node? key = some n → .node key ∉ before →
    ((g.takeOutAll before).removeNode key).1 = .ok (n.mapSpots fun _ s => { s with links := [] })
  /-- A link is answered as it was, unless it or a node at one of its ends was taken out before. -/
  link : ∀ before id l, g.link? id = some l →
    ((g.takeOutAll before).disposeLink id).1 =
      if l.outlasts before then .ok l else .error (.deadLink id)

/-- Removals commute: any order of them leaves the graph in which the listed parts are gone. -/
theorem removals_commute [Behavior β] (reach : g.Reachable) : g.TakesOut := by
  have sound := reach.sound
  constructor
  case result => exact takeOutAll_eq sound
  case order =>
    intro parts more perm
    rw [takeOutAll_eq sound, takeOutAll_eq sound]
    exact without_congr g fun part => perm.mem_iff
  case node =>
    intro before key n found listed
    have left : (g.takeOutAll before).node? key = some (n.keepLinks (g.remains before)) := by
      rw [takeOutAll_eq sound, node?_without, if_neg listed, found, Option.map_some]
    rw [removeNode_eq (sound.takeOutAll before) left, Node.keepLinks, Node.mapSpots_mapSpots]
  case link =>
    intro before id l live
    have left : (g.takeOutAll before).link? id = (some l).filter (·.outlasts before) := by
      rw [takeOutAll_eq sound, link?_without, live]
    split
    · next stays =>
        rw [Option.filter_some, if_pos stays] at left
        rw [disposeLink_eq (sound.takeOutAll before) left]
    · next gone =>
        rw [Option.filter_some, if_neg gone] at left
        rw [disposeLink_eq_of_dead left]

/-- The first console of the knotted graph takes its loop along, and the link to it as well, so that one
is not there any more when its turn comes; in the other order it is. -/
theorem removals_of_knotted :
    let parts : List Part := [.node ⟨1⟩, .link ⟨2⟩, .link ⟨1⟩]
    knotted.takeOutAll parts = knotted.takeOutAll parts.reverse ∧
      (knotted.takeOutAll parts).liveLinks = [⟨⟨0⟩, ⟨⟨0⟩, 0⟩, ⟨⟨2⟩, 0⟩⟩] ∧
      ((knotted.takeOutAll [.node ⟨1⟩]).disposeLink ⟨2⟩).1 = .error (.deadLink ⟨2⟩) ∧
      ((knotted.takeOutAll []).disposeLink ⟨2⟩).1 = .ok ⟨⟨2⟩, ⟨⟨0⟩, 0⟩, ⟨⟨1⟩, 0⟩⟩ := by
  intro parts
  have commute := removals_commute reachable_knotted
  exact ⟨commute.order _ _ parts.reverse_perm.symm, by decide,
    commute.link [.node ⟨1⟩] ⟨2⟩ ⟨⟨2⟩, ⟨⟨0⟩, 0⟩, ⟨⟨1⟩, 0⟩⟩ (by decide),
    commute.link [] ⟨2⟩ ⟨⟨2⟩, ⟨⟨0⟩, 0⟩, ⟨⟨1⟩, 0⟩⟩ (by decide)⟩

end Graph
end SignalGraph
