import Mathlib.Data.List.Forall2
import SignalGraph.Listing
import SignalGraph.Proofs.Graph.Compaction
import SignalGraph.Proofs.Graph.Legal

/-!
The listing of a graph against its arenas. A listing goes by the index of IDs and by the link lists of the
spots, and passes over what it cannot look up; in a reachable graph there is nothing that it cannot look up, so
it shows what the arenas hold. Texts are taken as they are: an ID may hold line breaks.
-/

namespace SignalGraph

/-- A link as seen from one of its ends. -/
structure Arrow where
  source : SpotRef
  target : SpotRef
  link : LinkId
deriving DecidableEq

def Link.arrows (l : Link) : List Arrow := [⟨l.a, l.b, l.id⟩, ⟨l.b, l.a, l.id⟩]

theorem flatMap_filter_perm {α γ : Type} [DecidableEq γ] {f : α → γ} {l : List α} {keys : List γ}
    (nodup : keys.Nodup) (listed : ∀ a ∈ l, f a ∈ keys) :
    (keys.flatMap fun k => l.filter (f · = k)).Perm l := by
  induction keys generalizing l with
  | nil =>
      cases l with
      | nil => exact .refl _
      | cons a l => exact absurd (listed a (by simp)) (by simp)
  | cons k keys ih =>
      obtain ⟨new, nodup⟩ := List.nodup_cons.mp nodup
      have others : (keys.flatMap fun k' => l.filter (f · = k')) =
          keys.flatMap fun k' => (l.filter fun a => !(f a = k)).filter (f · = k') := by
        refine List.flatMap_congr fun k' mem => ?_
        rw [List.filter_filter]
        refine List.filter_congr fun a _ => ?_
        by_cases here : f a = k'
        · have : k' ≠ k := fun same => new (same ▸ mem)
          simp [here, this]
        · simp [here]
      rw [List.flatMap_cons, others]
      refine (List.Perm.append_left _ (ih nodup fun a mem => ?_)).trans (List.filter_append_perm _ l)
      obtain ⟨mem, other⟩ := List.mem_filter.mp mem
      exact (List.mem_cons.mp (listed a mem)).resolve_left (by simpa using other)

theorem forall₂_filterMap {α γ : Type} {f : α → Option γ} {R : α → γ → Prop} {l : List α}
    (all : ∀ a ∈ l, ∃ c, f a = some c ∧ R a c) : List.Forall₂ R l (l.filterMap f) := by
  induction l with
  | nil => exact .nil
  | cons a l ih =>
      obtain ⟨⟨c, image, related⟩, all⟩ := List.forall_mem_cons.mp all
      rw [List.filterMap_cons_some image]
      exact .cons related (ih all)

namespace Graph

open LinkArena

variable {β : Type} {g : Graph β}

/-! ### What the arenas hold -/

/-- The nodes in the arena, in the order in which they were put there. -/
def liveNodes (g : Graph β) : List Node := g.slots.filterMap (Option.map (·.node))

def arrows (g : Graph β) : List Arrow := g.liveLinks.flatMap Link.arrows

def arrowsAt (g : Graph β) (ref : SpotRef) : List Arrow := g.arrows.filter (·.source = ref)

def spotRefs (g : Graph β) : List SpotRef :=
  g.liveNodes.flatMap fun n => (List.range n.spots.length).map (⟨n.key, ·⟩)

theorem mem_liveNodes_iff (sound : g.Sound) {n : Node} : n ∈ g.liveNodes ↔ g.node? n.key = some n := by
  simp only [liveNodes, List.mem_filterMap, node?, slot?, Option.map_eq_some_iff]
  constructor
  · rintro ⟨_, mem, s, rfl, rfl⟩
    obtain ⟨i, at_i⟩ := List.mem_iff_getElem?.mp mem
    have found : g.node? ⟨i⟩ = some s.node := by simp [node?, slot?, at_i]
    rw [sound.key_eq _ _ found]
    exact ⟨s, by simp [at_i], rfl⟩
  · rintro ⟨s, found, same⟩
    exact ⟨some s, List.mem_of_getElem? (Option.join_eq_some_iff.mp found), s, rfl, same⟩

theorem liveNodes_sorted (sound : g.Sound) : g.liveNodes.Pairwise (·.key.index < ·.key.index) := by
  rw [liveNodes, List.pairwise_filterMap, List.pairwise_iff_getElem]
  intro i j bound bound' less n at_i m at_j
  have key {k : Nat} {n : Node} (bound : k < g.slots.length)
      (here : g.slots[k].map (·.node) = some n) : n.key = ⟨k⟩ := by
    refine sound.key_eq ⟨k⟩ n ?_
    simpa [node?, slot?, List.getElem?_eq_getElem bound] using here
  rw [key bound at_i, key bound' at_j]
  exact less

theorem nodes_eq_liveNodes (sound : g.Sound) : g.nodes = g.liveNodes := by
  have sorted : g.nodes.Pairwise (·.key.index < ·.key.index) := by
    rw [← List.pairwise_map (f := Node.key) (R := (·.index < ·.index)), map_key_nodes sound]
    exact sound.keys_sorted
  have same : g.nodes.Perm g.liveNodes := by
    refine (List.perm_ext_iff_of_nodup (nodup_of_sorted sorted) (nodup_of_sorted (liveNodes_sorted sound))).mpr ?_
    intro n
    rw [mem_liveNodes_iff sound]
    refine ⟨node?_of_mem_nodes sound, fun found => ?_⟩
    exact List.mem_filterMap.mpr ⟨n.key, (mem_keys_iff sound).mpr (by rw [found]; rfl), found⟩
  exact same.eq_of_pairwise (fun _ _ _ _ less more => absurd less (Nat.lt_asymm more)) sorted
    (liveNodes_sorted sound)

theorem mem_spotRefs_iff (sound : g.Sound) {ref : SpotRef} : ref ∈ g.spotRefs ↔ (g.spot? ref).isSome := by
  simp only [spotRefs, List.mem_flatMap, List.mem_map, List.mem_range, mem_liveNodes_iff sound,
    Option.isSome_iff_exists, spot?_eq_some_iff]
  constructor
  · rintro ⟨n, found, j, bound, rfl⟩
    exact ⟨n.spots[j], n, found, List.getElem?_eq_getElem bound⟩
  · rintro ⟨s, n, found, at_index⟩
    have key := sound.key_eq _ n found
    exact ⟨n, key ▸ found, ref.index, (List.getElem?_eq_some_iff.mp at_index).1, by rw [key]⟩

theorem spotRefs_nodup (sound : g.Sound) : g.spotRefs.Nodup := by
  refine List.nodup_flatMap.mpr ⟨fun n _ => ?_, (liveNodes_sorted sound).imp fun {n m} less => ?_⟩
  · exact List.nodup_range.map fun i j same => congrArg SpotRef.index same
  · intro ref first second
    obtain ⟨_, -, rfl⟩ := List.mem_map.mp first
    obtain ⟨_, -, same⟩ := List.mem_map.mp second
    have key : m.key = n.key := congrArg SpotRef.node same
    rw [key] at less
    exact Nat.lt_irrefl _ less

/-! ### Arrows -/

theorem mem_arrows_iff {a : Arrow} : a ∈ g.arrows ↔ ∃ l ∈ g.liveLinks, a ∈ l.arrows := List.mem_flatMap

theorem mem_arrowsAt_iff {ref : SpotRef} {a : Arrow} : a ∈ g.arrowsAt ref ↔ a ∈ g.arrows ∧ a.source = ref := by
  simp [arrowsAt]

theorem Sound.isSome_ends (sound : g.Sound) {a : Arrow} (mem : a ∈ g.arrows) :
    (g.spot? a.source).isSome ∧ (g.spot? a.target).isSome := by
  obtain ⟨l, live, mem⟩ := mem_arrows_iff.mp mem
  obtain ⟨first, second⟩ := sound.ends_of_mem_live live
  simp only [Link.arrows, List.mem_cons, List.not_mem_nil, or_false] at mem
  rcases mem with rfl | rfl
  · exact ⟨first, second⟩
  · exact ⟨second, first⟩

theorem Legal.ends_differ (legal : g.Legal) {l : Link} (mem : l ∈ g.liveLinks) : l.a ≠ l.b := by
  obtain ⟨s, t, at_a, at_b, differ, -⟩ := legal.joins l mem
  intro same
  rw [same, at_b] at at_a
  cases at_a
  exact differ rfl

/-- An arrow leads to the far end of its link, and whatever is looked up on the way is there. -/
theorem exists_far_of_mem_arrows (sound : g.Sound) (legal : g.Legal) {a : Arrow} (mem : a ∈ g.arrows) :
    ∃ l n t, g.link? a.link = some l ∧ l.farEnd a.source = .ok a.target ∧
      g.node? a.target.node = some n ∧ n.spots[a.target.index]? = some t := by
  obtain ⟨t, at_target⟩ := Option.isSome_iff_exists.mp (sound.isSome_ends mem).2
  obtain ⟨n, found, at_index⟩ := spot?_eq_some_iff.mp at_target
  obtain ⟨l, live, mem⟩ := mem_arrows_iff.mp mem
  have at_id : g.link? l.id = some l := link?_eq_some_iff.mpr ((mem_live_iff sound.numbered).mp live)
  simp only [Link.arrows, List.mem_cons, List.not_mem_nil, or_false] at mem
  rcases mem with rfl | rfl
  · exact ⟨l, n, t, at_id, if_pos rfl, found, at_index⟩
  · refine ⟨l, n, t, at_id, ?_, found, at_index⟩
    rw [Link.farEnd, if_neg (legal.ends_differ live).symm, if_pos rfl]

theorem map_link_arrowsAt (sound : g.Sound) (legal : g.Legal) {ref : SpotRef} {s : Spot}
    (found : g.spot? ref = some s) : (g.arrowsAt ref).map (·.link) = s.links := by
  have one (l : Link) (apart : l.a ≠ l.b) : (l.arrows.filter (·.source = ref)).map (·.link) =
      if l.touches ref then [l.id] else [] := by
    by_cases first : l.a = ref
    · have second : l.b ≠ ref := fun same => apart (first.trans same.symm)
      simp [Link.arrows, Link.touches, first, second]
    · by_cases second : l.b = ref <;> simp [Link.arrows, Link.touches, first, second]
  have all (ls : List Link) (apart : ∀ l ∈ ls, l.a ≠ l.b) :
      ((ls.flatMap Link.arrows).filter (·.source = ref)).map (·.link) =
        (ls.filter (·.touches ref)).map (·.id) := by
    induction ls with
    | nil => rfl
    | cons l ls ih =>
        obtain ⟨here, apart⟩ := List.forall_mem_cons.mp apart
        rw [List.flatMap_cons, List.filter_append, List.map_append, one l here, ih apart, List.filter_cons]
        split <;> rfl
  rw [sound.wired ref s found]
  exact all _ fun l mem => legal.ends_differ mem

/-! ### What the listing shows -/

/-- The line of an arrow names the node and the spot that it leads to, by their IDs. -/
def ShowsArrow (g : Graph β) (a : Arrow) (line : String) : Prop :=
  ∃ n s, g.node? a.target.node = some n ∧ n.spots[a.target.index]? = some s ∧
    line = "      -> " ++ n.id ++ "." ++ s.id ++ " (" ++ a.link.text ++ ")"

def ShowsSpot (g : Graph β) (ref : SpotRef) (s : Spot) (lines : List String) : Prop :=
  let direction := match s.direction with
    | .input => "in "
    | .output => "out"
  ∃ below, List.Forall₂ g.ShowsArrow (g.arrowsAt ref) below ∧
    lines = ("  " ++ direction ++ " " ++ s.id ++ ": " ++ s.category.text ++ " (" ++
      (g.arrowsAt ref).length.repr ++ "/" ++ s.arity.text ++ ")") :: below

def ShowsNode (g : Graph β) (n : Node) (lines : List String) : Prop :=
  ∃ below, List.Forall₂ (fun spot => g.ShowsSpot ⟨n.key, spot.2⟩ spot.1) n.spots.zipIdx below ∧
    lines = (n.id ++ " [" ++ n.type.text ++ "] " ++ n.tag) :: below.flatten

def ShowsGraph (g : Graph β) (lines : List String) : Prop :=
  ∃ below, List.Forall₂ g.ShowsNode g.liveNodes below ∧
    lines = ("graph \"" ++ g.name ++ "\": " ++ g.liveNodes.length.repr ++ " nodes, " ++
      g.liveLinks.length.repr ++ " links") :: below.flatten

theorem linkLine?_of_mem_arrows (sound : g.Sound) (legal : g.Legal) {a : Arrow} (mem : a ∈ g.arrows) :
    ∃ line, g.linkLine? a.source a.link = some line ∧ g.ShowsArrow a line := by
  obtain ⟨l, n, t, live, far, found, at_index⟩ := exists_far_of_mem_arrows sound legal mem
  have name : g.spotName a.target = n.id ++ "." ++ t.id := by
    simp only [spotName, found, spotAt_eq_ok_iff.mpr at_index]
  refine ⟨"      -> " ++ g.spotName a.target ++ " (" ++ a.link.text ++ ")", ?_, n, t, found, at_index, ?_⟩
  · simp only [linkLine?, live, far]
  · rw [name]
    simp only [String.append_assoc]

theorem showsSpot_spotLines (sound : g.Sound) (legal : g.Legal) {ref : SpotRef} {s : Spot}
    (found : g.spot? ref = some s) : g.ShowsSpot ref s (g.spotLines ref s) := by
  have links := map_link_arrowsAt sound legal found
  have count : s.links.length = (g.arrowsAt ref).length := by rw [← links, List.length_map]
  refine ⟨s.links.filterMap (g.linkLine? ref), ?_, ?_⟩
  · rw [← links, List.filterMap_map]
    refine forall₂_filterMap fun a mem => ?_
    obtain ⟨arrow, rfl⟩ := mem_arrowsAt_iff.mp mem
    exact linkLine?_of_mem_arrows sound legal arrow
  · rw [← count]
    cases direction : s.direction <;> simp only [spotLines, direction] <;> rfl

theorem showsNode_nodeLines (sound : g.Sound) (legal : g.Legal) {n : Node} (found : g.node? n.key = some n) :
    g.ShowsNode n (g.nodeLines n) := by
  refine ⟨n.spots.zipIdx.map fun spot => g.spotLines ⟨n.key, spot.2⟩ spot.1, ?_, ?_⟩
  · refine List.forall₂_map_right_iff.mpr (List.forall₂_same.mpr fun spot mem => ?_)
    have at_index := List.mem_zipIdx_iff_getElem?.mp mem
    exact showsSpot_spotLines sound legal (spot?_eq_some_iff.mpr ⟨n, found, at_index⟩)
  · rw [nodeLines, List.flatMap_def]
    rfl

theorem showsGraph_listingLines (sound : g.Sound) (legal : g.Legal) : g.ShowsGraph g.listingLines := by
  have nodes := nodes_eq_liveNodes sound
  have count : g.nodeCount = g.liveNodes.length := by rw [← nodes, length_nodes sound]
  refine ⟨g.liveNodes.map g.nodeLines, ?_, ?_⟩
  · refine List.forall₂_map_right_iff.mpr (List.forall₂_same.mpr fun n mem => ?_)
    exact showsNode_nodeLines sound legal ((mem_liveNodes_iff sound).mp mem)
  · rw [listingLines, nodes, count, List.flatMap_def, linkCount]

structure ShowsAll (g : Graph β) : Prop where
  lines : ∃ lines, g.ShowsGraph lines ∧ g.listing = String.join (lines.map (· ++ "\n"))
  nodes : g.nodes = g.liveNodes
  live : ∀ key n, g.node? key = some n ↔ n ∈ g.liveNodes ∧ n.key = key
  /-- No node is shown twice, and the older ones come first. -/
  sorted : g.liveNodes.Pairwise (·.key.index < ·.key.index)
  links : ∀ ref s, g.spot ref = .ok s → (g.arrowsAt ref).map (·.link) = s.links
  /-- Whatever is looked up for the line of a link is there. -/
  found : ∀ ref s, g.spot ref = .ok s → ∀ id ∈ s.links, ∃ l target n t, g.link? id = some l ∧
    l.farEnd ref = .ok target ∧ g.node? target.node = some n ∧ n.spotAt target.index = .ok t
  /-- A link is seen from its two ends, from each once. -/
  twice : (g.spotRefs.flatMap g.arrowsAt).Perm (g.liveLinks.flatMap Link.arrows)
  ends : ∀ l ∈ g.liveLinks, l.a ≠ l.b
  ids : (g.liveLinks.map (·.id)).Nodup

variable [Behavior β]

/-- The listing of a reachable graph leaves nothing out and adds nothing. -/
theorem listing_shows_all (reach : g.Reachable) : g.ShowsAll := by
  have sound := reach.sound
  have legal := reach.legal
  constructor
  case lines => exact ⟨g.listingLines, showsGraph_listingLines sound legal, rfl⟩
  case nodes => exact nodes_eq_liveNodes sound
  case sorted => exact liveNodes_sorted sound
  case live =>
    intro key n
    rw [mem_liveNodes_iff sound]
    constructor
    · intro found
      have here := sound.key_eq key n found
      exact ⟨here.symm ▸ found, here⟩
    · rintro ⟨found, rfl⟩
      exact found
  case links => exact fun ref s at_ref => map_link_arrowsAt sound legal (spot_eq_ok_iff.mp at_ref)
  case found =>
    intro ref s at_ref id listed
    rw [← map_link_arrowsAt sound legal (spot_eq_ok_iff.mp at_ref)] at listed
    obtain ⟨a, mem, rfl⟩ := List.mem_map.mp listed
    obtain ⟨arrow, rfl⟩ := mem_arrowsAt_iff.mp mem
    obtain ⟨l, n, t, live, far, found, at_index⟩ := exists_far_of_mem_arrows sound legal arrow
    exact ⟨l, a.target, n, t, live, far, found, spotAt_eq_ok_iff.mpr at_index⟩
  case twice =>
    exact flatMap_filter_perm (spotRefs_nodup sound) fun a mem =>
      (mem_spotRefs_iff sound).mpr (sound.isSome_ends mem).1
  case ends => exact fun l mem => legal.ends_differ mem
  case ids => exact linkIds_nodup sound

/-- The link between two spots of one node is seen twice there, and what was removed is not seen. -/
theorem listing_of_knotted :
    let g := (knotted.removeNode ⟨2⟩).2
    g.listing = String.join (["graph \"knotted\": 2 nodes, 2 links",
      "start [UNLang/Entry] Start",
      "  out out: Any (1/*)",
      "      -> loop.in (link#2)",
      "loop [UNLang/Debug/Console] Loop",
      "  in  in: Any (2/*)",
      "      -> loop.out (link#1)",
      "      -> start.out (link#2)",
      "  out out: Any (1/*)",
      "      -> loop.in (link#1)"].map (· ++ "\n")) ∧ g.ShowsAll :=
  ⟨by decide +kernel, listing_shows_all (reachable_knotted.change (.removeNode ⟨2⟩))⟩

end Graph
end SignalGraph
