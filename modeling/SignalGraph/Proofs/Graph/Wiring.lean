import Mathlib.Data.List.Nodup
import SignalGraph.Proofs.Graph.View

/-!
Link arenas and the link lists of spots. The lists say nothing that the arena does not say: `wire`
rebuilds them all from an arena, and linking and disposing come to `wire` with one more or one fewer
link. A graph is wired from its own arena whenever its lists are right.
-/

namespace SignalGraph

theorem nodup_of_sorted {α : Type} {f : α → Nat} {l : List α}
    (sorted : l.Pairwise (f · < f ·)) : l.Nodup := by
  refine sorted.imp ?_
  intro a b lt same
  rw [same] at lt
  exact Nat.lt_irrefl _ lt

theorem Link.touches_iff {l : Link} {ref : SpotRef} :
    l.touches ref ↔ ref = l.a ∨ ref = l.b := by
  rw [Link.touches, decide_eq_true_iff, eq_comm, eq_comm (a := l.b)]

theorem Link.ends_of_farEnd {l : Link} {source target : SpotRef}
    (far : l.farEnd source = .ok target) :
    (source = l.a ∧ target = l.b) ∨ (source = l.b ∧ target = l.a) := by
  simp only [Link.farEnd] at far
  split at far
  · next first =>
      cases far
      exact .inl ⟨first, rfl⟩
  · split at far
    · next second =>
        cases far
        exact .inr ⟨second, rfl⟩
    · cases far

theorem Link.farEnd_of_touches {l : Link} {source : SpotRef} (touches : l.touches source) :
    ∃ target, l.farEnd source = .ok target := by
  obtain same | same := Link.touches_iff.mp touches
  · exact ⟨l.b, by rw [Link.farEnd, if_pos same]⟩
  · by_cases first : source = l.a
    · exact ⟨l.b, by rw [Link.farEnd, if_pos first]⟩
    · exact ⟨l.a, by rw [Link.farEnd, if_neg first, if_pos same]⟩

namespace LinkArena

/-- Every link has the number of its slot. -/
def Numbered (links : List (Option Link)) : Prop :=
  ∀ (i : Nat) (l : Link), links[i]? = some (some l) → l.id = ⟨i⟩

def live (links : List (Option Link)) : List Link := links.filterMap id

/-- Empties the slots of the links that fail a test. -/
def keep (p : Link → Bool) (links : List (Option Link)) : List (Option Link) :=
  links.map (Option.filter p)

def touching (links : List (Option Link)) (ref : SpotRef) : List LinkId :=
  ((live links).filter (·.touches ref)).map (·.id)

theorem mem_live_iff {links : List (Option Link)} (num : Numbered links) {l : Link} :
    l ∈ live links ↔ links[l.id.index]? = some (some l) := by
  simp only [live, List.mem_filterMap, id_eq, exists_eq_right]
  rw [List.mem_iff_getElem?]
  constructor
  · intro place
    obtain ⟨i, at_i⟩ := place
    rw [num i l at_i]
    exact at_i
  · intro at_id
    exact ⟨_, at_id⟩

theorem live_sorted {links : List (Option Link)} (num : Numbered links) :
    (live links).Pairwise (·.id.index < ·.id.index) := by
  rw [live, List.pairwise_filterMap, List.pairwise_iff_getElem]
  intro i j hi hj lt l at_i m at_j
  have first := num i l (by rw [List.getElem?_eq_getElem hi]; exact congrArg some at_i)
  have second := num j m (by rw [List.getElem?_eq_getElem hj]; exact congrArg some at_j)
  rw [first, second]
  exact lt

theorem touching_sorted {links : List (Option Link)} (num : Numbered links) (ref : SpotRef) :
    (touching links ref).Pairwise (·.index < ·.index) := by
  rw [touching, List.pairwise_map]
  exact (live_sorted num).sublist List.filter_sublist

theorem touching_nodup {links : List (Option Link)} (num : Numbered links) (ref : SpotRef) :
    (touching links ref).Nodup :=
  nodup_of_sorted (touching_sorted num ref)

theorem mem_touching_iff {links : List (Option Link)} (num : Numbered links) {ref : SpotRef}
    {id : LinkId} :
    id ∈ touching links ref ↔ ∃ l, links[id.index]? = some (some l) ∧ l.touches ref := by
  simp only [touching, List.mem_map, List.mem_filter]
  constructor
  · intro listed
    obtain ⟨l, ⟨mem, touches⟩, rfl⟩ := listed
    exact ⟨l, (mem_live_iff num).mp mem, touches⟩
  · intro live
    obtain ⟨l, at_id, touches⟩ := live
    have same : l.id = id := num _ l at_id
    refine ⟨l, ⟨(mem_live_iff num).mpr ?_, touches⟩, same⟩
    rw [same]
    exact at_id

/-! ### One more link, fewer links -/

@[simp]
theorem live_append_some (links : List (Option Link)) (l : Link) :
    live (links ++ [some l]) = live links ++ [l] := by
  simp [live]

theorem numbered_append_some {links : List (Option Link)} (num : Numbered links) {l : Link}
    (next : l.id = ⟨links.length⟩) : Numbered (links ++ [some l]) := by
  intro i m at_i
  rw [List.getElem?_append] at at_i
  split at at_i
  · exact num i m at_i
  · have last : i - links.length = 0 := by
      by_contra more
      rw [List.getElem?_eq_none (by simp; omega)] at at_i
      cases at_i
    rw [last] at at_i
    cases at_i
    rw [next]
    congr 1
    omega

theorem touching_append_some (links : List (Option Link)) (l : Link) (ref : SpotRef) :
    touching (links ++ [some l]) ref =
      touching links ref ++ if l.touches ref then [l.id] else [] := by
  rw [touching, live_append_some, List.filter_append, List.map_append]
  by_cases touches : l.touches ref <;> simp [touching, touches]

theorem getElem?_keep_eq_some_iff {p : Link → Bool} {links : List (Option Link)} {i : Nat}
    {l : Link} : (keep p links)[i]? = some (some l) ↔ links[i]? = some (some l) ∧ p l := by
  simp only [keep, List.getElem?_map, Option.map_eq_some_iff, Option.filter_eq_some_iff]
  constructor
  · intro kept
    obtain ⟨o, at_i, rfl, passes⟩ := kept
    exact ⟨at_i, passes⟩
  · intro both
    obtain ⟨at_i, passes⟩ := both
    exact ⟨_, at_i, rfl, passes⟩

theorem numbered_keep {links : List (Option Link)} (num : Numbered links) (p : Link → Bool) :
    Numbered (keep p links) :=
  fun i l at_i => num i l (getElem?_keep_eq_some_iff.mp at_i).1

theorem live_keep (p : Link → Bool) (links : List (Option Link)) :
    live (keep p links) = (live links).filter p := by
  rw [live, live, keep, List.filterMap_map, List.filter_filterMap]
  rfl

theorem keep_keep (p q : Link → Bool) (links : List (Option Link)) :
    keep q (keep p links) = keep (fun l => p l && q l) links := by
  simp only [keep, List.map_map]
  congr 1
  funext o
  simp [Option.filter_filter]

theorem touching_keep (p : Link → Bool) (links : List (Option Link)) (ref : SpotRef) :
    touching (keep p links) ref =
      (((live links).filter fun l => l.touches ref && p l)).map (·.id) := by
  rw [touching, live_keep, List.filter_filter]

theorem keep_congr {p q : Link → Bool} {links : List (Option Link)}
    (same : ∀ l ∈ live links, p l = q l) : keep p links = keep q links := by
  apply List.map_congr_left
  intro o mem
  cases o with
  | none => rfl
  | some l =>
      have : l ∈ live links := List.mem_filterMap.mpr ⟨some l, mem, rfl⟩
      simp [Option.filter_some, same l this]

theorem keep_all {p : Link → Bool} {links : List (Option Link)} (all : ∀ l ∈ live links, p l) :
    keep p links = links := by
  rw [keep_congr (q := fun _ => true) (by simpa using all)]
  have : Option.filter (fun _ : Link => true) = id := by
    funext o
    cases o <;> rfl
  rw [keep, this, List.map_id]

theorem set_none_eq_keep {links : List (Option Link)} (num : Numbered links) (id : LinkId) :
    links.set id.index none = keep (·.id ≠ id) links := by
  apply List.ext_getElem?
  intro i
  rw [List.getElem?_set, keep, List.getElem?_map]
  by_cases same : id.index = i
  · subst same
    cases at_id : links[id.index]? with
    | none => simp [List.getElem?_eq_none_iff.mp at_id]
    | some o =>
        have := (List.getElem?_eq_some_iff.mp at_id).1
        cases o with
        | none => simp [this]
        | some l => simp [this, Option.filter_some, num _ l at_id]
  · rw [if_neg same]
    cases at_i : links[i]? with
    | none => rfl
    | some o =>
        cases o with
        | none => rfl
        | some l =>
            have : l.id ≠ id := by
              rw [num i l at_i]
              intro same
              subst same
              exact same rfl
            simp [Option.filter_some, this]

theorem touching_keep_ne {links : List (Option Link)} (num : Numbered links) (id : LinkId)
    (ref : SpotRef) : touching (keep (·.id ≠ id) links) ref = (touching links ref).erase id := by
  rw [(touching_nodup num ref).erase_eq_filter, touching, touching, live_keep,
    List.filter_map, List.filter_filter, List.filter_filter]
  congr 2
  funext l
  simp [Bool.and_comm, bne, beq_eq_decide]

end LinkArena

namespace Graph

open LinkArena

variable {β : Type}

def relist (links : List (Option Link)) (ref : SpotRef) (s : Spot) : Spot :=
  { s with links := touching links ref }

theorem relist_relist (links more : List (Option Link)) (ref : SpotRef) (s : Spot) :
    relist more ref (relist links ref s) = relist more ref s := rfl

/-- The graph with another link arena, every spot listing the links of that arena. -/
def wire (g : Graph β) (links : List (Option Link)) : Graph β :=
  { g.mapSpots (relist links) with links }

@[simp]
theorem links_wire (g : Graph β) (links : List (Option Link)) : (g.wire links).links = links := rfl

@[simp]
theorem ids_wire (g : Graph β) (links : List (Option Link)) : (g.wire links).ids = g.ids := rfl

@[simp]
theorem length_slots_wire (g : Graph β) (links : List (Option Link)) :
    (g.wire links).slots.length = g.slots.length :=
  length_slots_mapSpots g (relist links)

@[simp]
theorem slot?_wire (g : Graph β) (links : List (Option Link)) (key : NodeKey) :
    (g.wire links).slot? key = (g.slot? key).map fun s =>
      { s with node := s.node.mapSpots fun j => relist links ⟨key, j⟩ } :=
  slot?_mapSpots g (relist links) key

@[simp]
theorem node?_wire (g : Graph β) (links : List (Option Link)) (key : NodeKey) :
    (g.wire links).node? key = (g.node? key).map (·.mapSpots fun j => relist links ⟨key, j⟩) :=
  node?_mapSpots g (relist links) key

@[simp]
theorem behavior?_wire (g : Graph β) (links : List (Option Link)) (key : NodeKey) :
    (g.wire links).behavior? key = g.behavior? key :=
  behavior?_mapSpots g (relist links) key

@[simp]
theorem spot?_wire (g : Graph β) (links : List (Option Link)) (ref : SpotRef) :
    (g.wire links).spot? ref = (g.spot? ref).map (relist links ref) :=
  spot?_mapSpots g (relist links) ref

theorem spot?_wire_of_spot? {g : Graph β} {ref : SpotRef} {s : Spot} (found : g.spot? ref = some s)
    (links : List (Option Link)) : (g.wire links).spot? ref = some (relist links ref s) := by
  rw [spot?_wire, found, Option.map_some]

theorem wire_wire (g : Graph β) (links more : List (Option Link)) :
    (g.wire links).wire more = g.wire more := by
  refine eq_of_views rfl (by simp) ?_ rfl rfl
  intro key
  cases at_key : g.slot? key <;> simp [at_key, relist_relist]

/-- Every spot lists exactly the links of the arena that touch it, the oldest first. -/
def Wired (g : Graph β) : Prop :=
  ∀ ref s, g.spot? ref = some s → s.links = touching g.links ref

theorem wired_wire (g : Graph β) (links : List (Option Link)) : (g.wire links).Wired := by
  intro ref s found
  rw [spot?_wire] at found
  obtain ⟨t, _, rfl⟩ := Option.map_eq_some_iff.mp found
  rfl

theorem Wired.wire_self {g : Graph β} (wired : g.Wired) : g.wire g.links = g := by
  have : g.mapSpots (relist g.links) = g :=
    mapSpots_self fun ref s found => by rw [relist, ← wired ref s found]
  rw [wire, this]

end Graph
end SignalGraph
