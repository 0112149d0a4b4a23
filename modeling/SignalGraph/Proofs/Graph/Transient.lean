import SignalGraph.Proofs.Graph.Joining

/-!
A link that comes and goes. Whatever is linked and disposed of while it is there, once it is gone the graph
is the one in which it never was, but for the ids of the later links, which are one lower there. Calls that
are refused meanwhile are not considered: a spot may have been full because of that link.
-/

namespace SignalGraph

theorem LinkId.eq_of_index {id id' : LinkId} (same : id.index = id'.index) : id = id' := by
  cases id
  cases id'
  exact congrArg LinkId.mk same

inductive LinkEdit where
  | link (a b : SpotRef)
  | dispose (id : LinkId)
deriving DecidableEq

namespace Renaming

/-- Every link that is younger than a given one has an id that is one lower. -/
def closing (l : LinkId) : Renaming where
  node := id
  link other := if l.index < other.index then ⟨other.index - 1⟩ else other

def edit (r : Renaming) : LinkEdit → LinkEdit
  | .link a b => .link (r.spotRef a) (r.spotRef b)
  | .dispose id => .dispose (r.link id)

variable {l : LinkId}

theorem closing_link_index (id : LinkId) : ((closing l).link id).index =
    if l.index < id.index then id.index - 1 else id.index := by
  simp only [closing]
  split <;> rfl

theorem closing_link_lt {id id' : LinkId} (other : id ≠ l) (less : id.index < id'.index) :
    ((closing l).link id).index < ((closing l).link id').index := by
  have apart := mt LinkId.eq_of_index other
  rw [closing_link_index, closing_link_index]
  split <;> split <;> omega

theorem closing_link_inj {id id' : LinkId} (other : id ≠ l) (other' : id' ≠ l)
    (same : (closing l).link id = (closing l).link id') : id = id' := by
  obtain less | equal | less := Nat.lt_trichotomy id.index id'.index
  · have apart := closing_link_lt other less
    rw [same] at apart
    exact absurd apart (Nat.lt_irrefl _)
  · exact LinkId.eq_of_index equal
  · have apart := closing_link_lt other' less
    rw [same] at apart
    exact absurd apart (Nat.lt_irrefl _)

end Renaming

namespace LinkArena

open Renaming

variable {l : LinkId} {links : List (Option Link)}

/-- The arena without the slot of a link. -/
def squeeze (l : LinkId) (links : List (Option Link)) : List (Option Link) :=
  (links.eraseIdx l.index).map (Option.map (closing l).linkOf)

theorem getElem?_squeeze (i : Nat) : (squeeze l links)[i]? =
    links[if i < l.index then i else i + 1]?.map (Option.map (closing l).linkOf) := by
  rw [squeeze, List.getElem?_map, List.getElem?_eraseIdx]
  split <;> rfl

theorem getElem?_squeeze_closing {id : LinkId} (other : id ≠ l) :
    (squeeze l links)[((closing l).link id).index]? =
      links[id.index]?.map (Option.map (closing l).linkOf) := by
  have apart := mt LinkId.eq_of_index other
  have back : (if ((closing l).link id).index < l.index then ((closing l).link id).index
      else ((closing l).link id).index + 1) = id.index := by
    rw [closing_link_index]
    split <;> split <;> omega
  rw [getElem?_squeeze, back]

theorem numbered_squeeze (num : Numbered links) : Numbered (squeeze l links) := by
  intro i m at_i
  rw [getElem?_squeeze, Option.map_eq_some_iff] at at_i
  obtain ⟨o, at_old, renamed⟩ := at_i
  obtain ⟨old, rfl, rfl⟩ := Option.map_eq_some_iff.mp renamed
  have own := num _ old at_old
  apply LinkId.eq_of_index
  change ((closing l).link old.id).index = i
  rw [own, closing_link_index]
  split <;> split <;> simp only at * <;> omega

theorem live_set_none (links : List (Option Link)) (i : Nat) :
    live (links.set i none) = live (links.eraseIdx i) := by
  simp only [live]
  induction links generalizing i with
  | nil => rfl
  | cons o links ih =>
      cases i with
      | zero => rfl
      | succ i =>
          cases o with
          | none => exact ih i
          | some l => exact congrArg (l :: ·) (ih i)

theorem live_squeeze (num : Numbered links) :
    live (squeeze l links) = (live (keep (·.id ≠ l) links)).map (closing l).linkOf := by
  rw [← set_none_eq_keep num, live_set_none, live, live, squeeze, List.filterMap_map,
    List.map_filterMap]
  rfl

theorem touching_squeeze (num : Numbered links) (ref : SpotRef) :
    touching (squeeze l links) ref =
      (touching (keep (·.id ≠ l) links) ref).map (closing l).link := by
  rw [touching, live_squeeze num, List.filter_map, List.map_map, touching, List.map_map]
  rfl

theorem squeeze_keep_self (num : Numbered links) :
    squeeze l (keep (·.id ≠ l) links) = squeeze l links := by
  rw [← set_none_eq_keep num, squeeze, List.eraseIdx_set_eq, squeeze]

theorem squeeze_keep (num : Numbered links) {id : LinkId} (other : id ≠ l) :
    squeeze l (keep (·.id ≠ id) links) =
      keep (·.id ≠ (closing l).link id) (squeeze l links) := by
  apply List.ext_getElem?
  intro i
  rw [getElem?_squeeze, keep, List.getElem?_map, keep, List.getElem?_map, getElem?_squeeze]
  generalize place : (if i < l.index then i else i + 1) = j
  have apart : j ≠ l.index := by
    rw [← place]
    split <;> omega
  cases at_j : links[j]? with
  | none => rfl
  | some o =>
      cases o with
      | none => rfl
      | some m =>
          have own : m.id = ⟨j⟩ := num j m at_j
          have younger : m.id ≠ l := by
            rw [own]
            rintro rfl
            exact apart rfl
          by_cases same : m.id = id
          · simp [Option.filter_some, linkOf, same]
          · have still : (closing l).link m.id ≠ (closing l).link id :=
              fun equal => same (closing_link_inj younger other equal)
            simp [Option.filter_some, linkOf, same, still]

theorem squeeze_append_some (bound : l.index < links.length) (a b : SpotRef) :
    squeeze l (links ++ [some ⟨⟨links.length⟩, a, b⟩]) =
      squeeze l links ++ [some ⟨⟨(squeeze l links).length⟩, a, b⟩] := by
  rw [squeeze, List.eraseIdx_append_of_lt_length bound, List.map_append, squeeze]
  simp [linkOf, closing, spotRef, bound, List.length_eraseIdx]

theorem squeeze_append_self (num : Numbered links) (o : Option Link) :
    squeeze ⟨links.length⟩ (links ++ [o]) = links := by
  apply List.ext_getElem?
  intro i
  rw [getElem?_squeeze]
  by_cases bound : i < links.length
  · simp only [bound, if_true]
    rw [List.getElem?_append_left bound, List.getElem?_eq_getElem bound, Option.map_some]
    cases at_i : links[i] with
    | none => rfl
    | some m =>
        have own := num i m (by rw [List.getElem?_eq_getElem bound, at_i])
        have old : ¬ links.length < i := by omega
        obtain ⟨id, a, b⟩ := m
        cases own
        simp [linkOf, closing, spotRef, old]
  · rw [if_neg bound, List.getElem?_eq_none (by simp; omega), List.getElem?_eq_none (by omega)]
    rfl

end LinkArena

namespace Graph

open LinkArena Renaming

variable {β : Type} {g h : Graph β} {l : LinkId} {m : Link} {e : LinkEdit}

/-! ### Calls that succeed -/

def edit (g : Graph β) : LinkEdit → Except GraphError (Graph β)
  | .link a b => (g.link a b).1.map fun _ => (g.link a b).2
  | .dispose id => (g.disposeLink id).1.map fun _ => (g.disposeLink id).2

def editAll (g : Graph β) (es : List LinkEdit) : Except GraphError (Graph β) := es.foldlM edit g

theorem edit_link (wired : g.Wired) {a b : SpotRef} (checked : g.checkLink a b = .ok ()) :
    g.edit (.link a b) = .ok (g.wire (g.links ++ [some ⟨⟨g.links.length⟩, a, b⟩])) := by
  rw [edit, link_eq_of_checkLink wired checked]
  rfl

theorem edit_dispose (sound : g.Sound) {id : LinkId} (live : g.link? id = some m) :
    g.edit (.dispose id) = .ok (g.wire (keep (·.id ≠ id) g.links)) := by
  rw [edit, disposeLink_eq sound live]
  rfl

theorem edit_cases (sound : g.Sound) (done : g.edit e = .ok h) :
    (∃ a b, e = .link a b ∧ g.checkLink a b = .ok () ∧
      h = g.wire (g.links ++ [some ⟨⟨g.links.length⟩, a, b⟩])) ∨
    ∃ id m, e = .dispose id ∧ g.link? id = some m ∧ h = g.wire (keep (·.id ≠ id) g.links) := by
  cases e with
  | link a b =>
      refine .inl ⟨a, b, rfl, ?_⟩
      cases checked : g.checkLink a b with
      | error cause =>
          rw [edit, link_eq_of_refused checked] at done
          cases done
      | ok u =>
          cases (edit_link sound.wired checked).symm.trans done
          exact ⟨rfl, rfl⟩
  | dispose id =>
      refine .inr ⟨id, ?_⟩
      cases live : g.link? id with
      | none =>
          rw [edit, disposeLink_eq_of_dead live] at done
          cases done
      | some m =>
          cases (edit_dispose sound live).symm.trans done
          exact ⟨m, rfl, rfl, rfl⟩

theorem Reachable.edit [Behavior β] (reach : g.Reachable) (done : g.edit e = .ok h) :
    h.Reachable := by
  have sound := reach.sound
  obtain ⟨a, b, rfl, checked, rfl⟩ | ⟨id, m, rfl, live, rfl⟩ := edit_cases sound done
  · have made : (g.link a b).2.Reachable := reach.change (.link a b)
    rwa [link_eq_of_checkLink sound.wired checked] at made
  · have left : (g.disposeLink id).2.Reachable := reach.change (.disposeLink id)
    rwa [disposeLink_eq sound live] at left

theorem link?_edit (sound : g.Sound) (done : g.edit e = .ok h) (live : g.link? l = some m)
    (kept : e ≠ .dispose l) : h.link? l = some m := by
  rw [link?_eq_some_iff] at live ⊢
  obtain ⟨a, b, rfl, _, rfl⟩ | ⟨id, n, rfl, _, rfl⟩ := edit_cases sound done
  · rw [links_wire, List.getElem?_append_left (List.getElem?_eq_some_iff.mp live).1, live]
  · rw [links_wire, getElem?_keep_eq_some_iff, sound.numbered _ m live]
    refine ⟨live, decide_eq_true fun same => kept ?_⟩
    cases same
    rfl

/-! ### The graph in which a link never was -/

/-- The graph without a link and without its slot. -/
def forget (g : Graph β) (l : LinkId) : Graph β := g.wire (squeeze l g.links)

/-- The graph with the empty slot of a dead link closed. -/
def closeGap (g : Graph β) (l : LinkId) : Graph β :=
  { g.mapSpots fun _ => (closing l).spotOf with links := squeeze l g.links }

theorem Sound.forget (sound : g.Sound) (l : LinkId) : (g.forget l).Sound := by
  apply sound.wire (numbered_squeeze sound.numbered)
  intro m mem
  rw [live_squeeze sound.numbered, live_keep] at mem
  obtain ⟨old, kept, rfl⟩ := List.mem_map.mp mem
  have ends := sound.ends_of_mem_live (List.mem_of_mem_filter kept)
  exact ends

theorem link?_forget {id : LinkId} (other : id ≠ l) :
    (g.forget l).link? ((closing l).link id) = (g.link? id).map (closing l).linkOf := by
  rw [link?, forget, links_wire, getElem?_squeeze_closing other, link?]
  obtain _ | _ | _ := g.links[id.index]? <;> rfl

theorem spot_forget {ref : SpotRef} {s : Spot} (found : g.spot ref = .ok s) :
    (g.forget l).spot ref = .ok { s with links := touching (squeeze l g.links) ref } :=
  spot_eq_ok_iff.mpr (spot?_wire_of_spot? (spot_eq_ok_iff.mp found) _)

theorem length_touching_squeeze_le (sound : g.Sound) {ref : SpotRef} {s : Spot}
    (found : g.spot ref = .ok s) : (touching (squeeze l g.links) ref).length ≤ s.links.length := by
  rw [touching_squeeze sound.numbered, List.length_map, touching_keep_ne sound.numbered,
    sound.wired ref s (spot_eq_ok_iff.mp found)]
  exact List.length_erase_le

theorem checkLink_forget (sound : g.Sound) {a b : SpotRef} (checked : g.checkLink a b = .ok ()) :
    (g.forget l).checkLink a b = .ok () := by
  obtain ⟨⟨s, t, linkable⟩, left⟩ := (checkLink_eq_ok_iff_linkable sound).mp checked
  have left' : (g.forget l).links.length < capacity := by
    rw [forget, links_wire, squeeze, List.length_map]
    exact Nat.lt_of_le_of_lt (List.length_eraseIdx_le g.links l.index) left
  refine (checkLink_eq_ok_iff_linkable (sound.forget l)).mpr
    ⟨⟨_, _, spot_forget linkable.first, spot_forget linkable.second, linkable.direction,
      linkable.category, ?_, ?_, ?_⟩, left'⟩
  · intro limit arity
    exact Nat.lt_of_le_of_lt (length_touching_squeeze_le sound linkable.first)
      (linkable.room limit arity)
  · intro limit arity
    exact Nat.lt_of_le_of_lt (length_touching_squeeze_le sound linkable.second)
      (linkable.room' limit arity)
  · intro id n live joined
    have mem := mem_live_of_link? live
    rw [forget, links_wire, live_squeeze sound.numbered, live_keep] at mem
    obtain ⟨old, kept, rfl⟩ := List.mem_map.mp mem
    have live' : g.link? old.id = some old :=
      link?_eq_some_iff.mpr ((mem_live_iff sound.numbered).mp (List.mem_of_mem_filter kept))
    exact linkable.apart old.id old live' joined

theorem edit_forget (sound : g.Sound) (bound : l.index < g.links.length) (done : g.edit e = .ok h)
    (kept : e ≠ .dispose l) : (g.forget l).edit ((closing l).edit e) = .ok (h.forget l) := by
  have sound' := sound.forget l
  -- Every spot lists what the arena says, so the two graphs agree as soon as the arenas do.
  obtain ⟨a, b, rfl, checked, rfl⟩ | ⟨id, n, rfl, live, rfl⟩ := edit_cases sound done
  · have same : (closing l).edit (.link a b) = .link a b := rfl
    rw [same, edit_link sound'.wired (checkLink_forget sound checked), forget, forget, wire_wire,
      wire_wire, links_wire, links_wire, squeeze_append_some bound]
  · have other : id ≠ l := by
      rintro rfl
      exact kept rfl
    have live' : (g.forget l).link? ((closing l).link id) = some ((closing l).linkOf n) := by
      rw [link?_forget other, live, Option.map_some]
    rw [Renaming.edit, edit_dispose sound' live', forget, forget, wire_wire, wire_wire, links_wire,
      links_wire, squeeze_keep sound.numbered other]

/-- Some calls that succeed do there what they do here, and the link outlasts them. -/
theorem editAll_forget [Behavior β] (reach : g.Reachable) (live : g.link? l = some m)
    {es : List LinkEdit} (done : g.editAll es = .ok h) (kept : .dispose l ∉ es) :
    h.Reachable ∧ h.link? l = some m ∧
      (g.forget l).editAll (es.map (closing l).edit) = .ok (h.forget l) := by
  induction es generalizing g with
  | nil =>
      cases done
      exact ⟨reach, live, rfl⟩
  | cons e es ih =>
      obtain ⟨k, first, rest⟩ := bind_eq_ok_iff.mp done
      obtain ⟨here, later⟩ := not_or.mp (mt List.mem_cons.mpr kept)
      have bound : l.index < g.links.length :=
        (List.getElem?_eq_some_iff.mp (link?_eq_some_iff.mp live)).1
      have still := link?_edit reach.sound first live (Ne.symm here)
      obtain ⟨reach', live', rest'⟩ := ih (reach.edit first) still rest later
      refine ⟨reach', live', bind_eq_ok_iff.mpr ⟨k.forget l, ?_, rest'⟩⟩
      exact edit_forget reach.sound bound first (Ne.symm here)

theorem live_of_link [Behavior β] (reach : g.Reachable) {a b : SpotRef}
    (linked : g.link a b = (.ok l, h)) :
    h.Reachable ∧ h.link? l = some ⟨l, a, b⟩ ∧ h.forget l = g := by
  have sound := reach.sound
  have step : (g.link a b).2.Reachable := reach.change (.link a b)
  rw [linked] at step
  refine ⟨step, ?_⟩
  obtain ⟨_, refused⟩ | new := link_cases sound a b
  · cases refused.symm.trans linked
  · cases new.symm.trans linked
    constructor
    · simp [link?_eq_some_iff]
    · rw [forget, wire_wire, links_wire, squeeze_append_self sound.numbered, sound.wired.wire_self]

theorem forget_disposed (sound : g.Sound) (l : LinkId) :
    g.forget l = (g.wire (keep (·.id ≠ l) g.links)).closeGap l := by
  have each (ref : SpotRef) (s : Spot) : (closing l).spotOf
      (relist (keep (·.id ≠ l) g.links) ref s) = relist (squeeze l g.links) ref s := by
    rw [relist, relist, touching_squeeze sound.numbered]
    rfl
  have relisted : (g.wire (keep (·.id ≠ l) g.links)).mapSpots (fun _ => (closing l).spotOf) =
      { g.wire (squeeze l g.links) with links := keep (·.id ≠ l) g.links } := by
    refine eq_of_views rfl (by simp) ?_ rfl rfl
    intro key
    rw [slot?_mapSpots, slot?_wire]
    change _ = (g.wire (squeeze l g.links)).slot? key
    rw [slot?_wire, Option.map_map]
    refine Option.map_congr fun s _ => ?_
    simp only [Function.comp_apply, Node.mapSpots_mapSpots, each]
  rw [closeGap, relisted, links_wire, squeeze_keep_self sound.numbered]
  rfl

theorem forget_of_live [Behavior β] (reach : g.Reachable) (live : g.link? l = some m) :
    ∃ h, h.Reachable ∧ g.disposeLink l = (.ok m, h) ∧ l.index < h.links.length ∧
      h.link? l = none ∧ g.forget l = h.closeGap l := by
  have sound := reach.sound
  have disposed := disposeLink_eq sound live
  have step : (g.disposeLink l).2.Reachable := reach.change (.disposeLink l)
  rw [disposed] at step
  have bound : l.index < g.links.length :=
    (List.getElem?_eq_some_iff.mp (link?_eq_some_iff.mp live)).1
  refine ⟨_, step, disposed, by simpa [keep] using bound, ?_, forget_disposed sound l⟩
  rw [link?, links_wire, ← set_none_eq_keep sound.numbered, List.getElem?_set_self bound]
  rfl

theorem keepsOrder_closing (dead : g.link? l = none) : (closing l).KeepsOrder g where
  node _ _ _ _ less := less
  link id _ live _ less := by
    refine closing_link_lt ?_ less
    rintro rfl
    rw [dead] at live
    cases live

theorem node?_closeGap (key : NodeKey) : (g.closeGap l).node? key =
    (g.node? key).map (·.mapSpots fun _ => (closing l).spotOf) :=
  node?_mapSpots g (fun _ => (closing l).spotOf) key

theorem behavior?_closeGap (key : NodeKey) : (g.closeGap l).behavior? key = g.behavior? key :=
  behavior?_mapSpots g (fun _ => (closing l).spotOf) key

theorem spot_closeGap (ref : SpotRef) : (g.closeGap l).spot ref =
    (g.spot ref).map fun s => { s with links := s.links.map (closing l).link } := by
  simp only [spot, node, node?_closeGap]
  cases g.node? ref.node with
  | none => rfl
  | some n =>
      have size : (n.mapSpots fun _ => (closing l).spotOf).spots.length = n.spots.length := by
        simp [Node.mapSpots]
      simp only [Option.map_some, bind, Except.bind, Node.spotAt, Node.mapSpots_getElem?, size]
      cases n.spots[ref.index]? <;> rfl

theorem renamed_closeGap (sound : g.Sound) (dead : g.link? l = none) :
    Renamed (closing l) g (g.closeGap l) := by
  have other {id : LinkId} (live : (g.link? id).isSome) : id ≠ l := by
    rintro rfl
    rw [dead] at live
    cases live
  constructor
  case name => rfl
  case node =>
    intro key n found
    have all : n.spots.mapIdx (fun _ => (closing l).spotOf) = n.spots.map (closing l).spotOf := by
      apply List.ext_getElem?
      simp
    change (g.closeGap l).node? key = _
    rw [node?_closeGap, found, Option.map_some, Node.mapSpots, all]
    rfl
  case ids => simp [closeGap, closing]
  case liveLinks =>
    change live (squeeze l g.links) = _
    rw [live_squeeze sound.numbered, keep_all]
    · rfl
    · intro m mem
      have live : g.link? m.id = some m :=
        link?_eq_some_iff.mpr ((mem_live_iff sound.numbered).mp mem)
      exact decide_eq_true (other (by rw [live]; rfl))
  case link =>
    intro id m live
    change (g.forget l).link? _ = _
    rw [link?_forget (other (by rw [live]; rfl)), live, Option.map_some]
  case node_inj => exact fun _ _ _ _ same => same
  case link_inj => exact fun _ _ live live' => closing_link_inj (other live) (other live')

/-- What it comes to that a link is disposed of in the graph `k` that some calls have left since it was
made; `h` is left then. -/
structure Vanishes [Behavior β] (g : Graph β) (a b : SpotRef) (l : LinkId) (es : List LinkEdit)
    (k h : Graph β) : Prop where
  disposed : k.disposeLink l = (.ok ⟨l, a, b⟩, h)
  once : ∀ as, ((h.after as).disposeLink l).1 = .error (.deadLink l)
  /-- Without the link the same calls succeed, and leave the same graph with one slot less. -/
  without : g.editAll (es.map (closing l).edit) = .ok (h.closeGap l)
  renamed : Renamed (closing l) h (h.closeGap l)
  order : (closing l).KeepsOrder h
  spot : ∀ ref, (h.closeGap l).spot ref =
    (h.spot ref).map fun s => { s with links := s.links.map (closing l).link }
  behavior : ∀ key, (h.closeGap l).behavior? key = h.behavior? key
  document : (h.closeGap l).snapshot.1 = h.snapshot.1

/-- A link leaves no trace, whatever is linked and disposed of while it is there. -/
theorem transient_link_vanishes [Behavior β] (reach : g.Reachable) {a b : SpotRef} {made k : Graph β}
    (linked : g.link a b = (.ok l, made)) {es : List LinkEdit} (edited : made.editAll es = .ok k)
    (kept : .dispose l ∉ es) : ∃ h, g.Vanishes a b l es k h := by
  obtain ⟨reach', live, start⟩ := live_of_link reach linked
  obtain ⟨reach', live, without⟩ := editAll_forget reach' live edited kept
  obtain ⟨h, left, disposed, bound, dead, closed⟩ := forget_of_live reach' live
  rw [start, closed] at without
  have renamed := renamed_closeGap left.sound dead
  refine ⟨h, disposed, ?_, without, renamed, keepsOrder_closing dead, spot_closeGap,
    behavior?_closeGap, ?_⟩
  · intro as
    rw [disposeLink_eq_of_dead ((older_after left as).link_dead l bound dead)]
  · exact renamed.snapshot left.sound fun n _ b found =>
      ⟨b, (behavior?_closeGap n.key).trans found, rfl⟩

/-- The last of the calls disposes of the link with id 4; without the link to the first console it has id 3,
and the one that stays has id 4 in place of 5. -/
theorem transient_link_of_knotted :
    let es : List LinkEdit :=
      [.link ⟨⟨2⟩, 1⟩ ⟨⟨2⟩, 0⟩, .dispose ⟨1⟩, .link ⟨⟨1⟩, 1⟩ ⟨⟨2⟩, 0⟩, .dispose ⟨4⟩]
    let made := (knotted.link ⟨⟨2⟩, 1⟩ ⟨⟨1⟩, 0⟩).2
    es.map (closing ⟨3⟩).edit =
        [.link ⟨⟨2⟩, 1⟩ ⟨⟨2⟩, 0⟩, .dispose ⟨1⟩, .link ⟨⟨1⟩, 1⟩ ⟨⟨2⟩, 0⟩, .dispose ⟨3⟩] ∧
      ∃ k h, made.editAll es = .ok k ∧ k.liveLinks.map (·.id) = [⟨0⟩, ⟨2⟩, ⟨3⟩, ⟨5⟩] ∧
        knotted.Vanishes ⟨⟨2⟩, 1⟩ ⟨⟨1⟩, 0⟩ ⟨3⟩ es k h := by
  intro es made
  have linked : knotted.link ⟨⟨2⟩, 1⟩ ⟨⟨1⟩, 0⟩ = (.ok ⟨3⟩, made) := by decide +kernel
  obtain ⟨k, edited, left⟩ : ∃ k, made.editAll es = .ok k ∧
      k.liveLinks.map (·.id) = [⟨0⟩, ⟨2⟩, ⟨3⟩, ⟨5⟩] := by
    refine ⟨(made.editAll es).toOption.get ?_, ?_, ?_⟩ <;> decide +kernel
  obtain ⟨h, vanishes⟩ := transient_link_vanishes reachable_knotted linked edited (by decide)
  exact ⟨by decide, k, h, edited, left, vanishes⟩

end Graph
end SignalGraph
