import SignalGraph.Proofs.Graph.Addresses
import SignalGraph.Proofs.Graph.Legal

/-!
Making the links of a document, in a graph whose spots take any number of links of every category. There it
only matters what the spots at the two addresses are and which pairs of spots were linked before, so the
order of the links plays no part. Which objection is raised against other links is left open.
-/

namespace SignalGraph

def LinkRecord.SameSpots (r s : LinkRecord) : Prop := r.a = s.a ∧ r.b = s.b ∨ r.a = s.b ∧ r.b = s.a

theorem Link.sameEnds_of_repeats {l m : Link} (apart : m.a ≠ m.b) (repeats : l.Repeats m) :
    l.SameEnds m := by
  obtain ⟨first, second⟩ := repeats
  obtain at_a | at_b := touches_iff.mp first <;> obtain at_a' | at_b' := touches_iff.mp second
  · exact absurd (at_a.trans at_a'.symm) apart
  · exact .inl ⟨at_a.symm, at_b'.symm⟩
  · exact .inr ⟨at_a'.symm, at_b.symm⟩
  · exact absurd (at_b.trans at_b'.symm) apart

namespace Graph

open LinkArena

variable {β : Type} {g h : Graph β}

/-- Every spot takes any number of links of every category. -/
def Open (g : Graph β) : Prop :=
  ∀ ref s, g.spot? ref = some s → s.category = .any ∧ s.arity = .unbounded

def DeclaresAt (g : Graph β) (place : SpotAddress) (d : SpotDecl) : Prop :=
  ∃ ref s, g.address ref = .ok place ∧ g.spot? ref = some s ∧ s.toSpotDecl = d

/-- The two addresses are those of an input and an output. -/
def Joins (g : Graph β) (r : LinkRecord) : Prop :=
  ∃ d e, g.DeclaresAt r.a d ∧ g.DeclaresAt r.b e ∧ d.direction ≠ e.direction

def Stores (g : Graph β) (r : LinkRecord) : Prop := ∃ l ∈ g.liveLinks, g.saveLink l = .ok r

/-! ### Other links between the same spots -/

theorem address_wire_eq_ok_iff {links : List (Option Link)} {ref : SpotRef} {place : SpotAddress} :
    (g.wire links).address ref = .ok place ↔ g.address ref = .ok place := by
  simp only [address_eq_ok_iff, node?_wire]
  constructor
  · intro found
    obtain ⟨_, t, at_key, at_index, rfl⟩ := found
    obtain ⟨n, here, rfl⟩ := Option.map_eq_some_iff.mp at_key
    rw [Node.mapSpots_getElem?] at at_index
    obtain ⟨s, at_s, rfl⟩ := Option.map_eq_some_iff.mp at_index
    exact ⟨n, s, here, at_s, rfl⟩
  · intro found
    obtain ⟨n, s, here, at_s, rfl⟩ := found
    exact ⟨n.mapSpots fun j => relist links ⟨ref.node, j⟩, relist links ref s,
      by rw [here, Option.map_some], by rw [Node.mapSpots_getElem?, at_s, Option.map_some], rfl⟩

theorem saveLink_wire_eq_ok_iff {links : List (Option Link)} {l : Link} {r : LinkRecord} :
    (g.wire links).saveLink l = .ok r ↔ g.saveLink l = .ok r := by
  simp only [saveLink_eq_ok_iff, address_wire_eq_ok_iff]

theorem Open.wire (opens : g.Open) (links : List (Option Link)) : (g.wire links).Open := by
  intro ref s found
  rw [spot?_wire] at found
  obtain ⟨t, here, rfl⟩ := Option.map_eq_some_iff.mp found
  exact opens ref t here

theorem declaresAt_wire_iff {links : List (Option Link)} {place : SpotAddress} {d : SpotDecl} :
    (g.wire links).DeclaresAt place d ↔ g.DeclaresAt place d := by
  simp only [DeclaresAt, address_wire_eq_ok_iff, spot?_wire]
  constructor
  · intro declared
    obtain ⟨ref, _, here, found, rfl⟩ := declared
    obtain ⟨t, at_ref, rfl⟩ := Option.map_eq_some_iff.mp found
    exact ⟨ref, t, here, at_ref, rfl⟩
  · intro declared
    obtain ⟨ref, t, here, at_ref, rfl⟩ := declared
    exact ⟨ref, relist links ref t, here, by rw [at_ref, Option.map_some], rfl⟩

theorem joins_wire_iff {links : List (Option Link)} {r : LinkRecord} :
    (g.wire links).Joins r ↔ g.Joins r := by
  simp only [Joins, declaresAt_wire_iff]

/-! ### One link -/

theorem address_eq_iff (sound : g.Sound) {ref ref' : SpotRef} {place place' : SpotAddress}
    (one : g.address ref = .ok place) (other : g.address ref' = .ok place') :
    place = place' ↔ ref = ref' := by
  constructor
  · intro equal
    exact address_inj sound one (equal ▸ other)
  · intro equal
    exact Except.ok.inj (one.symm.trans (equal ▸ other))

theorem sameSpots_iff (sound : g.Sound) {l m : Link} {r s : LinkRecord}
    (first : g.saveLink l = .ok r) (second : g.saveLink m = .ok s) :
    r.SameSpots s ↔ l.SameEnds m := by
  obtain ⟨at_a, at_b⟩ := saveLink_eq_ok_iff.mp first
  obtain ⟨at_a', at_b'⟩ := saveLink_eq_ok_iff.mp second
  simp only [LinkRecord.SameSpots, Link.SameEnds, address_eq_iff sound at_a at_a',
    address_eq_iff sound at_b at_b', address_eq_iff sound at_a at_b',
    address_eq_iff sound at_b at_a']

theorem mayLink_of_open (opens : g.Open) {a b : SpotRef} {s t : Spot} (at_a : g.spot? a = some s)
    (at_b : g.spot? b = some t) (differ : s.direction ≠ t.direction) : MayLink s t := by
  obtain ⟨any, unbounded⟩ := opens a s at_a
  obtain ⟨_, unbounded'⟩ := opens b t at_b
  exact ⟨differ, by simp [Category.goesWith, any], by simp [Spot.hasRoom, unbounded, Arity.admits],
    by simp [Spot.hasRoom, unbounded', Arity.admits]⟩

theorem exists_linkRecord_iff (sound : g.Sound) (opens : g.Open) (r : LinkRecord) :
    (∃ h, g.linkRecord r = .ok h) ↔ g.Joins r ∧ (∀ old, g.Stores old → ¬ old.SameSpots r) ∧
      g.links.length < capacity := by
  simp only [linkRecord_eq_ok_iff, resolve_eq_ok_iff sound]
  constructor
  · intro linked
    obtain ⟨h, a, b, id, at_a, at_b, linked⟩ := linked
    cases checked : g.checkLink a b with
    | error cause =>
        rw [link_eq_of_refused checked] at linked
        cases linked
    | ok u =>
        obtain ⟨s, t, spot_a, spot_b, mayLink, fresh, room⟩ := checkLink_eq_ok_iff.mp checked
        refine ⟨⟨s.toSpotDecl, t.toSpotDecl, ⟨a, s, at_a, spot_a, rfl⟩, ⟨b, t, at_b, spot_b, rfl⟩,
          mayLink.1⟩, ?_, room⟩
        intro old stored same
        obtain ⟨l, mem, saved⟩ := stored
        have new : g.saveLink ⟨id, a, b⟩ = .ok r := saveLink_eq_ok_iff.mpr ⟨at_a, at_b⟩
        obtain ⟨touches, again⟩ := ((sameSpots_iff sound saved new).mp same).repeats
        have at_id := (mem_live_iff sound.numbered).mp mem
        have listed : l.id ∈ s.links := by
          rw [sound.wired a s spot_a, mem_touching_iff sound.numbered]
          exact ⟨l, at_id, touches⟩
        exact fresh l.id listed l (link?_eq_some_iff.mpr at_id) again
  · intro fits
    obtain ⟨⟨_, _, ⟨a, s, at_a, spot_a, rfl⟩, ⟨b, t, at_b, spot_b, rfl⟩, differ⟩, fresh, room⟩ := fits
    have mayLink := mayLink_of_open opens spot_a spot_b differ
    have checked : g.checkLink a b = .ok () := by
      refine checkLink_eq_ok_iff.mpr ⟨s, t, spot_a, spot_b, mayLink, ?_, room⟩
      intro id listed l found again
      rw [sound.wired a s spot_a, mem_touching_iff sound.numbered] at listed
      obtain ⟨m, at_id, touches⟩ := listed
      cases (link?_eq_some_iff.mpr at_id).symm.trans found
      have mem := mem_live_of_link? found
      obtain ⟨first, second⟩ := sound.ends_of_mem_live mem
      obtain ⟨old, saved⟩ := exists_saveLink sound mem
      have new : g.saveLink ⟨id, a, b⟩ = .ok r := saveLink_eq_ok_iff.mpr ⟨at_a, at_b⟩
      refine fresh old ⟨l, mem, saved⟩ ((sameSpots_iff sound saved new).mpr ?_)
      exact Link.sameEnds_of_repeats (ne_of_mayLink spot_a spot_b mayLink) ⟨touches, again⟩
    exact ⟨_, a, b, _, at_a, at_b, link_eq_of_checkLink sound.wired checked⟩

/-- A link is made under the next number, between the spots at the two addresses, and nothing else changes. -/
theorem exists_link_of_linkRecord (sound : g.Sound) {r : LinkRecord} (linked : g.linkRecord r = .ok h) :
    ∃ l : Link, l.id = ⟨g.links.length⟩ ∧ l.a ≠ l.b ∧ g.saveLink l = .ok r ∧
      h = g.wire (g.links ++ [some l]) ∧ h.Sound := by
  obtain ⟨a, b, id, at_a, at_b, linked⟩ := linkRecord_eq_ok_iff.mp linked
  rw [resolve_eq_ok_iff sound] at at_a at_b
  have still : h.Sound := by
    have := sound.link a b
    rwa [linked] at this
  cases checked : g.checkLink a b with
  | error cause =>
      rw [link_eq_of_refused checked] at linked
      cases linked
  | ok u =>
      obtain ⟨s, t, spot_a, spot_b, mayLink, _⟩ := checkLink_eq_ok_iff.mp checked
      rw [link_eq_of_checkLink sound.wired checked] at linked
      cases linked
      exact ⟨⟨⟨g.links.length⟩, a, b⟩, rfl, ne_of_mayLink spot_a spot_b mayLink,
        saveLink_eq_ok_iff.mpr ⟨at_a, at_b⟩, rfl, still⟩

theorem linkRecord_next (sound : g.Sound) {r : LinkRecord} (linked : g.linkRecord r = .ok h) :
    h.Sound ∧ (∃ links, h = g.wire links ∧ links.length = g.links.length + 1) ∧
      ∀ old, h.Stores old ↔ g.Stores old ∨ old = r := by
  obtain ⟨l, _, _, new, rfl, still⟩ := exists_link_of_linkRecord sound linked
  refine ⟨still, ⟨_, rfl, by simp⟩, ?_⟩
  intro old
  have links : (g.wire (g.links ++ [some l])).liveLinks = g.liveLinks ++ [l] := live_append_some _ _
  simp only [Stores, links, List.mem_append, List.mem_singleton, saveLink_wire_eq_ok_iff]
  constructor
  · intro stored
    obtain ⟨m, before | rfl, saved⟩ := stored
    · exact .inl ⟨m, before, saved⟩
    · exact .inr (Except.ok.inj (saved.symm.trans new))
  · intro either
    obtain ⟨m, before, saved⟩ | rfl := either
    · exact ⟨m, .inl before, saved⟩
    · exact ⟨l, .inr rfl, new⟩

/-! ### Several links -/

structure Makes (g : Graph β) (p : LinkRecord × Nat) (l : Link) : Prop where
  id : l.id = ⟨p.2⟩
  apart : l.a ≠ l.b
  saved : g.saveLink l = .ok p.1

theorem exists_links_of_linkRecords (sound : g.Sound) {records : List LinkRecord}
    (linked : records.foldlM linkRecord g = .ok h) :
    ∃ ls : List Link, List.Forall₂ g.Makes (records.zipIdx g.links.length) ls ∧
      h = g.wire (g.links ++ ls.map some) ∧ h.Sound := by
  induction records generalizing g with
  | nil =>
      obtain rfl : g = h := Except.ok.inj linked
      exact ⟨[], .nil, by simp [sound.wired.wire_self], sound⟩
  | cons r records ih =>
      rw [List.foldlM_cons, bind_eq_ok_iff] at linked
      obtain ⟨g', first, rest⟩ := linked
      obtain ⟨l, id, apart, saved, rfl, still⟩ := exists_link_of_linkRecord sound first
      obtain ⟨ls, made, rfl, last⟩ := ih still rest
      refine ⟨l :: ls, ?_, by simp [wire_wire], last⟩
      rw [List.zipIdx_cons]
      refine .cons ⟨id, apart, saved⟩ ?_
      rw [links_wire, List.length_append, List.length_singleton] at made
      exact made.imp fun p m makes => ⟨makes.id, makes.apart, saveLink_wire_eq_ok_iff.mp makes.saved⟩

theorem wire_of_linkRecords (sound : g.Sound) {records : List LinkRecord}
    (linked : records.foldlM linkRecord g = .ok h) : ∃ links, h = g.wire links := by
  obtain ⟨ls, _, same, _⟩ := exists_links_of_linkRecords sound linked
  exact ⟨_, same⟩

/-- Links can be made one after the other if each can be made by itself, no two are the same, and there
are handles left for all of them. -/
theorem exists_linkRecords_iff (sound : g.Sound) (opens : g.Open) (records : List LinkRecord)
    (fits : g.links.length ≤ capacity) :
    (∃ h, records.foldlM linkRecord g = .ok h) ↔ (∀ r ∈ records, g.Joins r) ∧
      (∀ old, g.Stores old → ∀ r ∈ records, ¬ old.SameSpots r) ∧
      records.Pairwise (fun r s => ¬ r.SameSpots s) ∧
      g.links.length + records.length ≤ capacity := by
  induction records generalizing g with
  | nil => exact ⟨fun _ => by simpa using fits, fun _ => ⟨g, rfl⟩⟩
  | cons r records ih =>
      simp only [List.foldlM_cons, bind_eq_ok_iff, List.forall_mem_cons, List.pairwise_cons]
      constructor
      · intro linked
        obtain ⟨h, g', first, rest⟩ := linked
        obtain ⟨joins, new, room⟩ := (exists_linkRecord_iff sound opens r).mp ⟨g', first⟩
        obtain ⟨still, ⟨links, rfl, length⟩, stores⟩ := linkRecord_next sound first
        obtain ⟨others, apart, among, rooms⟩ :=
          (ih still (opens.wire links) (by rw [links_wire]; omega)).mp ⟨h, rest⟩
        rw [links_wire] at rooms
        refine ⟨⟨joins, fun s mem => joins_wire_iff.mp (others s mem)⟩, ?_, ⟨?_, among⟩,
          by rw [List.length_cons]; omega⟩
        · exact fun old stored => ⟨new old stored, apart old ((stores old).mpr (.inl stored))⟩
        · exact apart r ((stores r).mpr (.inr rfl))
      · intro fits
        obtain ⟨⟨joins, others⟩, apart, ⟨new, among⟩, rooms⟩ := fits
        rw [List.length_cons] at rooms
        obtain ⟨g', first⟩ := (exists_linkRecord_iff sound opens r).mpr
          ⟨joins, fun old stored => (apart old stored).1, by omega⟩
        obtain ⟨still, ⟨links, rfl, length⟩, stores⟩ := linkRecord_next sound first
        have still_apart (old : LinkRecord) (stored : (g.wire links).Stores old) :
            ∀ s ∈ records, ¬ old.SameSpots s := by
          obtain before | rfl := (stores old).mp stored
          · exact (apart old before).2
          · exact new
        obtain ⟨h, rest⟩ := (ih still (opens.wire links) (by rw [links_wire]; omega)).mpr
          ⟨fun s mem => joins_wire_iff.mpr (others s mem), still_apart, among,
            by rw [links_wire]; omega⟩
        exact ⟨h, _, first, rest⟩

end Graph
end SignalGraph
