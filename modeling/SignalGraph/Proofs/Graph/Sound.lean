import SignalGraph.Proofs.Graph.Wiring

/-!
The arena invariant. The index of IDs, the two arenas and the link lists of the spots store the same
facts several times over; a graph is sound when they agree. Linking and disposing keep it so, and what a
successful edit of links does is one equation with `wire`. Nodes that come and go, loads and waves are
treated in later modules.
-/

namespace SignalGraph.Graph

open LinkArena

variable {β : Type}

/-- The index, the arenas and the link lists of the spots agree. -/
structure Sound (g : Graph β) : Prop where
  mem_ids : ∀ id key, (id, key) ∈ g.ids ↔ ∃ n, g.node? key = some n ∧ n.id = id
  ids_nodup : (g.ids.map (·.1)).Nodup
  keys_sorted : g.keys.Pairwise (·.index < ·.index)
  key_eq : ∀ key n, g.node? key = some n → n.key = key
  spotIds_nodup : ∀ key n, g.node? key = some n → (n.spots.map (·.id)).Nodup
  owner_eq : ∀ ref s, g.spot? ref = some s → s.owner = ref.node
  numbered : Numbered g.links
  ends : ∀ id l, g.link? id = some l → (g.spot? l.a).isSome ∧ (g.spot? l.b).isSome
  wired : g.Wired

theorem link?_eq_some_iff {g : Graph β} {id : LinkId} {l : Link} :
    g.link? id = some l ↔ g.links[id.index]? = some (some l) := by
  simp [link?, Option.join_eq_some_iff]

theorem mem_live_of_link? {g : Graph β} {id : LinkId} {l : Link} (found : g.link? id = some l) :
    l ∈ live g.links :=
  List.mem_filterMap.mpr ⟨some l, List.mem_of_getElem? (link?_eq_some_iff.mp found), rfl⟩

theorem mem_keysOfType_iff {g : Graph β} (sound : g.Sound) {type : TypeKey} {key : NodeKey} :
    key ∈ g.keysOfType type ↔ ∃ n, g.node? key = some n ∧ n.type = type := by
  simp only [keysOfType, nodes, keys, List.mem_map, List.mem_filter, List.mem_filterMap,
    decide_eq_true_iff]
  constructor
  · intro listed
    obtain ⟨n, ⟨⟨k, ⟨entry, mem, rfl⟩, found⟩, typed⟩, rfl⟩ := listed
    rw [sound.key_eq _ n found]
    exact ⟨n, found, typed⟩
  · intro live
    obtain ⟨n, found, typed⟩ := live
    exact ⟨n, ⟨⟨key, ⟨(n.id, key), (sound.mem_ids n.id key).mpr ⟨n, found, rfl⟩, rfl⟩, found⟩, typed⟩,
      sound.key_eq key n found⟩

theorem sound_empty (name : String) : (empty (β := β) name).Sound where
  mem_ids := by simp [empty, node?, slot?]
  ids_nodup := by simp [empty]
  keys_sorted := by simp [empty, keys]
  key_eq := by simp [empty, node?, slot?]
  spotIds_nodup := by simp [empty, node?, slot?]
  owner_eq := by simp [empty, spot?, node?, slot?]
  numbered := by simp [empty, Numbered]
  ends := by simp [empty, link?]
  wired := by simp [empty, Wired, spot?, node?, slot?]

theorem Sound.wire {g : Graph β} (sound : g.Sound) {links : List (Option Link)}
    (num : Numbered links)
    (ends : ∀ l ∈ live links, (g.spot? l.a).isSome ∧ (g.spot? l.b).isSome) :
    (g.wire links).Sound where
  mem_ids id key := by
    rw [ids_wire, sound.mem_ids, node?_wire]
    cases g.node? key <;> simp [Node.mapSpots]
  ids_nodup := sound.ids_nodup
  keys_sorted := sound.keys_sorted
  key_eq key n found := by
    rw [node?_wire] at found
    obtain ⟨m, at_key, rfl⟩ := Option.map_eq_some_iff.mp found
    exact sound.key_eq key m at_key
  spotIds_nodup key n found := by
    rw [node?_wire] at found
    obtain ⟨m, at_key, rfl⟩ := Option.map_eq_some_iff.mp found
    have : (m.spots.mapIdx fun j => relist links ⟨key, j⟩).map (·.id) = m.spots.map (·.id) := by
      apply List.ext_getElem?
      simp [relist, Function.comp_def]
    rw [Node.mapSpots, this]
    exact sound.spotIds_nodup key m at_key
  owner_eq ref s found := by
    rw [spot?_wire] at found
    obtain ⟨t, at_ref, rfl⟩ := Option.map_eq_some_iff.mp found
    exact sound.owner_eq ref t at_ref
  numbered := num
  ends id l found := by
    rw [link?_eq_some_iff, links_wire] at found
    have : l ∈ live links := (mem_live_iff num).mpr (by rw [num _ l found]; exact found)
    simpa using ends l this
  wired := wired_wire g links

theorem Sound.ends_of_mem_live {g : Graph β} (sound : g.Sound) {l : Link}
    (mem : l ∈ live g.links) : (g.spot? l.a).isSome ∧ (g.spot? l.b).isSome :=
  sound.ends l.id l (link?_eq_some_iff.mpr ((mem_live_iff sound.numbered).mp mem))

theorem Sound.isSome_node?_of_farEnd {g : Graph β} (sound : g.Sound) {id : LinkId} {l : Link}
    (live : g.link? id = some l) {source target : SpotRef} (far : l.farEnd source = .ok target) :
    (g.node? target.node).isSome := by
  obtain ⟨first, second⟩ := sound.ends id l live
  obtain ⟨_, rfl⟩ | ⟨_, rfl⟩ := Link.ends_of_farEnd far
  · exact isSome_node?_of_spot? second
  · exact isSome_node?_of_spot? first

/-! ### Linking -/

def MayLink (s t : Spot) : Prop :=
  s.direction ≠ t.direction ∧ s.category.goesWith t.category ∧ s.hasRoom ∧ t.hasRoom

theorem spot_checkLink_eq_ok_iff {s t : Spot} : s.checkLink t = .ok () ↔ MayLink s t := by
  simp only [Spot.checkLink, MayLink]
  by_cases direction : s.direction = t.direction
  · simp [direction]
  by_cases category : s.category.goesWith t.category
  · by_cases room : s.hasRoom <;>
      simp [direction, category, Spot.checkRoom, room, bind, Except.bind]
  · simp [direction, category]

theorem linksOf_eq {g : Graph β} {ref : SpotRef} {s : Spot} (found : g.spot? ref = some s) :
    g.linksOf ref = .ok (s.links.filterMap g.link?) := by
  simp only [linksOf]
  rw [spot_eq_ok_iff.mpr found]
  rfl

theorem checkLink_eq_ok_iff {g : Graph β} {a b : SpotRef} :
    g.checkLink a b = .ok () ↔ ∃ s t, g.spot? a = some s ∧ g.spot? b = some t ∧ MayLink s t ∧
      (∀ id ∈ s.links, ∀ l, g.link? id = some l → ¬ l.touches b) ∧ g.links.length < capacity := by
  simp only [checkLink, bind_eq_ok_iff, spot_eq_ok_iff]
  constructor
  · intro passes
    obtain ⟨s, at_a, t, at_b, u, legal, ls, listed, fresh⟩ := passes
    rw [linksOf_eq at_a] at listed
    cases listed
    split at fresh
    · cases fresh
    next single =>
    split at fresh
    · cases fresh
    next room =>
    refine ⟨s, t, at_a, at_b, spot_checkLink_eq_ok_iff.mp legal, ?_, Nat.lt_of_not_le room⟩
    intro id mem l live touches
    exact single (List.any_eq_true.mpr ⟨l, List.mem_filterMap.mpr ⟨id, mem, live⟩, touches⟩)
  · intro fits
    obtain ⟨s, t, at_a, at_b, legal, fresh, room⟩ := fits
    refine ⟨s, at_a, t, at_b, (), spot_checkLink_eq_ok_iff.mpr legal, _, linksOf_eq at_a, ?_⟩
    rw [if_neg, if_neg (Nat.not_le_of_lt room)]
    intro dup
    obtain ⟨l, mem, touches⟩ := List.any_eq_true.mp dup
    obtain ⟨id, listed, live⟩ := List.mem_filterMap.mp mem
    exact fresh id listed l live touches

theorem ne_of_mayLink {g : Graph β} {a b : SpotRef} {s t : Spot} (at_a : g.spot? a = some s)
    (at_b : g.spot? b = some t) (legal : MayLink s t) : a ≠ b := by
  intro same
  subst same
  rw [at_a] at at_b
  cases at_b
  exact legal.1 rfl

/-- What a new link adds to the lists: its id, behind the others, at its two ends. -/
theorem relist_append_some {g : Graph β} (wired : g.Wired) {l : Link} (ends : l.a ≠ l.b)
    {ref : SpotRef} {s : Spot} (found : g.spot? ref = some s) :
    relist (g.links ++ [some l]) ref s =
      onlyAt l.b (·.attach l.id) ref (onlyAt l.a (·.attach l.id) ref s) := by
  have list := wired ref s found
  rw [relist, touching_append_some, ← list]
  simp only [onlyAt]
  by_cases first : ref = l.a
  · subst first
    simp [ends, Link.touches, Spot.attach]
  · by_cases second : ref = l.b
    · subst second
      simp [ends.symm, Link.touches, Spot.attach]
    · have : l.touches ref = false := by simp [Link.touches, Ne.symm first, Ne.symm second]
      simp [first, second, this]

theorem link_eq_of_checkLink {g : Graph β} (wired : g.Wired) {a b : SpotRef}
    (legal : g.checkLink a b = .ok ()) :
    g.link a b = (.ok ⟨g.links.length⟩,
      g.wire (g.links ++ [some ⟨⟨g.links.length⟩, a, b⟩])) := by
  obtain ⟨s, t, at_a, at_b, mayLink, _⟩ := checkLink_eq_ok_iff.mp legal
  have ends := ne_of_mayLink at_a at_b mayLink
  let l : Link := ⟨⟨g.links.length⟩, a, b⟩
  let pushed : Graph β := { g with links := g.links ++ [some l] }
  have first : pushed.modifySpot a (·.attach l.id) =
      .ok (pushed.mapSpots (onlyAt a (·.attach l.id))) := modifySpot_eq _ at_a
  have still : (pushed.mapSpots (onlyAt a (·.attach l.id))).spot? b = some t := by
    rw [spot?_mapSpots]
    change (g.spot? b).map _ = _
    simp [at_b, onlyAt, ends.symm]
  have result : (pushed.mapSpots (onlyAt a (·.attach l.id))).mapSpots (onlyAt b (·.attach l.id)) =
      g.wire (g.links ++ [some l]) := by
    rw [mapSpots_mapSpots, wire, ← mapSpots_congr (g := g)
      fun ref s found => (relist_append_some wired (l := l) ends found).symm]
    rfl
  simp only [link, legal]
  rw [first]
  simp only [modifySpot_eq _ still]
  exact congrArg (Prod.mk _) result

theorem link_eq_of_refused {g : Graph β} {a b : SpotRef} {cause : GraphError}
    (refused : g.checkLink a b = .error cause) : g.link a b = (.error cause, g) := by
  simp [link, refused]

theorem Sound.link {g : Graph β} (sound : g.Sound) (a b : SpotRef) : (g.link a b).2.Sound := by
  cases legal : g.checkLink a b with
  | error cause => rwa [link_eq_of_refused legal]
  | ok u =>
      rw [link_eq_of_checkLink sound.wired legal]
      apply sound.wire (numbered_append_some sound.numbered rfl)
      intro l mem
      rw [live_append_some, List.mem_append, List.mem_singleton] at mem
      obtain old | rfl := mem
      · exact sound.ends_of_mem_live old
      · obtain ⟨s, t, at_a, at_b, _⟩ := checkLink_eq_ok_iff.mp legal
        simp [at_a, at_b]

/-! ### Disposing -/

theorem relist_keep_ne {g : Graph β} (wired : g.Wired) (num : Numbered g.links) {l : Link}
    (mem : l ∈ live g.links) {ref : SpotRef} {s : Spot} (found : g.spot? ref = some s) :
    relist (keep (·.id ≠ l.id) g.links) ref s =
      onlyAt l.b (·.detach l.id) ref (onlyAt l.a (·.detach l.id) ref s) := by
  have list := wired ref s found
  have nodup : s.links.Nodup := list ▸ touching_nodup num ref
  rw [relist, touching_keep_ne num, ← list]
  simp only [onlyAt, Spot.detach]
  by_cases touches : l.touches ref
  · have gone : l.id ∉ s.links.erase l.id := by simp [nodup.mem_erase_iff]
    obtain rfl | rfl := Link.touches_iff.mp touches
    · by_cases same : l.a = l.b <;> simp [same, List.erase_of_not_mem gone]
    · by_cases same : l.b = l.a <;> simp [same, List.erase_of_not_mem gone]
  · have apart : ref ≠ l.a ∧ ref ≠ l.b := by simpa [Link.touches_iff] using touches
    have absent : l.id ∉ s.links := by
      rw [list, mem_touching_iff num]
      intro still
      obtain ⟨m, at_id, other⟩ := still
      rw [(mem_live_iff num).mp mem] at at_id
      cases at_id
      exact touches other
    simp [apart, List.erase_of_not_mem absent]

theorem detach_eq {g : Graph β} (ref : SpotRef) (id : LinkId) (found : (g.spot? ref).isSome) :
    g.detach ref id = g.mapSpots (onlyAt ref (·.detach id)) := by
  obtain ⟨s, at_ref⟩ := Option.isSome_iff_exists.mp found
  simp [detach, modifySpot_eq _ at_ref]

theorem disposeLink_eq {g : Graph β} (sound : g.Sound) {id : LinkId} {l : Link}
    (found : g.link? id = some l) :
    g.disposeLink id = (.ok l, g.wire (keep (·.id ≠ id) g.links)) := by
  have at_id := link?_eq_some_iff.mp found
  obtain rfl : l.id = id := sound.numbered _ l at_id
  have mem : l ∈ live g.links := (mem_live_iff sound.numbered).mpr at_id
  obtain ⟨first, second⟩ := sound.ends l.id l found
  simp only [disposeLink, found]
  rw [detach_eq l.a l.id (by exact first),
    detach_eq l.b l.id (by rw [spot?_mapSpots, Option.isSome_map]; exact second),
    mapSpots_mapSpots, wire, set_none_eq_keep sound.numbered, ← mapSpots_congr (g := g)
      fun ref s at_ref => (relist_keep_ne sound.wired sound.numbered mem at_ref).symm]
  rfl

theorem disposeLink_eq_of_dead {g : Graph β} {id : LinkId} (dead : g.link? id = none) :
    g.disposeLink id = (.error (.deadLink id), g) := by
  simp [disposeLink, dead]

theorem Sound.wire_keep {g : Graph β} (sound : g.Sound) (p : Link → Bool) :
    (g.wire (keep p g.links)).Sound := by
  apply sound.wire (numbered_keep sound.numbered p)
  intro l mem
  rw [live_keep] at mem
  exact sound.ends_of_mem_live (List.mem_of_mem_filter mem)

theorem Sound.disposeLink {g : Graph β} (sound : g.Sound) (id : LinkId) :
    (g.disposeLink id).2.Sound := by
  cases found : g.link? id with
  | none => rwa [disposeLink_eq_of_dead found]
  | some l =>
      rw [disposeLink_eq sound found]
      exact sound.wire_keep _

theorem disposeLive_eq {g : Graph β} (sound : g.Sound) (ids : List LinkId) :
    g.disposeLive ids = (.ok (), g.wire (keep (fun l => l.id ∉ ids) g.links)) := by
  induction ids generalizing g with
  | nil =>
      rw [keep_all (by simp), sound.wired.wire_self]
      rfl
  | cons id ids ih =>
      cases found : g.link? id with
      | none =>
          simp only [disposeLive, found, ih sound]
          congr 2
          apply keep_congr
          intro l mem
          have : l.id ≠ id := by
            intro same
            subst same
            rw [link?_eq_some_iff.mpr ((mem_live_iff sound.numbered).mp mem)] at found
            cases found
          simp [this]
      | some l =>
          simp only [disposeLive, found, disposeLink_eq sound found, ih (sound.wire_keep _),
            wire_wire, links_wire, keep_keep]
          congr 2
          apply keep_congr
          simp

end SignalGraph.Graph
