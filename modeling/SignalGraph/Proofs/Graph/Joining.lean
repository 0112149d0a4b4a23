import SignalGraph.Proofs.Graph.Compaction
import SignalGraph.Proofs.Graph.Handles

/-!
Linking two spots. While there are link ids left, whether it succeeds depends on the two spots and on the
live links, and not on which of the spots comes first; if it does, the graph gets one link with the next id,
and nothing else changes. Which of several objections a refused link meets with is not said here.
-/

namespace SignalGraph

theorem Category.goesWith_iff {c d : Category} : c.goesWith d ↔
    c = d ∨ c = .any ∨ d = .any ∨ c = .int ∧ d = .float ∨ c = .float ∧ d = .int := by
  rw [goesWith, decide_eq_true_iff]
  constructor
  · rintro (h | h | h | h | h) <;> simp [h]
  · rintro (h | h | h | h | h) <;> simp [h]

theorem Spot.hasRoom_iff {s : Spot} :
    s.hasRoom ↔ ∀ limit, s.arity = .atMost limit → s.links.length < limit.toNat := by
  cases arity : s.arity with
  | unbounded => simp [hasRoom, arity, Arity.admits]
  | atMost limit =>
      rw [hasRoom, arity, Arity.admits, decide_eq_true_iff]
      constructor
      · rintro room _ ⟨⟩
        exact room
      · exact fun room => room limit rfl

namespace Graph

open LinkArena

variable {β : Type} {g : Graph β} {a b : SpotRef}

structure Linkable (g : Graph β) (a b : SpotRef) (s t : Spot) : Prop where
  first : g.spot a = .ok s
  second : g.spot b = .ok t
  direction : s.direction ≠ t.direction
  category : s.category = t.category ∨ s.category = .any ∨ t.category = .any ∨
    s.category = .int ∧ t.category = .float ∨ s.category = .float ∧ t.category = .int
  room : ∀ limit, s.arity = .atMost limit → s.links.length < limit.toNat
  room' : ∀ limit, t.arity = .atMost limit → t.links.length < limit.toNat
  /-- No live link joins the two, in whichever order it was made. -/
  apart : ∀ id l, g.link? id = some l → ¬ (l.a = a ∧ l.b = b ∨ l.a = b ∧ l.b = a)

theorem Linkable.symm {s t : Spot} (linkable : g.Linkable a b s t) : g.Linkable b a t s where
  first := linkable.second
  second := linkable.first
  direction := linkable.direction.symm
  category := by
    rw [← Category.goesWith_iff, Category.goesWith_comm]
    exact Category.goesWith_iff.mpr linkable.category
  room := linkable.room'
  room' := linkable.room
  apart id l live joined := linkable.apart id l live joined.symm

theorem Linkable.checkLink_eq (sound : g.Sound) {s t : Spot} (linkable : g.Linkable a b s t) :
    g.checkLink a b = if capacity ≤ g.links.length then .error .linksFull else .ok () := by
  have at_a := spot_eq_ok_iff.mp linkable.first
  have at_b := spot_eq_ok_iff.mp linkable.second
  have mayLink : MayLink s t := ⟨linkable.direction, Category.goesWith_iff.mpr linkable.category,
    Spot.hasRoom_iff.mpr linkable.room, Spot.hasRoom_iff.mpr linkable.room'⟩
  have ends : a ≠ b := ne_of_mayLink at_a at_b mayLink
  have fresh : ¬ (s.links.filterMap g.link?).any (·.touches b) := by
    intro again
    obtain ⟨l, mem, near_b⟩ := List.any_eq_true.mp again
    obtain ⟨id, listed, live⟩ := List.mem_filterMap.mp mem
    obtain ⟨m, live', near_a⟩ := sound.live_of_listed linkable.first listed
    cases live.symm.trans live'
    apply linkable.apart id l live
    obtain rfl | rfl := Link.touches_iff.mp near_a
    · exact .inl ⟨rfl, ((Link.touches_iff.mp near_b).resolve_left ends.symm).symm⟩
    · exact .inr ⟨((Link.touches_iff.mp near_b).resolve_right ends.symm).symm, rfl⟩
  simp only [checkLink, linkable.first, linkable.second, spot_checkLink_eq_ok_iff.mpr mayLink,
    linksOf_eq at_a, bind, Except.bind]
  rw [if_neg fresh]

theorem checkLink_eq_ok_iff_linkable (sound : g.Sound) :
    g.checkLink a b = .ok () ↔ (∃ s t, g.Linkable a b s t) ∧ g.links.length < capacity := by
  rw [checkLink_eq_ok_iff]
  constructor
  · intro checked
    obtain ⟨s, t, at_a, at_b, ⟨direction, category, room, room'⟩, fresh, left⟩ := checked
    refine ⟨⟨s, t, spot_eq_ok_iff.mpr at_a, spot_eq_ok_iff.mpr at_b, direction,
      Category.goesWith_iff.mp category, Spot.hasRoom_iff.mp room, Spot.hasRoom_iff.mp room', ?_⟩,
      left⟩
    intro id l live joined
    have touches : l.touches a ∧ l.touches b := by
      rw [Link.touches_iff, Link.touches_iff]
      obtain ⟨rfl, rfl⟩ | ⟨rfl, rfl⟩ := joined
      · exact ⟨.inl rfl, .inr rfl⟩
      · exact ⟨.inr rfl, .inl rfl⟩
    -- The check only looks at the links of the first spot, and there the link is listed.
    apply fresh id _ l live touches.2
    rw [sound.wired a s at_a, mem_touching_iff sound.numbered]
    exact ⟨l, link?_eq_some_iff.mp live, touches.1⟩
  · rintro ⟨⟨s, t, linkable⟩, left⟩
    rw [← checkLink_eq_ok_iff, linkable.checkLink_eq sound, if_neg (Nat.not_le_of_lt left)]

/-- The graph with one more link, which stands behind the others in the arena and at both its ends. -/
def withLink (g : Graph β) (a b : SpotRef) : Graph β :=
  { g.mapSpots fun ref s => if ref = a ∨ ref = b then s.attach ⟨g.links.length⟩ else s with
    links := g.links ++ [some ⟨⟨g.links.length⟩, a, b⟩] }

theorem withLink_comm (g : Graph β) (a b : SpotRef) : g.withLink b a =
    { g.withLink a b with links := g.links ++ [some ⟨⟨g.links.length⟩, b, a⟩] } := by
  simp only [withLink, or_comm]

theorem link_eq_withLink (wired : g.Wired) (checked : g.checkLink a b = .ok ()) :
    g.link a b = (.ok ⟨g.links.length⟩, g.withLink a b) := by
  obtain ⟨s, t, at_a, at_b, mayLink, _⟩ := checkLink_eq_ok_iff.mp checked
  have ends : a ≠ b := ne_of_mayLink at_a at_b mayLink
  have attached : g.mapSpots (relist (g.links ++ [some ⟨⟨g.links.length⟩, a, b⟩])) = g.mapSpots
      fun ref s => if ref = a ∨ ref = b then s.attach ⟨g.links.length⟩ else s := by
    apply mapSpots_congr
    intro ref s found
    rw [relist_append_some wired (l := ⟨⟨g.links.length⟩, a, b⟩) ends found]
    by_cases first : ref = a
    · simp [onlyAt, first, ends]
    · simp [onlyAt, first]
  rw [link_eq_of_checkLink wired checked, wire, attached, withLink]

/-! ### Which ids were handed out -/

section History

variable [Behavior β]

inductive Initial : Graph β → Prop
  | empty (name : String) : Initial (empty name)
  | load {d : Document} {types : Registry β} {g : Graph β} {events : List Event}
      (loaded : load d types = (.ok g, events)) : Initial g

/-- The link ids that a history has handed out. A load makes links as well, and disposes none. -/
def issued (start : Graph β) (as : List (Action β)) : List LinkId :=
  start.liveLinks.map (·.id) ++ start.handed newLink? as

theorem Initial.reachable (initial : Initial g) : g.Reachable := by
  cases initial with
  | empty name => exact .empty name
  | load loaded => exact .load loaded

theorem Reachable.exists_history (reach : g.Reachable) :
    ∃ start as, Initial start ∧ start.after as = g := by
  induction reach with
  | empty name => exact ⟨_, [], .empty name, rfl⟩
  | load loaded => exact ⟨_, [], .load loaded, rfl⟩
  | @change g h _ step ih =>
      obtain ⟨start, as, initial, rfl⟩ := ih
      suffices ∃ a, act (start.after as) a = h by
        obtain ⟨a, done⟩ := this
        exact ⟨start, as ++ [a], initial, by rw [after_append]; exact done⟩
      cases step with
      | addNode id tag type b => exact ⟨.addNode id tag type b, rfl⟩
      | removeNode key => exact ⟨.removeNode key, rfl⟩
      | link a b => exact ⟨.link a b, rfl⟩
      | disposeLink id => exact ⟨.disposeLink id, rfl⟩
      | begin i holds depth => exact ⟨.run i depth .begin, by rw [← holds]; rfl⟩
      | tick i holds depth delta => exact ⟨.run i depth (.tick delta), by rw [← holds]; rfl⟩
      | signal i holds depth spot args =>
          exact ⟨.run i depth (.signal spot args), by rw [← holds]; rfl⟩

theorem isSome_of_mem_links_of_load {d : Document} {types : Registry β} {events : List Event}
    (loaded : load d types = (.ok g, events)) : ∀ o ∈ g.links, o.isSome := by
  refine (load_keeps (P := fun g => g.Sound ∧ ∀ o ∈ g.links, o.isSome) ?_ ?_ ?_ ?_ ?_ loaded).2
  · exact fun name => ⟨sound_empty name, by simp [empty]⟩
  · intro g id tag type b h
    refine ⟨h.1.addNode id tag type b, ?_⟩
    obtain ⟨_, _, refused⟩ | ⟨s, _, _, _, _, added⟩ := addNode_cases g id tag type b
    · rw [refused]
      exact h.2
    · rw [added]
      exact h.2
  · intro g a b h
    refine ⟨h.1.link a b, ?_⟩
    obtain ⟨_, refused⟩ | linked := link_cases h.1 a b
    · rw [refused]
      exact h.2
    · rw [linked]
      intro o mem
      obtain old | new := List.mem_append.mp mem
      · exact h.2 o old
      · rw [List.mem_singleton.mp new]
        rfl
  · exact fun g key b c h _ _ => ⟨h.1.of_shape (g.shape_setBehavior key c), h.2⟩
  · exact fun g key b c bytes h _ _ => ⟨h.1.of_shape (g.shape_setBehavior key c), h.2⟩

theorem Initial.range_liveLinks (initial : Initial g) :
    (g.liveLinks.map (·.id)).map (·.index) = List.range g.links.length := by
  have full : ∀ o ∈ g.links, (id o).isSome := by
    cases initial with
    | empty name => simp [Graph.empty]
    | load loaded => exact isSome_of_mem_links_of_load loaded
  apply List.ext_getElem?
  intro j
  rw [List.getElem?_map, List.getElem?_map, liveLinks, getElem?_filterMap_of_isSome full]
  by_cases bound : j < g.links.length
  · obtain ⟨l, at_j⟩ := Option.isSome_iff_exists.mp (full _ (List.getElem_mem bound))
    have here : g.links[j]? = some (some l) := by
      rw [List.getElem?_eq_getElem bound]
      exact congrArg some at_j
    rw [here, List.getElem?_range bound]
    simp [initial.reachable.sound.numbered j l here]
  · simp [bound]

theorem links_act (sound : g.Sound) (a : Action β) :
    newLink? g a = none ∧ (g.act a).links.length = g.links.length ∨
      newLink? g a = some ⟨g.links.length⟩ ∧ (g.act a).links.length = g.links.length + 1 := by
  cases a with
  | addNode id tag type b =>
      refine .inl ⟨rfl, ?_⟩
      obtain ⟨_, _, refused⟩ | ⟨s, _, _, _, _, added⟩ := addNode_cases g id tag type b
      · rw [act, refused]
      · rw [act, added]
        rfl
  | removeNode key =>
      refine .inl ⟨rfl, ?_⟩
      change (g.takeOut (.node key)).links.length = _
      rw [takeOut_eq sound]
      simp [without]
  | link a b =>
      obtain ⟨_, refused⟩ | linked := link_cases sound a b
      · exact .inl (by simp [newLink?, act, refused, Except.toOption])
      · exact .inr (by simp [newLink?, act, linked, Except.toOption])
  | disposeLink id =>
      refine .inl ⟨rfl, ?_⟩
      change (g.takeOut (.link id)).links.length = _
      rw [takeOut_eq sound]
      simp [without]
  | run i depth s =>
      exact .inl ⟨rfl, congrArg List.length
        (links_eq_of_shape (Instance.shape_respond depth s { i with graph := g }))⟩

theorem range_handed (reach : g.Reachable) (as : List (Action β)) :
    List.range g.links.length ++ (g.handed newLink? as).map (·.index) =
      List.range (g.after as).links.length := by
  induction as generalizing g with
  | nil => simp [handed, after]
  | cons a as ih =>
      have rest := ih (reach.change (change_act g a))
      have whole : g.after (a :: as) = (g.act a).after as := rfl
      rw [whole]
      obtain ⟨quiet, length⟩ | ⟨made, length⟩ := links_act reach.sound a
      · simpa [handed, quiet, length] using rest
      · simpa [handed, made, length, List.range_succ] using rest

theorem Initial.range_issued {start : Graph β} (initial : Initial start) (as : List (Action β)) :
    (start.issued as).map (·.index) = List.range (start.after as).links.length := by
  rw [issued, List.map_append, initial.range_liveLinks]
  exact range_handed initial.reachable as

end History

structure LinksExactly [Behavior β] (g : Graph β) : Prop where
  succeeds : ∀ a b, (∃ id h, g.link a b = (.ok id, h)) ↔
    (∃ s t, g.Linkable a b s t) ∧ g.links.length < capacity
  /-- The length of the arena is the number of ids that were handed out, so the exception is that
  there is none left. -/
  count : ∀ start as, Initial start → start.after as = g →
    (start.issued as).length = g.links.length
  full : ∀ a b s t, g.Linkable a b s t → capacity ≤ g.links.length →
    g.link a b = (.error .linksFull, g)
  result : ∀ a b id h, g.link a b = (.ok id, h) → id = ⟨g.links.length⟩ ∧ h = g.withLink a b
  refused : ∀ a b, (¬ ∃ s t, g.Linkable a b s t) → ∃ cause, g.link a b = (.error cause, g)
  history : ∃ start as, Initial start ∧ start.after as = g
  /-- Whatever the history was, the id is the smallest that it has not handed out. -/
  next : ∀ start as, Initial start → start.after as = g → ∀ a b id h, g.link a b = (.ok id, h) →
    id ∉ start.issued as ∧ ∀ other : LinkId, other.index < id.index → other ∈ start.issued as
  /-- The other way round, only the ends of the new link are stored the other way round. -/
  turned : ∀ a b id h, g.link a b = (.ok id, h) →
    g.link b a = (.ok id, { h with links := g.links ++ [some ⟨id, b, a⟩] })

/-- Linking succeeds exactly when it should, and makes one link and nothing else. -/
theorem links_exactly [Behavior β] (reach : g.Reachable) : g.LinksExactly := by
  have sound := reach.sound
  have made {a b : SpotRef} {id : LinkId} {h : Graph β} (linked : g.link a b = (.ok id, h)) :
      g.checkLink a b = .ok () := by
    cases checked : g.checkLink a b with
    | error cause => cases (link_eq_of_refused checked).symm.trans linked
    | ok u => rfl
  have result {a b : SpotRef} {id : LinkId} {h : Graph β} (linked : g.link a b = (.ok id, h)) :
      id = ⟨g.links.length⟩ ∧ h = g.withLink a b := by
    cases (link_eq_withLink sound.wired (made linked)).symm.trans linked
    exact ⟨rfl, rfl⟩
  constructor
  case succeeds =>
    intro a b
    rw [← checkLink_eq_ok_iff_linkable sound]
    constructor
    · intro linked
      obtain ⟨id, h, linked⟩ := linked
      exact made linked
    · intro checked
      exact ⟨_, _, link_eq_withLink sound.wired checked⟩
  case count =>
    intro start as initial after
    rw [← List.length_map (fun id : LinkId => id.index), initial.range_issued, after,
      List.length_range]
  case full =>
    intro a b s t linkable full
    apply link_eq_of_refused
    rw [linkable.checkLink_eq sound, if_pos full]
  case result => exact fun a b id h => result
  case refused =>
    intro a b unfit
    cases checked : g.checkLink a b with
    | error cause => exact ⟨cause, link_eq_of_refused checked⟩
    | ok u => exact absurd ((checkLink_eq_ok_iff_linkable sound).mp checked).1 unfit
  case history => exact reach.exists_history
  case next =>
    intro start as initial after a b id h linked
    obtain ⟨rfl, _⟩ := result linked
    have range := initial.range_issued as
    rw [after] at range
    have issued_iff (other : LinkId) : other ∈ start.issued as ↔ other.index < g.links.length := by
      rw [← List.mem_range, ← range, List.mem_map]
      constructor
      · exact fun mem => ⟨other, mem, rfl⟩
      · rintro ⟨⟨_⟩, mem, rfl⟩
        exact mem
    exact ⟨by simp [issued_iff], fun other less => (issued_iff other).mpr less⟩
  case turned =>
    intro a b id h linked
    obtain ⟨⟨s, t, linkable⟩, left⟩ := (checkLink_eq_ok_iff_linkable sound).mp (made linked)
    have checked := (checkLink_eq_ok_iff_linkable sound).mpr ⟨⟨t, s, linkable.symm⟩, left⟩
    obtain ⟨rfl, rfl⟩ := result linked
    rw [link_eq_withLink sound.wired checked, withLink_comm]

/-- The two spots were linked before and can be linked again, in either order; that link has a new id. -/
theorem links_exactly_unplugged :
    let g := (plugged.disposeLink ⟨2⟩).2
    let h := g.withLink ⟨⟨1⟩, 1⟩ ⟨⟨0⟩, 2⟩
    g.Reachable ∧ g.link ⟨⟨1⟩, 1⟩ ⟨⟨0⟩, 2⟩ = (.ok ⟨3⟩, h) ∧
      g.link ⟨⟨0⟩, 2⟩ ⟨⟨1⟩, 1⟩ =
        (.ok ⟨3⟩, { h with links := g.links ++ [some ⟨⟨3⟩, ⟨⟨0⟩, 2⟩, ⟨⟨1⟩, 1⟩⟩] }) ∧
      h.liveLinks = [⟨⟨1⟩, ⟨⟨1⟩, 0⟩, ⟨⟨0⟩, 0⟩⟩, ⟨⟨3⟩, ⟨⟨1⟩, 1⟩, ⟨⟨0⟩, 2⟩⟩] := by
  intro g h
  have reach : g.Reachable := reachable_plugged.change (.disposeLink ⟨2⟩)
  have linked : g.link ⟨⟨1⟩, 1⟩ ⟨⟨0⟩, 2⟩ = (.ok ⟨3⟩, h) := by decide +kernel
  exact ⟨reach, linked, (links_exactly reach).turned _ _ _ _ linked, by decide +kernel⟩

end Graph
end SignalGraph
