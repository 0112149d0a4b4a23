import Mathlib.Data.List.Pairwise
import SignalGraph.Proofs.Graph.Reachable

/-!
What linking checks stays true of the links that were made: the ends of a link have opposite directions
and categories that go together, no spot holds more links than its arity admits, and no two links join
the same spots. Nothing is said of links that were refused.
-/

namespace SignalGraph

theorem Arity.admits_of_le {arity : Arity} {count more : Nat} (le : count ≤ more)
    (admits : arity.admits more) : arity.admits count := by
  cases arity with
  | unbounded => rfl
  | atMost limit =>
      simp only [Arity.admits, decide_eq_true_iff] at admits ⊢
      omega

theorem Arity.admits_zero (arity : Arity) : arity.admits 0 := by
  cases arity with
  | unbounded => rfl
  | atMost limit => simp [Arity.admits]

/-- Whether the second link joins spots that the first one joins already. -/
def Link.Repeats (l m : Link) : Prop := l.touches m.a ∧ l.touches m.b

/-- Whether two links join the same spots, in whichever order. -/
def Link.SameEnds (l m : Link) : Prop := l.a = m.a ∧ l.b = m.b ∨ l.a = m.b ∧ l.b = m.a

theorem Link.SameEnds.symm {l m : Link} (same : l.SameEnds m) : m.SameEnds l := by
  obtain ⟨first, second⟩ | ⟨first, second⟩ := same
  · exact .inl ⟨first.symm, second.symm⟩
  · exact .inr ⟨second.symm, first.symm⟩

theorem Link.SameEnds.repeats {l m : Link} (same : l.SameEnds m) : l.Repeats m := by
  obtain ⟨first, second⟩ | ⟨first, second⟩ := same
  · exact ⟨touches_iff.mpr (.inl first.symm), touches_iff.mpr (.inr second.symm)⟩
  · exact ⟨touches_iff.mpr (.inr second.symm), touches_iff.mpr (.inl first.symm)⟩

theorem Direction.eq_opposite_of_ne {d e : Direction} (differ : d ≠ e) : d = e.opposite := by
  cases d <;> cases e <;> simp_all [Direction.opposite]

namespace Graph

open LinkArena

variable {β : Type}

structure Legal (g : Graph β) : Prop where
  joins : ∀ l ∈ live g.links, ∃ s t, g.spot? l.a = some s ∧ g.spot? l.b = some t ∧
    s.direction ≠ t.direction ∧ s.category.goesWith t.category
  roomy : ∀ ref s, g.spot? ref = some s → s.arity.admits (touching g.links ref).length
  apart : (live g.links).Pairwise fun l m => ¬ l.Repeats m

theorem legal_empty (name : String) : (empty (β := β) name).Legal where
  joins := by simp [empty, live]
  roomy := by simp [empty, spot?, node?, slot?]
  apart := by simp [empty, live]

theorem Legal.of_shape {g h : Graph β} (legal : g.Legal) (same : h.shape = g.shape) :
    h.Legal := by
  have spots := spot?_eq_of_shape same
  have links := links_eq_of_shape same
  constructor
  · simpa only [links, spots] using legal.joins
  · simpa only [links, spots] using legal.roomy
  · simpa only [links] using legal.apart

theorem Legal.wire {g : Graph β} (legal : g.Legal) {links : List (Option Link)}
    (fewer : (live links).Sublist (live g.links)) : (g.wire links).Legal where
  joins l mem := by
    obtain ⟨s, t, at_a, at_b, joined⟩ := legal.joins l (fewer.mem mem)
    exact ⟨_, _, spot?_wire_of_spot? at_a links, spot?_wire_of_spot? at_b links, joined⟩
  roomy ref s found := by
    rw [spot?_wire] at found
    obtain ⟨t, at_ref, rfl⟩ := Option.map_eq_some_iff.mp found
    exact Arity.admits_of_le ((fewer.filter _).map _).length_le (legal.roomy ref t at_ref)
  apart := legal.apart.sublist fewer

theorem Legal.wire_keep {g : Graph β} (legal : g.Legal) (p : Link → Bool) :
    (g.wire (keep p g.links)).Legal := by
  apply legal.wire
  rw [live_keep]
  exact List.filter_sublist

theorem Legal.disposeLink {g : Graph β} (sound : g.Sound) (legal : g.Legal) (id : LinkId) :
    (g.disposeLink id).2.Legal := by
  cases found : g.link? id with
  | none => rwa [disposeLink_eq_of_dead found]
  | some l =>
      rw [disposeLink_eq sound found]
      exact legal.wire_keep _

theorem Legal.wire_append {g : Graph β} (sound : g.Sound) (legal : g.Legal) {a b : SpotRef}
    (checked : g.checkLink a b = .ok ()) (id : LinkId) :
    (g.wire (g.links ++ [some ⟨id, a, b⟩])).Legal := by
  obtain ⟨s, t, at_a, at_b, mayLink, fresh, _⟩ := checkLink_eq_ok_iff.mp checked
  obtain ⟨direction, category, room, room'⟩ := mayLink
  refine ⟨?_, ?_, ?_⟩
  · intro l mem
    rw [links_wire, live_append_some, List.mem_append, List.mem_singleton] at mem
    obtain old | rfl := mem
    · obtain ⟨s, t, at_a, at_b, joined⟩ := legal.joins l old
      exact ⟨_, _, spot?_wire_of_spot? at_a _, spot?_wire_of_spot? at_b _, joined⟩
    · exact ⟨_, _, spot?_wire_of_spot? at_a _, spot?_wire_of_spot? at_b _, direction, category⟩
  · intro ref u found
    rw [spot?_wire] at found
    obtain ⟨u, at_ref, rfl⟩ := Option.map_eq_some_iff.mp found
    change u.arity.admits (touching (g.links ++ _) ref).length
    rw [touching_append_some]
    split
    · next touches =>
        rw [List.length_append, List.length_singleton, ← sound.wired ref u at_ref]
        obtain rfl | rfl := Link.touches_iff.mp touches
        · rw [at_a] at at_ref
          cases at_ref
          exact room
        · rw [at_b] at at_ref
          cases at_ref
          exact room'
    · rw [List.append_nil]
      exact legal.roomy ref u at_ref
  · rw [links_wire, live_append_some, List.pairwise_append]
    refine ⟨legal.apart, List.pairwise_singleton _ _, ?_⟩
    intro l old m last
    obtain rfl := List.mem_singleton.mp last
    intro both
    have at_id := (mem_live_iff sound.numbered).mp old
    have listed : l.id ∈ s.links := by
      rw [sound.wired a s at_a, mem_touching_iff sound.numbered]
      exact ⟨l, at_id, both.1⟩
    exact fresh l.id listed l (link?_eq_some_iff.mpr at_id) both.2

theorem Legal.link {g : Graph β} (sound : g.Sound) (legal : g.Legal) (a b : SpotRef) :
    (g.link a b).2.Legal := by
  cases checked : g.checkLink a b with
  | error cause => rwa [link_eq_of_refused checked]
  | ok u =>
      rw [link_eq_of_checkLink sound.wired checked]
      exact legal.wire_append sound checked _

theorem Legal.removeNode {g : Graph β} (sound : g.Sound) (legal : g.Legal) (key : NodeKey) :
    (g.removeNode key).2.Legal := by
  cases found : g.node? key with
  | none => rwa [removeNode_eq_of_dead found]
  | some n =>
      rw [removeNode_eq sound found]
      have cut := legal.wire_keep fun l => !l.touchesNode key
      refine ⟨?_, ?_, cut.apart⟩
      · intro l mem
        change l ∈ live (keep _ g.links) at mem
        have off : l.a.node ≠ key ∧ l.b.node ≠ key := by
          rw [live_keep] at mem
          simpa [Link.touchesNode] using (List.mem_filter.mp mem).2
        rw [spot?_dropNode, spot?_dropNode, if_neg off.1, if_neg off.2]
        exact cut.joins l mem
      · intro ref s at_ref
        rw [spot?_dropNode] at at_ref
        split at at_ref
        · cases at_ref
        · exact cut.roomy ref s at_ref

theorem Legal.addNode [Behavior β] {g : Graph β} (sound : g.Sound) (legal : g.Legal)
    (id tag : String) (type : TypeKey) (b : β) : (g.addNode id tag type b).2.1.Legal := by
  obtain ⟨cause, events, same⟩ | ⟨s, fresh, head, new, _, added⟩ := addNode_cases g id tag type b
  · rwa [same]
  rw [added]
  have wired := (sound.pushNode fresh head.key (head.id ▸ new)).wired
  refine ⟨?_, ?_, legal.apart⟩
  · intro l mem
    obtain ⟨t, u, at_a, at_b, joined⟩ := legal.joins l mem
    exact ⟨t, u, spot?_pushNode_of_spot? at_a s, spot?_pushNode_of_spot? at_b s, joined⟩
  · intro ref t found
    have list := wired ref t found
    rw [spot?_pushNode] at found
    split at found
    · change t.arity.admits (touching (g.pushNode s).links ref).length
      rw [← list, fresh.links_eq t (List.mem_of_getElem? found)]
      exact t.arity.admits_zero
    · exact legal.roomy ref t found

variable [Behavior β]

theorem Legal.change {g h : Graph β} (sound : g.Sound) (legal : g.Legal) (step : Change g h) :
    h.Legal := by
  cases step with
  | addNode id tag type b => exact legal.addNode sound id tag type b
  | removeNode key => exact legal.removeNode sound key
  | link a b => exact legal.link sound a b
  | disposeLink id => exact legal.disposeLink sound id
  | begin i holds depth => exact legal.of_shape (holds ▸ i.shape_begin depth)
  | tick i holds depth delta => exact legal.of_shape (holds ▸ i.shape_tick depth delta)
  | signal i holds depth spot args =>
      exact legal.of_shape (holds ▸ i.shape_signal depth spot args)

theorem Reachable.legal {g : Graph β} (reach : g.Reachable) : g.Legal := by
  induction reach with
  | empty name => exact legal_empty name
  | load loaded =>
      exact (load_keeps (P := fun g => g.Sound ∧ g.Legal)
        (fun name => ⟨sound_empty name, legal_empty name⟩)
        (fun g id tag type b h => ⟨h.1.addNode id tag type b, h.2.addNode h.1 id tag type b⟩)
        (fun g a b h => ⟨h.1.link a b, h.2.link h.1 a b⟩)
        (fun g key b c h _ _ =>
          ⟨h.1.of_shape (g.shape_setBehavior key c), h.2.of_shape (g.shape_setBehavior key c)⟩)
        (fun g key b c bytes h _ _ =>
          ⟨h.1.of_shape (g.shape_setBehavior key c), h.2.of_shape (g.shape_setBehavior key c)⟩)
        loaded).2
  | change before step ih => exact ih.change before.sound step

omit [Behavior β] in
theorem Legal.eq_of_sameEnds {g : Graph β} (legal : g.Legal) {l m : Link}
    (first : l ∈ live g.links) (second : m ∈ live g.links) (same : l.SameEnds m) : l = m := by
  have apart : (live g.links).Pairwise fun l m => ¬ l.SameEnds m :=
    legal.apart.imp fun other same => other same.repeats
  have : Std.Symm fun l m : Link => ¬ l.SameEnds m := ⟨fun _ _ other same => other same.symm⟩
  by_contra differ
  exact apart.forall first second differ same

/-- What the links and spots of a graph show, whatever the spots were declared to be. -/
structure LinkRules (g : Graph β) : Prop where
  joins : ∀ id l, g.link? id = some l → l.a ≠ l.b ∧
    ∃ s t, g.spot l.a = .ok s ∧ g.spot l.b = .ok t ∧ s.direction = t.direction.opposite ∧
      s.category.goesWith t.category ∧ t.category.goesWith s.category
  room : ∀ ref s limit, g.spot ref = .ok s → s.arity = .atMost limit →
    s.links.length ≤ limit.toNat
  once : ∀ id id' l m, g.link? id = some l → g.link? id' = some m → l.SameEnds m → id = id'

/-- Whatever is edited, loaded and run, in any order: links stay as linking allows them. -/
theorem linkRules_of_reachable {g : Graph β} (reach : g.Reachable) : g.LinkRules := by
  have sound := reach.sound
  have legal := reach.legal
  constructor
  case joins =>
    intro id l found
    obtain ⟨s, t, at_a, at_b, differ, category⟩ := legal.joins l (mem_live_of_link? found)
    refine ⟨?_, s, t, spot_eq_ok_iff.mpr at_a, spot_eq_ok_iff.mpr at_b, ?_, category, ?_⟩
    · intro same
      rw [same, at_b] at at_a
      cases at_a
      exact differ rfl
    · exact Direction.eq_opposite_of_ne differ
    · rwa [Category.goesWith_comm]
  case room =>
    intro ref s limit found arity
    have at_ref := spot_eq_ok_iff.mp found
    have admits := legal.roomy ref s at_ref
    rw [← sound.wired ref s at_ref, arity] at admits
    simpa [Arity.admits] using admits
  case once =>
    intro id id' l m first second same
    have equal := legal.eq_of_sameEnds (mem_live_of_link? first) (mem_live_of_link? second) same
    -- A link bears the number of its slot, so equal links are in one slot.
    have at_id : l.id = id := sound.numbered _ l (link?_eq_some_iff.mp first)
    have at_id' : m.id = id' := sound.numbered _ m (link?_eq_some_iff.mp second)
    rw [← at_id, ← at_id', equal]

structure Panel where
  spots : List SpotDecl
deriving DecidableEq

instance : Behavior Panel where
  setup b _ := Setup.declareAll b.spots (.ready b)
  onSignal _ _ _ := .finish

/-- Two panels: a cable that holds one link was plugged, taken out, and plugged the other way
round; a blind spot admits no link at all; an integer leads to a float. -/
def plugged : Graph Panel :=
  let left : Panel := ⟨[⟨"cable", "Cable", .output, .custom "cable", .atMost 1⟩,
    ⟨"blind", "Blind", .output, .any, .atMost 0⟩, ⟨"int", "Int", .output, .int, .unbounded⟩]⟩
  let right : Panel := ⟨[⟨"cable", "Cable", .input, .custom "cable", .atMost 2⟩,
    ⟨"float", "Float", .input, .float, .atMost 1⟩]⟩
  let nodes := ((empty "plugged").addNode "left" "Left" ⟨"Panel", "Host/"⟩ left).2.1.addNode
    "right" "Right" ⟨"Panel", "Host/"⟩ right
  (((((nodes.2.1.link ⟨⟨0⟩, 0⟩ ⟨⟨1⟩, 0⟩).2.disposeLink ⟨0⟩).2.link ⟨⟨1⟩, 0⟩ ⟨⟨0⟩, 0⟩).2.link
    ⟨⟨0⟩, 1⟩ ⟨⟨1⟩, 0⟩).2.link ⟨⟨0⟩, 2⟩ ⟨⟨1⟩, 1⟩).2

theorem reachable_plugged : plugged.Reachable :=
  (((((((Reachable.empty "plugged").change (.addNode "left" "Left" _ _)).change
    (.addNode "right" "Right" _ _)).change (.link _ _)).change (.disposeLink _)).change
    (.link _ _)).change (.link _ _)).change (.link _ _)

theorem linkRules_plugged :
    plugged.liveLinks = [⟨⟨1⟩, ⟨⟨1⟩, 0⟩, ⟨⟨0⟩, 0⟩⟩, ⟨⟨2⟩, ⟨⟨0⟩, 2⟩, ⟨⟨1⟩, 1⟩⟩] ∧
      plugged.LinkRules :=
  ⟨by decide, linkRules_of_reachable reachable_plugged⟩

end Graph
end SignalGraph
