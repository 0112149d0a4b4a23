import Mathlib.Data.List.Forall2
import SignalGraph.Proofs.Graph.Reachable
import SignalGraph.Proofs.Wave.Depth

/-!
The cycle guard makes every wave finite, whatever the behaviors do. Each call of a node comes from a
crossing that the guard did not yet remember, and a graph has two crossings for each live link. So the
calls of a wave are at most that many, and a wave that is cut off at a greater depth is impossible.
-/

namespace SignalGraph

variable {β : Type}

namespace LinkArena

/-- The ways to cross the live links: each from its one end and from its other. -/
def crossings (links : List (Option Link)) : List (LinkId × SpotRef) :=
  (live links).flatMap fun l => [(l.id, l.a), (l.id, l.b)]

theorem length_crossings (links : List (Option Link)) :
    (crossings links).length = 2 * (live links).length := by
  rw [crossings]
  induction live links with
  | nil => rfl
  | cons l ls ih =>
      simp only [List.flatMap_cons, List.length_append, ih, List.length_cons, List.length_nil]
      omega

theorem mem_crossings {links : List (Option Link)} (num : Numbered links) {id : LinkId} {l : Link}
    {source target : SpotRef} (at_id : links[id.index]? = some (some l))
    (far : l.farEnd source = .ok target) : (id, source) ∈ crossings links := by
  have same : l.id = id := num _ l at_id
  refine List.mem_flatMap.mpr ⟨l, (mem_live_iff num).mpr (by rw [same]; exact at_id), ?_⟩
  obtain ⟨rfl, _⟩ | ⟨rfl, _⟩ := Link.ends_of_farEnd far <;> simp [same]

end LinkArena

namespace Graph

open LinkArena

def Brings (g : Graph β) (crossing : LinkId × SpotRef) (call : Event) : Prop :=
  ∃ l target args, g.link? crossing.1 = some l ∧ l.farEnd crossing.2 = .ok target ∧
    call = .signal target.node target.index crossing.2 args

theorem linkCount_eq (g : Graph β) : g.linkCount = (live g.links).length := rfl

theorem linkCount_eq_of_shape {g h : Graph β} (same : h.shape = g.shape) :
    h.linkCount = g.linkCount := by
  rw [linkCount_eq, linkCount_eq, links_eq_of_shape same]

end Graph

namespace Wave

open LinkArena

/-- A wave under the guard on the graph `g` that has made at least `made` crossings: they are
distinct, and each has led to one call. -/
structure Guarded (g : Graph β) (made : Nat) (w : Wave β) : Prop where
  shape : w.graph.shape = g.shape
  crossed : ∃ crossed, w.crossed = some crossed ∧ crossed.Nodup ∧
    crossed ⊆ crossings g.links ∧ made ≤ crossed.length ∧
    List.Forall₂ g.Brings crossed.reverse w.calls

namespace Guarded

variable {g : Graph β} {made : Nat} {w : Wave β}

theorem mono {less : Nat} (guarded : Guarded g made w) (le : less ≤ made) : Guarded g less w := by
  obtain ⟨crossed, remembered, nodup, sub, enough, brings⟩ := guarded.crossed
  exact ⟨guarded.shape, crossed, remembered, nodup, sub, Nat.le_trans le enough, brings⟩

theorem le_linkCount (guarded : Guarded g made w) : made ≤ 2 * g.linkCount := by
  obtain ⟨crossed, _, nodup, sub, enough, _⟩ := guarded.crossed
  calc made ≤ crossed.length := enough
    _ ≤ (crossings g.links).length := List.Nodup.length_le_of_subset nodup sub
    _ = 2 * g.linkCount := by rw [length_crossings, g.linkCount_eq]

theorem call (sound : g.Sound) (guarded : Guarded g made w) {v : Wave β} {id : LinkId} {l : Link}
    {source target : SpotRef} (live : w.graph.link? id = some l)
    (far : l.farEnd source = .ok target) (crossed : w.cross id source target = .ok v)
    (args : List Value) :
    Guarded g (made + 1) (v.push (.signal target.node target.index source args)) := by
  obtain ⟨before, remembered, nodup, sub, enough, brings⟩ := guarded.crossed
  have links := Graph.links_eq_of_shape guarded.shape
  have at_id : g.link? id = some l := by
    rw [Graph.link?, ← links]
    exact live
  simp only [cross, remembered] at crossed
  split at crossed
  · cases crossed
  next new =>
  cases crossed
  refine ⟨guarded.shape, (id, source) :: before, rfl, List.nodup_cons.mpr ⟨new, nodup⟩, ?_, ?_, ?_⟩
  · exact List.cons_subset.mpr
      ⟨mem_crossings sound.numbered (Graph.link?_eq_some_iff.mp at_id) far, sub⟩
  · simpa using enough
  · rw [List.reverse_cons, calls_push_signal]
    exact List.rel_append brings (.cons ⟨l, target, args, at_id, far, rfl⟩ .nil)

variable [Behavior β]

theorem invariant (sound : g.Sound) (made : Nat) : Invariant (Guarded g made) fun _ _ => True where
  push w e other guarded :=
    ⟨guarded.shape, by rw [calls_push_of_not_signal other]; exact guarded.crossed⟩
  setState w state guarded := ⟨guarded.shape, guarded.crossed⟩
  become w self b _ guarded :=
    ⟨(w.graph.shape_setBehavior self b).trans guarded.shape, guarded.crossed⟩
  begin _ _ _ _ _ := Reaction.becomes_of_forall (fun _ => trivial) _
  lost w v id l source target guarded live far _ missing := by
    have found := (sound.of_shape guarded.shape).isSome_node?_of_farEnd live far
    rw [← Graph.behavior?_isSome_iff, missing] at found
    cases found
  call w v id l source target args b guarded live far crossed _ :=
    ⟨(guarded.call sound live far crossed args).mono (Nat.le_succ made),
      Reaction.becomes_of_forall (fun _ => trivial) _⟩

theorem isSome_deliver (sound : g.Sound) {depth : Nat}
    (ends : ∀ source args w, Guarded g (made + 1) w → (propagate depth source args w).1.isSome)
    (source : SpotRef) (args : List Value) (id : LinkId) (w : Wave β) (guarded : Guarded g made w) :
    (deliver (propagate depth) source args id w).1.isSome := by
  simp only [deliver]
  split
  · rfl
  next l live =>
  split
  · rfl
  next target far =>
  split
  · rfl
  next v crossed =>
  split
  · rfl
  next b _ =>
  have inv := invariant sound (made + 1)
  exact inv.isSome_run (inv.propagate depth) ends _ _ _
    (Reaction.becomes_of_forall (fun _ => trivial) _) _ (guarded.call sound live far crossed args)

theorem isSome_deliverAll (sound : g.Sound) {depth : Nat}
    (ends : ∀ source args w, Guarded g (made + 1) w → (propagate depth source args w).1.isSome)
    (source : SpotRef) (args : List Value) (ids : List LinkId) (w : Wave β)
    (guarded : Guarded g made w) : (deliverAll (propagate depth) source args ids w).1.isSome := by
  induction ids generalizing w with
  | nil => rfl
  | cons id ids ih =>
      have first := isSome_deliver sound ends source args id w guarded
      have inv := invariant sound made
      have after := inv.deliver (inv.propagate depth) source args id w guarded
      simp only [deliverAll]
      split
      · next v delivered =>
          rw [delivered] at after
          exact ih v after
      · exact first

/-- Below a depth that exceeds the crossings still to be made, nothing is cut off: a crossing
uses up one of them, and reduces the depth by one. -/
theorem isSome_propagate (sound : g.Sound) {depth : Nat}
    (enough : 2 * g.linkCount < depth + made) (source : SpotRef) (args : List Value)
    (w : Wave β) (guarded : Guarded g made w) : (propagate depth source args w).1.isSome := by
  induction depth generalizing made source args w with
  | zero =>
      have := guarded.le_linkCount
      omega
  | succ depth ih =>
      simp only [propagate]
      split
      · rfl
      · exact isSome_deliverAll sound (ih (by omega)) source args _ w guarded

theorem isSome_begin (sound : g.Sound) {depth : Nat} (enough : 2 * g.linkCount < depth)
    (key : NodeKey) (w : Wave β) (guarded : Guarded g 0 w) : (w.begin depth key).1.isSome := by
  simp only [begin]
  split
  · rfl
  · have inv := invariant sound 0
    exact inv.isSome_run (inv.propagate depth) (isSome_propagate sound enough) _ _ _
      (Reaction.becomes_of_forall (fun _ => trivial) _) _ (inv.push w _ rfl guarded)

end Guarded

/-- A run that has one and the same result at every depth beyond twice the number of links. Its calls
come from distinct crossings, one each, and so are no more than the crossings that there are. -/
def Contained (g : Graph β) (run : Nat → Progress β) : Prop :=
  ∃ result w crossed, (∀ depth, 2 * g.linkCount < depth → run depth = (some result, w)) ∧
    w.crossed = some crossed ∧ crossed.Nodup ∧ List.Forall₂ g.Brings crossed.reverse w.calls ∧
    w.calls.length ≤ 2 * g.linkCount

theorem contained_of_isSome {g : Graph β} {run : Nat → Progress β}
    (ends : ∀ depth, 2 * g.linkCount < depth → (run depth).1.isSome)
    (mono : ∀ depth more result w, depth ≤ more → run depth = (some result, w) →
      run more = (some result, w))
    (guarded : ∀ depth, Guarded g 0 (run depth).2) : Contained g run := by
  obtain ⟨result, found⟩ := Option.isSome_iff_exists.mp (ends _ (Nat.lt_succ_self _))
  obtain ⟨crossed, remembered, nodup, sub, _, brings⟩ :=
    (guarded (2 * g.linkCount + 1)).crossed
  refine ⟨result, _, crossed, ?_, remembered, nodup, brings, ?_⟩
  · intro depth enough
    exact mono _ depth result _ enough (Prod.ext found rfl)
  · rw [← brings.length_eq, List.length_reverse, g.linkCount_eq, ← length_crossings]
    exact List.Nodup.length_le_of_subset nodup sub

end Wave

namespace Instance

open Wave

theorem guarded_wave {i : Instance β} (guard : i.cycleGuard = true) :
    Guarded i.graph 0 i.wave :=
  ⟨rfl, [], by simp [wave, guard], List.nodup_nil, List.nil_subset _, Nat.le_refl 0, .nil⟩

variable [Behavior β]

theorem contained_begin {i : Instance β} (sound : i.graph.Sound) (guard : i.cycleGuard = true)
    (key : NodeKey) : Contained i.graph fun depth => i.wave.begin depth key :=
  contained_of_isSome
    (fun _ enough => Guarded.isSome_begin sound enough key i.wave (guarded_wave guard))
    (fun _ _ _ _ le ran => begin_extends le ran)
    (fun depth => (Guarded.invariant sound 0).beginning depth key i.wave (guarded_wave guard))

theorem contained_propagate {i : Instance β} (sound : i.graph.Sound)
    (guard : i.cycleGuard = true) (spot : SpotRef) (args : List Value) :
    Contained i.graph fun depth => propagate depth spot args i.wave :=
  contained_of_isSome
    (fun _ enough => Guarded.isSome_propagate sound enough spot args i.wave (guarded_wave guard))
    (fun _ _ _ _ le ran => propagate_extends le _ _ _ _ _ ran)
    (fun depth => (Guarded.invariant sound 0).propagate depth spot args i.wave (guarded_wave guard))

omit [Behavior β] in
theorem isSome_andThen {c : Call β} {next : Instance β → Call β} (first : c.1.isSome)
    (goes : ∀ i events, c = (some (.ok ()), i, events) → (next i).1.isSome) :
    (andThen c next).1.isSome := by
  simp only [andThen]
  split
  · exact goes _ _ rfl
  · exact first

theorem isSome_fire {i : Instance β} (sound : i.graph.Sound) (guard : i.cycleGuard = true)
    {depth : Nat} (enough : 2 * i.graph.linkCount < depth) (keys : List NodeKey) :
    (i.fire depth keys).1.isSome := by
  induction keys generalizing i with
  | nil => rfl
  | cons key keys ih =>
      refine isSome_andThen (c := i.conclude (i.wave.begin depth key))
        (Guarded.isSome_begin sound enough key i.wave (guarded_wave guard)) fun j events began => ?_
      have settles : Settles i (i.conclude (i.wave.begin depth key)).2.1 :=
        settles_conclude (Wave.shape_begin depth key i.wave)
      rw [began] at settles
      exact ih (sound.of_shape settles.shape) (settles.guard.trans guard)
        (Graph.linkCount_eq_of_shape settles.shape ▸ enough)

theorem isSome_begin {i : Instance β} (sound : i.graph.Sound) (guard : i.cycleGuard = true)
    {depth : Nat} (enough : 2 * i.graph.linkCount < depth) : (i.begin depth).1.isSome := by
  simp only [Instance.begin]
  split
  · rfl
  · exact Guarded.isSome_begin sound enough i.entry _ (guarded_wave guard)

theorem isSome_tick {i : Instance β} (sound : i.graph.Sound) (guard : i.cycleGuard = true)
    {depth : Nat} (enough : 2 * i.graph.linkCount < depth) (delta : Binary32) :
    (i.tick depth delta).1.isSome := by
  simp only [tick]
  split
  · exact isSome_fire (i := { i with state := i.state.advance delta }) sound guard enough _
  · rfl

theorem isSome_ticks {i : Instance β} (sound : i.graph.Sound) (guard : i.cycleGuard = true)
    {depth : Nat} (enough : 2 * i.graph.linkCount < depth) (delta : Binary32) (count : Nat) :
    (i.ticks depth delta count).1.isSome := by
  induction count generalizing i with
  | zero => rfl
  | succ count ih =>
      refine isSome_andThen (isSome_tick sound guard enough delta) fun j events ticked => ?_
      have settles := settles_tick depth delta i
      rw [ticked] at settles
      exact ih (sound.of_shape settles.shape) (settles.guard.trans guard)
        (Graph.linkCount_eq_of_shape settles.shape ▸ enough)

/-- Under the guard every wave ends, however cyclic the graph is and whatever the behaviors do: the
begin of any node, be it after other nodes' waves in the same tick, and a signal to any spot. -/
theorem guarded_waves_end {i : Instance β} (reach : i.graph.Reachable)
    (guard : i.cycleGuard = true) :
    (∀ depth keys j events key, i.fire depth keys = (some (.ok ()), j, events) →
      Contained j.graph fun depth => j.wave.begin depth key) ∧
    (∀ spot args, Contained i.graph fun depth => propagate depth spot args i.wave) ∧
    ∀ depth, 2 * i.graph.linkCount < depth → (i.begin depth).1.isSome ∧
      (∀ delta, (i.tick depth delta).1.isSome) ∧
      ∀ spot args, (i.signal depth spot args).1.isSome := by
  have sound := reach.sound
  refine ⟨?_, contained_propagate sound guard, ?_⟩
  · intro depth keys j events key fired
    have settles := settles_fire depth keys i
    rw [fired] at settles
    exact contained_begin (sound.of_shape settles.shape) (settles.guard.trans guard) key
  · intro depth enough
    refine ⟨isSome_begin sound guard enough, isSome_tick sound guard enough, ?_⟩
    · intro spot args
      exact Guarded.isSome_propagate sound enough spot args i.wave (guarded_wave guard)

theorem guarded_signal_ends :
    let i : Instance Builtin :=
      ⟨⟨0⟩, Graph.knotted, .initial, .collector, ⟨0⟩, true, true⟩
    i.graph.linkCount = 3 ∧ (i.signal 7 ⟨⟨1⟩, 1⟩ []).1.isSome :=
  ⟨by decide, ((guarded_waves_end Graph.reachable_knotted rfl).2.2 7 (by decide)).2.2 ⟨⟨1⟩, 1⟩ []⟩

end Instance
end SignalGraph
