import SignalGraph.Proofs.Builtin.Delivery
import SignalGraph.Proofs.Wave.Depth

/-!
What a run without the cycle guard does where no cycle can be reached: it delivers every walk from the
entry exactly once, depth first, and each delivery carries what the nodes on its walk added. The nodes are
the library's; where one of them fails the run ends early, and of such runs nothing is said here.
-/

namespace SignalGraph

open Builtin

variable {β : Type} {wrap : Builtin → β}

namespace Graph

/-! ### The shape of graphs of library nodes -/

theorem Carries.spots_of_isHop {own : NodeKey → Builtin} {g : Graph β}
    (carries : g.Carries wrap own) (declared : g.Declared wrap) {h : Hop} (hop : g.IsHop h) :
    (own h.target.node).spots = [inDecl, outDecl] := by
  obtain ⟨t, into, input⟩ := hop.into
  obtain ⟨n, found, at_index⟩ := spot?_eq_some_iff.mp into
  have decls := carries.decls declared found
  have mem : t.toSpotDecl ∈ (own h.target.node).spots := by
    rw [← decls]
    exact List.mem_map_of_mem (List.mem_of_getElem? at_index)
  cases own : own h.target.node with
  | entry _ | update =>
      rw [own] at mem
      have same : t.toSpotDecl = outDecl := by simpa [Builtin.spots] using mem
      have output : t.direction = .output := congrArg SpotDecl.direction same
      rw [input] at output
      cases output
  | deltaTime | console | counter _ | setVariable _ => rfl

theorem Carries.piped {own : NodeKey → Builtin} {g : Graph β} (carries : g.Carries wrap own)
    (declared : g.Declared wrap) : g.Piped := by
  intro h hop
  obtain ⟨t, into, _⟩ := hop.into
  obtain ⟨n, found, _⟩ := spot?_eq_some_iff.mp into
  have decls := carries.decls declared found
  rw [carries.spots_of_isHop declared hop] at decls
  obtain ⟨s, rest, spots, input, decls⟩ := List.map_eq_cons_iff.mp decls
  obtain ⟨u, last, rfl, output, decls⟩ := List.map_eq_cons_iff.mp decls
  obtain rfl := List.map_eq_nil_iff.mp decls
  exact ⟨n, s, u, found, spots, congrArg SpotDecl.direction input,
    congrArg SpotDecl.direction output⟩

end Graph

/-! ### The deliveries of a wave -/

section Deliveries

variable [Behavior β] {c : Course} {g : Graph β}

open Wave

/-- Sending out of a spot, with what a walk to it carries, delivers all walks that go on from there. -/
def Course.Sends (c : Course) (wrap : Builtin → β) (g : Graph β) (depth : Nat) : Prop :=
  ∀ (source : SpotRef) (q : List Hop) (done : List (List Hop)) (w : Wave β), g.IsOut source →
    0 < depth → (∀ p ∈ g.walksFrom depth source, p.length < depth) → c.Trace wrap g done w →
    done ++ (g.walksFrom depth source).map (q ++ ·) <+: c.walks →
    ∃ v, propagate depth source (c.carried q) w = (some (.ok ()), v) ∧
      c.Trace wrap g (done ++ (g.walksFrom depth source).map (q ++ ·)) v

theorem Course.Sends.deliverAll (hosted : Hosted wrap) (sound : g.Sound) (legal : g.Legal)
    (nodup : c.walks.Nodup) (proceeds : ∀ p ∈ c.walks, c.proceeds p) (piped : g.Piped)
    (spots : ∀ h, g.IsHop h → (c.own h.target.node).spots = [inDecl, outDecl]) {depth : Nat}
    (sends : c.Sends wrap g depth) {source : SpotRef} (out : g.IsOut source) (hs : List Hop)
    (from_source : ∀ h ∈ hs, h ∈ g.hopsFrom source)
    (short : ∀ h ∈ hs, ∀ p ∈ g.branch depth h, p.length < depth + 1) (q : List Hop)
    {done : List (List Hop)} {w : Wave β} (trace : c.Trace wrap g done w)
    (next : done ++ (hs.flatMap (g.branch depth)).map (q ++ ·) <+: c.walks) :
    ∃ v, Wave.deliverAll (propagate depth) source (c.carried q) (hs.map (·.link)) w =
        (some (.ok ()), v) ∧
      c.Trace wrap g (done ++ (hs.flatMap (g.branch depth)).map (q ++ ·)) v := by
  induction hs generalizing done w with
  | nil => exact ⟨w, rfl, by simpa using trace⟩
  | cons h hs ih =>
      have mem := from_source h (by simp)
      obtain ⟨hop, rfl⟩ := (Graph.mem_hopsFrom_iff legal sound out).mp mem
      have split : done ++ ((h :: hs).flatMap (g.branch depth)).map (q ++ ·) =
          (done ++ [q ++ [h]] ++
            (g.walksFrom depth ⟨h.target.node, 1⟩).map ((q ++ [h]) ++ ·)) ++
          (hs.flatMap (g.branch depth)).map (q ++ ·) := by
        simp [Graph.branch, Function.comp_def]
      rw [split] at next ⊢
      have listed : done ++ [q ++ [h]] <+: c.walks :=
        ((List.prefix_append _ _).trans (List.prefix_append _ _)).trans next
      have on := proceeds (q ++ [h]) (listed.subset (by simp))
      -- The hop itself is delivered first.
      obtain ⟨u, delivered, trace'⟩ := deliver_eq hosted legal nodup trace hop (spots h hop)
        listed on (propagate depth)
      have deeper {p : List Hop} (mem' : p ∈ g.branch depth h) : p.length < depth + 1 :=
        short h (by simp) p mem'
      have positive : 0 < depth := by
        simpa using deeper (p := [h]) (by simp [Graph.branch])
      have shorter (p : List Hop) (mem' : p ∈ g.walksFrom depth ⟨h.target.node, 1⟩) :
          p.length < depth := by
        simpa using deeper (p := h :: p) (by simp [Graph.branch, mem'])
      -- Its node sends on before the next hop has its turn.
      obtain ⟨v, sent, sent_trace⟩ := sends _ (q ++ [h]) _ u (piped.isOut hop) positive shorter
        trace' ((List.prefix_append _ _).trans next)
      obtain ⟨v', rest, rest_trace⟩ := ih (fun h' mem' => from_source h' (by simp [mem']))
        (fun h' mem' => short h' (by simp [mem'])) sent_trace next
      refine ⟨v', ?_, rest_trace⟩
      simp only [List.map_cons, Wave.deliverAll, delivered, sent]
      exact rest

theorem Course.sends (hosted : Hosted wrap) (sound : g.Sound) (legal : g.Legal)
    (nodup : c.walks.Nodup) (proceeds : ∀ p ∈ c.walks, c.proceeds p) (piped : g.Piped)
    (spots : ∀ h, g.IsHop h → (c.own h.target.node).spots = [inDecl, outDecl]) (depth : Nat) :
    c.Sends wrap g depth := by
  induction depth with
  | zero =>
      intro source q done w out positive
      cases positive
  | succ depth ih =>
      intro source q done w out _ short trace next
      have walks : g.walksFrom (depth + 1) source =
          (g.hopsFrom source).flatMap (g.branch depth) := rfl
      rw [walks] at short next ⊢
      obtain ⟨v, delivered, trace'⟩ := ih.deliverAll hosted sound legal nodup proceeds piped spots
        out (g.hopsFrom source) (fun _ mem => mem)
        (fun h mem p mem' => short p (List.mem_flatMap.mpr ⟨h, mem, mem'⟩)) q trace next
      obtain ⟨s, found, output⟩ := out
      have still : w.graph.spot source = .ok s := by
        rw [Graph.spot_eq_ok_iff, Graph.spot?_eq_of_shape trace.shape]
        exact found
      rw [Graph.map_link_hopsFrom sound found] at delivered
      refine ⟨v, ?_, trace'⟩
      simp only [propagate, still]
      exact delivered

end Deliveries

namespace Instance

variable {own : NodeKey → Builtin}

def course (i : Instance β) (own : NodeKey → Builtin) : Course where
  own := own
  instanceId := i.id
  delta := i.state.deltaTime
  walks := i.graph.walksFrom (i.graph.slots.length + 1) ⟨i.entry, 0⟩

theorem entry_spots {i : Instance β} (sound : i.graph.Sound) (carries : i.graph.Carries wrap own)
    (single : i.graph.keysOfType .entry = [i.entry]) :
    ∃ begunBy n, own i.entry = .entry begunBy ∧ i.graph.node? i.entry = some n := by
  have mem : i.entry ∈ i.graph.keysOfType .entry := by simp [single]
  obtain ⟨n, found, typed⟩ := (Graph.mem_keysOfType_iff sound).mp mem
  obtain ⟨s, at_key, rfl⟩ := Option.map_eq_some_iff.mp found
  have type := (carries i.entry s at_key).2
  rw [typed] at type
  cases own : own i.entry with
  | entry begunBy => exact ⟨begunBy, s.node, rfl, found⟩
  | update | deltaTime | console | counter _ | setVariable _ =>
      rw [own] at type
      simp only [Builtin.type] at type
      exact absurd type (by decide)

theorem entry_isOut {i : Instance β} (sound : i.graph.Sound) (declared : i.graph.Declared wrap)
    (carries : i.graph.Carries wrap own) (single : i.graph.keysOfType .entry = [i.entry]) :
    i.graph.IsOut ⟨i.entry, 0⟩ := by
  obtain ⟨begunBy, n, entry, found⟩ := entry_spots sound carries single
  have decls := carries.decls declared found
  rw [entry] at decls
  obtain ⟨s, rest, spots, out, _⟩ := List.map_eq_cons_iff.mp decls
  exact ⟨s, Graph.spot?_eq_some_iff.mpr ⟨n, found, by simp [spots]⟩, congrArg SpotDecl.direction out⟩

def begun (wrap : Builtin → β) (i : Instance β) : Wave β :=
  ({ i.wave.push (.begin i.entry) with
    graph := i.graph.setBehavior i.entry (wrap (.entry (some i.id))) } : Wave β).push
      (.send ⟨i.entry, 0⟩ [.instanceRef i.id])

/-- The entry that begins has no input, so the nodes with one are what they were. -/
theorem behavior?_begun {i : Instance β} (sound : i.graph.Sound)
    (carries : i.graph.Carries wrap own) (single : i.graph.keysOfType .entry = [i.entry])
    {key : NodeKey} {n : Node} (found : i.graph.node? key = some n)
    (spots : (own key).spots = [inDecl, outDecl]) :
    (i.begun wrap).graph.behavior? key = some (wrap (own key)) := by
  have other : key ≠ i.entry := by
    intro same
    obtain ⟨begunBy, _, entry, _⟩ := entry_spots sound carries single
    rw [same, entry] at spots
    exact absurd spots (by simp [Builtin.spots])
  obtain ⟨s, at_key, _⟩ := Option.map_eq_some_iff.mp found
  change (i.graph.setBehavior i.entry _).behavior? key = _
  rw [Graph.behavior?_setBehavior, if_neg other, Graph.behavior?, at_key, Option.map_some,
    (carries key s at_key).1]

theorem trace_start {i : Instance β} (sound : i.graph.Sound) (carries : i.graph.Carries wrap own)
    (single : i.graph.keysOfType .entry = [i.entry]) (unguarded : i.cycleGuard = false) :
    (i.course own).Trace wrap i.graph [] (i.begun wrap) where
  shape := i.graph.shape_setBehavior i.entry _
  crossed := by simp [begun, wave, Wave.push, unguarded]
  delta := rfl
  behavior key n found spots := by
    rw [Course.visits, List.countP_nil, after_zero]
    exact behavior?_begun sound carries single found spots
  calls := by simp [begun, Wave.calls, wave, Wave.push, Event.isSignal]

variable [Behavior β]

theorem wave_begin_eq (hosted : Hosted wrap) {i : Instance β} (sound : i.graph.Sound)
    (carries : i.graph.Carries wrap own) (single : i.graph.keysOfType .entry = [i.entry])
    (depth : Nat) :
    i.wave.begin depth i.entry =
      Wave.propagate depth ⟨i.entry, 0⟩ [.instanceRef i.id] (i.begun wrap) := by
  obtain ⟨begunBy, n, entry, found⟩ := entry_spots sound carries single
  obtain ⟨s, at_entry, rfl⟩ := Option.map_eq_some_iff.mp found
  have behaves : i.graph.behavior i.entry = .ok (wrap (.entry begunBy)) := by
    rw [Graph.behavior_eq_ok_iff, Graph.behavior?, at_entry, Option.map_some,
      (carries i.entry s at_entry).1, entry]
  simp only [Wave.begin, wave, behaves, hosted.onBegin]
  rw [run_onBegin_entry]
  rfl

/-- Where no cycle can be reached from the entry and no node fails, the first begin without the guard
succeeds. Its calls are those of all walks from the entry, each once and depth first. -/
theorem begin_delivers_walks (hosted : Hosted wrap) {i : Instance β} (reach : i.graph.Reachable)
    (carries : i.graph.Carries wrap own) (single : i.graph.keysOfType .entry = [i.entry])
    (acyclic : i.graph.AcyclicFrom i.entry) (unguarded : i.cycleGuard = false)
    (fresh : i.started = false) (proceeds : ∀ p ∈ (i.course own).walks, (i.course own).proceeds p) :
    (∀ p, p ∈ (i.course own).walks ↔ i.graph.Walk ⟨i.entry, 0⟩ p) ∧
    (i.course own).walks.Pairwise Graph.Precedes ∧
    ∀ depth, i.graph.slots.length < depth → ∃ j events,
      i.begin depth = (some (.ok ()), j, events) ∧
      List.Forall₂ (i.course own).IsCall (i.course own).walks (events.filter Event.isSignal) := by
  have sound := reach.sound
  have legal := reach.legal
  have declared := reach.declared hosted
  have piped := carries.piped declared
  have out := entry_isOut sound declared carries single
  have sorted : (i.course own).walks.Pairwise Graph.Precedes := Graph.walksFrom_sorted sound _ _
  have complete (p : List Hop) :
      p ∈ (i.course own).walks ↔ i.graph.Walk ⟨i.entry, 0⟩ p := by
    rw [course, Graph.mem_walksFrom_iff sound legal piped out]
    refine ⟨And.left, fun walk => ⟨walk, ?_⟩⟩
    have := walk.length_le acyclic
    omega
  refine ⟨complete, sorted, ?_⟩
  intro depth enough
  have short (p : List Hop) (mem : p ∈ (i.course own).walks) :
      p.length < i.graph.slots.length + 1 :=
    Nat.lt_succ_of_le (((complete p).mp mem).length_le acyclic)
  have sends := Course.sends hosted sound legal (Graph.nodup_of_precedes sorted) proceeds piped
    (fun h hop => carries.spots_of_isHop declared hop) (i.graph.slots.length + 1)
  obtain ⟨v, sent, trace⟩ := sends _ [] [] _ out (Nat.succ_pos _) short
    (trace_start sound carries single unguarded) (by simp [course])
  have begins : i.wave.begin (i.graph.slots.length + 1) i.entry = (some (.ok ()), v) :=
    (wave_begin_eq hosted sound carries single _).trans sent
  have calls : List.Forall₂ (i.course own).IsCall (i.course own).walks v.calls := by
    have := trace.calls
    simpa [course] using this
  have ran := Wave.begin_extends (Nat.succ_le_of_lt enough) begins
  refine ⟨{ i with started := true }.settle v, v.record.toList, ?_, calls⟩
  have start : ({ i with started := true } : Instance β).wave = i.wave := rfl
  simp only [Instance.begin, fresh, Bool.false_eq_true, if_false, start, ran, conclude]

def forked : Graph Builtin :=
  let nodes := (((Graph.empty "forked").addNode "start" "Start" .entry (.entry none)).2.1.addNode
    "delta" "Delta" .deltaTime .deltaTime).2.1.addNode "count" "Count" .counter (.counter ⟨5, 2⟩)
  let nodes := (nodes.2.1.addNode "show" "Show" .console .console).2.1
  (((nodes.link ⟨⟨0⟩, 0⟩ ⟨⟨1⟩, 0⟩).2.link ⟨⟨0⟩, 0⟩ ⟨⟨2⟩, 0⟩).2.link ⟨⟨1⟩, 1⟩ ⟨⟨2⟩, 0⟩).2.link
    ⟨⟨2⟩, 1⟩ ⟨⟨3⟩, 0⟩ |>.2

theorem reachable_forked : forked.Reachable := by
  have nodes := ((((Graph.Reachable.empty "forked").change
    (.addNode "start" "Start" .entry (Builtin.entry none))).change
    (.addNode "delta" "Delta" .deltaTime .deltaTime)).change
    (.addNode "count" "Count" .counter (.counter ⟨5, 2⟩))).change
    (.addNode "show" "Show" .console .console)
  exact (((nodes.change (.link ⟨⟨0⟩, 0⟩ ⟨⟨1⟩, 0⟩)).change (.link ⟨⟨0⟩, 0⟩ ⟨⟨2⟩, 0⟩)).change
    (.link ⟨⟨1⟩, 1⟩ ⟨⟨2⟩, 0⟩)).change (.link ⟨⟨2⟩, 1⟩ ⟨⟨3⟩, 0⟩)

theorem begin_delivers_five_walks :
    let i : Instance Builtin := ⟨⟨0⟩, forked, .initial, .collector, ⟨0⟩, false, false⟩
    let walks := (i.course forked.ownBehavior).walks
    walks.length = 5 ∧ ∃ j events, i.begin 5 = (some (.ok ()), j, events) ∧
      List.Forall₂ (i.course forked.ownBehavior).IsCall walks (events.filter Event.isSignal) := by
  intro i walks
  have acyclic := Graph.acyclicFrom_of_forward (g := forked) (by decide) i.entry
  exact ⟨by decide, (begin_delivers_walks hosted_id (i := i) reachable_forked
    (Graph.carries_ownBehavior (by decide)) (by decide) acyclic rfl rfl (by decide)).2.2 5 (by decide)⟩

end Instance
end SignalGraph
