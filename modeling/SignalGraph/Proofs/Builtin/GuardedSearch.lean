import SignalGraph.Proofs.Builtin.DepthFirst
import SignalGraph.Proofs.Graph.Tangles
import SignalGraph.Proofs.Wave.Guard

/-!
What a begin under the cycle guard does where every node sends each signal on and none fails: it searches
the walks from the entry, depth first, and ends at the first that comes over a link a second time. What the
signals carry, and what the nodes do with it, plays no part here.
-/

namespace SignalGraph

open Builtin

variable {β : Type} {wrap : Builtin → β} {own : NodeKey → Builtin} {g : Graph β}

namespace Builtin

/-- The types of nodes that keep no count and no name, and so never fail by themselves. -/
def Quiet : Builtin → Prop
  | counter _ | setVariable _ => False
  | _ => True

instance (b : Builtin) : Decidable b.Quiet := by
  cases b <;> simp only [Quiet] <;> infer_instance

theorem work_of_quiet (wrap : Builtin → β) {b : Builtin} (quiet : b.Quiet)
    (spots : b.spots = [inDecl, outDecl]) (self : NodeKey) (args : List Value) (w : Wave β) :
    ∃ v out, b.work wrap self args w = .ok (v, some out) ∧ v.graph = w.graph ∧
      v.crossed = w.crossed := by
  cases b with
  | entry _ | update => simp [Builtin.spots] at spots
  | deltaTime => exact ⟨w, _, rfl, rfl, rfl⟩
  | console => exact ⟨_, args, rfl, rfl, rfl⟩
  | counter _ | setVariable _ => exact quiet.elim

end Builtin

/-- A wave under the guard on the graph `g` that has crossed the given links, each from its output to
its input and none twice. Nodes with an input are what they were at the start. -/
structure Wave.Searching (wrap : Builtin → β) (own : NodeKey → Builtin) (g : Graph β)
    (done : List (Option LinkId)) (w : Wave β) : Prop where
  shape : w.graph.shape = g.shape
  behavior : ∀ key n, g.node? key = some n → (own key).spots = [inDecl, outDecl] →
    w.graph.behavior? key = some (wrap (own key))
  crossed : ∃ crossed, w.crossed = some crossed ∧
    ∀ h, g.IsHop h → ((h.link, h.source) ∈ crossed ↔ some h.link ∈ done)
  nodup : done.Nodup

/-- A search through walks of a kind that found no link a second time: these are all of them. -/
def Exhausts (S : List Hop → Prop) (ws : List (List Hop)) : Prop := ∀ p, p ∈ ws ↔ S p

/-- A search through walks of a kind that came to one of them: those are all before it. -/
def Reaches (S : List Hop → Prop) (ws : List (List Hop)) (p : List Hop) : Prop :=
  S p ∧ ∀ q, q ∈ ws ↔ S q ∧ Graph.Precedes q p

/-- What becomes of a search through walks of a kind, behind the links that were crossed before. A
search that was cut off tells nothing. -/
def Progress.Searched (wrap : Builtin → β) (own : NodeKey → Builtin) (g : Graph β)
    (S : List Hop → Prop) (done : List (Option LinkId)) : Progress β → Prop
  | (none, _) => True
  | (some (.ok ()), v) => ∃ ws, Exhausts S ws ∧
    v.Searching wrap own g (done ++ ws.map Hop.lastLink?)
  | (some (.error cause), _) => ∃ ws p h n, Reaches S ws (p ++ [h]) ∧
    (done ++ ws.map Hop.lastLink?).Nodup ∧ some h.link ∈ done ++ ws.map Hop.lastLink? ∧
    g.node? h.target.node = some n ∧ cause = .cycle h.link n.id

namespace Graph

/-- The walks over a hop: the hop itself, and those that go on from where it leads. -/
def WalkOver (g : Graph β) (h : Hop) (p : List Hop) : Prop :=
  p = [h] ∨ ∃ q, p = h :: q ∧ g.Walk ⟨h.target.node, 1⟩ q

theorem walk_iff_walkOver (sound : g.Sound) (legal : g.Legal) (piped : g.Piped) {source : SpotRef}
    (out : g.IsOut source) {p : List Hop} :
    g.Walk source p ↔ ∃ h ∈ g.hopsFrom source, g.WalkOver h p := by
  simp only [mem_hopsFrom_iff legal sound out]
  constructor
  · intro walk
    cases walk with
    | @last h hop => exact ⟨h, ⟨hop, rfl⟩, .inl rfl⟩
    | @cons h next q hop on rest =>
        obtain rfl := piped.eq_of_isOut hop on rest.isOut
        exact ⟨h, ⟨hop, rfl⟩, .inr ⟨q, rfl, rest⟩⟩
  · intro passes
    obtain ⟨h, ⟨hop, rfl⟩, rfl | ⟨q, rfl, rest⟩⟩ := passes
    · exact .last hop
    · have on : (SpotRef.mk h.target.node 1).node = h.target.node := rfl
      exact .cons hop on rest

theorem WalkOver.exists_cons {h : Hop} {p : List Hop} (passes : g.WalkOver h p) :
    ∃ q, p = h :: q := by
  obtain rfl | ⟨q, rfl, _⟩ := passes
  · exact ⟨[], rfl⟩
  · exact ⟨q, rfl⟩

theorem WalkOver.precedes {h h' : Hop} {p q : List Hop} (passes : g.WalkOver h p)
    (passes' : g.WalkOver h' q) (older : h.link.index < h'.link.index) : Precedes p q := by
  obtain ⟨p, rfl⟩ := passes.exists_cons
  obtain ⟨q, rfl⟩ := passes'.exists_cons
  exact precedes_cons_iff.mpr (.inl older)

theorem WalkOver.not_precedes_singleton {h : Hop} {p : List Hop} (passes : g.WalkOver h p) :
    ¬ Precedes p [h] := by
  obtain ⟨p, rfl⟩ := passes.exists_cons
  intro before
  obtain less | ⟨_, before⟩ := precedes_cons_iff.mp before
  · exact Nat.lt_irrefl _ less
  · exact not_precedes_nil p before

end Graph

section Searches

open SignalGraph.Graph Wave

variable [Behavior β]

omit [Behavior β] in
theorem Wave.Searching.cross {done : List (Option LinkId)} {w v : Wave β}
    (searching : w.Searching wrap own g done) {h : Hop} (hop : g.IsHop h)
    {crossed : List (LinkId × SpotRef)} (remembered : w.crossed = some crossed)
    (new : (h.link, h.source) ∉ crossed) (graph : v.graph = w.graph)
    (crossings : v.crossed = some ((h.link, h.source) :: crossed)) :
    v.Searching wrap own g (done ++ [some h.link]) := by
  obtain ⟨_, same, known⟩ := searching.crossed
  rw [remembered] at same
  cases same
  constructor
  case shape => exact (congrArg Graph.shape graph).trans searching.shape
  case behavior =>
    intro key n at_key spots
    exact (congrArg (·.behavior? key) graph).trans (searching.behavior key n at_key spots)
  case crossed =>
    refine ⟨(h.link, h.source) :: crossed, crossings, ?_⟩
    intro h' hop'
    rw [List.mem_cons, known h' hop', List.mem_append, List.mem_singleton, or_comm]
    refine or_congr_right ⟨?_, ?_⟩
    · intro same
      rw [(Prod.mk.inj same).1]
    · intro same
      rw [hop'.eq_of_link hop (Option.some.inj same)]
  case nodup =>
    have fresh : some h.link ∉ done := mt (known h hop).mpr new
    rw [List.nodup_append]
    refine ⟨searching.nodup, List.nodup_singleton _, ?_⟩
    intro a old b last
    rw [List.mem_singleton.mp last]
    exact fun same => fresh (same ▸ old)

theorem Wave.Searching.deliver (hosted : Hosted wrap) (legal : g.Legal)
    {done : List (Option LinkId)} {w : Wave β} (searching : w.Searching wrap own g done) {h : Hop}
    {n : Node} (hop : g.IsHop h) (at_target : g.node? h.target.node = some n)
    (spots : (own h.target.node).spots = [inDecl, outDecl]) (quiet : (own h.target.node).Quiet)
    (send : Send β) (args : List Value) :
    (some h.link ∈ done ∧
      Wave.deliver send h.source args h.link w = (some (.error (.cycle h.link n.id)), w)) ∨
    ∃ v out, Wave.deliver send h.source args h.link w = send ⟨h.target.node, 1⟩ out v ∧
      v.Searching wrap own g (done ++ [some h.link]) := by
  obtain ⟨l, live, far⟩ := farEnd_of_isHop legal hop
  have still : w.graph.link? h.link = some l := by
    rw [Graph.link?, links_eq_of_shape searching.shape]
    exact live
  obtain ⟨crossed, remembered, known⟩ := searching.crossed
  by_cases again : (h.link, h.source) ∈ crossed
  · have label : w.graph.label h.target.node = n.id := by
      rw [Graph.label, node?_eq_of_shape searching.shape, at_target]
    have refused : w.cross h.link h.source h.target = .error (.cycle h.link n.id) := by
      simp only [Wave.cross, remembered, if_pos again, label]
    refine .inl ⟨(known h hop).mp again, ?_⟩
    simp only [Wave.deliver, still, far, refused]
  · let w' : Wave β := { w with crossed := some ((h.link, h.source) :: crossed) }
    have passed : w.cross h.link h.source h.target = .ok w' := by
      simp only [Wave.cross, remembered, if_neg again, w']
    have found : w'.graph.behavior h.target.node = .ok (wrap (own h.target.node)) :=
      Graph.behavior_eq_ok_iff.mpr (searching.behavior h.target.node n at_target spots)
    obtain ⟨v, out, worked, graph, crossings⟩ := work_of_quiet wrap quiet spots
      h.target.node args (w'.push (.signal h.target.node h.target.index h.source args))
    refine .inr ⟨v.push (.send ⟨h.target.node, 1⟩ out), out, ?_, ?_⟩
    · simp only [Wave.deliver, still, far, passed, found, hosted.onSignal, run_onSignal, worked]
    · exact searching.cross hop remembered again graph crossings

end Searches

/-! ### Putting searches together -/

section Compose

open SignalGraph.Graph

variable {h : Hop} {hs : List Hop} {ws ws' : List (List Hop)} {p : List Hop}

theorem mem_over_iff (first : Exhausts (g.Walk ⟨h.target.node, 1⟩) ws) :
    p ∈ [h] :: ws.map (h :: ·) ↔ g.WalkOver h p := by
  simp only [List.mem_cons, List.mem_map, WalkOver, first _, eq_comm, and_comm]

theorem Exhausts.cons (first : Exhausts (g.Walk ⟨h.target.node, 1⟩) ws)
    (others : Exhausts (fun p => ∃ h ∈ hs, g.WalkOver h p) ws') :
    Exhausts (fun p => ∃ h' ∈ h :: hs, g.WalkOver h' p) ([h] :: ws.map (h :: ·) ++ ws') := by
  intro p
  rw [List.mem_append, mem_over_iff first, others p]
  simp only [List.exists_mem_cons_iff]

variable (older : ∀ h' ∈ hs, h.link.index < h'.link.index)

include older

theorem reaches_hop : Reaches (fun p => ∃ h' ∈ h :: hs, g.WalkOver h' p) [] [h] := by
  refine ⟨⟨h, by simp, .inl rfl⟩, ?_⟩
  intro q
  simp only [List.not_mem_nil, List.exists_mem_cons_iff, false_iff, not_and]
  intro passes before
  obtain passes | ⟨h', mem, passes⟩ := passes
  · exact passes.not_precedes_singleton before
  · exact Precedes.irrefl q (before.trans (WalkOver.precedes (.inl rfl) passes (older h' mem)))

theorem Reaches.through (first : Reaches (g.Walk ⟨h.target.node, 1⟩) ws p) :
    Reaches (fun p => ∃ h' ∈ h :: hs, g.WalkOver h' p) ([h] :: ws.map (h :: ·)) (h :: p) := by
  have through : g.WalkOver h (h :: p) := .inr ⟨p, rfl, first.1⟩
  refine ⟨⟨h, by simp, through⟩, ?_⟩
  intro q
  simp only [List.mem_cons (a := q), List.mem_map, List.exists_mem_cons_iff]
  constructor
  · intro listed
    obtain rfl | ⟨r, mem, rfl⟩ := listed
    · exact ⟨.inl (.inl rfl), precedes_cons_iff.mpr (.inr ⟨rfl, nil_precedes first.1.ne_nil⟩)⟩
    · obtain ⟨walk, before⟩ := (first.2 r).mp mem
      exact ⟨.inl (.inr ⟨r, rfl, walk⟩), precedes_cons_iff.mpr (.inr ⟨rfl, before⟩)⟩
  · intro both
    obtain ⟨(rfl | ⟨r, rfl, walk⟩) | ⟨h', mem, passes⟩, before⟩ := both
    · exact .inl rfl
    · obtain less | ⟨_, before⟩ := precedes_cons_iff.mp before
      · exact absurd less (Nat.lt_irrefl _)
      · exact .inr ⟨r, (first.2 r).mpr ⟨walk, before⟩, rfl⟩
    · exact absurd (before.trans (through.precedes passes (older h' mem))) (Precedes.irrefl q)

theorem Reaches.cons (first : Exhausts (g.Walk ⟨h.target.node, 1⟩) ws)
    (later : Reaches (fun p => ∃ h ∈ hs, g.WalkOver h p) ws' p) :
    Reaches (fun p => ∃ h' ∈ h :: hs, g.WalkOver h' p) ([h] :: ws.map (h :: ·) ++ ws') p := by
  obtain ⟨h', mem, through⟩ := later.1
  refine ⟨⟨h', by simp [mem], through⟩, ?_⟩
  intro q
  rw [List.mem_append, mem_over_iff first, later.2 q]
  simp only [List.exists_mem_cons_iff]
  constructor
  · intro listed
    obtain passes | ⟨passes, before⟩ := listed
    · exact ⟨.inl passes, passes.precedes through (older h' mem)⟩
    · exact ⟨.inr passes, before⟩
  · intro both
    obtain ⟨passes | passes, before⟩ := both
    · exact .inl passes
    · exact .inr ⟨passes, before⟩

omit older

theorem map_lastLink?_over (done : List (Option LinkId)) (walks : ∀ p ∈ ws, p ≠ []) :
    done ++ ([h] :: ws.map (h :: ·)).map Hop.lastLink? =
      done ++ [some h.link] ++ ws.map Hop.lastLink? := by
  have same : ws.map (Hop.lastLink? ∘ (h :: ·)) = ws.map Hop.lastLink? :=
    List.map_congr_left fun p mem => Hop.lastLink?_append (walks p mem) [h]
  simp only [List.map_cons, List.map_map, List.append_assoc, List.singleton_append, same]
  rfl

include older

theorem Progress.Searched.failed {done : List (Option LinkId)} {cause : RunError} {v : Wave β}
    (first : Progress.Searched wrap own g (g.Walk ⟨h.target.node, 1⟩) (done ++ [some h.link])
      (some (.error cause), v)) :
    Progress.Searched wrap own g (fun p => ∃ h' ∈ h :: hs, g.WalkOver h' p) done
      (some (.error cause), v) := by
  obtain ⟨ws, p, h', n, reaches, nodup, old, at_end, report⟩ := first
  have walks (q : List Hop) (mem : q ∈ ws) : q ≠ [] := ((reaches.2 q).mp mem).1.ne_nil
  refine ⟨_, h :: p, h', n, reaches.through older, ?_, ?_, at_end, report⟩
  · rwa [map_lastLink?_over done walks]
  · rwa [map_lastLink?_over done walks]

/-- A search through all walks over the hop, and then through those over the newer links. -/
theorem Progress.Searched.cons {r : Progress β} {done : List (Option LinkId)}
    (first : Exhausts (g.Walk ⟨h.target.node, 1⟩) ws)
    (rest : r.Searched wrap own g (fun p => ∃ h ∈ hs, g.WalkOver h p)
      (done ++ [some h.link] ++ ws.map Hop.lastLink?)) :
    r.Searched wrap own g (fun p => ∃ h' ∈ h :: hs, g.WalkOver h' p) done := by
  have ends (ws' : List (List Hop)) :
      done ++ ([h] :: ws.map (h :: ·) ++ ws').map Hop.lastLink? =
        done ++ [some h.link] ++ ws.map Hop.lastLink? ++ ws'.map Hop.lastLink? := by
    rw [List.map_append, ← List.append_assoc,
      map_lastLink?_over done fun p mem => ((first p).mp mem).ne_nil]
  match r, rest with
  | (none, _), _ => exact trivial
  | (some (.ok ()), v), ⟨ws', exhausts, searching⟩ =>
      refine ⟨_, first.cons exhausts, ?_⟩
      rwa [ends]
  | (some (.error cause), _), ⟨ws', p, h', n, reaches, nodup, old, at_end, report⟩ =>
      refine ⟨_, p, h', n, reaches.cons older first, ?_, ?_, at_end, report⟩
      · rwa [ends]
      · rwa [ends]

end Compose

section Search

open SignalGraph.Graph Wave

variable [Behavior β]

def Searches (wrap : Builtin → β) (own : NodeKey → Builtin) (g : Graph β) (depth : Nat) : Prop :=
  ∀ source args done (w : Wave β), g.IsOut source → w.Searching wrap own g done →
    (propagate depth source args w).Searched wrap own g (g.Walk source) done

/-- Every node that a hop leads to is quiet, has an input and an output, and sends on. -/
structure Forwards (own : NodeKey → Builtin) (g : Graph β) : Prop where
  piped : g.Piped
  spots : ∀ h, g.IsHop h → (own h.target.node).spots = [inDecl, outDecl]
  quiet : ∀ h, g.IsHop h → (own h.target.node).Quiet

theorem Searches.deliverAll (hosted : Hosted wrap) (legal : g.Legal) (forwards : Forwards own g)
    {depth : Nat} (searches : Searches wrap own g depth) {source : SpotRef} (hs : List Hop)
    (hops : ∀ h ∈ hs, g.IsHop h ∧ h.source = source)
    (sorted : hs.Pairwise fun h h' => h.link.index < h'.link.index) (args : List Value)
    {done : List (Option LinkId)} {w : Wave β} (searching : w.Searching wrap own g done) :
    (Wave.deliverAll (propagate depth) source args (hs.map (·.link)) w).Searched wrap own g
      (fun p => ∃ h ∈ hs, g.WalkOver h p) done := by
  induction hs generalizing done w with
  | nil => exact ⟨[], by simp [Exhausts], by simpa using searching⟩
  | cons h hs ih =>
      obtain ⟨older, sorted⟩ := List.pairwise_cons.mp sorted
      obtain ⟨hop, rfl⟩ := hops h (by simp)
      obtain ⟨n, s, t, at_target, _⟩ := forwards.piped h hop
      simp only [List.map_cons, Wave.deliverAll]
      obtain ⟨old, delivered⟩ | ⟨v, out, delivered, searching'⟩ := searching.deliver hosted legal hop
        at_target (forwards.spots h hop) (forwards.quiet h hop) (propagate depth) args
      · rw [delivered]
        exact ⟨[], [], h, n, reaches_hop older, by simpa using searching.nodup, by simpa using old,
          at_target, rfl⟩
      rw [delivered]
      have first := searches ⟨h.target.node, 1⟩ out _ v (forwards.piped.isOut hop) searching'
      revert first
      obtain ⟨_ | cause | _, u⟩ := propagate depth ⟨h.target.node, 1⟩ out v
      · exact fun _ => trivial
      · exact fun first => first.failed older
      · intro first
        obtain ⟨ws, exhausts, searching''⟩ := first
        exact Progress.Searched.cons older exhausts
          (ih (fun h' mem => hops h' (by simp [mem])) sorted searching'')

theorem searches (hosted : Hosted wrap) (sound : g.Sound) (legal : g.Legal)
    (forwards : Forwards own g) (depth : Nat) : Searches wrap own g depth := by
  induction depth with
  | zero => exact fun _ _ _ _ _ _ => trivial
  | succ depth ih =>
      intro source args done w out searching
      have walks : (fun p => ∃ h ∈ g.hopsFrom source, g.WalkOver h p) = g.Walk source := by
        funext p
        exact propext (walk_iff_walkOver sound legal forwards.piped out).symm
      have all := ih.deliverAll hosted legal forwards (g.hopsFrom source)
        (fun h mem => (mem_hopsFrom_iff legal sound out).mp mem) (hopsFrom_sorted sound source) args
        searching
      obtain ⟨s, found, _⟩ := out
      have still : w.graph.spot source = .ok s := by
        rw [spot_eq_ok_iff, spot?_eq_of_shape searching.shape]
        exact found
      rw [map_link_hopsFrom sound found, walks] at all
      simp only [propagate, still]
      exact all

omit [Behavior β] in
theorem Progress.Searched.cases {start : SpotRef} {result : Except RunError Unit} {v : Wave β}
    (searched : Progress.Searched wrap own g (g.Walk start) [] (some result, v)) :
    (result = .ok () ∧ g.Untangled start) ∨
    ∃ p h n, g.FirstRepeat start (p ++ [h]) ∧ g.node? h.target.node = some n ∧
      result = .error (.cycle h.link n.id) := by
  match result, searched with
  | .ok (), ⟨ws, exhausts, searching⟩ =>
      refine .inl ⟨rfl, ?_⟩
      intro p q walk walk' same
      exact List.inj_on_of_nodup_map searching.nodup ((exhausts p).mpr walk) ((exhausts q).mpr walk')
        same
  | .error cause, ⟨ws, p, h, n, reaches, nodup, old, at_end, report⟩ =>
      refine .inr ⟨p, h, n, ?_, at_end, congrArg _ report⟩
      obtain ⟨q, mem, same⟩ := List.mem_map.mp old
      obtain ⟨walk, before⟩ := (reaches.2 q).mp mem
      refine ⟨reaches.1, ⟨q, walk, before, by rw [same, Hop.lastLink?_concat]⟩, ?_⟩
      -- Of two walks before this one that end by one link, the search would have ended at the second.
      intro r walk_r before_r repeats
      obtain ⟨r', walk_r', before_r', same_r⟩ := repeats
      obtain rfl := List.inj_on_of_nodup_map nodup
        ((reaches.2 r').mpr ⟨walk_r', before_r'.trans before_r⟩)
        ((reaches.2 r).mpr ⟨walk_r, before_r⟩) same_r
      exact Precedes.irrefl _ before_r'

end Search

namespace Instance

open SignalGraph.Graph Wave

theorem searching_start {i : Instance β} (sound : i.graph.Sound) (carries : i.graph.Carries wrap own)
    (single : i.graph.keysOfType .entry = [i.entry]) (guard : i.cycleGuard = true) :
    (i.begun wrap).Searching wrap own i.graph [] where
  shape := i.graph.shape_setBehavior i.entry _
  behavior _ _ found spots := behavior?_begun sound carries single found spots
  crossed := ⟨[], by simp [begun, wave, Wave.push, guard], by simp⟩
  nodup := List.nodup_nil

theorem eq_of_isOut_entry {i : Instance β} (sound : i.graph.Sound) (declared : i.graph.Declared wrap)
    (carries : i.graph.Carries wrap own) (single : i.graph.keysOfType .entry = [i.entry])
    {source : SpotRef} (out : i.graph.IsOut source) (on : source.node = i.entry) :
    source = ⟨i.entry, 0⟩ := by
  obtain ⟨begunBy, n, entry, found⟩ := entry_spots sound carries single
  obtain ⟨s, at_source, _⟩ := out
  obtain ⟨node, index⟩ := source
  obtain rfl : node = i.entry := on
  obtain ⟨m, same, at_index⟩ := spot?_eq_some_iff.mp at_source
  rw [found] at same
  cases same
  have one : n.spots.length = 1 := by
    have decls := carries.decls declared found
    rw [entry] at decls
    simpa [Builtin.spots] using congrArg List.length decls
  obtain ⟨inside, _⟩ := List.getElem?_eq_some_iff.mp at_index
  obtain rfl : index = 0 := by
    change index < n.spots.length at inside
    omega
  rfl

/-- What a begin under the guard comes to: success exactly where no link ends two walks from the entry,
and else a report of the first walk to end by the link of an earlier one. So every cycle that can be
reached is reported, and every two ways that meet at a node and go on from there. -/
structure Verdict (i : Instance β) (result : Except RunError Unit) : Prop where
  ok_iff : result = .ok () ↔ i.graph.Untangled ⟨i.entry, 0⟩
  first : result ≠ .ok () → ∃ p h n, i.graph.FirstRepeat ⟨i.entry, 0⟩ (p ++ [h]) ∧
    i.graph.node? h.target.node = some n ∧ result = .error (.cycle h.link n.id)
  cycle : ∀ key, Relation.ReflTransGen i.graph.Leads i.entry key →
    Relation.TransGen i.graph.Leads key key → ∃ link node, result = .error (.cycle link node)
  meet : ∀ p q h, i.graph.Walk ⟨i.entry, 0⟩ p → i.graph.Walk ⟨i.entry, 0⟩ q → p ≠ q →
    Hop.end? p = some h.source.node → Hop.end? q = some h.source.node → i.graph.IsHop h →
    ∃ link node, result = .error (.cycle link node)

theorem verdict_of_cases {i : Instance β} {result : Except RunError Unit}
    (leaves : ∀ source, i.graph.IsOut source → source.node = i.entry → source = ⟨i.entry, 0⟩)
    (cases : (result = .ok () ∧ i.graph.Untangled ⟨i.entry, 0⟩) ∨
      ∃ p h n, i.graph.FirstRepeat ⟨i.entry, 0⟩ (p ++ [h]) ∧
        i.graph.node? h.target.node = some n ∧ result = .error (.cycle h.link n.id)) :
    i.Verdict result := by
  have tangled (t : ¬ i.graph.Untangled ⟨i.entry, 0⟩) :
      ∃ link node, result = .error (.cycle link node) := by
    obtain ⟨_, untangled⟩ | ⟨_, h, n, _, _, report⟩ := cases
    · exact absurd untangled t
    · exact ⟨h.link, n.id, report⟩
  constructor
  case ok_iff =>
    obtain ⟨rfl, untangled⟩ | ⟨_, _, _, first, _, rfl⟩ := cases
    · exact ⟨fun _ => untangled, fun _ => rfl⟩
    · exact ⟨fun ok => (by cases ok), fun untangled => absurd untangled first.not_untangled⟩
  case first => exact fun failed => cases.resolve_left fun ok => failed ok.1
  case cycle =>
    intro key leads round
    obtain ⟨source, p, on, walk, at_key⟩ := exists_walk_of_transGen (round.trans_right leads)
    obtain ⟨back, q, rfl, again, comes_back⟩ := exists_walk_of_transGen round
    obtain rfl := leaves source walk.isOut on
    exact tangled (not_untangled_of_cycle walk again at_key comes_back)
  case meet =>
    intro p q h walk walk' differ at_p at_q hop
    exact tangled (not_untangled_of_meet walk walk' differ (at_p.trans at_q.symm) hop at_p)

variable [Behavior β]

/-- The first begin under the guard, where every node is of the library and never fails by itself,
searches the walks from the entry for one that crosses a link again. -/
theorem begin_searches_walks (hosted : Hosted wrap) {i : Instance β} (reach : i.graph.Reachable)
    (carries : i.graph.Carries wrap own) (single : i.graph.keysOfType .entry = [i.entry])
    (quiet : ∀ key n, i.graph.node? key = some n → (own key).Quiet) (guard : i.cycleGuard = true)
    (fresh : i.started = false) :
    ∃ result, (∀ depth, 2 * i.graph.linkCount < depth → (i.begin depth).1 = some result) ∧
      i.Verdict result := by
  have sound := reach.sound
  have legal := reach.legal
  have declared := reach.declared hosted
  have out := entry_isOut sound declared carries single
  have forwards : Forwards own i.graph := by
    refine ⟨carries.piped declared, fun h hop => carries.spots_of_isHop declared hop, ?_⟩
    intro h hop
    obtain ⟨n, _, _, found, _⟩ := carries.piped declared h hop
    exact quiet h.target.node n found
  obtain ⟨result, w, _, ends, _⟩ := contained_begin sound guard i.entry
  have begins (depth : Nat) (enough : 2 * i.graph.linkCount < depth) :
      (i.begin depth).1 = some result := by
    have start : ({ i with started := true } : Instance β).wave = i.wave := rfl
    simp only [Instance.begin, fresh, Bool.false_eq_true, if_false, start, conclude,
      ends depth enough]
  have searched := searches hosted sound legal forwards (2 * i.graph.linkCount + 1) _
    [.instanceRef i.id] [] (i.begun wrap) out (searching_start sound carries single guard)
  have ran : i.wave.begin (2 * i.graph.linkCount + 1) i.entry = (some result, w) :=
    ends _ (Nat.lt_succ_self _)
  rw [← wave_begin_eq hosted sound carries single, ran] at searched
  exact ⟨result, begins, verdict_of_cases
    (fun _ => eq_of_isOut_entry sound declared carries single) searched.cases⟩

def rejoining : Graph Builtin :=
  let nodes := (((Graph.empty "rejoining").addNode "start" "Start" .entry (.entry none)).2.1.addNode
    "left" "Left" .console .console).2.1.addNode "right" "Right" .console .console
  let nodes := (nodes.2.1.addNode "join" "Join" .console .console).2.1.addNode "last" "Last" .console
    .console
  ((((nodes.2.1.link ⟨⟨0⟩, 0⟩ ⟨⟨1⟩, 0⟩).2.link ⟨⟨0⟩, 0⟩ ⟨⟨2⟩, 0⟩).2.link ⟨⟨1⟩, 1⟩ ⟨⟨3⟩, 0⟩).2.link
    ⟨⟨2⟩, 1⟩ ⟨⟨3⟩, 0⟩).2.link ⟨⟨3⟩, 1⟩ ⟨⟨4⟩, 0⟩ |>.2

theorem reachable_rejoining : rejoining.Reachable := by
  have nodes := (((((Graph.Reachable.empty "rejoining").change
    (.addNode "start" "Start" .entry (Builtin.entry none))).change
    (.addNode "left" "Left" .console .console)).change
    (.addNode "right" "Right" .console .console)).change
    (.addNode "join" "Join" .console .console)).change (.addNode "last" "Last" .console .console)
  exact ((((nodes.change (.link ⟨⟨0⟩, 0⟩ ⟨⟨1⟩, 0⟩)).change (.link ⟨⟨0⟩, 0⟩ ⟨⟨2⟩, 0⟩)).change
    (.link ⟨⟨1⟩, 1⟩ ⟨⟨3⟩, 0⟩)).change (.link ⟨⟨2⟩, 1⟩ ⟨⟨3⟩, 0⟩)).change (.link ⟨⟨3⟩, 1⟩ ⟨⟨4⟩, 0⟩)

/-- No cycle is in this graph, but two ways meet, and the link behind them is reported. -/
theorem begin_reports_rejoining :
    let i : Instance Builtin := ⟨⟨0⟩, rejoining, .initial, .collector, ⟨0⟩, false, true⟩
    (∀ depth, 10 < depth → (i.begin depth).1 = some (.error (.cycle ⟨4⟩ "last"))) ∧
      ¬ rejoining.Untangled ⟨⟨0⟩, 0⟩ := by
  intro i
  have quiet (key : NodeKey) (n : Node) (found : rejoining.node? key = some n) :
      (rejoining.ownBehavior key).Quiet := by
    obtain ⟨s, at_key, _⟩ := Option.map_eq_some_iff.mp found
    have all : ∀ s ∈ rejoining.slots.filterMap (fun s => s), s.behavior.Quiet := by decide
    rw [Graph.ownBehavior, Graph.behavior?, at_key]
    exact all s (List.mem_filterMap.mpr
      ⟨some s, List.mem_of_getElem? (Option.join_eq_some_iff.mp at_key), rfl⟩)
  obtain ⟨result, begins, verdict⟩ := begin_searches_walks hosted_id (i := i) reachable_rejoining
    (Graph.carries_ownBehavior (by decide)) (by decide) quiet rfl rfl
  have ran : (i.begin 11).1 = some (.error (.cycle ⟨4⟩ "last")) := by decide +kernel
  obtain rfl := Option.some.inj ((begins 11 (by decide)).symm.trans ran)
  exact ⟨fun depth enough => begins depth enough, mt verdict.ok_iff.mpr (by simp)⟩

end Instance
end SignalGraph
