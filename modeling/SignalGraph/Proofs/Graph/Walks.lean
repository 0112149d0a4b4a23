import Mathlib.Logic.Relation
import SignalGraph.Proofs.Graph.Legal

/-!
Walks along links, from their outputs to their inputs. All walks from a spot are listed depth first; the
listing is complete up to a length and in the order of the links' creation. Where no cycle can be reached
a walk visits no node twice, which bounds its length.
-/

namespace SignalGraph

structure Hop where
  link : LinkId
  source : SpotRef
  target : SpotRef
deriving DecidableEq

namespace Graph

open LinkArena

variable {β : Type} {g : Graph β}

def IsOut (g : Graph β) (ref : SpotRef) : Prop :=
  ∃ s, g.spot? ref = some s ∧ s.direction = .output

structure IsHop (g : Graph β) (h : Hop) : Prop where
  link : ∃ l, g.link? h.link = some l ∧
    (l.a = h.source ∧ l.b = h.target ∨ l.b = h.source ∧ l.a = h.target)
  out : g.IsOut h.source
  into : ∃ t, g.spot? h.target = some t ∧ t.direction = .input

/-- The walks that leave a spot: one hop or more, each from a spot of the node that the one before
leads to. -/
inductive Walk (g : Graph β) : SpotRef → List Hop → Prop
  | last {h : Hop} (hop : g.IsHop h) : Walk g h.source [h]
  | cons {h : Hop} {next : SpotRef} {p : List Hop} (hop : g.IsHop h)
      (on : next.node = h.target.node) (rest : Walk g next p) : Walk g h.source (h :: p)

def Leads (g : Graph β) (source target : NodeKey) : Prop :=
  ∃ h, g.IsHop h ∧ h.source.node = source ∧ h.target.node = target

/-- No node that can be reached lies on a cycle. -/
def AcyclicFrom (g : Graph β) (start : NodeKey) : Prop :=
  ∀ key, Relation.ReflTransGen g.Leads start key → ¬ Relation.TransGen g.Leads key key

theorem farEnd_of_isHop (legal : g.Legal) {h : Hop} (hop : g.IsHop h) :
    ∃ l, g.link? h.link = some l ∧ l.farEnd h.source = .ok h.target := by
  obtain ⟨l, live, ends⟩ := hop.link
  refine ⟨l, live, ?_⟩
  obtain ⟨first, second⟩ | ⟨second, first⟩ := ends
  · rw [Link.farEnd, if_pos first.symm, second]
  · have mem : l ∈ LinkArena.live g.links := List.mem_filterMap.mpr
      ⟨some l, List.mem_of_getElem? (link?_eq_some_iff.mp live), rfl⟩
    obtain ⟨s, t, at_a, at_b, differ, _⟩ := legal.joins l mem
    have apart : h.source ≠ l.a := by
      intro same
      rw [← same, ← second, at_b] at at_a
      cases at_a
      exact differ rfl
    rw [Link.farEnd, if_neg apart, if_pos second.symm, first]

/-! ### The hops from a spot -/

def hop? (g : Graph β) (source : SpotRef) (id : LinkId) : Option Hop :=
  match g.link? id with
  | none => none
  | some l =>
    match l.farEnd source with
    | .error _ => none
    | .ok target => some ⟨id, source, target⟩

def hopsFrom (g : Graph β) (source : SpotRef) : List Hop :=
  match g.spot? source with
  | none => []
  | some s => s.links.filterMap (g.hop? source)

theorem isHop_of_hop? (legal : g.Legal) {source : SpotRef} {id : LinkId} {h : Hop}
    (out : g.IsOut source) (found : g.hop? source id = some h) :
    g.IsHop h ∧ h.source = source ∧ h.link = id := by
  simp only [hop?] at found
  split at found
  · cases found
  next l live =>
  split at found
  · cases found
  next target far =>
  cases found
  obtain ⟨s, t, at_a, at_b, differ, _⟩ := legal.joins l (mem_live_of_link? live)
  obtain ⟨u, at_source, output⟩ := out
  refine ⟨⟨⟨l, live, ?_⟩, ⟨u, at_source, output⟩, ?_⟩, rfl, rfl⟩
  all_goals obtain ⟨rfl, rfl⟩ | ⟨rfl, rfl⟩ := Link.ends_of_farEnd far
  · exact .inl ⟨rfl, rfl⟩
  · exact .inr ⟨rfl, rfl⟩
  · rw [at_a] at at_source
    cases at_source
    refine ⟨t, at_b, ?_⟩
    cases direction : t.direction with
    | input => rfl
    | output => exact absurd (output.trans direction.symm) differ
  · rw [at_b] at at_source
    cases at_source
    refine ⟨s, at_a, ?_⟩
    cases direction : s.direction with
    | input => rfl
    | output => exact absurd (direction.trans output.symm) differ

theorem hop?_of_isHop (legal : g.Legal) {h : Hop} (hop : g.IsHop h) :
    g.hop? h.source h.link = some h := by
  obtain ⟨l, live, far⟩ := farEnd_of_isHop legal hop
  simp only [hop?, live, far]

theorem map_link_hopsFrom (sound : g.Sound) {source : SpotRef} {s : Spot}
    (found : g.spot? source = some s) : (g.hopsFrom source).map (·.link) = s.links := by
  have hops (id : LinkId) (mem : id ∈ s.links) :
      (g.hop? source id).map (·.link) = some id := by
    rw [sound.wired source s found, mem_touching_iff sound.numbered] at mem
    obtain ⟨l, at_id, touches⟩ := mem
    have live : g.link? id = some l := link?_eq_some_iff.mpr at_id
    obtain ⟨target, far⟩ := Link.farEnd_of_touches touches
    simp only [hop?, live, far, Option.map_some]
  simp only [hopsFrom, found]
  rw [List.map_filterMap, List.filterMap_congr hops, List.filterMap_some]

theorem mem_hopsFrom_iff (legal : g.Legal) (sound : g.Sound) {source : SpotRef} {h : Hop}
    (out : g.IsOut source) : h ∈ g.hopsFrom source ↔ g.IsHop h ∧ h.source = source := by
  obtain ⟨s, found, output⟩ := out
  simp only [hopsFrom, found, List.mem_filterMap]
  constructor
  · intro listed
    obtain ⟨id, _, at_id⟩ := listed
    obtain ⟨hop, source, _⟩ := isHop_of_hop? legal ⟨s, found, output⟩ at_id
    exact ⟨hop, source⟩
  · intro both
    obtain ⟨hop, rfl⟩ := both
    refine ⟨h.link, ?_, hop?_of_isHop legal hop⟩
    obtain ⟨l, live, ends⟩ := hop.link
    rw [sound.wired h.source s found, mem_touching_iff sound.numbered]
    refine ⟨l, link?_eq_some_iff.mp live, Link.touches_iff.mpr ?_⟩
    obtain ⟨first, _⟩ | ⟨second, _⟩ := ends
    · exact .inl first.symm
    · exact .inr second.symm

theorem hopsFrom_sorted (sound : g.Sound) (source : SpotRef) :
    (g.hopsFrom source).Pairwise fun h h' => h.link.index < h'.link.index := by
  cases found : g.spot? source with
  | none => simp [hopsFrom, found]
  | some s =>
      have sorted := touching_sorted sound.numbered source
      rw [← sound.wired source s found, ← map_link_hopsFrom sound found, List.pairwise_map] at sorted
      exact sorted

/-! ### The listing of walks -/

/-- Every node that a hop leads to has an input and, behind it, an output. -/
def Piped (g : Graph β) : Prop :=
  ∀ h, g.IsHop h → ∃ n s t, g.node? h.target.node = some n ∧ n.spots = [s, t] ∧
    s.direction = .input ∧ t.direction = .output

theorem Piped.isOut (piped : g.Piped) {h : Hop} (hop : g.IsHop h) :
    g.IsOut ⟨h.target.node, 1⟩ := by
  obtain ⟨n, s, t, found, spots, _, output⟩ := piped h hop
  exact ⟨t, spot?_eq_some_iff.mpr ⟨n, found, by simp [spots]⟩, output⟩

theorem Piped.eq_of_isOut (piped : g.Piped) {h : Hop} (hop : g.IsHop h) {next : SpotRef}
    (on : next.node = h.target.node) (out : g.IsOut next) : next = ⟨h.target.node, 1⟩ := by
  obtain ⟨n, s, t, found, spots, input, output⟩ := piped h hop
  obtain ⟨u, at_next, direction⟩ := out
  obtain ⟨node, index⟩ := next
  obtain rfl : node = h.target.node := on
  obtain ⟨m, same, at_index⟩ := spot?_eq_some_iff.mp at_next
  rw [found] at same
  cases same
  simp only [spots] at at_index
  match index with
  | 0 =>
      cases at_index
      rw [input] at direction
      cases direction
  | 1 => rfl
  | _ + 2 => simp at at_index

def walksFrom (g : Graph β) : (n : Nat) → SpotRef → List (List Hop)
  | 0, _ => []
  | n + 1, source => (g.hopsFrom source).flatMap fun h =>
      [h] :: (walksFrom g n ⟨h.target.node, 1⟩).map (h :: ·)

def branch (g : Graph β) (n : Nat) (h : Hop) : List (List Hop) :=
  [h] :: (g.walksFrom n ⟨h.target.node, 1⟩).map (h :: ·)

theorem Walk.isOut {source : SpotRef} {p : List Hop} (walk : g.Walk source p) : g.IsOut source := by
  cases walk with
  | last hop => exact hop.out
  | cons hop _ _ => exact hop.out

theorem mem_walksFrom_iff (sound : g.Sound) (legal : g.Legal) (piped : g.Piped) {n : Nat}
    {source : SpotRef} (out : g.IsOut source) {p : List Hop} :
    p ∈ g.walksFrom n source ↔ g.Walk source p ∧ p.length ≤ n := by
  induction n generalizing source p with
  | zero =>
      simp only [walksFrom, List.not_mem_nil, false_iff, not_and]
      intro walk
      cases walk <;> simp
  | succ n ih =>
      simp only [walksFrom, List.mem_flatMap, mem_hopsFrom_iff legal sound out, List.mem_cons,
        List.mem_map]
      constructor
      · intro listed
        obtain ⟨h, ⟨hop, rfl⟩, rfl | ⟨q, deeper, rfl⟩⟩ := listed
        · exact ⟨.last hop, by simp⟩
        · obtain ⟨walk, short⟩ := (ih (piped.isOut hop)).mp deeper
          have on : (SpotRef.mk h.target.node 1).node = h.target.node := rfl
          exact ⟨.cons hop on walk, by simpa using short⟩
      · intro both
        obtain ⟨walk, short⟩ := both
        cases walk with
        | @last h hop => exact ⟨h, ⟨hop, rfl⟩, .inl rfl⟩
        | @cons h next q hop on rest =>
            obtain rfl := piped.eq_of_isOut hop on rest.isOut
            exact ⟨h, ⟨hop, rfl⟩, .inr ⟨q, (ih rest.isOut).mpr ⟨rest, by simpa using short⟩, rfl⟩⟩

/-- The depth-first order: a walk comes before those that go on from it, and of two that part, the
one over the older link comes first. -/
def Precedes (p q : List Hop) : Prop := p.map (·.link.index) < q.map (·.link.index)

theorem walksFrom_sorted (sound : g.Sound) (n : Nat) (source : SpotRef) :
    (g.walksFrom n source).Pairwise Precedes := by
  have cons_iff (h : Hop) (p q : List Hop) : Precedes (h :: p) (h :: q) ↔ Precedes p q := by
    simp [Precedes]
  induction n generalizing source with
  | zero => exact .nil
  | succ n ih =>
      rw [walksFrom, List.pairwise_flatMap]
      constructor
      · intro h _
        rw [List.pairwise_cons, List.pairwise_map]
        refine ⟨?_, (ih _).imp (cons_iff h _ _).mpr⟩
        intro q later
        obtain ⟨p, mem, rfl⟩ := List.mem_map.mp later
        rw [cons_iff]
        cases n with
        | zero => simp [walksFrom] at mem
        | succ n =>
            simp only [walksFrom, List.mem_flatMap, List.mem_cons, List.mem_map] at mem
            obtain ⟨h', _, rfl | ⟨r, _, rfl⟩⟩ := mem <;> exact List.nil_lt_cons _ _
      · refine (hopsFrom_sorted sound source).imp ?_
        intro h h' older p first q second
        have starts {h : Hop} {p : List Hop}
            (mem : p ∈ [h] :: (g.walksFrom n ⟨h.target.node, 1⟩).map (h :: ·)) :
            ∃ q, p = h :: q := by
          obtain rfl | ⟨q, _, rfl⟩ := by simpa using mem
          · exact ⟨[], rfl⟩
          · exact ⟨q, rfl⟩
        obtain ⟨p, rfl⟩ := starts first
        obtain ⟨q, rfl⟩ := starts second
        exact List.cons_lt_cons_iff.mpr (.inl older)

theorem nodup_of_precedes {ws : List (List Hop)} (sorted : ws.Pairwise Precedes) : ws.Nodup := by
  refine sorted.imp ?_
  intro p q before same
  rw [same] at before
  exact List.lt_irrefl _ before

/-! ### Without a cycle -/

theorem Walk.chain {source : SpotRef} {p : List Hop} (walk : g.Walk source p) :
    (source.node :: p.map (·.target.node)).IsChain g.Leads := by
  induction walk with
  | last hop => exact .cons_cons ⟨_, hop, rfl, rfl⟩ (.singleton _)
  | cons hop on rest ih =>
      rw [on] at ih
      exact .cons_cons ⟨_, hop, rfl, rfl⟩ ih

theorem Walk.isHop {source : SpotRef} {p : List Hop} (walk : g.Walk source p) :
    ∀ h ∈ p, g.IsHop h := by
  induction walk with
  | last hop => simpa using hop
  | cons hop _ _ ih => simpa using ⟨hop, ih⟩

theorem Walk.targets_nodup {source : SpotRef} {p : List Hop} (walk : g.Walk source p)
    (acyclic : g.AcyclicFrom source.node) : (p.map (·.target.node)).Nodup := by
  have far : (source.node :: p.map (·.target.node)).Pairwise (Relation.TransGen g.Leads) :=
    (walk.chain.imp fun _ _ => Relation.TransGen.single).pairwise
  obtain ⟨reached, onward⟩ := List.pairwise_cons.mp far
  refine onward.imp_of_mem ?_
  intro key key' mem _ trip same
  subst same
  exact acyclic key (reached key mem).to_reflTransGen trip

/-- Where no cycle can be reached, a walk has at most one hop for each node. -/
theorem Walk.length_le {source : SpotRef} {p : List Hop} (walk : g.Walk source p)
    (acyclic : g.AcyclicFrom source.node) : p.length ≤ g.slots.length := by
  have distinct : ((p.map (·.target.node)).map (·.index)).Nodup := by
    refine (walk.targets_nodup acyclic).map ?_
    intro key key' same
    cases key
    cases key'
    simp_all
  have bound : (p.map (·.target.node)).map (·.index) ⊆ List.range g.slots.length := by
    intro i mem
    rw [List.map_map, List.mem_map] at mem
    obtain ⟨h, on, rfl⟩ := mem
    obtain ⟨t, found, _⟩ := (walk.isHop h on).into
    exact List.mem_range.mpr (lt_length_of_spot? found)
  simpa using List.Nodup.length_le_of_subset distinct bound

theorem acyclicFrom_of_forward
    (forward : ∀ l ∈ live g.links, l.a.node.index < l.b.node.index ∧
      (g.spot? l.b).map (·.direction) = some .input) (start : NodeKey) : g.AcyclicFrom start := by
  have up {key key' : NodeKey} (leads : g.Leads key key') : key.index < key'.index := by
    obtain ⟨h, hop, rfl, rfl⟩ := leads
    obtain ⟨l, live, ends⟩ := hop.link
    obtain ⟨later, input⟩ := forward l (mem_live_of_link? live)
    obtain ⟨first, second⟩ | ⟨second, first⟩ := ends
    · rw [← first, ← second]
      exact later
    · obtain ⟨s, found, output⟩ := hop.out
      rw [second, found, Option.map_some, output] at input
      cases input
  intro key _ trip
  have far {key key' : NodeKey} (leads : Relation.TransGen g.Leads key key') :
      key.index < key'.index := by
    induction leads with
    | single leads => exact up leads
    | tail _ leads ih => exact Nat.lt_trans ih (up leads)
  exact Nat.lt_irrefl _ (far trip)

end Graph
end SignalGraph
