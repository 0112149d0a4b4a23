import SignalGraph.Proofs.Builtin.Delivery

/-!
Walks that end by one link. A spot is tangled if two walks from it do, as happens behind every cycle and
behind every two ways that meet. Walks are compared depth first, by which one is first; nothing here says
that a tangled spot has a first such walk.
-/

namespace SignalGraph

def Hop.lastLink? (p : List Hop) : Option LinkId := p.getLast?.map (·.link)

namespace Hop

@[simp]
theorem lastLink?_concat (p : List Hop) (h : Hop) : lastLink? (p ++ [h]) = some h.link := by
  simp [lastLink?]

theorem lastLink?_append {q : List Hop} (some_hop : q ≠ []) (p : List Hop) :
    lastLink? (p ++ q) = lastLink? q := by
  rw [lastLink?, List.getLast?_append_of_ne_nil p some_hop, lastLink?]

theorem end?_append {q : List Hop} (some_hop : q ≠ []) (p : List Hop) :
    Hop.end? (p ++ q) = Hop.end? q := by
  rw [end?, List.getLast?_append_of_ne_nil p some_hop, end?]

end Hop

namespace Graph

variable {β : Type} {g : Graph β}

/-! ### The depth-first order -/

theorem precedes_cons_iff {h h' : Hop} {p q : List Hop} :
    Precedes (h :: p) (h' :: q) ↔
      h.link.index < h'.link.index ∨ h.link.index = h'.link.index ∧ Precedes p q := by
  simp only [Precedes, List.map_cons, List.cons_lt_cons_iff]

theorem not_precedes_nil (p : List Hop) : ¬ Precedes p [] := by
  simp [Precedes]

theorem nil_precedes {q : List Hop} (some_hop : q ≠ []) : Precedes [] q := by
  cases q with
  | nil => exact absurd rfl some_hop
  | cons h q => exact List.nil_lt_cons _ _

theorem Precedes.irrefl (p : List Hop) : ¬ Precedes p p := List.lt_irrefl _

theorem Precedes.trans {p q r : List Hop} (first : Precedes p q) (second : Precedes q r) :
    Precedes p r :=
  List.lt_trans first second

/-! ### Walks that go on -/

theorem Walk.ne_nil {source : SpotRef} {p : List Hop} (walk : g.Walk source p) : p ≠ [] := by
  cases walk <;> simp

theorem Walk.append {source next : SpotRef} {p q : List Hop} (walk : g.Walk source p)
    (on : Hop.end? p = some next.node) (rest : g.Walk next q) : g.Walk source (p ++ q) := by
  induction walk with
  | last hop => exact .cons hop (Option.some.inj on).symm rest
  | @cons h next' p hop on' walk ih =>
      have ends : Hop.end? (h :: p) = Hop.end? p := Hop.end?_append walk.ne_nil [h]
      exact .cons hop on' (ih (ends ▸ on))

theorem exists_walk_of_transGen {source target : NodeKey}
    (leads : Relation.TransGen g.Leads source target) :
    ∃ start p, start.node = source ∧ g.Walk start p ∧ Hop.end? p = some target := by
  induction leads with
  | single step =>
      obtain ⟨h, hop, rfl, rfl⟩ := step
      exact ⟨h.source, [h], rfl, .last hop, rfl⟩
  | tail _ step ih =>
      obtain ⟨start, p, rfl, walk, ends⟩ := ih
      obtain ⟨h, hop, rfl, rfl⟩ := step
      exact ⟨start, p ++ [h], rfl, walk.append ends (.last hop), Hop.end?_concat p h⟩

theorem IsHop.eq_of_link {h h' : Hop} (hop : g.IsHop h) (hop' : g.IsHop h')
    (same : h.link = h'.link) : h = h' := by
  obtain ⟨l, live, ends⟩ := hop.link
  obtain ⟨l', live', ends'⟩ := hop'.link
  rw [← same, live] at live'
  cases live'
  -- A spot that is an output for one hop is no input for the other.
  have apart {ref : SpotRef} (out : g.IsOut ref)
      (into : ∃ t, g.spot? ref = some t ∧ t.direction = .input) : False := by
    obtain ⟨s, found, output⟩ := out
    obtain ⟨t, found', input⟩ := into
    rw [found] at found'
    cases found'
    rw [output] at input
    cases input
  cases h
  cases h'
  obtain ⟨rfl, rfl⟩ | ⟨rfl, rfl⟩ := ends <;> obtain ⟨rfl, rfl⟩ | ⟨rfl, rfl⟩ := ends'
  · cases same
    rfl
  · exact (apart hop.out hop'.into).elim
  · exact (apart hop.out hop'.into).elim
  · cases same
    rfl

/-! ### Tangles -/

/-- No link ends two walks from the spot. -/
def Untangled (g : Graph β) (start : SpotRef) : Prop :=
  ∀ p q, g.Walk start p → g.Walk start q → Hop.lastLink? p = Hop.lastLink? q → p = q

/-- The walk ends by a link by which an earlier one ends. -/
def Repeats (g : Graph β) (start : SpotRef) (p : List Hop) : Prop :=
  ∃ q, g.Walk start q ∧ Precedes q p ∧ Hop.lastLink? q = Hop.lastLink? p

/-- The walk is the first one, depth first, to end by a link by which an earlier one ends. -/
structure FirstRepeat (g : Graph β) (start : SpotRef) (p : List Hop) : Prop where
  walk : g.Walk start p
  repeats : g.Repeats start p
  first : ∀ q, g.Walk start q → Precedes q p → ¬ g.Repeats start q

theorem FirstRepeat.not_untangled {start : SpotRef} {p : List Hop} (first : g.FirstRepeat start p) :
    ¬ g.Untangled start := by
  intro untangled
  obtain ⟨q, walk, before, same⟩ := first.repeats
  obtain rfl := untangled q p walk first.walk same
  exact Precedes.irrefl q before

theorem not_untangled_of_meet {start : SpotRef} {p q : List Hop} {h : Hop} (first : g.Walk start p)
    (second : g.Walk start q) (differ : p ≠ q) (meet : Hop.end? p = Hop.end? q)
    (hop : g.IsHop h) (on : Hop.end? p = some h.source.node) : ¬ g.Untangled start := by
  intro untangled
  have same := untangled (p ++ [h]) (q ++ [h]) (first.append on (.last hop))
    (second.append (meet ▸ on) (.last hop)) (by simp)
  exact differ (List.append_cancel_right same)

theorem not_untangled_of_cycle {start back : SpotRef} {p q : List Hop} (walk : g.Walk start p)
    (round : g.Walk back q) (on : Hop.end? p = some back.node)
    (comes_back : Hop.end? q = some back.node) : ¬ g.Untangled start := by
  intro untangled
  have once := walk.append on round
  have twice := walk.append on (round.append comes_back round)
  have same := untangled (p ++ q) (p ++ (q ++ q)) once twice (by
    rw [Hop.lastLink?_append round.ne_nil, Hop.lastLink?_append (by simp [round.ne_nil]),
      Hop.lastLink?_append round.ne_nil])
  have length := congrArg List.length same
  have some_hop := List.length_pos_iff.mpr round.ne_nil
  simp only [List.length_append] at length
  omega

end Graph
end SignalGraph
