import SignalGraph.Proofs.Builtin.Objections
import SignalGraph.Proofs.Graph.Handles
import SignalGraph.Proofs.Wave.Stopping

/-!
Why begins, ticks and signals fail in reachable graphs of the library's nodes: because the host names a spot
that is not there, or has removed the entry before the begin, or for a reason that is still to be seen in
the graph and the record. Calls that an instance refuses are left out, and so is what a host's own nodes do.
-/

namespace SignalGraph

open Builtin

variable {β : Type}

theorem Graph.Reachable.stocked [Behavior β] {wrap : Builtin → β} {own : NodeKey → Builtin} {g : Graph β}
    (reach : g.Reachable) (hosted : Hosted wrap) (carries : g.Carries wrap own) : g.Stocked where
  sound := reach.sound
  decls key n b found typed := by
    obtain ⟨s, at_key, rfl⟩ := Option.map_eq_some_iff.mp found
    rw [carries.decls (reach.declared hosted) found]
    exact spots_of_type ((carries key s at_key).2.symm.trans typed.symm)

theorem Graph.Carries.furnished {wrap : Builtin → β} {own : NodeKey → Builtin} {g : Graph β}
    (carries : g.Carries wrap own) : g.Furnished wrap g where
  shape := rfl
  behavior key n found := by
    obtain ⟨s, at_key, rfl⟩ := Option.map_eq_some_iff.mp found
    obtain ⟨behaves, typed⟩ := carries key s at_key
    exact ⟨own key, by rw [behavior?, at_key, Option.map_some, behaves], typed.symm⟩

namespace Instance

variable {wrap : Builtin → β} {g : Graph β} {i : Instance β}

theorem guards_wave (g : Graph β) (i : Instance β) : i.wave.Guards i.cycleGuard g where
  on_iff := by
    rw [wave]
    cases i.cycleGuard <;> rfl
  called crossed on id source mem := by
    have none_yet : crossed = [] := by
      rw [wave] at on
      split at on <;> cases on
      rfl
    rw [none_yet] at mem
    cases mem

/-- What a host names that is not there: the entry, if it was removed before the begin, or the spot that
is signalled. -/
def Lacks (i : Instance β) : Stimulus → GraphError → Prop
  | .begin, cause => i.graph.node? i.entry = none ∧ cause = .deadNode i.entry
  | .tick _, _ => False
  | .signal spot _, cause => i.graph.node? spot.node = none ∧ cause = .deadNode spot.node ∨
    ∃ n, i.graph.node? spot.node = some n ∧ n.spots.length ≤ spot.index ∧
      cause = .spotIndexOutOfRange spot.index n.spots.length

variable [Behavior β]

def FireFinds (depth : Nat) : List NodeKey → Instance β → Prop
  | [], _ => True
  | key :: rest, i =>
    i.wave.BeginFinds depth key ∧
      match i.conclude (i.wave.begin depth key) with
      | (some (.ok ()), j, _) => j.FireFinds depth rest
      | _ => True

/-- All is there that is looked for during a call that is not refused. -/
def Finds (depth : Nat) (i : Instance β) : Stimulus → Prop
  | .begin => ({ i with started := true } : Instance β).wave.BeginFinds depth i.entry
  | .tick delta =>
    let i := { i with state := i.state.advance delta }
    i.FireFinds depth (i.graph.keysOfType .update)
  | .signal spot args => i.wave.PropagateFinds depth spot args

theorem fire_answers (hosted : Hosted wrap) (stocked : g.Stocked) (depth : Nat) (keys : List NodeKey)
    (live : ∀ key ∈ keys, ∃ n, g.node? key = some n) (furnished : g.Furnished wrap i.graph) :
    i.FireFinds depth keys ∧ ∀ cause, (i.fire depth keys).1 = some (.error cause) →
      Objection wrap i.cycleGuard (i.fire depth keys).2.1.graph (i.fire depth keys).2.2 cause := by
  induction keys generalizing i with
  | nil => exact ⟨trivial, fun _ failed => by cases failed⟩
  | cons key keys ih =>
      obtain ⟨n, found⟩ := live key (by simp)
      have first := Wave.begin_answers (w := i.wave) hosted stocked depth found furnished
        (guards_wave _ i)
      simp only [fire, FireFinds]
      rcases began : i.wave.begin depth key with ⟨_ | cause | u, w⟩ <;> rw [began] at first
      · exact ⟨⟨first.finds, trivial⟩, first.objects⟩
      · exact ⟨⟨first.finds, trivial⟩, first.objects⟩
      · obtain ⟨finds, objects⟩ :=
          ih (i := i.settle w) (fun key mem => live key (by simp [mem])) first.furnished
        refine ⟨⟨first.finds, finds⟩, ?_⟩
        exact fun cause failed => (objects cause failed).append w.record.toList

theorem respond_answers (hosted : Hosted wrap) (stocked : i.graph.Stocked)
    (furnished : i.graph.Furnished wrap i.graph) {s : Stimulus} (admitted : i.Admits s)
    (there : ∀ cause, ¬ i.Lacks s cause) (depth : Nat) :
    i.Finds depth s ∧ ∀ cause, (i.respond depth s).1 = some (.error cause) →
      Objection wrap i.cycleGuard (i.respond depth s).2.1.graph (i.respond depth s).2.2 cause := by
  cases s with
  | begin =>
      have fresh : i.started = false := admitted
      obtain ⟨n, found⟩ : ∃ n, i.graph.node? i.entry = some n := by
        rw [← Option.ne_none_iff_exists']
        exact fun dead => there _ ⟨dead, rfl⟩
      have answers := Wave.begin_answers (w := ({ i with started := true } : Instance β).wave) hosted
        stocked depth found furnished (guards_wave _ _)
      simp only [respond, begin, fresh]
      exact ⟨answers.finds, answers.objects⟩
  | tick delta =>
      have begun : i.started = true := admitted
      have live (key : NodeKey) (mem : key ∈ i.graph.keysOfType .update) :
          ∃ n, i.graph.node? key = some n := by
        obtain ⟨n, found, _⟩ := (Graph.mem_keysOfType_iff stocked.sound).mp mem
        exact ⟨n, found⟩
      have responds : i.respond depth (.tick delta) =
          Instance.fire depth (i.graph.keysOfType .update)
            { i with state := i.state.advance delta } := if_pos begun
      rw [responds]
      exact fire_answers (i := { i with state := i.state.advance delta }) hosted stocked depth _ live
        furnished
  | signal spot args =>
      have here : (i.graph.spot? spot).isSome := by
        cases found : i.graph.spot spot with
        | error cause => exact absurd (Graph.spot_eq_error_iff.mp found) (there cause)
        | ok s => rw [Graph.spot_eq_ok_iff.mp found, Option.isSome_some]
      have answers := Wave.propagate_serves hosted stocked depth spot args i.wave here furnished
        (guards_wave _ i)
      exact ⟨answers.finds, answers.objects⟩

theorem fails_of_lacks (sound : i.graph.Sound) {s : Stimulus} (admitted : i.Admits s)
    {cause : GraphError} (lacks : i.Lacks s cause) (depth : Nat) :
    (i.respond (depth + 1) s).1 = some (.error (.graph cause)) := by
  cases s with
  | begin =>
      obtain ⟨dead, rfl⟩ := lacks
      simp only [respond, begin_of_nodeGone admitted (Graph.nodeGone_of_dead sound dead)]
  | tick delta => exact lacks.elim
  | signal spot args =>
      simp only [respond, signal_of_missing (Graph.spot_eq_error_iff.mpr lacks)]

structure FailsForAReason (wrap : Builtin → β) (i : Instance β) (s : Stimulus) : Prop where
  /-- A look-up fails for the host's own mistake, and then it does. -/
  missing : ∀ depth, 0 < depth → ∀ cause,
    (i.respond depth s).1 = some (.error (.graph cause)) ↔ i.Lacks s cause
  others : (∀ cause, ¬ i.Lacks s cause) → ∀ depth cause j events,
    i.respond depth s = (some (.error cause), j, events) →
      Objection wrap i.cycleGuard j.graph events cause
  finds : (∀ cause, ¬ i.Lacks s cause) → ∀ depth, i.Finds depth s

/-- In graphs of library nodes a call fails because the host named what is not there, because a node
objects, or because the guard does. -/
theorem calls_fail_for_a_reason (hosted : Hosted wrap) (reach : i.graph.Reachable)
    {own : NodeKey → Builtin} (carries : i.graph.Carries wrap own) {s : Stimulus}
    (admitted : i.Admits s) : i.FailsForAReason wrap s := by
  have stocked := reach.stocked hosted carries
  have answers := respond_answers hosted stocked carries.furnished admitted
  constructor
  case missing =>
    intro depth positive cause
    obtain ⟨depth, rfl⟩ := Nat.exists_eq_add_one.mpr positive
    refine ⟨?_, fun lacks => fails_of_lacks stocked.sound admitted lacks depth⟩
    intro failed
    -- If all is there, the error would be a node's or the guard's; else it is the one of what lacks.
    by_cases there : ∀ cause, ¬ i.Lacks s cause
    · cases (answers there (depth + 1)).2 _ failed
    · obtain ⟨lack, lacks⟩ := not_forall_not.mp there
      cases failed.symm.trans (fails_of_lacks stocked.sound admitted lacks depth)
      exact lacks
  case others =>
    intro there depth cause j events ran
    have objects := (answers there depth).2 cause
    rw [ran] at objects
    exact objects rfl
  case finds => exact fun there depth => (answers there depth).1

end Instance

/-- The begin meets with the variable that has no name, and a console has no eighth spot; no look-up but
the one of that spot fails. -/
theorem faulty_fails_for_a_reason :
    let i : Instance Builtin := ⟨⟨0⟩, Instance.faulty, .initial, .collector, ⟨0⟩, false, false⟩
    let far : Instance.Stimulus := .signal ⟨⟨1⟩, 7⟩ []
    i.graph.Reachable ∧ i.graph.Carries id i.graph.ownBehavior ∧ i.Admits .begin ∧ i.Finds 3 .begin ∧
      Objection id false (i.respond 3 .begin).2.1.graph (i.respond 3 .begin).2.2
        (.nodeFailed "bad" "variable name is not set") ∧
      i.Admits far ∧ (i.respond 3 far).1 = some (.error (.graph (.spotIndexOutOfRange 7 2))) := by
  intro i far
  have carries : i.graph.Carries id i.graph.ownBehavior := Graph.carries_ownBehavior (by decide)
  have begins := Instance.calls_fail_for_a_reason (i := i) (s := .begin) hosted_id
    Instance.reachable_faulty carries rfl
  have signals := Instance.calls_fail_for_a_reason (i := i) (s := far) hosted_id
    Instance.reachable_faulty carries trivial
  have there : ∀ cause, ¬ i.Lacks .begin cause := by
    intro cause lacks
    have live : (i.graph.node? i.entry).isSome := by decide
    rw [lacks.1] at live
    cases live
  have failed : (i.respond 3 .begin).1 =
      some (.error (.nodeFailed "bad" "variable name is not set")) := by decide +kernel
  have missing : i.graph.spot ⟨⟨1⟩, 7⟩ = .error (.spotIndexOutOfRange 7 2) := by decide
  exact ⟨Instance.reachable_faulty, carries, rfl, begins.finds there 3,
    begins.others there 3 _ _ _ (Prod.ext failed rfl), trivial,
    (signals.missing 3 (by decide) _).mpr (Graph.spot_eq_error_iff.mp missing)⟩

end SignalGraph
