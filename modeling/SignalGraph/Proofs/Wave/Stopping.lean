import SignalGraph.Proofs.Wave.Failures
import SignalGraph.Proofs.Wave.Watching

/-!
Begins, ticks and signals that fail. Whatever happens up to the first error stays in effect, and nothing
happens after it: the error, the instance and the record are the ones of that moment. Such an error
comes from a behavior, from the look-up of a spot or from the guard; only a begin can also find that its
entry has been removed. Calls that an instance refuses, and calls that are cut off, are left out.
-/

namespace SignalGraph.Instance

variable {β : Type}

/-- Whether the instance takes a stimulus at all: it begins once, and ticks only afterwards. -/
def Admits (i : Instance β) : Stimulus → Prop
  | .begin => i.started = false
  | .tick _ => i.started = true
  | .signal _ _ => True

/-- What a call would come to if it ended with the wave as it is. -/
def snapshot (i : Instance β) (w : Wave β) : Instance β × List Event :=
  (i.settle w, w.record.toList)

theorem conclude_halts {p : Progress β} {raised : List (Failure (Wave β))} (halts : Halts p raised)
    (i : Instance β) : Halts (i.conclude p) (raised.map (.map i.snapshot)) := by
  refine ⟨?_, ?_⟩
  · refine List.forall_mem_map.mpr fun e mem => ?_
    rw [halts.ended e mem]
    rfl
  · intro cause ended
    simpa using halts.raised_of_error cause ended

theorem andThen_halts {j : Instance β} {events : List Event} {next : Instance β → Call β}
    {raised : List (Failure (Instance β × List Event))} (halts : Halts (next j) raised) :
    Halts (andThen (some (.ok ()), j, events) next)
      (raised.map (.map fun (k, later) => (k, events ++ later))) := by
  refine ⟨?_, ?_⟩
  · refine List.forall_mem_map.mpr fun e mem => ?_
    simp only [andThen, halts.ended e mem]
    rfl
  · intro cause ended
    simpa using halts.raised_of_error cause ended

section Failures

variable [Behavior β]

def fireFailures (depth : Nat) :
    List NodeKey → Instance β → List (Failure (Instance β × List Event))
  | [], _ => []
  | key :: rest, i =>
    (i.wave.beginFailures depth key).map (.map i.snapshot) ++
      match i.conclude (i.wave.begin depth key) with
      | (some (.ok ()), j, events) =>
        (j.fireFailures depth rest).map (.map fun (k, later) => (k, events ++ later))
      | _ => []

def failures (depth : Nat) (i : Instance β) :
    Stimulus → List (Failure (Instance β × List Event))
  | .begin =>
    let i := { i with started := true }
    (i.wave.beginFailures depth i.entry).map (.map i.snapshot)
  | .tick delta =>
    let i := { i with state := i.state.advance delta }
    i.fireFailures depth (i.graph.keysOfType .update)
  | .signal spot args => (Wave.propagateFailures depth spot args i.wave).map (.map i.snapshot)

variable {kind : β → Prop}

theorem fire_stops (relaying : Relaying kind) (depth : Nat) (keys : List NodeKey) (i : Instance β)
    (ready : i.graph.Ready kind) (live : ∀ key ∈ keys, i.graph.node? key ≠ none) :
    Halts (i.fire depth keys) (i.fireFailures depth keys) ∧
      ∀ e ∈ i.fireFailures depth keys, e.origin.isUsual := by
  induction keys generalizing i with
  | nil => exact ⟨.of_other (by simp [fire]), by simp [fireFailures]⟩
  | cons key keys ih =>
      have start : i.wave.graph.Ready kind := ready
      have after := (Wave.invariant_ready relaying).beginning depth key i.wave start
      have shape := Wave.shape_begin depth key i.wave
      obtain ⟨halts, usual⟩ := Wave.begin_stops relaying depth key i.wave start
      have here : ∀ e ∈ (i.wave.beginFailures depth key).map (Failure.map i.snapshot),
          e.origin.isUsual := by
        refine List.forall_mem_map.mpr fun e mem => ?_
        obtain known | ⟨_, missing⟩ := usual e mem
        · exact known
        · exact absurd missing (live key (by simp))
      have first := conclude_halts halts i
      simp only [fire, fireFailures]
      rcases ran : i.wave.begin depth key with ⟨_ | cause | u, w⟩ <;> rw [ran] at after shape first
      · simp only [conclude, List.append_nil]
        exact ⟨first, here⟩
      · simp only [conclude, List.append_nil]
        exact ⟨first, here⟩
      · rw [first.eq_nil (by simp [conclude])]
        obtain ⟨rest, known⟩ := ih (i.settle w) after fun key mem => by
          change w.graph.node? key ≠ none
          rw [Graph.node?_eq_of_shape shape]
          exact live key (by simp [mem])
        exact ⟨andThen_halts rest, List.forall_mem_map.mpr known⟩

/-- A call that fails does so with the first error that is raised, and is over at that moment. -/
structure FailsAtOnce (depth : Nat) (i : Instance β) (s : Stimulus) : Prop where
  first : ∀ cause j events, i.respond depth s = (some (.error cause), j, events) →
    ∃ e later, i.failures depth s = e :: later ∧ e.cause = cause ∧ e.moment = (j, events)
  silent : (∀ cause, (i.respond depth s).1 ≠ some (.error cause)) → i.failures depth s = []
  origins : ∀ e ∈ i.failures depth s, e.origin.isUsual ∨
    s = .begin ∧ e.origin = .node i.entry ∧ i.graph.node? i.entry = none

theorem failsAtOnce_of_halts {depth : Nat} {i : Instance β} {s : Stimulus}
    (halts : Halts (i.respond depth s) (i.failures depth s))
    (origins : ∀ e ∈ i.failures depth s, e.origin.isUsual ∨
      s = .begin ∧ e.origin = .node i.entry ∧ i.graph.node? i.entry = none) :
    i.FailsAtOnce depth s where
  first cause j events ran := by
    obtain ⟨e, later, raised⟩ :=
      List.exists_cons_of_ne_nil (halts.raised_of_error cause (congrArg Prod.fst ran))
    have same := ran.symm.trans (halts.ended e (by simp [raised]))
    simp only [Prod.mk.injEq, Option.some.injEq, Except.error.injEq] at same
    exact ⟨e, later, raised, same.1.symm, same.2.symm⟩
  silent := halts.eq_nil
  origins := origins

/-- Failing calls stop at once and take nothing back, where behaviors end a hook with the error of a
failed signal. All behaviors of the library do. -/
theorem failing_calls_stop (relaying : Relaying kind) {i : Instance β} (reach : i.graph.Reachable)
    (holds : i.graph.OfKind kind) :
    (∀ s, i.Admits s → ∀ depth, i.FailsAtOnce depth s) ∧
      ∀ wrap : Builtin → β, Builtin.Hosted wrap → Relaying fun c => ∃ b, c = wrap b := by
  refine ⟨?_, fun wrap hosted => hosted.relaying⟩
  intro s admitted depth
  have ready : i.graph.Ready kind := ⟨reach.sound, holds⟩
  cases s with
  | begin =>
      have fresh : i.started = false := admitted
      obtain ⟨halts, usual⟩ := Wave.begin_stops relaying depth i.entry i.wave ready
      refine failsAtOnce_of_halts ?_ ?_
      · simp only [respond, begin, fresh]
        exact conclude_halts halts { i with started := true }
      · refine List.forall_mem_map.mpr fun e mem => ?_
        exact (usual e mem).imp_right fun missing => ⟨rfl, missing⟩
  | tick delta =>
      have begun : i.started = true := admitted
      obtain ⟨halts, usual⟩ := fire_stops relaying depth (i.graph.keysOfType .update)
        { i with state := i.state.advance delta } ready fun key mem => by
          obtain ⟨n, found, _⟩ := (Graph.mem_keysOfType_iff reach.sound).mp mem
          simp [found]
      refine failsAtOnce_of_halts ?_ fun e mem => .inl (usual e mem)
      have responds : i.respond depth (.tick delta) =
          Instance.fire depth (i.graph.keysOfType .update)
            { i with state := i.state.advance delta } := if_pos begun
      rw [responds]
      exact halts
  | signal spot args =>
      obtain ⟨halts, usual⟩ := Wave.propagate_stops relaying depth spot args i.wave ready
      exact failsAtOnce_of_halts (conclude_halts halts i)
        (List.forall_mem_map.mpr fun e mem => .inl (usual e mem))

end Failures

def faulty : Graph Builtin :=
  let nodes := ((((Graph.empty "faulty").addNode "start" "Start" .entry (.entry none)).2.1.addNode
    "first" "First" .console .console).2.1.addNode "bad" "Bad" .setVariable (.setVariable "")).2.1.addNode
    "never" "Never" .console .console
  (((nodes.2.1.link ⟨⟨0⟩, 0⟩ ⟨⟨1⟩, 0⟩).2.link ⟨⟨0⟩, 0⟩ ⟨⟨2⟩, 0⟩).2.link ⟨⟨0⟩, 0⟩ ⟨⟨3⟩, 0⟩).2

theorem reachable_faulty : faulty.Reachable := by
  have nodes := ((((Graph.Reachable.empty "faulty").change
    (.addNode "start" "Start" .entry (Builtin.entry none))).change
    (.addNode "first" "First" .console .console)).change
    (.addNode "bad" "Bad" .setVariable (.setVariable ""))).change
    (.addNode "never" "Never" .console .console)
  exact ((nodes.change (.link ⟨⟨0⟩, 0⟩ ⟨⟨1⟩, 0⟩)).change (.link ⟨⟨0⟩, 0⟩ ⟨⟨2⟩, 0⟩)).change
    (.link ⟨⟨0⟩, 0⟩ ⟨⟨3⟩, 0⟩)

/-- The begin ends in the middle of the three links: what went over the first one stays delivered. -/
theorem faulty_begin_stops :
    let i : Instance Builtin := ⟨⟨0⟩, faulty, .initial, .collector, ⟨0⟩, false, false⟩
    let args : List Value := [.instanceRef ⟨0⟩]
    let cause : RunError := .nodeFailed "bad" "variable name is not set"
    let events : List Event := [.begin ⟨0⟩, .send ⟨⟨0⟩, 0⟩ args,
      .signal ⟨1⟩ 0 ⟨⟨0⟩, 0⟩ args, .log .info "First" (Value.listText args), .send ⟨⟨1⟩, 1⟩ args,
      .signal ⟨2⟩ 0 ⟨⟨0⟩, 0⟩ args]
    i.Admits .begin ∧ ∃ j, i.respond 3 .begin = (some (.error cause), j, events) ∧
      ∃ e later, i.failures 3 .begin = e :: later ∧ e.cause = cause ∧ e.moment = (j, events) := by
  intro i args cause events
  have ran : (i.respond 3 .begin).1 = some (.error cause) ∧ (i.respond 3 .begin).2.2 = events := by
    decide +kernel
  have same : i.respond 3 .begin = (some (.error cause), (i.respond 3 .begin).2.1, events) :=
    Prod.ext ran.1 (Prod.ext rfl ran.2)
  have stops := (failing_calls_stop Builtin.hosted_id.relaying (i := i) reachable_faulty
    fun _ b _ => ⟨b, rfl⟩).1 .begin rfl 3
  exact ⟨rfl, _, same, stops.first _ _ _ same⟩

/-- An instance begins at the entry that it was bound to, though that may have been removed since. The
error is then raised by none of the behaviors, spots and guards. -/
theorem begin_without_entry_fails :
    let i : Instance Builtin := ⟨⟨0⟩, Graph.knotted, .initial, .collector, ⟨0⟩, false, false⟩
    let bare := { i with graph := (i.graph.removeNode i.entry).2 }
    Instance.new ⟨0⟩ Graph.knotted .collector = .ok i ∧ bare.graph.Reachable ∧ bare.Admits .begin ∧
      (bare.respond 3 .begin).1 = some (.error (.graph (.deadNode ⟨0⟩))) ∧
      ∀ e ∈ bare.failures 3 .begin, ¬ e.origin.isUsual := by
  intro i bare
  refine ⟨by decide, Graph.reachable_knotted.change (.removeNode ⟨0⟩), rfl, by decide +kernel, ?_⟩
  intro e mem
  cases mem with
  | head => decide
  | tail _ rest => cases rest

end SignalGraph.Instance
