import SignalGraph.Proofs.Wave.Unguarded

/-!
Begins, ticks and signals under the cycle guard and without it. The two runs of an instance agree in
everything unless the guard ends the first one, and then the first is the start of the second. A run that never
ends is known by what it does within each depth; within a greater depth it does the same and more.
-/

namespace SignalGraph

variable {β : Type}

/-! ### The library's nodes -/

namespace Builtin

theorem onBegin_relays (wrap : Builtin → β) (b : Builtin) : (b.onBegin wrap).Relays := by
  cases b with
  | entry _ | update => exact fun _ => ⟨trivial, fun _ => rfl⟩
  | deltaTime | console | counter _ | setVariable _ => trivial

theorem onSignal_relays (wrap : Builtin → β) (b : Builtin) (args : List Value) :
    (b.onSignal wrap args).Relays := by
  cases b with
  | entry _ | update => trivial
  | deltaTime => exact fun _ => ⟨trivial, fun _ => rfl⟩
  | console => exact ⟨trivial, fun _ => rfl⟩
  | counter s =>
      simp only [onSignal]
      split
      · exact fun _ => trivial
      · exact ⟨trivial, fun _ => rfl⟩
  | setVariable name =>
      simp only [onSignal]
      split
      · exact fun _ => trivial
      split
      · exact fun _ => trivial
      · exact fun _ => ⟨trivial, fun _ => rfl⟩

theorem onBegin_not_raises (wrap : Builtin → β) (b : Builtin) (link : LinkId) (node : String) :
    ¬ (b.onBegin wrap).Raises (.cycle link node) := by
  intro raises
  cases b with
  | entry _ | update =>
      obtain ⟨_, raised⟩ := raises
      cases raised
  | deltaTime | console | counter _ | setVariable _ => cases raises

theorem onSignal_not_raises (wrap : Builtin → β) (b : Builtin) (args : List Value)
    (link : LinkId) (node : String) : ¬ (b.onSignal wrap args).Raises (.cycle link node) := by
  have fail (message : String) :
      ¬ (Reaction.fail (β := β) message).Raises (.cycle link node) := by
    intro raises
    obtain ⟨_, raised⟩ := raises
    cases raised
  intro raises
  cases b with
  | entry _ | update => cases raises
  | deltaTime =>
      obtain ⟨_, raised⟩ := raises
      cases raised
  | console => cases raises
  | counter s =>
      simp only [onSignal] at raises
      split at raises
      · exact fail _ raises
      · cases raises
  | setVariable name =>
      simp only [onSignal] at raises
      split at raises
      · exact fail _ raises
      split at raises
      · exact fail _ raises
      · obtain ⟨_, raised⟩ := raises
        cases raised

variable [Behavior β] {wrap : Builtin → β}

theorem Hosted.relaying (hosted : Hosted wrap) : Relaying fun c => ∃ b, c = wrap b where
  onBegin c wrapped := by
    obtain ⟨b, rfl⟩ := wrapped
    rw [hosted.onBegin]
    exact ⟨b.onBegin_relays wrap, onBegin_becomes wrap b fun c _ => ⟨c, rfl⟩⟩
  onSignal c wrapped spot args := by
    obtain ⟨b, rfl⟩ := wrapped
    rw [hosted.onSignal]
    exact ⟨b.onSignal_relays wrap args, onSignal_becomes wrap b args fun c _ => ⟨c, rfl⟩⟩

theorem Hosted.not_invents (hosted : Hosted wrap) (b : Builtin) (link : LinkId) (node : String) :
    ¬ Invents (wrap b) (.cycle link node) := by
  intro invents
  obtain raises | ⟨spot, args, raises⟩ := invents
  · rw [hosted.onBegin] at raises
    exact onBegin_not_raises wrap b link node raises
  · rw [hosted.onSignal] at raises
    exact onSignal_not_raises wrap b args link node raises

end Builtin

/-! ### Calls -/

/-- The second call is the first without the guard. If the first one was stopped, the second may
have gone on. -/
def Call.StartOf (c d : Call β) : Prop :=
  d = (c.1, { c.2.1 with cycleGuard := false }, c.2.2) ∨ Stopped c.1 ∧ c.2.2 <+: d.2.2

namespace Instance

def guarded (on : Bool) (i : Instance β) : Instance β := { i with cycleGuard := on }

inductive Stimulus where
  | begin
  | tick (delta : Binary32)
  | signal (spot : SpotRef) (args : List Value)

theorem conclude_startOf {p q : Progress β} (same : p.StartOf q) (i : Instance β) :
    Call.StartOf (i.conclude p) ((i.guarded false).conclude q) := by
  obtain rfl | stopped := same
  · exact .inl rfl
  · exact .inr stopped

theorem andThen_startOf {c d : Call β} (same : Call.StartOf c d) {next next' : Instance β → Call β}
    (goes : ∀ j events, c = (some (.ok ()), j, events) →
      Call.StartOf (next j) (next' (j.guarded false))) :
    Call.StartOf (andThen c next) (andThen d next') := by
  obtain ⟨result, j, events⟩ := c
  obtain rfl | ⟨stopped, grown⟩ := same
  · obtain _ | _ | u := result
    · exact .inl rfl
    · exact .inl rfl
    · simp only [andThen]
      obtain equal | ⟨stopped, grown⟩ := goes j events rfl
      · simp only [guarded] at equal
        simp only [equal]
        exact .inl rfl
      · exact .inr ⟨stopped, (List.prefix_append_right_inj events).mpr grown⟩
  · have later : events <+: (andThen d next').2.2 := by
      obtain ⟨_ | _ | u, k, more⟩ := d
      · exact grown
      · exact grown
      · exact grown.trans (List.prefix_append _ _)
    obtain _ | _ | u := result
    · exact .inr ⟨stopped, later⟩
    · exact .inr ⟨stopped, later⟩
    · exact stopped.elim

variable [Behavior β] {kind : β → Prop} {depth more : Nat}

def respond (depth : Nat) : Stimulus → Instance β → Call β
  | .begin, i => i.begin depth
  | .tick delta, i => i.tick depth delta
  | .signal spot args, i => i.signal depth spot args

theorem ofKind_begin (relaying : Relaying kind) (depth : Nat) (key : NodeKey) {i : Instance β}
    (holds : i.graph.OfKind kind) :
    (i.conclude (i.wave.begin depth key)).2.1.graph.OfKind kind :=
  (Wave.invariant_ofKind relaying).beginning depth key i.wave holds

theorem fire_startOf (relaying : Relaying kind) (le : depth ≤ more) (keys : List NodeKey)
    (i : Instance β) (holds : i.graph.OfKind kind) :
    Call.StartOf (i.fire depth keys) ((i.guarded false).fire more keys) := by
  induction keys generalizing i with
  | nil => exact .inl rfl
  | cons key keys ih =>
      have after := ofKind_begin relaying depth key holds
      apply andThen_startOf (conclude_startOf (Wave.begin_startOf relaying le key i.wave holds) i)
      intro j events fired
      rw [fired] at after
      exact ih j after

theorem respond_startOf (relaying : Relaying kind) (le : depth ≤ more) (s : Stimulus)
    {i : Instance β} (holds : i.graph.OfKind kind) :
    Call.StartOf (i.respond depth s) ((i.guarded false).respond more s) := by
  cases s with
  | begin =>
      cases started : i.started with
      | true =>
          have started' : (i.guarded false).started = true := started
          simp only [respond, begin, started, started', if_true]
          exact .inl rfl
      | false =>
          have started' : (i.guarded false).started = false := started
          simp only [respond, begin, started, started', Bool.false_eq_true, if_false]
          exact conclude_startOf (Wave.begin_startOf relaying le i.entry i.wave holds)
            { i with started := true }
  | tick delta =>
      cases started : i.started with
      | true =>
          have started' : (i.guarded false).started = true := started
          simp only [respond, tick, started, started', if_true]
          exact fire_startOf relaying le _
            { i with state := i.state.advance delta, started := true } holds
      | false =>
          have started' : (i.guarded false).started = false := started
          simp only [respond, tick, started, started', Bool.false_eq_true, if_false]
          exact .inl rfl
  | signal spot args =>
      exact conclude_startOf (Wave.propagate_startOf relaying le spot args i.wave holds) i

theorem isSome_respond {i : Instance β} (sound : i.graph.Sound) (guard : i.cycleGuard = true)
    (enough : 2 * i.graph.linkCount < depth) (s : Stimulus) : (i.respond depth s).1.isSome := by
  cases s with
  | begin => exact isSome_begin sound guard enough
  | tick delta => exact isSome_tick sound guard enough delta
  | signal spot args =>
      exact Wave.Guarded.isSome_propagate sound enough spot args i.wave (guarded_wave guard)

theorem invents_of_fire (relaying : Relaying kind) {link : LinkId} {node : String}
    (keys : List NodeKey) {i : Instance β} (holds : i.graph.OfKind kind)
    (off : i.cycleGuard = false)
    (ran : (i.fire depth keys).1 = some (.error (.cycle link node))) :
    ∃ b, kind b ∧ Invents b (.cycle link node) := by
  induction keys generalizing i with
  | nil => cases ran
  | cons key keys ih =>
      have after := ofKind_begin relaying depth key holds
      have bare : i.wave.crossed = none := by simp [wave, off]
      simp only [fire, andThen] at ran
      split at ran
      · next j events fired =>
          rw [fired] at after
          have still : j.cycleGuard = i.cycleGuard :=
            congrArg (fun c : Call β => c.2.1.cycleGuard) fired.symm
          exact ih after (still.trans off) ran
      · exact Wave.invents_of_begin relaying holds bare (Prod.ext ran rfl)

theorem invents_of_respond (relaying : Relaying kind) {link : LinkId} {node : String}
    (s : Stimulus) {i : Instance β} (holds : i.graph.OfKind kind) (off : i.cycleGuard = false)
    (ran : (i.respond depth s).1 = some (.error (.cycle link node))) :
    ∃ b, kind b ∧ Invents b (.cycle link node) := by
  have bare : i.wave.crossed = none := by simp [wave, off]
  cases s with
  | begin =>
      simp only [respond, begin] at ran
      split at ran
      · cases ran
      · exact Wave.invents_of_begin relaying (w := i.wave) holds bare (Prod.ext ran rfl)
  | tick delta =>
      simp only [respond, tick] at ran
      split at ran
      · exact invents_of_fire relaying _ (i := { i with state := i.state.advance delta }) holds off
          ran
      · cases ran
  | signal spot args =>
      exact Wave.honest relaying depth link node spot args i.wave _ holds bare (Prod.ext ran rfl)

structure Watched (kind : β → Prop) (i : Instance β) (s : Stimulus) : Prop where
  ends : ∀ depth, 2 * i.graph.linkCount < depth → ((i.guarded true).respond depth s).1.isSome
  /-- A guarded call that reports no cycle is the unguarded call: it has the same result, and leaves
  the same instance and the same record. -/
  same : ∀ depth result j events,
    (i.guarded true).respond depth s = (some result, j, events) →
    (∀ link node, result ≠ .error (.cycle link node)) → ∀ more, depth ≤ more →
      (i.guarded false).respond more s = (some result, j.guarded false, events)
  /-- A guarded call that reports a cycle has done what the unguarded one does first. -/
  start : ∀ depth link node j events,
    (i.guarded true).respond depth s = (some (.error (.cycle link node)), j, events) →
    ∀ more, depth ≤ more → events <+: ((i.guarded false).respond more s).2.2
  /-- The unguarded call does one thing after the other, whether or not it ever ends. -/
  grows : ∀ depth more, depth ≤ more →
    ((i.guarded false).respond depth s).2.2 <+: ((i.guarded false).respond more s).2.2
  /-- Without the guard no cycle is reported, unless a behavior makes up such a report. -/
  never : ∀ depth link node,
    ((i.guarded false).respond depth s).1 = some (.error (.cycle link node)) →
    ∃ b, kind b ∧ Invents b (.cycle link node)

omit [Behavior β] in
theorem events_prefix_of_startOf {c d : Call β} (same : Call.StartOf c d) : c.2.2 <+: d.2.2 := by
  obtain rfl | ⟨_, grown⟩ := same
  · exact List.prefix_refl _
  · exact grown

/-- The guard changes nothing but where a call ends. All behaviors of the library end a hook with the
error of a failed signal, and make up no report of a cycle. -/
theorem guard_only_watches (relaying : Relaying kind) {i : Instance β} (reach : i.graph.Reachable)
    (holds : i.graph.OfKind kind) :
    (∀ s, i.Watched kind s) ∧ ∀ wrap : Builtin → β, Builtin.Hosted wrap →
      Relaying (fun c => ∃ b, c = wrap b) ∧
      ∀ b link node, ¬ Invents (wrap b) (.cycle link node) := by
  refine ⟨?_, fun wrap hosted => ⟨hosted.relaying, hosted.not_invents⟩⟩
  intro s
  have on {depth more : Nat} (le : depth ≤ more) :
      Call.StartOf ((i.guarded true).respond depth s) ((i.guarded false).respond more s) :=
    respond_startOf relaying le s (i := i.guarded true) holds
  have off {depth more : Nat} (le : depth ≤ more) :
      Call.StartOf ((i.guarded false).respond depth s) ((i.guarded false).respond more s) :=
    respond_startOf relaying le s (i := i.guarded false) holds
  constructor
  case ends =>
    intro depth enough
    exact isSome_respond (i := i.guarded true) reach.sound rfl enough s
  case same =>
    intro depth result j events ran other more le
    obtain equal | ⟨stopped, _⟩ := on le
    · rw [equal, ran]
      rfl
    · rw [ran] at stopped
      obtain ⟨link, node, report⟩ := stopped_some_iff.mp stopped
      exact absurd report (other link node)
  case start =>
    intro depth link node j events ran more le
    have prefixes := events_prefix_of_startOf (on le)
    rwa [ran] at prefixes
  case grows => exact fun _ _ le => events_prefix_of_startOf (off le)
  case never =>
    intro depth link node ran
    exact invents_of_respond relaying s (i := i.guarded false) holds rfl ran

/-- The loop of the knotted graph: the guard ends the begin with a report, and without it the begin
goes on past every depth that is tried. -/
theorem guard_watches_knotted :
    let i : Instance Builtin := ⟨⟨0⟩, Graph.knotted, .initial, .collector, ⟨0⟩, false, false⟩
    ∃ j events,
      (i.guarded true).respond 7 .begin = (some (.error (.cycle ⟨1⟩ "loop")), j, events) ∧
      ((i.guarded false).respond 7 .begin).1 = none ∧
      ∀ more, 7 ≤ more → events <+: ((i.guarded false).respond more .begin).2.2 := by
  intro i
  have ran : ((i.guarded true).respond 7 .begin).1 = some (.error (.cycle ⟨1⟩ "loop")) := by
    decide +kernel
  have watched := (guard_only_watches Builtin.hosted_id.relaying (i := i) Graph.reachable_knotted
    fun _ b _ => ⟨b, rfl⟩).1 .begin
  exact ⟨_, _, Prod.ext ran rfl, by decide +kernel, watched.start 7 ⟨1⟩ "loop" _ _ (Prod.ext ran rfl)⟩

end Instance

/-- A node of a host's own that reports a cycle whenever it begins. -/
inductive Alarm where
  | alarm
deriving DecidableEq

instance : Behavior Alarm where
  setup b _ := .ready b
  onBegin _ := .done (.error (.cycle ⟨0⟩ "start"))
  onSignal _ _ _ := .finish

namespace Instance

/-- It ends its hooks with the errors of failed signals, as it signals nobody; still the begin reports a
cycle without the guard, in a graph without links. -/
theorem alarm_without_guard :
    let g : Graph Alarm := ((Graph.empty "alarmed").addNode "start" "Start" .entry .alarm).2.1
    g.Reachable ∧ g.links = [] ∧ Relaying (fun _ : Alarm => True) ∧
      ∃ i, Instance.new ⟨0⟩ g .collector = .ok i ∧ i.cycleGuard = false ∧
        (i.respond 1 .begin).1 = some (.error (.cycle ⟨0⟩ "start")) := by
  intro g
  have reach : g.Reachable :=
    (Graph.Reachable.empty "alarmed").change (.addNode "start" "Start" .entry Alarm.alarm)
  have relaying : Relaying (fun _ : Alarm => True) :=
    ⟨fun _ _ => ⟨trivial, trivial⟩, fun _ _ _ _ => ⟨trivial, trivial⟩⟩
  exact ⟨reach, rfl, relaying, _, rfl, rfl, rfl⟩

end Instance
end SignalGraph
