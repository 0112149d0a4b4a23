import SignalGraph.Proofs.Builtin.Hosted
import SignalGraph.Proofs.Wave.Guard

/-!
The cycle guard only watches. What a wave does under the guard it also does without, up to where the
guard ends it; from there on the unguarded wave may go on, perhaps for ever. This is about behaviors that
end their hooks with the error of a failed signal: one that went on after an error could tell the two runs
apart. Nothing is said of them here.
-/

namespace SignalGraph

variable {β : Type}

namespace Reaction

/-- The reaction ends with the error, and only looks around before. -/
def EndsWith (cause : RunError) : Reaction β → Prop
  | done result => result = .error cause
  | look next => ∀ v, (next v).EndsWith cause
  | _ => False

/-- A failed signal ends the reaction, with the error of the signal. -/
def Relays : Reaction β → Prop
  | done _ => True
  | look next => ∀ v, (next v).Relays
  | become _ next | setState _ next | log _ _ next | note _ next => next.Relays
  | signal _ _ next => (next (.ok ())).Relays ∧ ∀ cause, (next (.error cause)).EndsWith cause

/-- The reaction can end with the error on its own account, all its signals succeeding. -/
def Raises (cause : RunError) : Reaction β → Prop
  | done result => result = .error cause
  | look next => ∃ v, (next v).Raises cause
  | become _ next | setState _ next | log _ _ next | note _ next => next.Raises cause
  | signal _ _ next => (next (.ok ())).Raises cause

theorem run_of_endsWith {cause : RunError} {r : Reaction β} (ends : r.EndsWith cause)
    (send : Send β) (self : NodeKey) (source : Option SpotRef) (w : Wave β) :
    r.run send self source w = (some (.error cause), w) := by
  induction r with
  | done result => exact congrArg (fun result => (some result, w)) ends
  | look next ih => exact ih _ (ends _)
  | become _ _ | setState _ _ | log _ _ _ | note _ _ | signal _ _ _ => exact ends.elim

end Reaction

structure Relaying [Behavior β] (kind : β → Prop) : Prop where
  onBegin : ∀ b, kind b → (Behavior.onBegin b).Relays ∧ (Behavior.onBegin b).Becomes kind
  onSignal : ∀ b, kind b → ∀ spot args,
    (Behavior.onSignal b spot args).Relays ∧ (Behavior.onSignal b spot args).Becomes kind

/-- One of the behavior's hooks can end with the error on its own account. -/
def Invents [Behavior β] (b : β) (cause : RunError) : Prop :=
  (Behavior.onBegin b).Raises cause ∨ ∃ spot args, (Behavior.onSignal b spot args).Raises cause

def Graph.OfKind (kind : β → Prop) (g : Graph β) : Prop :=
  ∀ key b, g.behavior? key = some b → kind b

def Stopped : Option (Except RunError Unit) → Prop
  | none | some (.error (.cycle _ _)) => True
  | _ => False

theorem stopped_some_iff {result : Except RunError Unit} :
    Stopped (some result) ↔ ∃ link node, result = .error (.cycle link node) := by
  obtain cause | _ := result
  · cases cause <;> simp [Stopped]
  · simp [Stopped]

namespace Wave

def unguarded (w : Wave β) : Wave β := { w with crossed := none }

theorem stopped_of_cross {w : Wave β} {id : LinkId} {source target : SpotRef} {cause : RunError}
    (again : w.cross id source target = .error cause) : Stopped (some (.error cause)) := by
  obtain ⟨_, _, _, rfl⟩ := cross_eq_error_iff.mp again
  exact stopped_some_iff.mpr ⟨_, _, rfl⟩

theorem unguarded_of_cross {w v : Wave β} {id : LinkId} {source target : SpotRef}
    (crossed : w.cross id source target = .ok v) : v.unguarded = w.unguarded := by
  rw [eq_of_cross crossed]
  rfl

variable [Behavior β]

theorem invariant_ofKind {kind : β → Prop} (relaying : Relaying kind) :
    Invariant (fun w : Wave β => w.graph.OfKind kind) fun _ => kind where
  push _ _ _ h := h
  setState _ _ h := h
  become w self b holds h := by
    intro key c found
    rw [Graph.behavior?_setBehavior] at found
    split at found
    · obtain ⟨_, _, rfl⟩ := Option.map_eq_some_iff.mp found
      exact holds
    · exact h key c found
  begin w key b h found := (relaying.onBegin b (h key b found)).2
  lost w v id l source target h _ _ crossed _ := by
    rw [eq_of_cross crossed]
    exact h
  call w v id l source target args b h _ _ crossed found :=
    ⟨by rw [eq_of_cross crossed]; exact h,
      (relaying.onSignal b (h target.node b found) target.index args).2⟩

theorem invariant_record (start : List Event) :
    Invariant (fun w : Wave β => start <+: w.record.toList) fun _ _ => True where
  push w e _ h := by
    rw [push, Array.toList_push]
    exact h.trans (List.prefix_append _ _)
  setState _ _ h := h
  become _ _ _ _ h := h
  begin _ _ _ _ _ := Reaction.becomes_of_forall (fun _ => trivial) _
  lost w v id l source target h _ _ crossed _ := by
    rw [eq_of_cross crossed]
    exact h
  call w v id l source target args b h _ _ crossed _ := by
    refine ⟨?_, Reaction.becomes_of_forall (fun _ => trivial) _⟩
    rw [eq_of_cross crossed, push, Array.toList_push]
    exact h.trans (List.prefix_append _ _)

theorem record_propagate (depth : Nat) (source : SpotRef) (args : List Value) (w : Wave β) :
    w.record.toList <+: (propagate depth source args w).2.record.toList :=
  (invariant_record w.record.toList).propagate depth source args w (List.prefix_refl _)

theorem record_deliver (depth : Nat) (source : SpotRef) (args : List Value) (id : LinkId)
    (w : Wave β) :
    w.record.toList <+: (deliver (propagate depth) source args id w).2.record.toList :=
  have grows := invariant_record w.record.toList
  grows.deliver (grows.propagate depth) source args id w (List.prefix_refl _)

theorem record_deliverAll (depth : Nat) (source : SpotRef) (args : List Value)
    (ids : List LinkId) (w : Wave β) :
    w.record.toList <+: (deliverAll (propagate depth) source args ids w).2.record.toList :=
  have grows := invariant_record w.record.toList
  grows.deliverAll (grows.propagate depth) source args ids w (List.prefix_refl _)

theorem record_run (depth : Nat) (self : NodeKey) (source : Option SpotRef) (r : Reaction β)
    (w : Wave β) : w.record.toList <+: (r.run (propagate depth) self source w).2.record.toList :=
  have grows := invariant_record w.record.toList
  grows.run (grows.propagate depth) self source r (Reaction.becomes_of_forall (fun _ => trivial) r) w
    (List.prefix_refl _)

end Wave

namespace Progress

/-- The second run is the first without the guard. If the first one was stopped, the second may have
gone on. -/
def StartOf (p q : Progress β) : Prop :=
  q = (p.1, p.2.unguarded) ∨ Stopped p.1 ∧ p.2.record.toList <+: q.2.record.toList

def andThen (p : Progress β) (next : Except RunError Unit → Wave β → Progress β) : Progress β :=
  match p with
  | (none, w) => (none, w)
  | (some result, w) => next result w

theorem StartOf.andThen {p q : Progress β} (same : p.StartOf q)
    {next next' : Except RunError Unit → Wave β → Progress β}
    (ends : ∀ cause v, next (.error cause) v = (some (.error cause), v))
    (ends' : ∀ cause v, next' (.error cause) v = (some (.error cause), v))
    (goes : ∀ v, p = (some (.ok ()), v) → (next (.ok ()) v).StartOf (next' (.ok ()) v.unguarded))
    (grows : ∀ result v, v.record.toList <+: (next' result v).2.record.toList) :
    (p.andThen next).StartOf (q.andThen next') := by
  obtain ⟨result, v⟩ := p
  obtain rfl | ⟨stopped, grown⟩ := same
  · cases result with
    | none => exact .inl rfl
    | some result =>
        cases result with
        | ok _ => exact goes v rfl
        | error cause =>
            simp only [Progress.andThen, ends, ends']
            exact .inl rfl
  · obtain ⟨result', v'⟩ := q
    -- Whatever the second run does next, its record keeps what the first one did.
    have later : v.record.toList <+: (Progress.andThen (result', v') next').2.record.toList := by
      cases result' with
      | none => exact grown
      | some result' => exact grown.trans (grows result' v')
    cases result with
    | none => exact .inr ⟨trivial, later⟩
    | some result =>
        cases result with
        | ok _ => exact stopped.elim
        | error cause =>
            simp only [Progress.andThen, ends]
            exact .inr ⟨stopped, later⟩

end Progress

section StartOf

variable [Behavior β] {kind : β → Prop} {depth more : Nat}

open Wave

def Send.StartOf (kind : β → Prop) (depth more : Nat) : Prop :=
  ∀ source args (w : Wave β), w.graph.OfKind kind →
    (propagate depth source args w).StartOf (propagate more source args w.unguarded)

omit [Behavior β] in
theorem Reaction.run_signal (send : Send β) (self : NodeKey) (source : Option SpotRef) (spot : Nat)
    (args : List Value) (next : Except RunError Unit → Reaction β) (w : Wave β) :
    (signal spot args next).run send self source w =
      (send ⟨self, spot⟩ args (w.push (.send ⟨self, spot⟩ args))).andThen
        fun result => (next result).run send self source := by
  simp only [run]
  obtain ⟨_ | result, v⟩ := send ⟨self, spot⟩ args (w.push (.send ⟨self, spot⟩ args)) <;> rfl

theorem Reaction.run_startOf (relaying : Relaying kind)
    (sends : Send.StartOf kind depth more) (self : NodeKey) (source : Option SpotRef)
    (r : Reaction β) (relays : r.Relays) (becomes : r.Becomes kind) (w : Wave β)
    (holds : w.graph.OfKind kind) :
    (r.run (propagate depth) self source w).StartOf
      (r.run (propagate more) self source w.unguarded) := by
  have inv := invariant_ofKind relaying
  induction r generalizing w with
  | done result => exact .inl rfl
  | look next ih => exact ih _ (relays _) (becomes _) w holds
  | become b next ih => exact ih relays becomes.2 _ (inv.become w self b becomes.1 holds)
  | setState state next ih => exact ih relays becomes _ (inv.setState w state holds)
  | log level text next ih => exact ih relays becomes _ (inv.push w _ rfl holds)
  | note text next ih => exact ih relays becomes _ (inv.push w _ rfl holds)
  | signal spot args next ih =>
      have start := inv.push w (.send ⟨self, spot⟩ args) rfl holds
      have after := inv.propagate depth ⟨self, spot⟩ args _ start
      rw [run_signal, run_signal]
      apply (sends ⟨self, spot⟩ args _ start).andThen
      · exact fun cause => run_of_endsWith (relays.2 cause) _ self source
      · exact fun cause => run_of_endsWith (relays.2 cause) _ self source
      · intro v sent
        rw [sent] at after
        exact ih (.ok ()) relays.1 (becomes _) v after
      · exact fun result => record_run more self source (next result)

namespace Wave

theorem deliver_startOf (relaying : Relaying kind) (sends : Send.StartOf kind depth more)
    (source : SpotRef) (args : List Value) (id : LinkId) (w : Wave β)
    (holds : w.graph.OfKind kind) :
    (deliver (propagate depth) source args id w).StartOf
      (deliver (propagate more) source args id w.unguarded) := by
  have graph : w.unguarded.graph = w.graph := rfl
  have grown := record_deliver more source args id w.unguarded
  cases live : w.graph.link? id with
  | none =>
      simp only [deliver, graph, live]
      exact .inl rfl
  | some l =>
  cases far : l.farEnd source with
  | error cause =>
      simp only [deliver, graph, live, far]
      exact .inl rfl
  | ok target =>
  cases crossed : w.cross id source target with
  | error cause =>
      have ended : deliver (propagate depth) source args id w = (some (.error cause), w) := by
        simp only [deliver, live, far, crossed]
      rw [ended]
      exact .inr ⟨stopped_of_cross crossed, grown⟩
  | ok v =>
  have off : w.unguarded.cross id source target = .ok v.unguarded := by
    rw [unguarded_of_cross crossed]
    rfl
  have same : v.graph = w.graph := by rw [eq_of_cross crossed]
  have same' : v.unguarded.graph = w.graph := same
  cases found : w.graph.behavior target.node with
  | error cause =>
      simp only [deliver, graph, live, far, crossed, off, same, same', found]
      exact .inl rfl
  | ok b =>
      simp only [deliver, graph, live, far, crossed, off, same, same', found]
      obtain ⟨relays, becomes⟩ :=
        relaying.onSignal b (holds _ b (Graph.behavior_eq_ok_iff.mp found)) target.index args
      exact Reaction.run_startOf relaying sends target.node (some source) _ relays becomes _
        (same ▸ holds)

theorem deliverAll_cons (send : Send β) (source : SpotRef) (args : List Value)
    (id : LinkId) (ids : List LinkId) (w : Wave β) :
    deliverAll send source args (id :: ids) w =
      (deliver send source args id w).andThen fun
        | .ok () => deliverAll send source args ids
        | .error cause => fun v => (some (.error cause), v) := by
  simp only [deliverAll]
  obtain ⟨_ | _ | _, v⟩ := deliver send source args id w <;> rfl

theorem deliverAll_startOf (relaying : Relaying kind) (sends : Send.StartOf kind depth more)
    (source : SpotRef) (args : List Value) (ids : List LinkId) (w : Wave β)
    (holds : w.graph.OfKind kind) :
    (deliverAll (propagate depth) source args ids w).StartOf
      (deliverAll (propagate more) source args ids w.unguarded) := by
  induction ids generalizing w with
  | nil => exact .inl rfl
  | cons id ids ih =>
      have inv := invariant_ofKind relaying
      have after := inv.deliver (inv.propagate depth) source args id w holds
      rw [deliverAll_cons, deliverAll_cons]
      apply (deliver_startOf relaying sends source args id w holds).andThen
      · exact fun _ _ => rfl
      · exact fun _ _ => rfl
      · intro v delivered
        rw [delivered] at after
        exact ih v after
      · intro result v
        cases result with
        | ok _ => exact record_deliverAll more source args ids v
        | error _ => exact List.prefix_refl _

theorem propagate_startOf (relaying : Relaying kind) (le : depth ≤ more) :
    Send.StartOf kind depth more := by
  induction depth generalizing more with
  | zero =>
      intro source args w _
      exact .inr ⟨trivial, record_propagate more source args w.unguarded⟩
  | succ depth ih =>
      obtain ⟨more, rfl⟩ : ∃ m, more = m + 1 := ⟨more - 1, by omega⟩
      intro source args w holds
      have graph : w.unguarded.graph = w.graph := rfl
      simp only [propagate, graph]
      cases w.graph.spot source with
      | error cause => exact .inl rfl
      | ok s => exact deliverAll_startOf relaying (ih (by omega)) source args s.links w holds

theorem begin_startOf (relaying : Relaying kind) (le : depth ≤ more) (key : NodeKey) (w : Wave β)
    (holds : w.graph.OfKind kind) :
    (w.begin depth key).StartOf (w.unguarded.begin more key) := by
  have graph : w.unguarded.graph = w.graph := rfl
  simp only [begin, graph]
  cases found : w.graph.behavior key with
  | error cause => exact .inl rfl
  | ok b =>
      obtain ⟨relays, becomes⟩ := relaying.onBegin b (holds key b (Graph.behavior_eq_ok_iff.mp found))
      exact Reaction.run_startOf relaying (propagate_startOf relaying le) key none _ relays becomes _
        holds

end Wave
end StartOf

/-! ### Where a report of a cycle comes from -/

namespace Wave

variable [Behavior β] {kind : β → Prop} {depth : Nat} {link : LinkId} {node : String}

theorem invariant_unguarded :
    Invariant (fun w : Wave β => w.crossed = none) fun _ _ => True where
  push _ _ _ h := h
  setState _ _ h := h
  become _ _ _ _ h := h
  begin _ _ _ _ _ := Reaction.becomes_of_forall (fun _ => trivial) _
  lost w v id l source target h _ _ crossed _ := by
    simp only [cross, h] at crossed
    cases crossed
    exact h
  call w v id l source target args b h _ _ crossed _ := by
    refine ⟨?_, Reaction.becomes_of_forall (fun _ => trivial) _⟩
    simp only [cross, h] at crossed
    cases crossed
    exact h

def Honest (kind : β → Prop) (depth : Nat) (link : LinkId) (node : String) : Prop :=
  ∀ source args (w v : Wave β), w.graph.OfKind kind → w.crossed = none →
    propagate depth source args w = (some (.error (.cycle link node)), v) →
    ∃ b, kind b ∧ Invents b (.cycle link node)

theorem raises_or_invents_of_run (relaying : Relaying kind) (honest : Honest kind depth link node)
    (self : NodeKey) (source : Option SpotRef) (r : Reaction β) (relays : r.Relays)
    (becomes : r.Becomes kind) (w : Wave β) {v : Wave β} (holds : w.graph.OfKind kind)
    (off : w.crossed = none)
    (ran : r.run (propagate depth) self source w = (some (.error (.cycle link node)), v)) :
    r.Raises (.cycle link node) ∨ ∃ b, kind b ∧ Invents b (.cycle link node) := by
  have inv := invariant_ofKind relaying
  induction r generalizing w with
  | done result => exact .inl (Option.some.inj (Prod.mk.inj ran).1)
  | look next ih =>
      obtain raises | invents := ih _ (relays _) (becomes _) w holds off ran
      · exact .inl ⟨_, raises⟩
      · exact .inr invents
  | become b next ih =>
      exact ih relays becomes.2 _ (inv.become w self b becomes.1 holds) off ran
  | setState state next ih => exact ih relays becomes _ (inv.setState w state holds) off ran
  | log level text next ih => exact ih relays becomes _ (inv.push w _ rfl holds) off ran
  | note text next ih => exact ih relays becomes _ (inv.push w _ rfl holds) off ran
  | signal spot args next ih =>
      have start := inv.push w (.send ⟨self, spot⟩ args) rfl holds
      have after := inv.propagate depth ⟨self, spot⟩ args _ start
      have still := invariant_unguarded.propagate depth ⟨self, spot⟩ args
        (w.push (.send ⟨self, spot⟩ args)) off
      rw [Reaction.run_signal] at ran
      rcases sent : propagate depth ⟨self, spot⟩ args (w.push (.send ⟨self, spot⟩ args)) with
        ⟨_ | _ | u, v'⟩ <;> rw [sent] at ran after still
      · cases ran
      · -- The error of a failed signal is also the error of the reaction.
        change (next _).run _ _ _ _ = _ at ran
        rw [Reaction.run_of_endsWith (relays.2 _)] at ran
        cases ran
        exact .inr (honest _ _ _ _ start off sent)
      · exact ih (.ok u) relays.1 (becomes _) v' after still ran

theorem invents_of_deliver (relaying : Relaying kind) (honest : Honest kind depth link node)
    {source : SpotRef} {args : List Value} {id : LinkId} {w v : Wave β}
    (holds : w.graph.OfKind kind) (off : w.crossed = none)
    (ran : deliver (propagate depth) source args id w = (some (.error (.cycle link node)), v)) :
    ∃ b, kind b ∧ Invents b (.cycle link node) := by
  simp only [deliver] at ran
  split at ran
  · cases ran
  split at ran
  · cases ran
  next target far =>
  have crossed : w.cross id source target = .ok w := by simp only [cross, off]
  simp only [crossed] at ran
  split at ran
  · cases ran
  next b found =>
  have member := holds _ b (Graph.behavior_eq_ok_iff.mp found)
  obtain ⟨relays, becomes⟩ := relaying.onSignal b member target.index args
  obtain raises | invents := raises_or_invents_of_run relaying honest target.node (some source) _
    relays becomes _ (by exact holds) (by exact off) ran
  · exact ⟨b, member, .inr ⟨target.index, args, raises⟩⟩
  · exact invents

theorem invents_of_deliverAll (relaying : Relaying kind) (honest : Honest kind depth link node)
    {source : SpotRef} {args : List Value} {ids : List LinkId} {w v : Wave β}
    (holds : w.graph.OfKind kind) (off : w.crossed = none)
    (ran : deliverAll (propagate depth) source args ids w =
      (some (.error (.cycle link node)), v)) : ∃ b, kind b ∧ Invents b (.cycle link node) := by
  induction ids generalizing w with
  | nil => cases ran
  | cons id ids ih =>
      have inv := invariant_ofKind relaying
      have after := inv.deliver (inv.propagate depth) source args id w holds
      have still := invariant_unguarded.deliver (invariant_unguarded.propagate depth) source args id
        w off
      rw [deliverAll_cons] at ran
      rcases first : deliver (propagate depth) source args id w with ⟨_ | _ | _, u⟩ <;>
        rw [first] at ran after still
      · cases ran
      · cases ran
        exact invents_of_deliver relaying honest holds off first
      · exact ih after still ran

theorem honest (relaying : Relaying kind) (depth : Nat) (link : LinkId) (node : String) :
    Honest kind depth link node := by
  induction depth with
  | zero =>
      intro source args w v _ _ ran
      cases ran
  | succ depth ih =>
      intro source args w v holds off ran
      simp only [propagate] at ran
      split at ran
      · cases ran
      · exact invents_of_deliverAll relaying ih holds off ran

theorem invents_of_begin (relaying : Relaying kind) {key : NodeKey} {w v : Wave β}
    (holds : w.graph.OfKind kind) (off : w.crossed = none)
    (ran : w.begin depth key = (some (.error (.cycle link node)), v)) :
    ∃ b, kind b ∧ Invents b (.cycle link node) := by
  simp only [begin] at ran
  split at ran
  · cases ran
  next b found =>
  have member := holds _ b (Graph.behavior_eq_ok_iff.mp found)
  obtain ⟨relays, becomes⟩ := relaying.onBegin b member
  obtain raises | invents := raises_or_invents_of_run relaying (honest relaying depth link node) key
    none _ relays becomes _ (by exact holds) (by exact off) ran
  · exact ⟨b, member, .inl raises⟩
  · exact invents

end Wave
end SignalGraph
