import SignalGraph.Proofs.Graph.Reachable
import SignalGraph.Proofs.Wave.Unguarded

/-!
The errors that are raised while a wave runs, each with what raised it and with the wave as it was at that
moment. They are collected along the whole run, past the first one too, so nothing about their collection
says that an error ends anything. Among behaviors that relay errors it does: whatever error is raised, the
wave is over at once, with that error and in that state. What other behaviors make of an error is left open.
-/

namespace SignalGraph

variable {β : Type}

inductive Origin where
  /-- A behavior ends a call with the error. -/
  | hook (node : NodeKey)
  /-- A signal is to leave a spot that does not exist. -/
  | spot (ref : SpotRef)
  /-- The cycle guard sees a link crossed again from one end. -/
  | guard (link : LinkId) (source : SpotRef)
  | node (key : NodeKey)
  | link (id : LinkId)
deriving DecidableEq

def Origin.isUsual : Origin → Bool
  | hook _ | spot _ | guard _ _ => true
  | node _ | link _ => false

/-- An error at the moment when it is raised. -/
structure Failure (σ : Type) where
  origin : Origin
  cause : RunError
  moment : σ

def Failure.map {σ τ : Type} (f : σ → τ) (e : Failure σ) : Failure τ :=
  ⟨e.origin, e.cause, f e.moment⟩

abbrev Watch (β : Type) := SpotRef → List Value → Wave β → List (Failure (Wave β))

/-- The errors raised while a reaction is carried out. `sent` tells those that its signals meet with. -/
def Reaction.failures (send : Send β) (sent : Watch β) (self : NodeKey) (source : Option SpotRef) :
    Reaction β → Wave β → List (Failure (Wave β))
  | done (.ok _), _ => []
  | done (.error cause), w => [⟨.hook self, cause, w⟩]
  | look next, w => (next (w.view self source)).failures send sent self source w
  | become behavior next, w =>
    next.failures send sent self source { w with graph := w.graph.setBehavior self behavior }
  | setState state next, w => next.failures send sent self source { w with state }
  | log level text next, w =>
    next.failures send sent self source (w.push (.log level (w.tagOf self) text))
  | note text next, w => next.failures send sent self source (w.push (.note text))
  | signal spot args next, w =>
    sent ⟨self, spot⟩ args (w.push (.send ⟨self, spot⟩ args)) ++
      match send ⟨self, spot⟩ args (w.push (.send ⟨self, spot⟩ args)) with
      | (none, _) => []
      | (some result, w) => (next result).failures send sent self source w

namespace Wave

variable [Behavior β]

def deliverFailures (send : Send β) (sent : Watch β) (source : SpotRef) (args : List Value)
    (id : LinkId) (w : Wave β) : List (Failure (Wave β)) :=
  match w.graph.link? id with
  | none => []
  | some l =>
    match l.farEnd source with
    | .error cause => [⟨.link id, .graph cause, w⟩]
    | .ok target =>
      match w.cross id source target with
      | .error cause => [⟨.guard id source, cause, w⟩]
      | .ok w =>
        match w.graph.behavior target.node with
        | .error cause => [⟨.node target.node, .graph cause, w⟩]
        | .ok b =>
          (Behavior.onSignal b target.index args).failures send sent target.node (some source)
            (w.push (.signal target.node target.index source args))

def deliverAllFailures (send : Send β) (sent : Watch β) (source : SpotRef) (args : List Value) :
    List LinkId → Wave β → List (Failure (Wave β))
  | [], _ => []
  | id :: rest, w =>
    deliverFailures send sent source args id w ++
      match deliver send source args id w with
      | (some (.ok ()), w) => deliverAllFailures send sent source args rest w
      | _ => []

def propagateFailures : (depth : Nat) → Watch β
  | 0, _, _, _ => []
  | depth + 1, source, args, w =>
    match w.graph.spot source with
    | .error cause => [⟨.spot source, .graph cause, w⟩]
    | .ok s => deliverAllFailures (propagate depth) (propagateFailures depth) source args s.links w

def beginFailures (depth : Nat) (key : NodeKey) (w : Wave β) : List (Failure (Wave β)) :=
  match w.graph.behavior key with
  | .error cause => [⟨.node key, .graph cause, w⟩]
  | .ok b =>
    (Behavior.onBegin b).failures (propagate depth) (propagateFailures depth) key none
      (w.push (.begin key))

end Wave

/-- Every error raised in the run is the one that it ended with, in the state that it ended in, and
without one it did not end with an error. -/
structure Halts {σ : Type} (run : Option (Except RunError Unit) × σ) (raised : List (Failure σ)) :
    Prop where
  ended : ∀ e ∈ raised, run = (some (.error e.cause), e.moment)
  raised_of_error : ∀ cause, run.1 = some (.error cause) → raised ≠ []

namespace Halts

variable {σ : Type} {raised more : List (Failure σ)}

theorem of_other {run : Option (Except RunError Unit) × σ}
    (other : ∀ cause, run.1 ≠ some (.error cause)) : Halts run [] :=
  ⟨by simp, fun cause ended => absurd ended (other cause)⟩

theorem of_error (origin : Origin) (cause : RunError) (s : σ) :
    Halts (some (.error cause), s) [⟨origin, cause, s⟩] :=
  ⟨by simp, by simp⟩

theorem eq_nil {run : Option (Except RunError Unit) × σ} (halts : Halts run raised)
    (other : ∀ cause, run.1 ≠ some (.error cause)) : raised = [] := by
  rw [List.eq_nil_iff_forall_not_mem]
  intro e mem
  exact other e.cause (congrArg Prod.fst (halts.ended e mem))

theorem append {run : Option (Except RunError Unit) × σ} (halts : Halts run raised)
    (later : ∀ e ∈ more, run = (some (.error e.cause), e.moment)) : Halts run (raised ++ more) := by
  refine ⟨?_, ?_⟩
  · intro e mem
    obtain old | new := List.mem_append.mp mem
    · exact halts.ended e old
    · exact later e new
  · intro cause ended
    exact List.append_ne_nil_of_left_ne_nil (halts.raised_of_error cause ended) more

end Halts

structure Graph.Ready (kind : β → Prop) (g : Graph β) : Prop where
  sound : g.Sound
  ofKind : g.OfKind kind

section Halts

variable [Behavior β] {kind : β → Prop}

theorem Wave.invariant_ready (relaying : Relaying kind) :
    Invariant (fun w : Wave β => w.graph.Ready kind) fun _ => kind where
  push _ _ _ h := h
  setState _ _ h := h
  become w self b holds h := ⟨h.sound.of_shape (w.graph.shape_setBehavior self b),
    (invariant_ofKind relaying).become w self b holds h.ofKind⟩
  begin w key b h found := (relaying.onBegin b (h.ofKind key b found)).2
  lost w v id l source target h _ _ crossed _ := by
    rw [eq_of_cross crossed]
    exact h
  call w v id l source target args b h _ _ crossed found :=
    ⟨by rw [eq_of_cross crossed]; exact h,
      (relaying.onSignal b (h.ofKind target.node b found) target.index args).2⟩

omit [Behavior β] in
theorem Reaction.failures_of_endsWith {cause : RunError} {r : Reaction β} (ends : r.EndsWith cause)
    (send : Send β) (sent : Watch β) (self : NodeKey) (source : Option SpotRef) (w : Wave β) :
    r.failures send sent self source w = [⟨.hook self, cause, w⟩] := by
  induction r with
  | done result =>
      obtain rfl : result = .error cause := ends
      rfl
  | look next ih => exact ih _ (ends _)
  | become _ _ | setState _ _ | log _ _ _ | note _ _ | signal _ _ _ => exact ends.elim

/-- Sending comes to an end with the first error that is raised, and all errors are raised by
behaviors, by the look-up of spots, or by the guard. -/
def Send.Stops (kind : β → Prop) (send : Send β) (sent : Watch β) : Prop :=
  ∀ source args (w : Wave β), w.graph.Ready kind →
    Halts (send source args w) (sent source args w) ∧ ∀ e ∈ sent source args w, e.origin.isUsual

theorem Reaction.run_stops (relaying : Relaying kind) {send : Send β} {sent : Watch β}
    (kept : Wave.Invariant.Kept (fun w => w.graph.Ready kind) send) (stops : send.Stops kind sent)
    (self : NodeKey) (source : Option SpotRef) (r : Reaction β) (relays : r.Relays)
    (becomes : r.Becomes kind) (w : Wave β) (ready : w.graph.Ready kind) :
    Halts (r.run send self source w) (r.failures send sent self source w) ∧
      ∀ e ∈ r.failures send sent self source w, e.origin.isUsual := by
  have inv := Wave.invariant_ready relaying
  induction r generalizing w with
  | done result =>
      cases result with
      | ok _ => exact ⟨.of_other (by simp [run]), by simp [failures]⟩
      | error cause => exact ⟨.of_error _ _ _, by simp [failures, Origin.isUsual]⟩
  | look next ih => exact ih _ (relays _) (becomes _) w ready
  | become b next ih => exact ih relays becomes.2 _ (inv.become w self b becomes.1 ready)
  | setState state next ih => exact ih relays becomes _ (inv.setState w state ready)
  | log level text next ih => exact ih relays becomes _ (inv.push w _ rfl ready)
  | note text next ih => exact ih relays becomes _ (inv.push w _ rfl ready)
  | signal spot args next ih =>
      have start := inv.push w (.send ⟨self, spot⟩ args) rfl ready
      have after := kept ⟨self, spot⟩ args _ start
      obtain ⟨halts, usual⟩ := stops ⟨self, spot⟩ args _ start
      simp only [run, failures]
      rcases ran : send ⟨self, spot⟩ args (w.push (.send ⟨self, spot⟩ args)) with
        ⟨_ | cause | u, v⟩ <;> rw [ran] at after halts
      · rw [halts.eq_nil (by simp)]
        exact ⟨.of_other (by simp), by simp⟩
      · -- The reaction passes on the error of its signal, in the state in which that was raised.
        have ends := relays.2 cause
        simp only [run_of_endsWith ends, failures_of_endsWith ends]
        refine ⟨halts.append (by simp), ?_⟩
        intro e mem
        obtain old | new := List.mem_append.mp mem
        · exact usual e old
        · rw [List.mem_singleton.mp new]
          rfl
      · rw [halts.eq_nil (by simp)]
        exact ih (.ok u) relays.1 (becomes _) v after

namespace Wave

theorem deliver_stops (relaying : Relaying kind) {send : Send β} {sent : Watch β}
    (kept : Invariant.Kept (fun w => w.graph.Ready kind) send) (stops : send.Stops kind sent)
    (source : SpotRef) (args : List Value) (id : LinkId) (w : Wave β) (ready : w.graph.Ready kind)
    (near : ∀ l, w.graph.link? id = some l → l.touches source) :
    Halts (deliver send source args id w) (deliverFailures send sent source args id w) ∧
      ∀ e ∈ deliverFailures send sent source args id w, e.origin.isUsual := by
  cases live : w.graph.link? id with
  | none =>
      simp only [deliver, deliverFailures, live]
      exact ⟨.of_other (by simp), by simp⟩
  | some l =>
  obtain ⟨target, far⟩ := Link.farEnd_of_touches (near l live)
  cases crossed : w.cross id source target with
  | error cause =>
      simp only [deliver, deliverFailures, live, far, crossed]
      exact ⟨.of_error _ _ _, by simp [Origin.isUsual]⟩
  | ok v =>
  have same : v.graph = w.graph := by rw [eq_of_cross crossed]
  obtain ⟨b, found⟩ : ∃ b, w.graph.behavior? target.node = some b := by
    rw [← Option.isSome_iff_exists, Graph.behavior?_isSome_iff]
    exact ready.sound.isSome_node?_of_farEnd live far
  have behaves : v.graph.behavior target.node = .ok b := by
    rw [same]
    exact Graph.behavior_eq_ok_iff.mpr found
  obtain ⟨relays, becomes⟩ := relaying.onSignal b (ready.ofKind _ b found) target.index args
  have called := ((invariant_ready relaying).call w v id l source target args b ready live far
    crossed found).1
  simp only [deliver, deliverFailures, live, far, crossed, behaves]
  exact Reaction.run_stops relaying kept stops target.node (some source) _ relays becomes _ called

theorem deliverAll_stops (relaying : Relaying kind) {send : Send β} {sent : Watch β}
    (kept : Invariant.Kept (fun w => w.graph.Ready kind) send)
    (still : ∀ shape, Invariant.Kept (fun w => w.graph.shape = shape) send)
    (stops : send.Stops kind sent) (source : SpotRef) (args : List Value) (ids : List LinkId)
    (w : Wave β) (ready : w.graph.Ready kind)
    (near : ∀ id ∈ ids, ∀ l, w.graph.link? id = some l → l.touches source) :
    Halts (deliverAll send source args ids w) (deliverAllFailures send sent source args ids w) ∧
      ∀ e ∈ deliverAllFailures send sent source args ids w, e.origin.isUsual := by
  induction ids generalizing w with
  | nil => exact ⟨.of_other (by simp [deliverAll]), by simp [deliverAllFailures]⟩
  | cons id ids ih =>
      obtain ⟨halts, usual⟩ := deliver_stops relaying kept stops source args id w ready
        (near id (by simp))
      have after := (invariant_ready relaying).deliver kept source args id w ready
      have shape := (invariant_shape w.graph.shape).deliver (still _) source args id w rfl
      simp only [deliverAll, deliverAllFailures]
      rcases first : deliver send source args id w with ⟨_ | cause | u, v⟩ <;>
        rw [first] at halts after shape
      · exact ⟨halts.append (by simp), by simpa using usual⟩
      · exact ⟨halts.append (by simp), by simpa using usual⟩
      · rw [halts.eq_nil (by simp)]
        refine ih v after ?_
        intro id mem l live
        rw [Graph.link?, Graph.links_eq_of_shape shape] at live
        exact near id (by simp [mem]) l live

theorem propagate_stops (relaying : Relaying kind) (depth : Nat) :
    Send.Stops kind (propagate (β := β) depth) (propagateFailures depth) := by
  induction depth with
  | zero => exact fun _ _ _ _ => ⟨.of_other (by simp [propagate]), by simp [propagateFailures]⟩
  | succ depth ih =>
      intro source args w ready
      simp only [propagate, propagateFailures]
      cases found : w.graph.spot source with
      | error cause => exact ⟨.of_error _ _ _, by simp [Origin.isUsual]⟩
      | ok s =>
          have kept := (invariant_ready relaying).propagate depth
          refine deliverAll_stops relaying kept (fun shape => (invariant_shape shape).propagate depth)
            ih source args s.links w ready ?_
          intro id listed l live
          rw [ready.sound.wired source s (Graph.spot_eq_ok_iff.mp found),
            LinkArena.mem_touching_iff ready.sound.numbered] at listed
          obtain ⟨m, at_id, touches⟩ := listed
          cases (Graph.link?_eq_some_iff.mpr at_id).symm.trans live
          exact touches

theorem begin_stops (relaying : Relaying kind) (depth : Nat) (key : NodeKey) (w : Wave β)
    (ready : w.graph.Ready kind) :
    Halts (w.begin depth key) (beginFailures depth key w) ∧
      ∀ e ∈ beginFailures depth key w,
        e.origin.isUsual ∨ e.origin = .node key ∧ w.graph.node? key = none := by
  simp only [begin, beginFailures]
  cases found : w.graph.behavior key with
  | error cause =>
      refine ⟨.of_error _ _ _, ?_⟩
      intro e mem
      rw [List.mem_singleton.mp mem]
      refine .inr ⟨rfl, ?_⟩
      cases live : w.graph.behavior? key with
      | none => simpa [Graph.behavior?, Graph.node?] using live
      | some b =>
          rw [Graph.behavior_eq_ok_iff.mpr live] at found
          cases found
  | ok b =>
      have here := Graph.behavior_eq_ok_iff.mp found
      obtain ⟨relays, becomes⟩ := relaying.onBegin b (ready.ofKind key b here)
      have inv := invariant_ready relaying
      obtain ⟨halts, usual⟩ := Reaction.run_stops relaying (inv.propagate depth)
        (propagate_stops relaying depth) key none _ relays becomes _ (inv.push w (.begin key) rfl ready)
      exact ⟨halts, fun e mem => .inl (usual e mem)⟩

end Wave
end Halts
end SignalGraph
