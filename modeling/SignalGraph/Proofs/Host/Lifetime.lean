import SignalGraph.Host.Session
import SignalGraph.Proofs.Builtin.Assigning
import SignalGraph.Proofs.Graph.Atomic
import SignalGraph.Proofs.Wave.Confinement

/-!
The life of an instance of library nodes, over any calls and edits of the host, whether they succeed, fail
or are cut off. An instance begins once, and only ticks after that move its clock. Behaviors of other kinds
could set the clock themselves, so there are none.
-/

namespace SignalGraph

variable {β : Type}

/-- What a host does with an instance: it calls it, or it edits its graph. -/
inductive Move where
  | call (depth : Nat) (s : Instance.Stimulus)
  | addNode (id tag : String) (b : Builtin)
  | removeNode (key : NodeKey)
  | link (a b : SpotRef)
  | disposeLink (id : LinkId)

namespace Move

def isBegin : Move → Bool
  | call _ .begin => true
  | _ => false

def tick? : Move → Option Binary32
  | call _ (.tick delta) => some delta
  | _ => none

/-- The ticks that count: those of an instance that has begun. -/
def deltas (started : Bool) (ms : List Move) : List Binary32 :=
  (if started then ms else ms.dropWhile (¬ ·.isBegin)).filterMap tick?

end Move

namespace Instance

variable [Behavior β] {wrap : Builtin → β} {i j : Instance β}

def move (wrap : Builtin → β) (i : Instance β) : Move → Instance β × List Event
  | .call depth s => (i.respond depth s).2
  | .addNode id tag b =>
    let (_, graph, events) := i.graph.addNode id tag b.type (wrap b)
    ({ i with graph }, events)
  | .removeNode key => ({ i with graph := (i.graph.removeNode key).2 }, [])
  | .link a b => ({ i with graph := (i.graph.link a b).2 }, [])
  | .disposeLink id => ({ i with graph := (i.graph.disposeLink id).2 }, [])

def after (wrap : Builtin → β) (i : Instance β) (ms : List Move) : Instance β :=
  ms.foldl (fun i m => (i.move wrap m).1) i

def entriesBegun (wrap : Builtin → β) : List Move → Instance β → List NodeKey
  | [], _ => []
  | m :: ms, i =>
    ((i.move wrap m).2.filterMap Event.begun?).filter
        (fun key => (i.graph.node? key).any (·.type = .entry)) ++
      entriesBegun wrap ms (i.move wrap m).1

end Instance

/-! ### Edits -/

namespace Graph

variable {wrap : Builtin → β} {g h : Graph β}

/-- Every node carries the library's behavior of its type. -/
def Native (wrap : Builtin → β) (g : Graph β) : Prop :=
  ∀ key s, g.slot? key = some s → ∃ b : Builtin, s.behavior = wrap b ∧ s.node.type = b.type

theorem Native.exists_own (native : g.Native wrap) : ∃ own, g.Carries wrap own := by
  have each (key : NodeKey) : ∃ b : Builtin, ∀ s, g.slot? key = some s →
      s.behavior = wrap b ∧ s.node.type = b.type := by
    cases found : g.slot? key with
    | none => exact ⟨.update, by simp⟩
    | some s =>
        obtain ⟨b, carried⟩ := native key s found
        exact ⟨b, by simpa using carried⟩
  choose own carries using each
  exact ⟨own, carries⟩

theorem Carries.native {own : NodeKey → Builtin} (carries : g.Carries wrap own) : g.Native wrap :=
  fun key s found => ⟨own key, carries key s found⟩

theorem Native.wire (native : g.Native wrap) (links : List (Option Link)) :
    (g.wire links).Native wrap := by
  intro key s found
  rw [slot?_wire] at found
  obtain ⟨t, at_key, rfl⟩ := Option.map_eq_some_iff.mp found
  exact native key t at_key

theorem Native.link (native : g.Native wrap) (sound : g.Sound) (a b : SpotRef) :
    (g.link a b).2.Native wrap := by
  obtain ⟨cause, same⟩ | same := link_cases sound a b
  · rwa [same]
  · rw [same]
    exact native.wire _

theorem Native.disposeLink (native : g.Native wrap) (sound : g.Sound) (id : LinkId) :
    (g.disposeLink id).2.Native wrap := by
  obtain ⟨cause, same⟩ | ⟨l, _, same⟩ := disposeLink_cases sound id
  · rwa [same]
  · rw [same]
    exact native.wire _

theorem Native.removeNode (native : g.Native wrap) (sound : g.Sound) (key : NodeKey) :
    (g.removeNode key).2.Native wrap := by
  obtain ⟨cause, same⟩ | ⟨n, _, same⟩ := removeNode_cases sound key
  · rwa [same]
  · rw [same]
    intro k s found
    rw [slot?_dropNode] at found
    split at found
    · cases found
    · exact native.wire _ k s found

theorem Native.addNode [Behavior β] (hosted : Builtin.Hosted wrap) (native : g.Native wrap)
    (id tag : String) (b : Builtin) : (g.addNode id tag b.type (wrap b)).2.1.Native wrap := by
  obtain ⟨cause, events, same⟩ | ⟨s, _, head, _, ran, added⟩ :=
    addNode_cases g id tag b.type (wrap b)
  · rwa [same]
  rw [added]
  intro key t found
  rw [slot?_pushNode] at found
  split at found
  · cases found
    rw [hosted.setup, Builtin.setup_run wrap b rfl] at ran
    exact ⟨b, (Except.ok.inj (Prod.mk.inj ran).1).symm, head.type⟩
  · exact native key t found

end Graph

/-! ### One move -/

namespace InstanceState

def clock (s : InstanceState) : Binary32 × Binary64 × UInt64 := (s.deltaTime, s.elapsed, s.frame)

theorem clock_assignAll (s : InstanceState) (as : List (String × Value)) :
    (s.assignAll as).clock = s.clock := by
  rw [assignAll_eq]
  rfl

theorem deltaTime_foldl_advance (s : InstanceState) (deltas : List Binary32) :
    (deltas.foldl advance s).deltaTime = deltas.getLast?.getD s.deltaTime := by
  induction deltas generalizing s with
  | nil => rfl
  | cons delta deltas ih =>
      rw [List.foldl_cons, ih, List.getLast?_cons, Option.getD_some]
      rfl

theorem elapsed_foldl_advance (s : InstanceState) (deltas : List Binary32) :
    (deltas.foldl advance s).elapsed = deltas.foldl (fun t delta => t.add delta.widen) s.elapsed := by
  induction deltas generalizing s with
  | nil => rfl
  | cons delta deltas ih => exact ih (s.advance delta)

theorem frame_foldl_advance (s : InstanceState) (deltas : List Binary32)
    (room : s.frame.toNat + deltas.length < UInt64.size) :
    (deltas.foldl advance s).frame.toNat = s.frame.toNat + deltas.length := by
  induction deltas generalizing s with
  | nil => rfl
  | cons delta deltas ih =>
      rw [List.length_cons] at room
      have next : (s.advance delta).frame.toNat = s.frame.toNat + 1 := by
        rw [advance, UInt64.toNat_add]
        exact Nat.mod_eq_of_lt (by change s.frame.toNat + 1 < UInt64.size; omega)
      rw [List.foldl_cons, ih _ (by omega), next, List.length_cons]
      omega

theorem clock_foldl_advance {s t : InstanceState} (same : s.clock = t.clock)
    (deltas : List Binary32) : (deltas.foldl advance s).clock = (deltas.foldl advance t).clock := by
  induction deltas generalizing s t with
  | nil => exact same
  | cons delta deltas ih =>
      refine ih ?_
      obtain ⟨_, elapsed, frame⟩ : s.deltaTime = t.deltaTime ∧ s.elapsed = t.elapsed ∧
        s.frame = t.frame := by simpa [clock] using same
      simp only [clock, advance, elapsed, frame]

theorem clock_of_initial {s : InstanceState} {deltas : List Binary32}
    (same : s.clock = (deltas.foldl advance initial).clock) :
    s.deltaTime = deltas.getLast?.getD ⟨0⟩ ∧
      s.elapsed = deltas.foldl (fun t delta => t.add delta.widen) ⟨0⟩ ∧
      (deltas.length < UInt64.size → s.frame.toNat = deltas.length) := by
  obtain ⟨deltaTime, elapsed, frame⟩ : s.deltaTime = _ ∧ s.elapsed = _ ∧ s.frame = _ := by
    simpa only [clock, Prod.mk.injEq] using same
  refine ⟨deltaTime.trans (deltaTime_foldl_advance _ _), elapsed.trans (elapsed_foldl_advance _ _), ?_⟩
  intro room
  have none_yet : initial.frame.toNat = 0 := rfl
  rw [frame, frame_foldl_advance _ _ (by omega), none_yet, Nat.zero_add]

end InstanceState

namespace Instance

variable [Behavior β] {wrap : Builtin → β} {i j : Instance β}

structure Moves (wrap : Builtin → β) (m : Move) (i j : Instance β) : Prop where
  id : j.id = i.id
  entry : j.entry = i.entry
  started : j.started = (i.started || m.isBegin)
  clock : j.state.clock =
    ((if i.started then m.tick?.toList else []).foldl InstanceState.advance i.state).clock
  reach : j.graph.Reachable
  native : j.graph.Native wrap

theorem Moves.edit {m : Move} {h : Graph β} (still : m.isBegin = false) (timeless : m.tick? = none)
    (reach : h.Reachable) (native : h.Native wrap) : Moves wrap m i { i with graph := h } :=
  ⟨rfl, rfl, by simp [still], by simp [timeless], reach, native⟩

theorem Moves.call (hosted : Builtin.Hosted wrap) (reach : i.graph.Reachable)
    (native : i.graph.Native wrap) (depth : Nat) (s : Stimulus) :
    Moves wrap (.call depth s) i (i.respond depth s).2.1 := by
  obtain ⟨own, carries⟩ := native.exists_own
  obtain ⟨begun, _, lasts, leaves, _⟩ := respond_assigns hosted depth s i carries.lasts
  obtain ⟨own', carries', _⟩ := lasts.exists_carries carries (shape_respond depth s i)
  obtain ⟨_, _, same⟩ := struck_eq i s
  rw [leaves]
  constructor
  case id => exact congrArg (·.id) same
  case entry => exact congrArg (·.entry) same
  case started =>
    cases s with
    | begin => simp [struck, Move.isBegin]
    | tick delta => cases started : i.started <;> simp [struck, Move.isBegin, started]
    | signal spot args => simp [struck, Move.isBegin]
  case clock =>
    rw [InstanceState.clock_assignAll]
    cases s with
    | begin => cases started : i.started <;> simp [struck, Move.tick?]
    | tick delta => cases started : i.started <;> simp [struck, Move.tick?, started]
    | signal spot args => cases started : i.started <;> simp [struck, Move.tick?]
  case reach => exact reach.change (change_respond depth s i)
  case native => exact carries'.native

theorem moves_move (hosted : Builtin.Hosted wrap) (reach : i.graph.Reachable)
    (native : i.graph.Native wrap) (m : Move) : Moves wrap m i (i.move wrap m).1 := by
  have sound := reach.sound
  cases m with
  | call depth s => exact .call hosted reach native depth s
  | addNode id tag b =>
      exact .edit rfl rfl (reach.change (.addNode id tag b.type (wrap b)))
        (native.addNode hosted id tag b)
  | removeNode key =>
      exact .edit rfl rfl (reach.change (.removeNode key)) (native.removeNode sound key)
  | link a b => exact .edit rfl rfl (reach.change (.link a b)) (native.link sound a b)
  | disposeLink id =>
      exact .edit rfl rfl (reach.change (.disposeLink id)) (native.disposeLink sound id)

theorem filterMap_begun?_addNode (g : Graph β) (id tag : String) (type : TypeKey)
    (b : β) : (g.addNode id tag type b).2.2.filterMap Event.begun? = [] := by
  simp only [Graph.addNode]
  split
  · rfl
  split
  · rfl
  split <;> rfl

theorem entriesBegun_move (hosted : Builtin.Hosted wrap) (reach : i.graph.Reachable)
    (native : i.graph.Native wrap) (m : Move) :
    (((i.move wrap m).2.filterMap Event.begun?).filter
        fun key => (i.graph.node? key).any (·.type = .entry)).Sublist
      (if i.started = false ∧ m.isBegin = true then [i.entry] else []) := by
  cases m with
  | call depth s =>
      obtain ⟨own, carries⟩ := native.exists_own
      obtain ⟨begun, sub, _, _, begins⟩ := respond_assigns hosted depth s i carries.lasts
      rw [show (i.move wrap (.call depth s)).2 = (i.respond depth s).2.2 from rfl, begins]
      cases s with
      | begin =>
          have whole : begun.Sublist (if i.started = false then [i.entry] else []) := by
            cases started : i.started <;> simpa [starters, started] using sub
          simpa [Move.isBegin] using List.filter_sublist.trans whole
      | tick delta =>
          have none_entry : (i.graph.keysOfType .update).filter
              (fun key => (i.graph.node? key).any (·.type = .entry)) = [] := by
            rw [List.filter_eq_nil_iff]
            intro key mem
            obtain ⟨n, found, typed⟩ := (Graph.mem_keysOfType_iff reach.sound).mp mem
            have apart : TypeKey.update ≠ .entry := by decide
            simp [found, typed, apart]
          exact (none_entry ▸ sub.filter _).trans (List.nil_sublist _)
      | signal spot args =>
          obtain rfl := List.sublist_nil.mp sub
          exact List.nil_sublist _
  | addNode id tag b =>
      have quiet : (i.move wrap (.addNode id tag b)).2.filterMap Event.begun? = [] :=
        filterMap_begun?_addNode i.graph id tag b.type (wrap b)
      rw [quiet]
      exact List.nil_sublist _
  | removeNode | link | disposeLink => exact List.nil_sublist _

/-! ### Many moves -/

theorem deltas_cons (started : Bool) (m : Move) (ms : List Move) : Move.deltas started (m :: ms) =
    (if started then m.tick?.toList else []) ++ Move.deltas (started || m.isBegin) ms := by
  have timeless (begins : m.isBegin = true) : m.tick? = none := by
    cases m with
    | call depth s => cases s <;> first | rfl | cases begins
    | _ => cases begins
  cases started with
  | true => cases given : m.tick? <;> simp [Move.deltas, given]
  | false =>
      cases begins : m.isBegin with
      | true => simp [Move.deltas, begins, timeless begins]
      | false => simp [Move.deltas, begins]

structure Became (wrap : Builtin → β) (ms : List Move) (i j : Instance β) : Prop where
  id : j.id = i.id
  started : j.started = (i.started || ms.any (·.isBegin))
  clock : j.state.clock =
    ((Move.deltas i.started ms).foldl InstanceState.advance i.state).clock
  entries : (entriesBegun wrap ms i).Sublist (if i.started then [] else [i.entry])

theorem became_after (hosted : Builtin.Hosted wrap) (reach : i.graph.Reachable)
    (native : i.graph.Native wrap) (ms : List Move) : Became wrap ms i (i.after wrap ms) := by
  induction ms generalizing i with
  | nil => exact ⟨rfl, by simp [after], by simp [after, Move.deltas], List.nil_sublist _⟩
  | cons m ms ih =>
      have one := moves_move hosted reach native m
      have entry := entriesBegun_move hosted reach native m
      obtain ⟨id, started, clock, entries⟩ := ih one.reach one.native
      constructor
      case id => exact id.trans one.id
      case started => rw [List.any_cons, ← Bool.or_assoc, ← one.started]; exact started
      case clock =>
        rw [deltas_cons, List.foldl_append, ← one.started]
        exact clock.trans (InstanceState.clock_foldl_advance one.clock _)
      case entries =>
        -- If the first move begins the instance, no later one does.
        rw [one.started, one.entry] at entries
        have once : (if i.started = false ∧ m.isBegin = true then [i.entry] else []) ++
            (if i.started || m.isBegin then [] else [i.entry]) =
              if i.started then [] else [i.entry] := by
          cases i.started <;> cases m.isBegin <;> rfl
        exact once ▸ entry.append entries

structure LifeAfter (wrap : Builtin → β) (ms : List Move) (i j : Instance β) : Prop where
  /-- Also a begin that fails counts. -/
  started : j.started = ms.any (·.isBegin)
  entries : (entriesBegun wrap ms i).Sublist [i.entry]
  again : j.started = true → ∀ depth,
    j.begin depth = (some (.error (.graph (.alreadyBegun i.id))), j, [])
  early : j.started = false → ∀ depth delta,
    j.tick depth delta = (some (.error (.graph (.notBegun i.id))), j, [])
  /-- Also ticks that fail count. -/
  frame : (Move.deltas false ms).length < UInt64.size →
    j.state.frame.toNat = (Move.deltas false ms).length
  deltaTime : j.state.deltaTime = (Move.deltas false ms).getLast?.getD ⟨0⟩
  elapsed : j.state.elapsed = (Move.deltas false ms).foldl (fun t delta => t.add delta.widen) ⟨0⟩
  /-- A loop over the instance runs once. -/
  rerun : ∀ (ticks : UInt32) (delta : Binary32) (depth more : Nat),
    let s := (Session.run depth ⟨j, ticks, delta⟩).2.1
    s.run more = (some (.error (.graph (.alreadyBegun i.id))), s, [])

/-! ### Running a loop -/

theorem begin_of_started (started : i.started = true) (depth : Nat) :
    i.begin depth = (some (.error (.graph (.alreadyBegun i.id))), i, []) := by
  rw [Instance.begin, if_pos started]

theorem tick_of_not_started (waiting : i.started = false) (depth : Nat) (delta : Binary32) :
    i.tick depth delta = (some (.error (.graph (.notBegun i.id))), i, []) := by
  rw [tick, if_neg (by simp [waiting])]

theorem rerun (s : Session β) (depth more : Nat) : (s.run depth).2.1.run more =
    (some (.error (.graph (.alreadyBegun s.running.id))), (s.run depth).2.1, []) := by
  have settles : Settles { s.running with started := true } (s.run depth).2.1.running :=
    settles_andThen (settles_begin depth s.running) (settles_ticks depth s.fixedDelta s.ticks.toNat)
  have begun : (s.run depth).2.1.running.id = s.running.id ∧ (s.run depth).2.1.running.started = true :=
    ⟨congrArg (·.id) settles.same, congrArg (·.started) settles.same⟩
  generalize (s.run depth).2.1 = t at begun
  rw [Session.run, begin_of_started begun.2, begun.1]
  rfl

omit [Behavior β] in
theorem made_by_new {id : InstanceId} {g : Graph β} {sink : LogSink}
    (made : new id g sink = .ok i) : i.graph = g ∧ i.started = false ∧ i.state = .initial := by
  simp only [new] at made
  split at made
  · cases made
  · cases made
    exact ⟨rfl, rfl, rfl⟩
  · cases made

theorem Became.life {ms : List Move} (became : Became wrap ms i j) (unstarted : i.started = false)
    (initial : i.state = .initial) : LifeAfter wrap ms i j := by
  obtain ⟨same, started, clock, entries⟩ := became
  rw [unstarted, initial] at clock
  rw [unstarted] at started entries
  obtain ⟨deltaTime, elapsed, frame⟩ := InstanceState.clock_of_initial clock
  constructor
  case started => exact started
  case entries => exact entries
  case again => intro begun depth; rw [begin_of_started begun, same]
  case early => intro waiting depth delta; rw [tick_of_not_started waiting, same]
  case frame => exact frame
  case deltaTime => exact deltaTime
  case elapsed => exact elapsed
  case rerun =>
    intro ticks delta depth more
    rw [← same]
    exact Instance.rerun ⟨j, ticks, delta⟩ depth more

/-- An instance of library nodes begins at most once, and its clock counts the ticks after that. -/
theorem life_of_new (hosted : Builtin.Hosted wrap) {g : Graph β} (reach : g.Reachable)
    (native : g.Native wrap) {id : InstanceId} {sink : LogSink} (made : new id g sink = .ok i)
    (guard : Bool) (ms : List Move) :
    LifeAfter wrap ms (i.guarded guard) ((i.guarded guard).after wrap ms) := by
  obtain ⟨rfl, unstarted, initial⟩ := made_by_new made
  exact (became_after hosted (i := i.guarded guard) reach native ms).life unstarted initial

end Instance

/-- Under the guard the begin fails, and so does the tick of an update node that is added later. Both count;
the tick before the begin does not. -/
theorem Graph.life_of_feedback :
    let i : Instance Builtin := ⟨⟨0⟩, .feedback, .initial, .collector, ⟨0⟩, false, true⟩
    let before : List Move := [.call 8 (.tick ⟨0x40000000⟩), .call 8 .begin,
      .addNode "clock" "Clock" .update, .link ⟨⟨4⟩, 0⟩ ⟨⟨2⟩, 0⟩]
    let tick : Move := .call 8 (.tick ⟨0x3F800000⟩)
    let j := i.after id (before ++ [tick])
    ((i.after id (before.take 1)).begin 8).1 = some (.error (.cycle ⟨3⟩ "show")) ∧
      ((i.after id before).tick 8 ⟨0x3F800000⟩).1 = some (.error (.cycle ⟨3⟩ "show")) ∧
      j.started = true ∧ j.state.frame.toNat = 1 ∧ j.state.deltaTime = ⟨0x3F800000⟩ := by
  intro i before tick j
  have made : Instance.new ⟨0⟩ .feedback .collector = .ok (i.guarded false) := by decide
  have life : Instance.LifeAfter id (before ++ [tick]) i j :=
    Instance.life_of_new Builtin.hosted_id Graph.reachable_feedback
      (Graph.carries_ownBehavior (by decide)).native made true _
  exact ⟨by decide +kernel, by decide +kernel, life.started, life.frame (by decide), life.deltaTime⟩

end SignalGraph
