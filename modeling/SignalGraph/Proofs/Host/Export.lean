import SignalGraph.Proofs.Document.Canonical
import SignalGraph.Proofs.Host.Lifetime
import SignalGraph.Proofs.Host.Storage
import SignalGraph.Proofs.Wave.Guard

/-!
Whole host runs over files in memory. A run that succeeds reports what happened and stores the graph as it
is in the end, so that it can be loaded again; a run that fails, at whatever point, leaves all files as they
were.
-/

namespace SignalGraph

variable {β : Type}

namespace InstanceState

theorem foldl_advance_assignAll (s : InstanceState) (as : List (String × Value))
    (deltas : List Binary32) :
    deltas.foldl advance (s.assignAll as) = (deltas.foldl advance s).assignAll as := by
  have one (s : InstanceState) (delta : Binary32) :
      (s.assignAll as).advance delta = (s.advance delta).assignAll as := by
    induction as generalizing s with
    | nil => rfl
    | cons a as ih => exact ih (s.setVariable a.1 a.2)
  induction deltas generalizing s with
  | nil => rfl
  | cons delta deltas ih => rw [List.foldl_cons, one, ih, List.foldl_cons]

theorem bindings_foldl_advance (s : InstanceState) (deltas : List Binary32) :
    (deltas.foldl advance s).bindings = s.bindings := by
  induction deltas generalizing s with
  | nil => rfl
  | cons delta deltas ih => exact ih (s.advance delta)

end InstanceState

/-! ### The loop -/

namespace Instance

variable {wrap : Builtin → β} {own : NodeKey → Builtin} {i j k : Instance β}
  {deltas more : List Binary32} {events later : List Event}

theorem andThen_eq_ok {c : Call β} {next : Instance β → Call β}
    (done : andThen c next = (some (.ok ()), k, events)) : ∃ j early late,
      c = (some (.ok ()), j, early) ∧ next j = (some (.ok ()), k, late) ∧ events = early ++ late := by
  simp only [andThen] at done
  split at done
  · next j early =>
      obtain ⟨result, left, rfl⟩ : (next j).1 = some (.ok ()) ∧ (next j).2.1 = k ∧
        early ++ (next j).2.2 = events := by simpa using done
      exact ⟨j, early, (next j).2.2, rfl, by rw [← result, ← left], rfl⟩
  · next stopped => exact absurd done (stopped _ _)

/-- The depth of the command line is enough for the links, so the guard lets none of its runs be cut off. -/
theorem lt_depth (guard : i.cycleGuard = true) : 2 * i.graph.linkCount < i.depth := by
  have few := i.graph.linkCount_le
  rw [depth, if_pos guard]
  omega

variable [Behavior β]

/-- From one instance to a later one some ticks have passed, and the variables have been assigned that the
events tell of. -/
structure Passes (wrap : Builtin → β) (own : NodeKey → Builtin) (deltas : List Binary32)
    (events : List Event) (i j : Instance β) : Prop where
  lasts : j.graph.Lasts wrap own
  reach : j.graph.Reachable
  shape : j.graph.shape = i.graph.shape
  state : j.state = (deltas.foldl .advance i.state).assignAll (assignments own events)

theorem Passes.trans (first : Passes wrap own deltas events i j)
    (second : Passes wrap own more later j k) :
    Passes wrap own (deltas ++ more) (events ++ later) i k where
  lasts := second.lasts
  reach := second.reach
  shape := second.shape.trans first.shape
  state := by
    rw [second.state, first.state, InstanceState.foldl_advance_assignAll, List.foldl_append,
      assignments_append, InstanceState.assignAll_append]

theorem passes_begin (hosted : Builtin.Hosted wrap) (reach : i.graph.Reachable)
    (lasts : i.graph.Lasts wrap own) (depth : Nat) :
    Passes wrap own [] (i.begin depth).2.2 i (i.begin depth).2.1 := by
  obtain ⟨_, _, lasts', leaves, _⟩ := respond_assigns hosted depth .begin i lasts
  exact ⟨lasts', reach.change (.begin i rfl depth), shape_begin depth i,
    congrArg (·.state) leaves⟩

theorem passes_tick (hosted : Builtin.Hosted wrap) (reach : i.graph.Reachable)
    (lasts : i.graph.Lasts wrap own) {depth : Nat} {delta : Binary32}
    (done : i.tick depth delta = (some (.ok ()), j, events)) :
    Passes wrap own [delta] events i j := by
  -- A tick before the begin would have been refused.
  have started : i.started = true := by
    cases started : i.started with
    | true => rfl
    | false => simp [tick, started] at done
  have struck : i.struck (.tick delta) = { i with state := i.state.advance delta } := by
    simp only [Instance.struck, started, if_true]
  obtain ⟨_, _, lasts', leaves, _⟩ := respond_assigns hosted depth (.tick delta) i lasts
  have reach' := reach.change (.tick i rfl depth delta)
  have shape := shape_tick depth delta i
  simp only [respond, done, struck] at lasts' leaves reach' shape
  exact ⟨lasts', reach', shape, congrArg (·.state) leaves⟩

theorem passes_ticks (hosted : Builtin.Hosted wrap) (reach : i.graph.Reachable)
    (lasts : i.graph.Lasts wrap own) {depth : Nat} {delta : Binary32} {count : Nat}
    (done : i.ticks depth delta count = (some (.ok ()), k, events)) :
    Passes wrap own (List.replicate count delta) events i k := by
  induction count generalizing i events with
  | zero =>
      cases done
      exact ⟨lasts, reach, rfl, rfl⟩
  | succ count ih =>
      obtain ⟨j, early, late, ticked, rest, rfl⟩ := andThen_eq_ok done
      have first := passes_tick hosted reach lasts ticked
      exact first.trans (ih first.reach first.lasts rest)

end Instance

namespace Session

variable [Behavior β] {wrap : Builtin → β} {own : NodeKey → Builtin} {s t : Session β}
  {settings : Settings} {instanceId : InstanceId} {types : Registry β} {d : Document}

theorem passes_run (hosted : Builtin.Hosted wrap) (reach : s.running.graph.Reachable)
    (lasts : s.running.graph.Lasts wrap own) {depth : Nat} {report : Report} {events : List Event}
    (done : s.run depth = (some (.ok report), t, events)) :
    Instance.Passes wrap own (List.replicate s.ticks.toNat s.fixedDelta) events s.running t.running ∧
      report = t.report := by
  rw [run] at done
  generalize ran : Instance.andThen (s.running.begin depth)
    (fun i => i.ticks depth s.fixedDelta s.ticks.toNat) = c at done
  obtain ⟨_ | _ | ⟨⟨⟩⟩, j, record⟩ := c
  · cases done
  · cases done
  cases done
  refine ⟨?_, rfl⟩
  obtain ⟨k, early, late, began, ticked, rfl⟩ := Instance.andThen_eq_ok ran
  have first := Instance.passes_begin hosted reach lasts depth
  rw [began] at first
  exact first.trans (Instance.passes_ticks hosted first.reach first.lasts ticked)

theorem isSome_run (sound : s.running.graph.Sound) (guard : s.running.cycleGuard = true)
    {depth : Nat} (enough : 2 * s.running.graph.linkCount < depth) : (s.run depth).1.isSome := by
  have ends : (Instance.andThen (s.running.begin depth) fun i =>
      i.ticks depth s.fixedDelta s.ticks.toNat).1.isSome := by
    refine Instance.isSome_andThen (Instance.isSome_begin sound guard enough) fun j events began => ?_
    have settles := Instance.settles_begin depth s.running
    rw [began] at settles
    exact Instance.isSome_ticks (sound.of_shape settles.shape) (settles.guard.trans guard)
      (Graph.linkCount_eq_of_shape settles.shape ▸ enough) _ _
  rw [run]
  exact Option.isSome_map.trans ends

structure Fresh (settings : Settings) (types : Registry β) (s : Session β) : Prop where
  guard : s.running.cycleGuard = settings.cycleGuard
  loaded : ∃ d calls, Graph.load d types = (.ok s.running.graph, calls)
  state : s.running.state = .initial
  ticks : s.ticks = settings.ticks
  fixedDelta : s.fixedDelta = settings.fixedDelta

theorem fresh_of_ofDocument {calls : List Event}
    (made : ofDocument instanceId d types settings = (.ok s, calls)) : s.Fresh settings types := by
  simp only [ofDocument] at made
  split at made
  · cases made
  next graph calls loaded =>
  split at made
  · cases made
  next fresh new =>
  cases made
  simp only [Session.new, bind, Except.bind] at new
  split at new
  · cases new
  next i bound =>
  cases new
  obtain ⟨rfl, _, initial⟩ := Instance.made_by_new bound
  exact ⟨rfl, ⟨d, calls, loaded⟩, initial, rfl, rfl⟩

theorem load_run (instanceId : InstanceId) (settings : Settings) (types : Registry β) (f : Files) :
    ∃ answer calls, (load instanceId settings types :
        StateM Files (Except HostError (Session β) × List Event)) f = ((answer, calls), f) ∧
      ∀ s, answer = .ok s → ∃ d,
        (Document.ofFile settings.graph : StateM Files (Except HostError Document)) f = (.ok d, f) ∧
          ofDocument instanceId d types settings = (.ok s, calls) := by
  have unread := Document.files_ofFile settings.graph f
  simp only [load, bind, StateT.bind]
  generalize (Document.ofFile settings.graph : StateM Files (Except HostError Document)) f = c at *
  obtain ⟨cause | d, f'⟩ := c
  · cases unread
    exact ⟨.error cause, [], rfl, by simp⟩
  cases unread
  dsimp only
  rcases made : ofDocument instanceId d types settings with ⟨cause | s, calls⟩
  · exact ⟨.error (.run cause), calls, rfl, by simp⟩
  · refine ⟨.ok s, calls, rfl, ?_⟩
    rintro _ ⟨⟩
    exact ⟨d, rfl, made⟩

theorem load_of_ofFile {f : Files} {calls : List Event}
    (read : (Document.ofFile settings.graph : StateM Files (Except HostError Document)) f = (.ok d, f))
    (made : ofDocument instanceId d types settings = (.ok s, calls)) :
    (load instanceId settings types :
      StateM Files (Except HostError (Session β) × List Event)) f = ((.ok s, calls), f) := by
  simp only [load, bind, StateT.bind, read, made]
  rfl

theorem store_run {s : Session β} {saves : List Event} (taken : s.running.graph.snapshot = (.ok d, saves))
    (p : Path) (f : Files) : (s.store p : StateM Files (Except HostError Unit × List Event)) f =
      match f.write p (Utf8.encode d.write) with
      | .error cause => ((.error (.file p cause), saves), f)
      | .ok after => ((.ok (), saves), after) := by
  simp only [store, taken, bind, StateT.bind, FileAccess.write]
  cases f.write p (Utf8.encode d.write) <;> rfl

end Session

/-! ### Whole runs -/

namespace Graph

theorem Carries.ownBehavior {g : Graph Builtin} {own : NodeKey → Builtin} (carries : g.Carries id own) :
    g.Carries id g.ownBehavior := by
  intro key s found
  have agrees : g.ownBehavior key = own key := by
    simp only [Graph.ownBehavior, behavior?, found, Option.map_some, Option.getD_some]
    exact (carries key s found).1
  rw [agrees]
  exact carries key s found

end Graph

theorem Builtin.textSize_lasting (b : Builtin) : b.lasting.textSize = b.textSize := by
  cases b <;> rfl

namespace Session

variable {settings : Settings} {s t : Session Builtin} {depth : Nat} {report : Report}
  {events : List Event}

/-- What the report of a loop tells. -/
structure Tells (settings : Settings) (own : NodeKey → Builtin) (events : List Event)
    (report : Report) : Prop where
  frames : report.frames = settings.ticks.toUInt64
  elapsed : report.elapsed =
    (List.replicate settings.ticks.toNat settings.fixedDelta).foldl (fun t delta => t.add delta.widen) ⟨0⟩
  names : report.bindings.map (·.1) = ((assignments own events).map (·.1)).eraseDups
  values : ∀ name, report.bindings.lookup name = (assignments own events).reverse.lookup name

theorem tells_of_run (fresh : s.Fresh settings (Builtin.registry id))
    (ran : s.run depth = (some (.ok report), t, events)) :
    Tells settings s.running.graph.ownBehavior events report := by
  obtain ⟨_, ⟨d, calls, given⟩, initial, ticks, fixedDelta⟩ := fresh
  obtain ⟨_, own, carried, _⟩ := Document.exists_own_of_load Builtin.hosted_id given
  obtain ⟨passes, rfl⟩ := passes_run Builtin.hosted_id (.load given) carried.ownBehavior.lasts ran
  have state := passes.state
  rw [initial, ticks, fixedDelta] at state
  -- The ticks move only the clock, and the assignments change only the variables.
  have bindings : t.running.state.bindings =
      (InstanceState.initial.assignAll (assignments s.running.graph.ownBehavior events)).bindings := by
    rw [state, ← InstanceState.foldl_advance_assignAll, InstanceState.bindings_foldl_advance]
  obtain ⟨_, elapsed, frame⟩ := InstanceState.clock_of_initial
    ((congrArg InstanceState.clock state).trans (InstanceState.clock_assignAll _ _))
  constructor
  case frames =>
    have few : settings.ticks.toNat < UInt64.size := Nat.lt_trans settings.ticks.toNat_lt (by decide)
    rw [List.length_replicate] at frame
    apply UInt64.toNat.inj
    rw [UInt32.toNat_toUInt64]
    exact frame few
  case elapsed => exact elapsed
  case names =>
    change t.running.state.bindings.map (·.1) = _
    rw [bindings, InstanceState.names_assignAll _ _ rfl]
  case values =>
    intro name
    change t.running.state.bindings.lookup name = _
    rw [bindings, InstanceState.lookup_assignAll]
    exact Option.or_none

theorem exists_snapshot_of_run (fresh : s.Fresh settings (Builtin.registry id))
    (ran : s.run depth = (some (.ok report), t, events)) :
    ∃ d saves, t.running.graph.snapshot = (.ok d, saves) ∧ d.version = Document.currentVersion ∧
      ∃ g calls, Graph.load d (Builtin.registry id) = (.ok g, calls) := by
  obtain ⟨_, ⟨d, calls, given⟩, _⟩ := fresh
  obtain ⟨_, own, carries, small, _⟩ := Document.exists_own_of_load Builtin.hosted_id given
  obtain ⟨⟨lasts, reach, shape, _⟩, _⟩ :=
    passes_run Builtin.hosted_id (.load given) carries.lasts ran
  obtain ⟨own', carries', same⟩ := lasts.exists_carries carries shape
  have sized (key : NodeKey) : (own' key).textSize < 2 ^ 64 := by
    rw [← Builtin.textSize_lasting, same, Builtin.textSize_lasting]
    exact small key
  obtain ⟨d', saves, g, calls', taken, loaded, _⟩ := Graph.exists_load_snapshot Builtin.hosted_id
    reach.sound reach.legal reach.fits (reach.declared Builtin.hosted_id) carries' sized
  have version : d'.version = Document.currentVersion :=
    (Graph.snapshot_eq_ok_iff.mp (by rw [taken])).2.1
  exact ⟨d', saves, taken, version, g, calls', loaded⟩

end Session

namespace Settings

/-- A run that has succeeded: a session was loaded and has run, the report tells what happened, and the graph
that is left is stored where the settings say. -/
structure Completed (settings : Settings) (instanceId : InstanceId)
    (depth : Instance Builtin → Nat) (files after : Files) (report : Report)
    (s t : Session Builtin) (events : List Event) : Prop where
  loaded : ∃ calls, (Session.load instanceId settings (Builtin.registry id) :
    StateM Files (Except HostError (Session Builtin) × List Event)) files = ((.ok s, calls), files)
  ran : s.run (depth s.running) = (some (.ok report), t, events)
  tells : Session.Tells settings s.running.graph.ownBehavior events report
  unexported : settings.exportPath = none → after = files
  exported : ∀ p, settings.exportPath = some p → files.SameBeside p after ∧
    ∃ d, t.running.graph.snapshot.1 = .ok d ∧
      (Document.ofFile p : StateM Files (Except HostError Document)) after = (.ok d, after) ∧
      ∃ g calls, Graph.load d (Builtin.registry id) = (.ok g, calls)

structure AllOrNothing (settings : Settings) (instanceId : InstanceId)
    (depth : Instance Builtin → Nat) (files after : Files)
    (result : Option (Except HostError Report)) : Prop where
  nothing : (∀ report, result ≠ some (.ok report)) → after = files
  all : ∀ report, result = some (.ok report) →
    ∃ s t events, settings.Completed instanceId depth files after report s t events
  /-- If the loop ends well, only the export itself can fail. -/
  succeeds : ∀ s t calls events report, (Session.load instanceId settings (Builtin.registry id) :
      StateM Files (Except HostError (Session Builtin) × List Event)) files = ((.ok s, calls), files) →
    s.run (depth s.running) = (some (.ok report), t, events) →
    (∀ p, settings.exportPath = some p → ∃ bytes f, files.write p bytes = .ok f) →
    result = some (.ok report)
  /-- The guard lets no run be cut off within a depth that is enough for the links. -/
  ends : settings.cycleGuard = true →
    (∀ i : Instance Builtin, i.cycleGuard = true → 2 * i.graph.linkCount < depth i) → result.isSome

variable {settings : Settings} {instanceId : InstanceId} {depth : Instance Builtin → Nat} {files after : Files} {s t : Session Builtin}
  {report : Report} {events calls : List Event}

theorem Completed.allOrNothing
    (completed : settings.Completed instanceId depth files after report s t events) :
    settings.AllOrNothing instanceId depth files after (some (.ok report)) where
  nothing other := absurd rfl (other report)
  all := by
    rintro _ ⟨⟩
    exact ⟨s, t, events, completed⟩
  succeeds := by
    intro s' t' calls' events' report' loaded' ran' _
    obtain ⟨calls, loaded⟩ := completed.loaded
    cases loaded.symm.trans loaded'
    cases completed.ran.symm.trans ran'
    rfl
  ends _ _ := rfl

/-- A run without success leaves the files alone. If it came to the export, that was not possible. -/
theorem allOrNothing_of_failed (depth : Instance Builtin → Nat)
    {answer : Except HostError (Session Builtin)}
    (loaded : (Session.load instanceId settings (Builtin.registry id) :
      StateM Files (Except HostError (Session Builtin) × List Event)) files = ((answer, calls), files))
    (result : Option (Except HostError Report)) (failed : ∀ report, result ≠ some (.ok report))
    (ends : settings.cycleGuard = true →
      (∀ i : Instance Builtin, i.cycleGuard = true → 2 * i.graph.linkCount < depth i) → result.isSome)
    (excused : ∀ s t events report, answer = .ok s →
      s.run (depth s.running) = (some (.ok report), t, events) →
      ∃ p, settings.exportPath = some p ∧ ∀ bytes f, files.write p bytes ≠ .ok f) :
    settings.AllOrNothing instanceId depth files files result where
  nothing _ := rfl
  all report succeeded := absurd succeeded (failed report)
  succeeds := by
    intro s t calls' events report loaded' ran writable
    cases loaded.symm.trans loaded'
    obtain ⟨p, exports, unwritable⟩ := excused s t events report rfl ran
    obtain ⟨bytes, f, written⟩ := writable p exports
    exact absurd written (unwritable bytes f)
  ends := ends

/-- A run over files that fails, or is cut off, changes none of them. If it succeeds it reports all ticks, and
every variable with its last value; it stores the graph as it is then where it should, so that it can be
loaded again, and changes nothing else. So it is within every depth. -/
theorem run_all_or_nothing (settings : Settings) (instanceId : InstanceId)
    (depth : Instance Builtin → Nat) (files : Files) :
    let c := (settings.run instanceId (Builtin.registry id) depth :
      StateM Files (Option (Except HostError Report) × List Event)) files
    settings.AllOrNothing instanceId depth files c.2 c.1.1 := by
  intro c
  obtain ⟨answer, calls, loaded, document⟩ :=
    Session.load_run instanceId settings (Builtin.registry id) files
  have fails := allOrNothing_of_failed depth loaded
  simp only [c, run, bind, StateT.bind, loaded]
  cases answer with
  | error cause => exact fails (some (.error cause)) (by simp) (fun _ _ => rfl) (by simp)
  | ok s =>
  obtain ⟨_, _, made⟩ := document s rfl
  have fresh := Session.fresh_of_ofDocument made
  dsimp only
  rcases ran : s.run (depth s.running) with ⟨_ | cause | report, t, events⟩
  · refine fails none (by simp) (fun guarded enough => ?_) ?_
    · obtain ⟨guard, ⟨_, _, given⟩, _⟩ := fresh
      have on := guard.trans guarded
      have ended := Session.isSome_run (Graph.Reachable.load given).sound on (enough s.running on)
      rwa [ran] at ended
    · rintro _ _ _ _ ⟨⟩ ended
      cases ran.symm.trans ended
  · refine fails (some (.error (.run cause))) (by simp) (fun _ _ => rfl) ?_
    rintro _ _ _ _ ⟨⟩ ended
    cases ran.symm.trans ended
  -- The loop has ended well, and only the export is left.
  have tells := Session.tells_of_run fresh ran
  obtain ⟨d, saves, taken, version, again⟩ := Session.exists_snapshot_of_run fresh ran
  cases exports : settings.exportPath with
  | none =>
      have completed : settings.Completed instanceId depth files files report s t events :=
        ⟨⟨calls, loaded⟩, ran, tells, fun _ => rfl, fun p named => by simp [exports] at named⟩
      exact completed.allOrNothing
  | some p =>
  simp only [StateT.bind, Session.store_run taken]
  cases written : files.write p (Utf8.encode d.write) with
  | error cause =>
      refine fails (some (.error (.file p cause))) (by simp) (fun _ _ => rfl) ?_
      intro _ _ _ _ _ _
      refine ⟨p, exports, fun bytes f possible => ?_⟩
      obtain ⟨_, possible⟩ := Files.exists_write possible (Utf8.encode d.write)
      cases written.symm.trans possible
  | ok after =>
      have completed : settings.Completed instanceId depth files after report s t events := by
        refine ⟨⟨calls, loaded⟩, ran, tells, by simp [exports], fun q named => ?_⟩
        obtain rfl := Option.some.inj (exports.symm.trans named)
        exact ⟨Files.sameBeside_of_write written, d, by rw [taken], Document.ofFile_of_read
          (version ▸ UInt32.le_refl _) (Files.read_of_write written), again⟩
      exact completed.allOrNothing

end Settings

def Document.keeping : Document where
  name := "keeping"
  version := 1
  nodes := [⟨"start", "Start", .entry, []⟩, ⟨"clock", "Clock", .update, []⟩,
    ⟨"keep", "Keep", .setVariable, [1, 0, 0, 0, 0, 0, 0, 0, 120]⟩]
  links := [⟨⟨"clock", "out"⟩, ⟨"keep", "in"⟩⟩]

def Files.keeping : Files :=
  ⟨[(⟨.above 0, [[0x67]]⟩, .file (Utf8.encode Document.keeping.write))]⟩

/-- Two ticks, after which the graph replaces itself in its file. -/
def Settings.replacing : Settings :=
  { Settings.forGraph ⟨[0x67]⟩ with ticks := 2, exportPath := some ⟨[0x67]⟩, cycleGuard := true }

theorem Settings.run_replacing :
    (∀ files, ((Settings.replacing.run ⟨0⟩ (Builtin.registry id) Instance.depth :
      StateM Files (Option (Except HostError Report) × List Event)) files).1.1.isSome) ∧
    ∃ report : Report, report.bindings = [("x", .float Settings.replacing.fixedDelta)] ∧
      let c := (Settings.replacing.run ⟨0⟩ (Builtin.registry id) Instance.depth :
        StateM Files (Option (Except HostError Report) × List Event)) .keeping
      c.1.1 = some (.ok report) ∧ ∃ d,
        (Document.ofFile ⟨[0x67]⟩ : StateM Files (Except HostError Document)) c.2 = (.ok d, c.2) := by
  refine ⟨fun files => ?_, ?_⟩
  · exact (run_all_or_nothing .replacing ⟨0⟩ Instance.depth files).ends rfl fun _ => Instance.lt_depth
  have run := run_all_or_nothing .replacing ⟨0⟩ Instance.depth .keeping
  generalize (Settings.replacing.run ⟨0⟩ (Builtin.registry id) Instance.depth :
    StateM Files (Option (Except HostError Report) × List Event)) .keeping = c at run ⊢
  have stored : Files.keeping.read ⟨[0x67]⟩ = .ok (Utf8.encode Document.keeping.write) := rfl
  have ends : ((Session.ofDocument ⟨0⟩ .keeping (Builtin.registry id) .replacing).1.toOption.bind
      fun s => (s.run s.running.depth).1).bind (·.toOption.map (·.bindings)) =
        some [("x", .float Settings.replacing.fixedDelta)] := by
    decide +kernel
  rcases made : Session.ofDocument ⟨0⟩ .keeping (Builtin.registry id) .replacing with ⟨_ | s, calls⟩
  · rw [made] at ends
    cases ends
  rw [made] at ends
  rcases ran : s.run s.running.depth with ⟨_ | _ | report, t, events⟩
  · simp [Except.toOption, ran] at ends
  · simp [Except.toOption, ran] at ends
  have loaded := Session.load_of_ofFile (Document.ofFile_of_read (by decide) stored) made
  have writable (p : Path) (named : Settings.replacing.exportPath = some p) :
      ∃ bytes f, Files.keeping.write p bytes = .ok f := by
    cases named
    exact ⟨[], _, rfl⟩
  have succeeded := run.succeeds s t calls events report loaded ran writable
  obtain ⟨_, _, _, completed⟩ := run.all report succeeded
  obtain ⟨_, d, _, replaced, _⟩ := completed.exported ⟨[0x67]⟩ rfl
  exact ⟨report, by simpa [Except.toOption, ran] using ends, succeeded, d, replaced⟩

end SignalGraph
