import SignalGraph.Proofs.Host.SettingsText
import SignalGraph.Proofs.Host.Storage

/-!
Settings that are saved and loaded again. The text of settings is read back field by field, whatever the texts
and paths hold, and a file that can be written has a directory that the paths are then seen from. A change of
the settings between the two is left out, and so is a change of the file.
-/

namespace SignalGraph

/-! ### Directories of files -/

namespace Path

theorem trivial_of_trim {parts : List (List UInt8)} (none : trim parts = []) :
    ∀ part ∈ parts, part.isEmpty ∨ part = dot := by
  intro part mem
  have all := List.dropWhile_eq_nil_iff.mp (List.reverse_eq_nil_iff.mp none)
  simpa using all part (List.mem_reverse.mpr mem)

/-- Only paths that name nothing have no parent. -/
theorem trivial_of_parent? {p : Path} (orphan : p.parent? = none) :
    ∀ part ∈ splitBytes p.bytes, part.isEmpty ∨ part = dot := by
  simp only [parent?] at orphan
  split at orphan
  case h_2 => cases orphan
  case h_1 nothing =>
    have trivial := trivial_of_trim nothing
    have no_dot : p.anchor ≠ dot := fun here => by simp [here] at orphan
    by_cases absolute : p.isAbsolute = true
    · obtain ⟨rest, spelled⟩ := List.head?_eq_some_iff.mp (of_decide_eq_true absolute)
      simp only [anchor, if_pos absolute, spelled, List.length_singleton, List.drop_one, List.tail_cons] at trivial
      intro part mem
      rw [spelled, splitBytes, if_pos rfl, List.mem_cons] at mem
      rcases mem with rfl | mem
      · exact .inl rfl
      · exact trivial part mem
    · simp only [anchor, if_neg absolute] at trivial no_dot
      split at no_dot
      · exact absurd rfl no_dot
      · next other =>
          rw [if_neg other] at trivial
          exact trivial

end Path

namespace Files

variable {f after : Files} {p : Path} {bytes : List UInt8}

theorem follow_trivial {start place : Place} {parts : List (List UInt8)}
    (trivial : ∀ part ∈ parts, part.isEmpty ∨ part = Path.dot) (leads : f.follow start parts = .ok place) :
    place = start := by
  induction parts with
  | nil =>
      cases leads
      rfl
  | cons part parts ih =>
      rw [follow] at leads
      split at leads
      · cases leads
      · cases leads
      split at leads
      · cases leads
      rw [Place.step, if_pos (trivial part (List.mem_cons_self ..))] at leads
      exact ih (fun part mem => trivial part (List.mem_cons_of_mem _ mem)) leads

theorem parts_eq {names : List (List UInt8)} (given : parts p = .ok names) : names = Path.splitBytes p.bytes := by
  unfold parts at given
  split at given
  · cases given
  split at given
  · cases given
  split at given
  · cases given
  · cases given
    rfl

theorem exists_parent_of_read (stored : f.read p = .ok bytes) : ∃ dir, p.parent? = some dir := by
  rw [← Option.isSome_iff_exists, Option.isSome_iff_ne_none]
  intro orphan
  simp only [read, bind, Except.bind] at stored
  split at stored
  · cases stored
  next names given =>
  obtain rfl := parts_eq given
  split at stored
  · cases stored
  next place leads =>
  -- A path that names nothing leads to where it starts, and that is no file.
  obtain rfl := follow_trivial (Path.trivial_of_parent? orphan) leads
  have directory : f.entry? (.start p) = some .directory := if_pos rfl
  rw [directory] at stored
  cases stored

end Files

/-! ### Files of settings -/

namespace Settings

variable {s : Settings} {p : Path} {f after : Files}

theorem save_run (s : Settings) (p : Path) (f : Files) :
    (s.save p : StateM Files (Except HostError Unit)) f =
      match s.write? with
      | none => (.error .settingsWrite, f)
      | some text =>
        match f.write p (Utf8.encode text) with
        | .error cause => (.error (.file p cause), f)
        | .ok after => (.ok (), after) := by
  unfold save
  cases s.write? with
  | none => rfl
  | some text =>
      simp only [bind, StateT.bind, FileAccess.write]
      cases f.write p (Utf8.encode text) <;> rfl

theorem load_of_read {text : String} (stored : f.read p = .ok (Utf8.encode text)) :
    (load p : StateM Files (Except HostError Settings)) f = (ofFile p text, f) := by
  simp only [load, bind, StateT.bind, FileAccess.readText_of_read stored]
  rfl

theorem save_eq_ok_iff : (s.save p : StateM Files (Except HostError Unit)) f = (.ok (), after) ↔
    ∃ text, s.write? = some text ∧ f.write p (Utf8.encode text) = .ok after := by
  rw [save_run]
  constructor
  · intro saved
    split at saved
    case h_1 => cases saved
    case h_2 text written =>
      split at saved
      case h_1 => cases saved
      case h_2 stored =>
        cases saved
        exact ⟨text, written, stored⟩
  · rintro ⟨text, written, stored⟩
    simp only [written, stored]

theorem exists_save_iff : (∃ after, (s.save p : StateM Files (Except HostError Unit)) f = (.ok (), after)) ↔
    s.IsText ∧ ∃ after, f.write p [] = .ok after := by
  simp only [save_eq_ok_iff, ← write?_isSome_iff, Option.isSome_iff_exists]
  constructor
  · rintro ⟨after, text, written, stored⟩
    exact ⟨⟨text, written⟩, Files.exists_write stored []⟩
  · rintro ⟨⟨text, written⟩, _, possible⟩
    obtain ⟨after, stored⟩ := Files.exists_write possible (Utf8.encode text)
    exact ⟨after, text, written, stored⟩

theorem load_of_ron_read {text : String} (stored : f.read p = .ok (Utf8.encode text))
    (found : Ron.read reader text = .ok s) : ∃ dir, p.parent? = some dir ∧
      (load p : StateM Files (Except HostError Settings)) f =
        (if currentVersion < s.version then .error (.unsupportedSettings s.version currentVersion)
          else .ok (s.resolve dir), f) := by
  obtain ⟨dir, parent⟩ := Files.exists_parent_of_read stored
  refine ⟨dir, parent, ?_⟩
  rw [load_of_read stored, ofFile, read, found, parent]
  dsimp only
  split <;> rfl

theorem load_of_save (saved : (s.save p : StateM Files (Except HostError Unit)) f = (.ok (), after)) :
    ∃ dir, p.parent? = some dir ∧
      (load p : StateM Files (Except HostError Settings)) after =
        (if currentVersion < s.version then .error (.unsupportedSettings s.version currentVersion)
          else .ok (resolve { s with fixedDelta := s.fixedDelta.canonical } dir), after) := by
  obtain ⟨text, written, stored⟩ := save_eq_ok_iff.mp saved
  exact load_of_ron_read (Files.read_of_write stored) (ron_read_write? written)

/-- What becomes of settings that are saved to a file and loaded from it. -/
structure RoundTrip (s : Settings) (p : Path) (f : Files) : Prop where
  saves : (∃ after, (s.save p : StateM Files (Except HostError Unit)) f = (.ok (), after)) ↔
    s.IsText ∧ ∃ after, f.write p [] = .ok after
  /-- Newer settings are refused, and the others are as they were, seen from the directory of the file. -/
  loads : ∀ after, (s.save p : StateM Files (Except HostError Unit)) f = (.ok (), after) →
    ∃ dir, p.parent? = some dir ∧
      (load p : StateM Files (Except HostError Settings)) after =
        (if currentVersion < s.version then .error (.unsupportedSettings s.version currentVersion)
          else .ok { s with
            graph := dir.join s.graph
            fixedDelta := s.fixedDelta.canonical
            exportPath := s.exportPath.map dir.join }, after)
  absolute : ∀ dir path : Path, path.isAbsolute → dir.join path = path
  /-- Of the numbers only a not-a-number may change, into another. -/
  number : s.fixedDelta.magnitude ≠ .nan → s.fixedDelta.canonical = s.fixedDelta
  nan : s.fixedDelta.magnitude = .nan → s.fixedDelta.canonical.magnitude = .nan
  /-- What has no text touches no file. -/
  refuses : ¬ s.IsText → (s.save p : StateM Files (Except HostError Unit)) f = (.error .settingsWrite, f)

theorem roundTrip (s : Settings) (p : Path) (f : Files) : s.RoundTrip p f where
  saves := exists_save_iff
  loads after saved := load_of_save saved
  absolute dir path rooted := if_pos rooted
  number := Binary32.canonical_of_ne_nan
  nan := Binary32.magnitude_canonical_of_nan
  refuses no_text := by
    rw [← write?_isSome_iff, Option.not_isSome_iff_eq_none] at no_text
    rw [save_run, no_text]

/-- In a directory "cfg", a relative path is then seen from there, and a not-a-number loses its payload. -/
theorem roundTrip_in_directory :
    let p := Path.ofString "cfg/unlang.ron"
    let f : Files := ⟨[(⟨.above 0, [Utf8.encode "cfg"]⟩, .directory)]⟩
    let s := { forGraph (.ofString "a \"b\"") with
      fixedDelta := ⟨0x7F800001⟩
      exportPath := some (.ofString "/out.ron") }
    ∃ after, (s.save p : StateM Files (Except HostError Unit)) f = (.ok (), after) ∧
      (load p : StateM Files (Except HostError Settings)) after =
        (.ok { s with graph := .ofString "cfg/a \"b\"", fixedDelta := .nan false }, after) := by
  intro p f s
  have kept := roundTrip s p f
  have texts : s.IsText := ⟨by decide, fun q exported => by cases exported; decide⟩
  obtain ⟨after, saved⟩ := kept.saves.mpr ⟨texts, _, rfl⟩
  obtain ⟨dir, parent, again⟩ := kept.loads after saved
  have here : p.parent? = some (.ofString "cfg") := by decide
  obtain rfl : Path.ofString "cfg" = dir := Option.some.inj (here.symm.trans parent)
  have number : s.fixedDelta.canonical = .nan false := by decide
  rw [if_neg (by decide), number] at again
  exact ⟨after, saved, again⟩

end Settings
end SignalGraph
