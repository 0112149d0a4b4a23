import SignalGraph.Host.Session
import SignalGraph.Proofs.Document.Acceptance
import SignalGraph.Proofs.Document.Stored
import SignalGraph.Proofs.Wire.RoundTrip

/-!
Files in memory. What is written at a path is read there again, and nothing else changes; what fails
changes nothing at all.
-/

namespace SignalGraph

namespace Files

variable {f after : Files} {place other : Place} {p : Path} {bytes : List UInt8}

def place? (f : Files) (p : Path) : Except FileError Place := do
  f.follow (.start p) (← parts p)

theorem entry?_put (f : Files) (e : FileEntry) (named : place.names.isEmpty = false) :
    entry? (f.put place e) other = if other = place then some e else f.entry? other := by
  have others (entries : List (Place × FileEntry)) (apart : other ≠ place) :
      (entries.filter (·.1 ≠ place)).lookup other = entries.lookup other := by
    induction entries with
    | nil => rfl
    | cons a entries ih =>
        by_cases same : a.1 = place
        · have skipped : other ≠ a.1 := same ▸ apart
          rw [List.filter_cons_of_neg (by simpa using same), ih, List.lookup_cons,
            beq_false_of_ne skipped]
        · rw [List.filter_cons_of_pos (by simpa using same), List.lookup_cons, List.lookup_cons, ih]
  simp only [ entry?, put]
  split
  · next here => rw [if_neg (by rintro rfl; rw [named] at here; cases here)]
  split
  · next same => rw [same, List.lookup_cons_self]
  · next apart => rw [List.lookup_cons, beq_false_of_ne apart, others _ apart]

/-- A new file is in nobody's way, since a path leads through directories only. -/
theorem follow_put {start : Place} {names : List (List UInt8)} (named : place.names.isEmpty = false)
    (absent : f.entry? place ≠ some .directory) (leads : f.follow start names = .ok other) :
    (f.put place (.file bytes)).follow start names = .ok other := by
  induction names generalizing start with
  | nil => exact leads
  | cons part names ih =>
      rw [follow] at leads
      split at leads
      · cases leads
      · cases leads
      next there =>
      -- The way leads on through `start`, which is a directory, so the new file is not there.
      have apart : start ≠ place := by
        rintro rfl
        exact absent there
      rw [follow, entry?_put f _ named, if_neg apart, there]
      split at leads
      · cases leads
      · next short =>
          simp only [if_neg short]
          exact ih leads

theorem exists_place_of_write (written : f.write p bytes = .ok after) : ∃ place,
    f.place? p = .ok place ∧ place.names.isEmpty = false ∧ f.entry? place ≠ some .directory ∧
      after = f.put place (.file bytes) := by
  simp only [write, bind, Except.bind] at written
  split at written
  · cases written
  next names given =>
  split at written
  · cases written
  next place leads =>
  split at written
  · cases written
  next fits =>
  cases written
  obtain ⟨closed, absent⟩ := not_or.mp fits
  -- Nothing was dropped at the end of the path, since no slash stood there.
  have whole : (names.reverse.dropWhile List.isEmpty).reverse = names := by
    obtain rfl | ⟨front, last, rfl⟩ := names.eq_nil_or_concat
    · rfl
    · cases last with
      | nil => simp at closed
      | cons b last => simp
  refine ⟨place, ?_, ?_, absent, rfl⟩
  · rw [whole] at leads
    simpa only [place?, given, bind, Except.bind] using leads
  · cases none_named : place.names.isEmpty with
    | false => rfl
    | true => exact absurd (by rw [ entry?, if_pos none_named]) absent

/-- Whether a file can be written does not depend on its content. -/
theorem exists_write (written : f.write p bytes = .ok after) (others : List UInt8) :
    ∃ g, f.write p others = .ok g := by
  simp only [write, bind, Except.bind] at written ⊢
  split at written
  · cases written
  split at written
  · cases written
  split at written
  · cases written
  · next fits => exact ⟨_, if_neg fits⟩

theorem read_of_write (written : f.write p bytes = .ok after) : after.read p = .ok bytes := by
  obtain ⟨place, leads, named, absent, rfl⟩ := exists_place_of_write written
  simp only [place?, bind, Except.bind] at leads
  split at leads
  · cases leads
  next names given =>
  simp only [read, given, bind, Except.bind, follow_put named absent leads, entry?_put f _ named,
    if_true]

/-- Nothing has changed but what a path leads to. -/
def SameBeside (f : Files) (p : Path) (after : Files) : Prop :=
  ∀ place, f.place? p ≠ .ok place → after.entry? place = f.entry? place

theorem sameBeside_of_write (written : f.write p bytes = .ok after) : f.SameBeside p after := by
  obtain ⟨place, leads, named, _, rfl⟩ := exists_place_of_write written
  intro other elsewhere
  have apart : other ≠ place := by
    rintro rfl
    exact elsewhere leads
  rw [entry?_put f _ named, if_neg apart]

end Files

/-! ### Documents in files -/

namespace FileAccess

theorem readText_run (p : Path) (f : Files) :
    ∃ answer, (readText p : StateM Files (Except FileError String)) f = (answer, f) := by
  simp only [readText, read, bind, StateT.bind]
  cases f.read p with
  | error cause => exact ⟨_, rfl⟩
  | ok bytes =>
      dsimp only
      cases Utf8.decode bytes <;> exact ⟨_, rfl⟩

theorem readText_of_read {p : Path} {f : Files} {text : String}
    (stored : f.read p = .ok (Utf8.encode text)) :
    (readText p : StateM Files (Except FileError String)) f = (.ok text, f) := by
  simp only [readText, read, bind, StateT.bind, stored, Utf8.decode_encode]
  rfl

end FileAccess

namespace Document

theorem files_ofFile (p : Path) (f : Files) :
    ((ofFile p : StateM Files (Except HostError Document)) f).2 = f := by
  obtain ⟨_ | text, ran⟩ := FileAccess.readText_run p f
  · simp only [ofFile, bind, StateT.bind, ran]
    rfl
  · simp only [ofFile, bind, StateT.bind, ran]
    cases read text <;> rfl

theorem ofFile_of_read {d : Document} (known : d.version ≤ currentVersion) {p : Path} {f : Files}
    (stored : f.read p = .ok (Utf8.encode d.write)) :
    (ofFile p : StateM Files (Except HostError Document)) f = (.ok d, f) := by
  have parsed : read d.write = .ok d := by
    simp only [read, ron_read_write, checkVersion_eq_ok_iff.mpr known]
  simp only [ofFile, bind, StateT.bind, FileAccess.readText_of_read stored, parsed]
  rfl

end Document
end SignalGraph
