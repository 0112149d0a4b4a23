import SignalGraph.Proofs.Host.SavedSettings

/-!
Settings that are loaded from files with some of their fields. A field that is left out is the default, seen from
the directory of the file as any other. So neither the order of the fields nor a field with the default makes a
difference.
-/

namespace SignalGraph.Settings

variable {s : Settings} {names others : List String} {named also_named : Bool} {text other : String} {p : Path}
  {f g : Files}

theorem version_only_le (known : s.version ≤ currentVersion) (names : List String) :
    (s.only names).version ≤ currentVersion := by
  simp only [only]
  split
  · exact known
  · decide

theorem load_of_excerpt (known : s.version ≤ currentVersion) (excerpt : s.Excerpt names named text)
    (stored : f.read p = .ok (Utf8.encode text)) : ∃ dir, p.parent? = some dir ∧
      (load p : StateM Files (Except HostError Settings)) f = (.ok ((s.only names).canonical.resolve dir), f) := by
  obtain ⟨dir, parent, loaded⟩ := load_of_ron_read stored (ron_read_excerpt excerpt)
  have not_newer : ¬ currentVersion < (s.only names).canonical.version :=
    UInt32.not_lt.mpr (version_only_le known names)
  rw [if_neg not_newer] at loaded
  exact ⟨dir, parent, loaded⟩

theorem load_eq_of_excerpts (known : s.version ≤ currentVersion) (excerpt : s.Excerpt names named text)
    (another : s.Excerpt others also_named other)
    (same : ∀ name ∈ fieldNames, (name ∈ names ↔ name ∈ others) ∨ s.HasDefault name)
    (stored : f.read p = .ok (Utf8.encode text)) (also_stored : g.read p = .ok (Utf8.encode other)) :
    ((load p : StateM Files (Except HostError Settings)) f).1 =
      ((load p : StateM Files (Except HostError Settings)) g).1 := by
  obtain ⟨dir, parent, loaded⟩ := load_of_excerpt known excerpt stored
  obtain ⟨also_dir, also_parent, also_loaded⟩ := load_of_excerpt known another also_stored
  obtain rfl : dir = also_dir := Option.some.inj (parent.symm.trans also_parent)
  rw [loaded, also_loaded, only_congr same]

structure LoadsParts (s : Settings) : Prop where
  /-- A saved file has all the fields. -/
  written : s.write? = (s.stored? fieldNames).map fun stored => (Ron.Term.record "HostSettings" stored).write
  /-- Any fields can be stored in any order, with the name of the record and without. -/
  exists_text : ∀ names named, names.Nodup → names ⊆ fieldNames → ∃ text, s.Excerpt names named text
  /-- The other fields have their defaults, and then the paths are seen from the directory of the file. -/
  loads : ∀ names named text, s.Excerpt names named text →
    ∀ (p : Path) (f : Files), f.read p = .ok (Utf8.encode text) →
      ∃ dir, p.parent? = some dir ∧
        (load p : StateM Files (Except HostError Settings)) f =
          (.ok { s.only names with
            graph := dir.join (s.only names).graph
            fixedDelta := (s.only names).fixedDelta.canonical
            exportPath := (s.only names).exportPath.map dir.join }, f)
  /-- Neither the order of the fields matters nor whether those with the default are there. -/
  same : ∀ names named text others also_named other, s.Excerpt names named text →
    s.Excerpt others also_named other →
    (∀ name ∈ fieldNames, (name ∈ names ↔ name ∈ others) ∨ s.HasDefault name) →
    ∀ (p : Path) (f g : Files), f.read p = .ok (Utf8.encode text) → g.read p = .ok (Utf8.encode other) →
      ((load p : StateM Files (Except HostError Settings)) f).1 =
        ((load p : StateM Files (Except HostError Settings)) g).1
  /-- Of the numbers only a not-a-number may change, into another. -/
  number : s.fixedDelta.magnitude ≠ .nan → s.fixedDelta.canonical = s.fixedDelta
  nan : s.fixedDelta.magnitude = .nan → s.fixedDelta.canonical.magnitude = .nan

theorem loadsParts (texts : s.IsText) (known : s.version ≤ currentVersion) : s.LoadsParts where
  written := write?_eq s
  exists_text _ named nodup fields := exists_excerpt texts nodup fields named
  loads _ _ _ excerpt _ _ stored := load_of_excerpt known excerpt stored
  same _ _ _ _ _ _ excerpt another same _ _ _ stored also_stored :=
    load_eq_of_excerpts known excerpt another same stored also_stored
  number := Binary32.canonical_of_ne_nan
  nan := Binary32.magnitude_canonical_of_nan

/-- In a directory "cfg", the default graph is the one in that directory. -/
theorem loadsParts_in_directory :
    let p := Path.ofString "cfg/unlang.ron"
    let text := "( export_path : Some(\"out.ron\"), ticks: 5 )"
    let f : Files := ⟨[(⟨.above 0, [Utf8.encode "cfg"]⟩, .directory),
      (⟨.above 0, [Utf8.encode "cfg", Utf8.encode "unlang.ron"]⟩, .file (Utf8.encode text))]⟩
    let s := { forGraph (.ofString "elsewhere.ron") with ticks := 5, exportPath := some (.ofString "out.ron") }
    s.IsText ∧ s.version ≤ currentVersion ∧ s.Excerpt ["export_path", "ticks"] false text ∧
      (load p : StateM Files (Except HostError Settings)) f =
        (.ok { forGraph (.ofString "cfg/graph.ron") with
          ticks := 5
          exportPath := some (.ofString "cfg/out.ron") }, f) := by
  intro p text f s
  have texts : s.IsText := ⟨by decide, fun q exported => by cases exported; decide⟩
  have known : s.version ≤ currentVersion := by decide
  have blank : Ron.IsGap [' '] := Ron.isGap_replicate 1
  have excerpt : s.Excerpt ["export_path", "ticks"] false text := by
    let parts := ["export_path : Some(\"out.ron\")".toList, "ticks: 5".toList]
    have spelled : List.Forall₂ Ron.SpellsField
        [("export_path", .option (some (.string "out.ron"))), ("ticks", .nat 5)] parts :=
      .cons ⟨0, [' '], [' '], blank, blank, by decide +kernel⟩
        (.cons ⟨0, [], [' '], Ron.isGap_nil, blank, by decide +kernel⟩ .nil)
    have spread : Ron.Spread parts _ := .more blank Ron.isGap_nil (.last blank blank)
    exact ⟨by decide, _, rfl, [], _, [], Ron.isGap_nil, .bare spelled spread, Ron.isGap_nil, by decide +kernel⟩
  obtain ⟨dir, parent, loaded⟩ := (loadsParts texts known).loads _ _ _ excerpt p f (by decide +kernel)
  have here : p.parent? = some (.ofString "cfg") := by decide
  obtain rfl : Path.ofString "cfg" = dir := Option.some.inj (here.symm.trans parent)
  refine ⟨texts, known, excerpt, ?_⟩
  rw [loaded]
  exact congrArg (Except.ok ·, f) (by decide +kernel)

end SignalGraph.Settings
