import SignalGraph.Host.Settings
import SignalGraph.Proofs.Document.Stored
import SignalGraph.Proofs.Ron.Single
import SignalGraph.Proofs.Wire.Consumed

/-!
The text of settings. A text may have any of the fields, in any order and layout: those it has are read back,
whatever the texts and paths hold, and the others are as by default. The text that is written has them all.
-/

namespace SignalGraph.Settings

variable {s : Settings} {text name : String} {names : List String}

/-! ### What is written -/

def IsText (s : Settings) : Prop :=
  s.graph.toString?.isSome ∧ ∀ p, s.exportPath = some p → p.toString?.isSome

def fieldNames : List String := fields.map (·.name)

/-- The value that a field has where the settings are written, unless it is a path that is no text. -/
def value? (s : Settings) : String → Option Ron.Term
  | "version" => some (.nat s.version.toNat)
  | "graph" => s.graph.toString?.map .string
  | "ticks" => some (.nat s.ticks.toNat)
  | "fixed_delta" => some (.atom (s.fixedDelta.write .stored))
  | "log_filter" => some (.string s.logFilter)
  | "export_path" =>
    match s.exportPath with
    | none => some (.option none)
    | some p => p.toString?.map fun t => .option (some (.string t))
  | "cycle_guard" => some (.bool s.cycleGuard)
  | _ => none

def stored? (s : Settings) (names : List String) : Option (List (String × Ron.Term)) :=
  names.mapM fun name => (s.value? name).map fun value => (name, value)

theorem write?_eq (s : Settings) :
    s.write? = (s.stored? fieldNames).map fun stored => (Ron.Term.record "HostSettings" stored).write := by
  have all : fieldNames =
      ["version", "graph", "ticks", "fixed_delta", "log_filter", "export_path", "cycle_guard"] := rfl
  simp only [write?, stored?, all, List.mapM_cons, List.mapM_nil, value?, Option.map_some]
  cases s.graph.toString? with
  | none => rfl
  | some graph =>
      cases s.exportPath with
      | none => rfl
      | some p =>
          dsimp only
          cases p.toString? <;> rfl

theorem stored?_cons_eq_some_iff {stored : List (String × Ron.Term)} :
    s.stored? (name :: names) = some stored ↔ ∃ value, s.value? name = some value ∧
      ∃ others, s.stored? names = some others ∧ (name, value) :: others = stored := by
  simp [stored?, List.mapM_cons, bind, Option.bind_eq_some_iff]

theorem stored?_isSome_iff : (s.stored? names).isSome ↔ ∀ name ∈ names, (s.value? name).isSome := by
  induction names with
  | nil => simp [stored?]
  | cons name names ih =>
      rw [List.forall_mem_cons, ← ih]
      simp only [Option.isSome_iff_exists, stored?_cons_eq_some_iff]
      constructor
      · rintro ⟨_, value, found, others, stored, -⟩
        exact ⟨⟨value, found⟩, others, stored⟩
      · rintro ⟨⟨value, found⟩, others, stored⟩
        exact ⟨_, value, found, others, stored, rfl⟩

theorem write?_isSome_iff : s.write?.isSome ↔ s.IsText := by
  simp only [write?_eq, Option.isSome_map, stored?_isSome_iff, fieldNames, fields, Ron.field, List.map_cons,
    List.map_nil, List.forall_mem_cons, value?, IsText]
  cases s.exportPath <;> simp

/-! ### What is read back -/

/-- The settings in the fields that are named, and the default in the others. -/
def only (s : Settings) (names : List String) : Settings where
  version := if "version" ∈ names then s.version else default.version
  graph := if "graph" ∈ names then s.graph else default.graph
  ticks := if "ticks" ∈ names then s.ticks else default.ticks
  fixedDelta := if "fixed_delta" ∈ names then s.fixedDelta else default.fixedDelta
  logFilter := if "log_filter" ∈ names then s.logFilter else default.logFilter
  exportPath := if "export_path" ∈ names then s.exportPath else default.exportPath
  cycleGuard := if "cycle_guard" ∈ names then s.cycleGuard else default.cycleGuard

def HasDefault (s : Settings) (name : String) : Prop := s.only [name] = default

/-- The settings but for the payload of a not-a-number. -/
def canonical (s : Settings) : Settings := { s with fixedDelta := s.fixedDelta.canonical }

@[simp] theorem only_nil (s : Settings) : s.only [] = default := by
  simp [only]

@[simp] theorem only_fieldNames (s : Settings) : s.only fieldNames = s := by
  simp [only, fieldNames, fields, Ron.field]

theorem canonical_only (s : Settings) (names : List String) :
    (s.only names).canonical = s.canonical.only names := by
  have default_canonical : default.fixedDelta.canonical = default.fixedDelta := by decide
  simp only [canonical, only, apply_ite Binary32.canonical, default_canonical]

theorem only_congr {others : List String}
    (same : ∀ name ∈ fieldNames, (name ∈ names ↔ name ∈ others) ∨ s.HasDefault name) :
    s.only names = s.only others := by
  have field {α : Type} (value : Settings → α) {name : String} (known : name ∈ fieldNames)
      (own : value (s.only [name]) = value s) :
      (if name ∈ names then value s else value default) = if name ∈ others then value s else value default := by
    obtain listed | has_default := same name known
    · simp only [listed]
    · rw [← own, has_default, ite_self, ite_self]
  simp only [only, mk.injEq]
  exact ⟨field version (by decide) (by simp [only]), field graph (by decide) (by simp [only]),
    field ticks (by decide) (by simp [only]), field fixedDelta (by decide) (by simp [only]),
    field logFilter (by decide) (by simp [only]), field exportPath (by decide) (by simp [only]),
    field cycleGuard (by decide) (by simp [only])⟩

theorem restores_path {p : Path} {t : String} (spelled : p.toString? = some t) :
    Ron.Restores path (.string t) p where
  starts := (Ron.restores_string t).starts
  takes level m stop rest ends := by
    have same : Path.ofString t = p := by
      cases decoded : Utf8.decode p.bytes with
      | error _ => simp [Path.toString?, decoded, Except.toOption] at spelled
      | ok u =>
          obtain rfl : u = t := by simpa [Path.toString?, decoded, Except.toOption] using spelled
          rw [Path.ofString, Utf8.encode_of_decode decoded]
    simp only [path, (Ron.restores_string t).takes level m stop rest ends, Ron.ok_bind, same]
    rfl

theorem fills_cons {value : Ron.Term} (found : s.value? name = some value) {seen : List String}
    (new : name ∉ seen) {others : List (String × Ron.Term)} {last : List String × Settings}
    (fills : Ron.Fills fields (name :: seen, s.canonical.only (name :: seen)) others last) :
    Ron.Fills fields (seen, s.canonical.only seen) ((name, value) :: others) last := by
  simp only [only, canonical, List.mem_cons] at fills ⊢
  unfold value? at found
  split at found
  case h_1 =>
    cases found
    exact .cons rfl (by decide) new (Ron.restores_word s.version) (by simpa using fills)
  case h_2 =>
    obtain ⟨t, spelled, rfl⟩ := Option.map_eq_some_iff.mp found
    exact .cons rfl (by decide) new (restores_path spelled) (by simpa using fills)
  case h_3 =>
    cases found
    exact .cons rfl (by decide) new (Ron.restores_word s.ticks) (by simpa using fills)
  case h_4 =>
    cases found
    exact .cons rfl (by decide) new (Ron.restores_single s.fixedDelta) (by simpa using fills)
  case h_5 =>
    cases found
    exact .cons rfl (by decide) new (Ron.restores_string s.logFilter) (by simpa using fills)
  case h_6 =>
    have restores : Ron.Restores (Ron.option path) value s.exportPath := by
      split at found
      · next unset =>
          cases found
          rw [unset]
          exact Ron.restores_none path
      · next p set =>
          obtain ⟨t, spelled, rfl⟩ := Option.map_eq_some_iff.mp found
          rw [set]
          exact Ron.restores_some (restores_path spelled)
    exact .cons rfl (by decide) new restores (by simpa using fills)
  case h_7 =>
    cases found
    exact .cons rfl (by decide) new (Ron.restores_bool s.cycleGuard) (by simpa using fills)
  case h_8 => cases found

theorem fills_stored? {stored : List (String × Ron.Term)} (found : s.stored? names = some stored)
    {seen : List String} (new : (names.reverse ++ seen).Nodup) :
    Ron.Fills fields (seen, s.canonical.only seen) stored
      (names.reverse ++ seen, s.canonical.only (names.reverse ++ seen)) := by
  induction names generalizing stored seen with
  | nil =>
      cases found
      exact .nil _
  | cons name names ih =>
      obtain ⟨value, found_first, others, found_others, rfl⟩ := stored?_cons_eq_some_iff.mp found
      rw [List.reverse_cons, List.append_assoc, List.singleton_append] at new ⊢
      have absent : name ∉ seen := (List.nodup_cons.mp new.of_append_right).1
      exact fills_cons found_first absent (ih found_others new)

/-! ### Texts with some fields -/

/-- A text with some of the fields, in the given order, each with the value that it has where the settings are
written, and with the name of the record or without. -/
structure Excerpt (s : Settings) (names : List String) (named : Bool) (text : String) : Prop where
  nodup : names.Nodup
  spelled : ∃ stored, s.stored? names = some stored ∧ Ron.SpellsFile "HostSettings" stored named text

theorem excerpt_of_write? (written : s.write? = some text) : s.Excerpt fieldNames true text := by
  rw [write?_eq] at written
  obtain ⟨stored, found, rfl⟩ := Option.map_eq_some_iff.mp written
  exact ⟨by decide, stored, found, Ron.spellsFile_write "HostSettings" stored⟩

theorem exists_excerpt (texts : s.IsText) (nodup : names.Nodup) (known : names ⊆ fieldNames) (named : Bool) :
    ∃ text, s.Excerpt names named text := by
  have all : (s.stored? fieldNames).isSome := by
    rwa [← write?_isSome_iff, write?_eq, Option.isSome_map] at texts
  have each : (s.stored? names).isSome :=
    stored?_isSome_iff.mpr fun name mem => stored?_isSome_iff.mp all name (known mem)
  obtain ⟨stored, found⟩ := Option.isSome_iff_exists.mp each
  obtain ⟨text, spells⟩ := Ron.exists_spellsFile "HostSettings" stored named
  exact ⟨text, nodup, stored, found, spells⟩

theorem ron_read_excerpt {named : Bool} (excerpt : s.Excerpt names named text) :
    Ron.read reader text = .ok (s.only names).canonical := by
  obtain ⟨nodup, stored, found, spells⟩ := excerpt
  have new : (names.reverse ++ []).Nodup := by simpa using nodup
  have fills := fills_stored? found new
  rw [only_nil] at fills
  have any_order : s.canonical.only (names.reverse ++ []) = s.canonical.only names :=
    only_congr fun name _ => .inl (by simp)
  rw [canonical_only, ← any_order]
  exact Ron.read_spelled (by decide) fills rfl spells

theorem ron_read_write? (written : s.write? = some text) : Ron.read reader text = .ok s.canonical := by
  rw [ron_read_excerpt (excerpt_of_write? written), only_fieldNames]

end SignalGraph.Settings
