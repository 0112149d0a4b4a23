import SignalGraph.Proofs.Host.SavedSettings
import SignalGraph.Proofs.Ron.Gathered

/-!
Settings that are loaded, saved to the file they came from, and loaded again. Saving stores paths as they are
and loading sees them from the directory of the file, so a path that is still relative after the first loading
gets that directory put before it once more. Paths are compared by the names on them.
-/

namespace SignalGraph

namespace Path

variable {dir p q : Path}

/-- The names on a path. Parts that stand for the directory they are in name nothing. -/
def names (p : Path) : List (List UInt8) :=
  (splitBytes p.bytes).filter fun part => !(part.isEmpty || part = dot)

/-- Whether two paths start in the same place and follow the same names. -/
def Same (p q : Path) : Prop := p.anchor = q.anchor ∧ p.names = q.names

instance : DecidableRel Same := fun p q => inferInstanceAs (Decidable (p.anchor = q.anchor ∧ p.names = q.names))

/-! ### Names on joined paths -/

theorem splitBytes_ne_nil (bytes : List UInt8) : splitBytes bytes ≠ [] := by
  cases bytes with
  | nil => simp [splitBytes]
  | cons b rest =>
      rw [splitBytes]
      split
      · simp
      · split <;> simp

theorem splitBytes_append_slash (front back : List UInt8) :
    splitBytes (front ++ slash :: back) = splitBytes front ++ splitBytes back := by
  induction front with
  | nil => simp [splitBytes]
  | cons b front ih =>
      rw [List.cons_append, splitBytes, splitBytes]
      split
      · rw [ih, List.cons_append]
      · rw [ih]
        cases parts : splitBytes front with
        | nil => exact absurd parts (splitBytes_ne_nil front)
        | cons part parts => rfl

theorem names_join (relative : p.isAbsolute = false) : (dir.join p).names = dir.names ++ p.names := by
  have through (bytes : List UInt8) : names ⟨bytes ++ slash :: p.bytes⟩ = names ⟨bytes⟩ ++ p.names := by
    rw [names, splitBytes_append_slash, List.filter_append]
    rfl
  rw [join, if_neg (by simp [relative])]
  split
  case isFalse => exact through dir.bytes
  case isTrue ends =>
    rcases ends with none | last
    · have empty : dir.bytes = [] := List.isEmpty_iff.mp none
      simp [names, empty, splitBytes]
    · obtain ⟨front, spelled⟩ := List.getLast?_eq_some_iff.mp last
      have dir_names : dir.names = names ⟨front⟩ := by
        rw [names, spelled, splitBytes_append_slash, List.filter_append]
        simp [names, splitBytes]
      rw [spelled, List.append_assoc, List.singleton_append, through, dir_names]

theorem join_of_isAbsolute (absolute : p.isAbsolute = true) : dir.join p = p := if_pos absolute

theorem join_of_isEmpty (empty : dir.bytes = []) : dir.join p = p := by
  unfold join
  split
  · rfl
  · rw [if_pos (.inl (by simp [empty]))]
    simp [empty]

theorem isAbsolute_join : (dir.join p).isAbsolute = (p.isAbsolute || dir.isAbsolute) := by
  cases absolute : p.isAbsolute with
  | true => rw [join_of_isAbsolute absolute, absolute, Bool.true_or]
  | false =>
      cases spelled : dir.bytes with
      | nil => rw [join_of_isEmpty spelled, absolute, isAbsolute, spelled]; rfl
      | cons b rest =>
          simp only [join, absolute, Bool.false_eq_true, if_false, Bool.false_or]
          split <;> simp [isAbsolute, spelled]

theorem starts_slash_of_splitBytes {bytes : List UInt8} {parts : List (List UInt8)}
    (split_bytes : splitBytes bytes = [] :: parts) : bytes = [] ∨ ∃ rest, bytes = slash :: rest := by
  cases bytes with
  | nil => exact .inl rfl
  | cons b rest =>
      rw [splitBytes] at split_bytes
      split at split_bytes
      case isTrue same => exact .inr ⟨rest, by rw [same]⟩
      case isFalse => split at split_bytes <;> cases split_bytes

/-- What is seen from the root or from the working directory is seen from there for good. -/
theorem join_join (stays : dir.isAbsolute = true ∨ dir.bytes = []) : dir.join (dir.join p) = dir.join p := by
  rcases stays with absolute | empty
  · exact join_of_isAbsolute (by rw [isAbsolute_join, absolute, Bool.or_true])
  · exact join_of_isEmpty empty

theorem isAbsolute_parent (absolute : p.isAbsolute = true) (parent : p.parent? = some dir) :
    dir.isAbsolute = true := by
  have rooted : p.anchor = [slash] := if_pos absolute
  simp only [parent?, rooted] at parent
  split at parent
  · cases parent
  · cases parent
    rfl

theorem starts_dot_of_names (nameless : p.names = []) (relative : p.isAbsolute = false)
    (some_byte : p.bytes ≠ []) : p.bytes = dot ∨ ∃ rest, p.bytes = dot ++ slash :: rest := by
  obtain ⟨b, rest, spelled⟩ := List.exists_cons_of_ne_nil some_byte
  have no_slash : b ≠ slash := by
    rintro rfl
    simp [isAbsolute, spelled] at relative
  obtain ⟨part, parts, others⟩ := List.exists_cons_of_ne_nil (splitBytes_ne_nil rest)
  have first : b :: part = dot := by
    simp only [names, List.filter_eq_nil_iff] at nameless
    simpa using nameless (b :: part) (by simp [spelled, splitBytes, no_slash, others])
  obtain ⟨rfl, rfl⟩ := List.cons.inj first
  rw [spelled]
  rcases starts_slash_of_splitBytes others with rfl | ⟨behind, rfl⟩
  · exact .inl rfl
  · exact .inr ⟨behind, rfl⟩

theorem anchor_join_of_names (nameless : dir.names = []) (relative : (dir.join p).isAbsolute = false)
    (some_byte : dir.bytes ≠ []) : (dir.join p).anchor = dot := by
  rw [isAbsolute_join, Bool.or_eq_false_iff] at relative
  obtain ⟨p_relative, dir_relative⟩ := relative
  have starts : (dir.join p).bytes.take 2 = dot ++ [slash] := by
    rw [join, if_neg (by simp [p_relative])]
    rcases starts_dot_of_names nameless dir_relative some_byte with spelled | ⟨rest, spelled⟩
    · rw [spelled, if_neg (by decide)]
      rfl
    · split <;> rw [spelled] <;> rfl
  rw [anchor, if_neg (by simp [isAbsolute_join, p_relative, dir_relative]), if_pos (.inr starts)]

/-- A path that is still relative is the same if it is joined once more, provided that the directory names
nothing. -/
theorem same_join_join_iff :
    Same (dir.join p) (dir.join (dir.join p)) ↔ (dir.join p).isAbsolute = true ∨ dir.names = [] := by
  cases relative : (dir.join p).isAbsolute with
  | true => simp [join_of_isAbsolute relative, Same]
  | false =>
      have again : (dir.join (dir.join p)).isAbsolute = false := by
        rw [isAbsolute_join, relative, Bool.false_or]
        exact (Bool.or_eq_false_iff.mp (isAbsolute_join ▸ relative)).2
      simp only [Same, names_join relative, Bool.false_eq_true, false_or]
      constructor
      · rintro ⟨-, longer⟩
        simpa using longer
      · intro nameless
        refine ⟨?_, by rw [nameless, List.nil_append]⟩
        by_cases empty : dir.bytes = []
        · rw [join_of_isEmpty empty, join_of_isEmpty empty]
        · rw [anchor_join_of_names nameless relative empty, anchor_join_of_names nameless again empty]

end Path

namespace Settings

variable {s raw : Settings} {p dir : Path} {f after : Files}

structure Same (s t : Settings) : Prop where
  version : s.version = t.version
  graph : s.graph.Same t.graph
  ticks : s.ticks = t.ticks
  fixedDelta : s.fixedDelta = t.fixedDelta
  logFilter : s.logFilter = t.logFilter
  exportPath : Option.Rel Path.Same s.exportPath t.exportPath
  cycleGuard : s.cycleGuard = t.cycleGuard

/-! ### Settings that are loaded -/

theorem canonical_of_ron_read {text : String} (found : Ron.read reader text = .ok s) :
    s.fixedDelta.canonical = s.fixedDelta := by
  have others {α : Type} {name : String} {item : Ron.Reader α} {put : α → Settings → Settings}
      (apart : ∀ a s, (put a s).fixedDelta = s.fixedDelta) :
      (Ron.field name item put).Keeps fun s => s.fixedDelta.canonical = s.fixedDelta :=
    Ron.field_keeps (Q := fun _ => True) (fun _ => trivial) fun a s _ kept => by rwa [apart]
  have fields : ∀ field ∈ fields, field.Keeps fun s => s.fixedDelta.canonical = s.fixedDelta := by
    intro field mem
    simp only [Settings.fields, List.mem_cons, List.not_mem_nil, or_false] at mem
    rcases mem with rfl | rfl | rfl | rfl | rfl | rfl | rfl
    case inr.inr.inr.inl => exact Ron.field_keeps Ron.canonical_of_single fun _ _ kept _ => kept
    all_goals exact others fun _ _ => rfl
  obtain ⟨gathered, kept, finished⟩ := Ron.exists_gathered_of_read fields (by decide) found
  cases finished
  exact kept

theorem exists_raw_of_load
    (loaded : ((load p : StateM Files (Except HostError Settings)) f).1 = .ok s) :
    ∃ raw : Settings, raw.version ≤ currentVersion ∧ raw.fixedDelta.canonical = raw.fixedDelta ∧
      ∀ dir, p.parent? = some dir → s = raw.resolve dir := by
  obtain ⟨answer, given⟩ := FileAccess.readText_run p f
  simp only [load, bind, StateT.bind, given] at loaded
  cases answer with
  | error cause => cases loaded
  | ok text =>
      have found : ofFile p text = .ok s := loaded
      obtain ⟨raw, parsed, placed⟩ := bind_eq_ok_iff.mp found
      unfold read at parsed
      split at parsed
      case h_1 => cases parsed
      case h_2 kept =>
        split at parsed
        case isTrue => cases parsed
        case isFalse known =>
          cases parsed
          refine ⟨raw, UInt32.not_lt.mp known, canonical_of_ron_read kept, fun dir parent => ?_⟩
          rw [parent] at placed
          cases placed
          rfl

/-! ### Saving in place -/

theorem same_resolve_iff (loaded : s = raw.resolve dir) : s.Same (s.resolve dir) ↔
    dir.names = [] ∨ s.graph.isAbsolute = true ∧ ∀ e, s.exportPath = some e → e.isAbsolute = true := by
  subst loaded
  constructor
  · intro same
    rcases Path.same_join_join_iff.mp same.graph with absolute | nameless
    · by_cases nameless : dir.names = []
      · exact .inl nameless
      · refine .inr ⟨absolute, fun e exported => ?_⟩
        have exports := same.exportPath
        simp only [resolve] at exports exported
        cases stored : raw.exportPath with
        | none => simp [stored] at exported
        | some q =>
            simp only [stored, Option.map_some, Option.some.injEq] at exports exported
            subst exported
            cases exports with
            | some again => exact (Path.same_join_join_iff.mp again).resolve_right nameless
    · exact .inl nameless
  · intro stays
    have graph := Path.same_join_join_iff.mpr (stays.symm.imp_left And.left)
    refine ⟨rfl, graph, rfl, rfl, rfl, ?_, rfl⟩
    simp only [resolve] at stays ⊢
    cases stored : raw.exportPath with
    | none => exact .none
    | some q =>
        have export_stays := stays.symm.imp_left fun both => both.2 (dir.join q) (by rw [stored, Option.map_some])
        exact .some (Path.same_join_join_iff.mpr export_stays)

structure Resaved (s : Settings) (p : Path) (f : Files) : Prop where
  saves : (∃ after, (s.save p : StateM Files (Except HostError Unit)) f = (.ok (), after)) ↔
    s.IsText ∧ ∃ after, f.write p [] = .ok after
  loads : ∀ after, (s.save p : StateM Files (Except HostError Unit)) f = (.ok (), after) →
    ∃ dir, p.parent? = some dir ∧
      (load p : StateM Files (Except HostError Settings)) after = (.ok (s.resolve dir), after) ∧
      (s.Same (s.resolve dir) ↔
        dir.names = [] ∨ s.graph.isAbsolute = true ∧ ∀ e, s.exportPath = some e → e.isAbsolute = true) ∧
      (p.isAbsolute = true ∨ dir.bytes = [] → s.resolve dir = s)

/-- Loaded settings that are saved in place are loaded again, with the directory of the file put before each
path that is still relative. -/
theorem resaved_of_load
    (loaded : ((load p : StateM Files (Except HostError Settings)) f).1 = .ok s) : s.Resaved p f where
  saves := exists_save_iff
  loads after saved := by
    obtain ⟨raw, known, number, placed⟩ := exists_raw_of_load loaded
    obtain ⟨dir, parent, again⟩ := load_of_save saved
    have same := placed dir parent
    refine ⟨dir, parent, ?_, same_resolve_iff same, fun stays => ?_⟩
    · have version : s.version ≤ currentVersion := same ▸ known
      have number : s.fixedDelta.canonical = s.fixedDelta := same ▸ number
      rw [again, if_neg (UInt32.not_lt.mpr version), number]
    · have stays := stays.imp_left fun absolute => (Path.isAbsolute_parent absolute parent)
      simp only [same, resolve, Path.join_join stays, Option.map_map, Function.comp_def]

end Settings

/-! ### Files with nothing but defaults -/

def Files.withDefaults (directory name : String) : Files :=
  ⟨[(⟨.above 0, [Utf8.encode directory]⟩, .directory),
    (⟨.above 0, [Utf8.encode directory, Utf8.encode name]⟩, .file (Utf8.encode "()")),
    (⟨.root, [Utf8.encode name]⟩, .file (Utf8.encode "()"))]⟩

def Files.withExport : Files :=
  let text := Utf8.encode "(export_path: Some(\"out.ron\"))"
  ⟨[(⟨.above 0, [Utf8.encode "cfg"]⟩, .directory),
    (⟨.above 0, [Utf8.encode "cfg", Utf8.encode "unlang.ron"]⟩, .file text),
    (⟨.root, [Utf8.encode "unlang.ron"]⟩, .file text)]⟩

namespace Settings

/-- A file that is named from the root keeps its settings. In a directory, graph and export both move. -/
theorem resaved_with_export :
    let root := Path.ofString "/unlang.ron"
    let kept : Settings :=
      { forGraph (.ofString "/graph.ron") with exportPath := some (.ofString "/out.ron") }
    let p := Path.ofString "cfg/unlang.ron"
    let s : Settings :=
      { forGraph (.ofString "cfg/graph.ron") with exportPath := some (.ofString "cfg/out.ron") }
    let t : Settings := { forGraph (.ofString "cfg/cfg/graph.ron") with
      exportPath := some (.ofString "cfg/cfg/out.ron") }
    ((load root : StateM Files (Except HostError Settings)) .withExport).1 = .ok kept ∧
      (∃ after, (kept.save root : StateM Files (Except HostError Unit)) .withExport = (.ok (), after) ∧
        (load root : StateM Files (Except HostError Settings)) after = (.ok kept, after)) ∧
      ((load p : StateM Files (Except HostError Settings)) .withExport).1 = .ok s ∧
      ∃ after, (s.save p : StateM Files (Except HostError Unit)) .withExport = (.ok (), after) ∧
        (load p : StateM Files (Except HostError Settings)) after = (.ok t, after) ∧ ¬ s.Same t := by
  intro root kept p s t
  have at_root : ((load root : StateM Files (Except HostError Settings)) .withExport).1 = .ok kept := by
    rw [load_of_read (f := .withExport) rfl]
    decide +kernel
  have inside : ((load p : StateM Files (Except HostError Settings)) .withExport).1 = .ok s := by
    rw [load_of_read (f := .withExport) rfl]
    decide +kernel
  have resaved := resaved_of_load at_root
  obtain ⟨after, saved⟩ := resaved.saves.mpr ⟨⟨by decide, by rintro _ ⟨⟩; decide⟩, _, rfl⟩
  obtain ⟨dir, _, again, -, stays⟩ := resaved.loads after saved
  rw [stays (.inl (by decide))] at again
  have moved := resaved_of_load inside
  obtain ⟨after', saved'⟩ := moved.saves.mpr ⟨⟨by decide, by rintro _ ⟨⟩; decide⟩, _, rfl⟩
  obtain ⟨dir', parent, again', same_iff, -⟩ := moved.loads after' saved'
  have here : p.parent? = some (.ofString "cfg") := by decide
  obtain rfl : Path.ofString "cfg" = dir' := Option.some.inj (here.symm.trans parent)
  have placed : s.resolve (.ofString "cfg") = t := rfl
  rw [placed] at again' same_iff
  have relative : ¬ (Path.ofString "cfg").names = [] ∧ ¬ s.graph.isAbsolute = true := by decide
  have other : ¬ s.Same t := fun same =>
    (same_iff.mp same).elim relative.1 fun absolute => relative.2 absolute.1
  exact ⟨at_root, ⟨after, saved, again⟩, inside, after', saved', again', other⟩

/-- In a directory "cfg", the graph moves to "cfg/cfg". -/
theorem resaved_in_directory :
    let p := Path.ofString "cfg/unlang.ron"
    let s := forGraph (.ofString "cfg/graph.ron")
    let t := forGraph (.ofString "cfg/cfg/graph.ron")
    ((load p : StateM Files (Except HostError Settings)) (.withDefaults "cfg" "unlang.ron")).1 = .ok s ∧
      ∃ after, (s.save p : StateM Files (Except HostError Unit)) (.withDefaults "cfg" "unlang.ron") =
          (.ok (), after) ∧
        (load p : StateM Files (Except HostError Settings)) after = (.ok t, after) ∧ ¬ s.Same t := by
  intro p s t
  have stored : (Files.withDefaults "cfg" "unlang.ron").read p = .ok (Utf8.encode "()") := by decide
  obtain ⟨after, saved⟩ := (exists_save_iff (s := s) (p := p) (f := .withDefaults "cfg" "unlang.ron")).mpr
    ⟨⟨by decide, fun _ exported => by cases exported⟩, _, rfl⟩
  obtain ⟨dir, parent, again⟩ := load_of_save saved
  have here : p.parent? = some (.ofString "cfg") := by decide
  obtain rfl : Path.ofString "cfg" = dir := Option.some.inj (here.symm.trans parent)
  have number : s.fixedDelta.canonical = s.fixedDelta := by decide
  rw [if_neg (by decide), number] at again
  refine ⟨?_, after, saved, again, fun same => absurd same.graph (by decide)⟩
  rw [load_of_read stored]
  decide +kernel

end Settings
end SignalGraph
