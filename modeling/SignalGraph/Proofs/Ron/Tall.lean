import SignalGraph.Proofs.Ron.Loose

/-!
Reading back the tall spelling, the layout of files. In it every part has a line of its own, and a comma behind
it. Readers of parts make readers of lists and records.
-/

namespace SignalGraph.Ron

open Text

/-! ### Parts on lines -/

def lines (level : Nat) (parts : List (List Char)) : List Char :=
  parts.flatMap fun part => List.replicate (4 * level) ' ' ++ (part ++ [',', '\n'])

/-- Between brackets that end on a line of their own, parts may stand on lines. -/
theorem spread_lines (level outer : Nat) (parts : List (List Char)) :
    Spread parts ('\n' :: (lines level parts ++ List.replicate (4 * outer) ' ')) := by
  have newline (n : Nat) : IsGap ('\n' :: List.replicate n ' ') := (isGap_replicate n).cons (by decide)
  induction parts with
  | nil => exact .none (newline (4 * outer))
  | cons part parts ih =>
      have line : Spread (part :: parts) _ := .more (newline (4 * level)) isGap_nil ih
      simpa [lines] using line

/-! ### Terms -/

theorem toList_indent (level : Nat) :
    (Term.indent level).toList = List.replicate (4 * level) ' ' := by
  rw [Term.indent, String.toList_ofList]

theorem toList_tallFields (level : Nat) (fields : List (String × Term)) :
    (Term.tallFields level fields).toList =
      lines level (fields.map fun f => f.1.toList ++ ':' :: ' ' :: (f.2.tall level).toList) := by
  induction fields with
  | nil => rfl
  | cons f fields ih => simp [Term.tallFields, toList_indent, ih, lines]

theorem toList_tallItems (level : Nat) (items : List Term) :
    (Term.tallItems level items).toList = lines level (items.map fun t => (t.tall level).toList) := by
  induction items with
  | nil => rfl
  | cons t items ih => simp [Term.tallItems, toList_indent, ih, lines]

theorem restores_string (s : String) : Restores text (.string s) s where
  starts level :=
    .of_head? (c := '"') (by simp [Term.string, Term.tall, stored, quotedChars]) (by decide)
  takes level m stop rest _ := by
    rw [Term.string, Term.tall]
    exact text_stored s m _

theorem startsPart_repr (n : Nat) : StartsPart n.repr.toList := by
  have plain : ∀ c ∈ Nat.toDigits 10 n, isBlank c = false ∧ c ∉ ['/', '#', ')', ']'] :=
    forall_mem_toDigits (by decide) (by decide)
  obtain ⟨d, ds, digits⟩ := List.exists_cons_of_ne_nil (Nat.toDigits_ne_nil (b := 10) (n := n))
  rw [Nat.repr_eq_ofList_toDigits, String.toList_ofList, digits]
  rw [digits] at plain
  exact ⟨d, ds, rfl, plain d (by simp)⟩

theorem restores_nat {t : IntType} {n : Nat} (holds : t.holds n) :
    Restores (integer t) (.nat n) n where
  starts level := by
    rw [Term.nat, Term.tall]
    exact startsPart_repr n
  takes level m stop rest ends := by
    rw [Term.nat, Term.tall]
    exact integer_repr holds m (stops_of_isStop ends) rest

theorem restores_bool (b : Bool) : Restores bool (.bool b) b where
  starts level := by
    rw [Term.bool, Term.tall]
    cases b
    · exact .of_head? (c := 'f') rfl (by decide)
    · exact .of_head? (c := 't') rfl (by decide)
  takes level m stop rest ends := by
    have word (word : String) := keyword?_append word (stops_of_isStop ends) rest
    rw [Term.bool, Term.tall]
    cases b
    · have other (s : List Char) : keyword? "true" ("false".toList ++ s) = none := rfl
      simp only [bool, Bool.false_eq_true, if_false, other, word]
    · simp only [bool, if_true, word]

theorem restores_none {α : Type} (item : Reader α) : Restores (option item) (.option none) none where
  starts level := by
    rw [Term.option, Term.tall]
    exact .of_head? (c := 'N') rfl (by decide)
  takes level m stop rest ends := by
    rw [Term.option, Term.tall]
    simp only [option, keyword?_append "None" (stops_of_isStop ends) rest]

/-- A present value is in parentheses, so its reader stops before the closing one. -/
theorem restores_some {α : Type} {item : Reader α} {t : Term} {a : α} (restores : Restores item t a) :
    Restores (option item) (.option (some t)) (some a) where
  starts level := .of_head? (c := 'S') (by simp [Term.option, Term.tall]) (by decide)
  takes level m stop rest ends := by
    have spelled : ((Term.option (some t)).tall level).toList ++ stop :: rest =
        "Some".toList ++ '(' :: ((t.tall level).toList ++ ')' :: stop :: rest) := by
      simp [Term.option, Term.tall]
    have no_none (s : List Char) : keyword? "None" ("Some".toList ++ s) = none := rfl
    have word (s : List Char) := keyword?_append "Some" (stops_of_isStop (c := '(') (by decide)) s
    have opening (s : List Char) : skipBlank ('(' :: s) = .ok ('(' :: s) :=
      skipBlank_eq_self (by decide) (by decide) s
    have skipped := (restores.starts level).skipBlank_eq (')' :: stop :: rest)
    have taken := restores.takes level (m.deeper 1) ')' (stop :: rest) (by decide)
    have closed : closing ')' (')' :: stop :: rest) = .ok (stop :: rest) := by
      rw [closing, skipBlank_eq_self (by decide) (by decide)]
      rfl
    rw [spelled]
    simp only [option, no_none, word, opening, ok_bind, skipped, taken]
    simp only [pure, Except.pure, ok_bind, closed]

theorem Restores.map {α γ : Type} {read : Reader α} {t : Term} {a : α} (restores : Restores read t a)
    (f : α → γ) :
    Restores (fun m s => do
      let (a, s) ← read m s
      return (f a, s)) t (f a) where
  starts := restores.starts
  takes level m stop rest ends := by
    simp only [restores.takes level m stop rest ends, ok_bind]
    rfl

/-! ### Lists and records -/

theorem restores_list {α : Type} {item : Reader α} {term : α → Term}
    (each : ∀ a, Restores item (term a) a) (as : List α) :
    Restores (list item) (.list (as.map term)) as where
  starts level := by
    refine .of_head? (c := '[') ?_ (by decide)
    cases as <;> simp [Term.tall]
  takes level m stop rest _ := by
    let element (gathered : Array α) (s : List Char) : Except Error (Array α × List Char) := do
      let (a, s) ← item (m.deeper 2) s
      return (gathered.push a, s)
    have gathers (as : List α) (gathered : Array α) :
        Gathers element gathered ((as.map term).map fun t => (t.tall (level + 1)).toList)
          (gathered ++ as.toArray) := by
      induction as generalizing gathered with
      | nil => simpa using Gathers.nil gathered
      | cons a as ih =>
          refine .cons ((each a).starts _) (b := gathered.push a) ?_ ?_
          · intro stop rest ends
            simp only [element, (each a).takes _ _ stop rest ends, ok_bind]
            rfl
          · simpa using ih (gathered.push a)
    obtain ⟨body, spread, spelled⟩ : ∃ body,
        Spread ((as.map term).map fun t => (t.tall (level + 1)).toList) body ∧
          ((Term.list (as.map term)).tall level).toList ++ stop :: rest =
            '[' :: (body ++ ']' :: stop :: rest) := by
      cases as with
      | nil => exact ⟨[], .none isGap_nil, by simp [Term.tall]⟩
      | cons a as =>
          exact ⟨_, spread_lines (level + 1) level _, by simp [Term.tall, toList_indent, toList_tallItems]⟩
    have taken := separated_all (gathers as #[]) spread (.inr rfl) (stop :: rest)
    have whole : (#[] ++ as.toArray).toList = as := by simp
    rw [spelled]
    simp only [list, expect, if_true, ok_bind]
    rw [taken, ok_bind, whole]
    rfl

theorem spellsField_tall (fields : List (String × Term)) (level : Nat) :
    List.Forall₂ SpellsField fields (fields.map fun f => f.1.toList ++ ':' :: ' ' :: (f.2.tall level).toList) :=
  List.forall₂_map_right_iff.mpr
    (List.forall₂_same.mpr fun _ _ => ⟨level, [], [' '], isGap_nil, isGap_replicate 1, rfl⟩)

theorem spellsRecord_tall (itsName : String) (fields : List (String × Term)) (level : Nat) :
    SpellsRecord itsName fields true ((Term.record itsName fields).tall level).toList := by
  have spelled := spellsField_tall fields (level + 1)
  cases fields with
  | nil =>
      have empty : SpellsRecord itsName [] true _ := .named isGap_nil spelled (.none isGap_nil)
      simpa [Term.tall] using empty
  | cons f fields =>
      have tall : SpellsRecord itsName (f :: fields) true _ :=
        .named isGap_nil spelled (spread_lines (level + 1) level _)
      simpa [Term.tall, toList_indent, toList_tallFields] using tall

theorem spellsFile_write (itsName : String) (fields : List (String × Term)) :
    SpellsFile itsName fields true (Term.record itsName fields).write :=
  ⟨[], _, [], isGap_nil, spellsRecord_tall itsName fields 0, isGap_nil, by simp; rfl⟩

theorem exists_spellsFile (itsName : String) (fields : List (String × Term)) (named : Bool) :
    ∃ text, SpellsFile itsName fields named text := by
  cases named with
  | true => exact ⟨_, spellsFile_write itsName fields⟩
  | false =>
      have bare : SpellsRecord itsName fields false _ := .bare (spellsField_tall fields 1) (spread_lines 1 0 _)
      exact ⟨String.ofList _, [], _, [], isGap_nil, bare, isGap_nil, by simp; rfl⟩

section

variable {σ α : Type} {itsName : String} {table : List (Field σ)} {start : σ} {fields : List (String × Term)}
  {last : List String × σ} {finish : σ → Except Error α} {a : α}

theorem restores_record (word : isWord itsName) (fills : Fills table ([], start) fields last)
    (finished : finish last.2 = .ok a) :
    Restores (record itsName table start finish) (.record itsName fields) a where
  starts level := (spellsRecord_tall itsName fields level).starts word
  takes level _ stop rest _ :=
    record_spelled word fills finished (spellsRecord_tall itsName fields level) (fun _ => rfl) (stop :: rest)

/-- A text that is a record holds nothing but it. -/
theorem read_record (word : isWord itsName) (fills : Fills table ([], start) fields last)
    (finished : finish last.2 = .ok a) :
    read (record itsName table start finish) (Term.record itsName fields).write = .ok a :=
  read_spelled word fills finished (spellsFile_write itsName fields)

end

end SignalGraph.Ron
