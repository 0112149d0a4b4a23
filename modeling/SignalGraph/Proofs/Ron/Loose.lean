import Mathlib.Data.List.Forall2
import SignalGraph.Proofs.Ron.Scalar
import SignalGraph.Ron.Record
import SignalGraph.Ron.Term

/-!
Reading back records in any layout: with any blanks between their parts, a comma behind the last part or none,
and with their name or without. Values are spelled as they are written. The layout of files is one of these.
-/

namespace SignalGraph.Ron

open Text

/-! ### Names -/

/-- A name of ASCII letters and low lines that cannot be taken for the start of a literal. -/
def isWord (name : String) : Bool :=
  match name.toList with
  | [] => false
  | c :: cs =>
    c.isAlpha && c ≠ 'r' && (c ≠ 'b' || cs.isEmpty) && cs.all fun d => d.isAlpha || d = '_'

theorem isAlpha_iff {c : Char} :
    c.isAlpha = true ↔ 65 ≤ c.toNat ∧ c.toNat ≤ 90 ∨ 97 ≤ c.toNat ∧ c.toNat ≤ 122 := by
  have upper : c.isUpper = true ↔ 65 ≤ c.toNat ∧ c.toNat ≤ 90 := decide_eq_true_iff
  have lower : c.isLower = (decide (97 ≤ c.toNat) && decide (c.toNat ≤ 122)) := rfl
  have either : c.isAlpha = (c.isUpper || c.isLower) := rfl
  rw [either, Bool.or_eq_true, upper, lower, Bool.and_eq_true, decide_eq_true_iff, decide_eq_true_iff]

theorem toNat_lt_of_isAlpha {c : Char} (alpha : c.isAlpha) : c.toNat < 0x80 := by
  obtain ⟨_, _⟩ | ⟨_, _⟩ := isAlpha_iff.mp alpha <;> omega

theorem isIdentifierStart_of_isAlpha {c : Char} (alpha : c.isAlpha) : isIdentifierStart c := by
  simp [isIdentifierStart, toNat_lt_of_isAlpha alpha, alpha]

theorem isIdentifierPart_of_isAlpha {c : Char} (alpha : c.isAlpha) : isIdentifierPart c := by
  have either : c.isAlphanum = (c.isAlpha || c.isDigit) := rfl
  simp [isIdentifierPart, toNat_lt_of_isAlpha alpha, either, alpha]

theorem isBlank_of_isAlpha {c : Char} (alpha : c.isAlpha) : isBlank c = false := by
  simp only [isBlank, List.mem_cons, List.not_mem_nil, or_false, decide_eq_false_iff_not]
  obtain ⟨_, _⟩ | ⟨_, _⟩ := isAlpha_iff.mp alpha <;> omega

theorem exists_of_isWord {name : String} (word : isWord name) :
    ∃ c cs, name.toList = c :: cs ∧ c.isAlpha ∧ c ≠ 'r' ∧ (c = 'b' → cs = []) ∧
      ∀ d ∈ c :: cs, isIdentifierPart d = true := by
  simp only [isWord] at word
  split at word
  · cases word
  next c cs spelled =>
  simp only [Bool.and_eq_true, decide_eq_true_eq, Bool.or_eq_true, List.isEmpty_iff,
    List.all_eq_true] at word
  obtain ⟨⟨⟨alpha, no_raw⟩, no_byte⟩, letters⟩ := word
  refine ⟨c, cs, spelled, alpha, no_raw, fun same => no_byte.resolve_left fun other => other same, ?_⟩
  intro d mem
  obtain rfl | mem := List.mem_cons.mp mem
  · exact isIdentifierPart_of_isAlpha alpha
  · obtain letter | rfl := letters d mem
    · exact isIdentifierPart_of_isAlpha letter
    · decide

theorem startsPart_of_isWord {name : String} (word : isWord name) (s : List Char) :
    StartsPart (name.toList ++ s) := by
  obtain ⟨c, cs, spelled, alpha, _⟩ := exists_of_isWord word
  refine ⟨c, cs ++ s, by rw [spelled]; rfl, isBlank_of_isAlpha alpha, ?_⟩
  intro mem
  simp only [List.mem_cons, List.not_mem_nil, or_false] at mem
  obtain rfl | rfl | rfl | rfl := mem <;> exact absurd alpha (by decide)

theorem identifier_word {name : String} (word : isWord name) {stop : Char} (ends : Stops stop)
    (rest : List Char) : identifier (name.toList ++ stop :: rest) = .ok (name, stop :: rest) := by
  obtain ⟨c, cs, spelled, alpha, no_raw, no_byte, parts⟩ := exists_of_isWord word
  have all := takeWhile_append_cons parts ends.no_part rest
  have other (d : Char) (mark : d ∈ ['\'', '"', 'r', 'x', 'b', 'o', 'f']) : stop ≠ d :=
    (ends.ne mark).symm
  have literal : startsLiteral (c :: (cs ++ stop :: rest)) = false := by
    simp only [startsLiteral]
    split
    · next same =>
        obtain ⟨rfl, behind⟩ := List.cons.inj same
        rw [no_byte rfl] at behind
        obtain ⟨rfl, rfl⟩ := List.cons.inj behind
        simp [other '\'' (by decide), other '"' (by decide), other 'r' (by decide)]
    · next same => exact absurd (List.cons.inj same).1 no_raw
    · next same => exact absurd (List.cons.inj same).1 no_raw
    · rfl
  rw [spelled]
  simp only [List.cons_append] at all ⊢
  simp only [identifier, isIdentifierStart_of_isAlpha alpha, literal, Bool.not_true, Bool.or_self,
    Bool.false_eq_true, if_false]
  split
  · next same => exact absurd (List.cons.inj same).1 no_raw
  · rw [all]
    have after : (c :: (cs ++ stop :: rest)).drop (c :: cs).length = stop :: rest := List.drop_left
    have itself : String.ofList (c :: cs) = name := by rw [← spelled, String.ofList_toList]
    simp only [after, List.head?_cons, Option.any_some, ends.no_raw_part, Bool.false_eq_true, if_false,
      itself]

theorem name_word {itsName : String} (word : isWord itsName) (m : Mode) {stop : Char} (ends : Stops stop)
    (rest : List Char) : name itsName m (itsName.toList ++ stop :: rest) = .ok (stop :: rest) := by
  have found := identifier_word word ends rest
  obtain ⟨c, cs, spelled, _, _, _, parts⟩ := exists_of_isWord word
  have continues : continuesWord (itsName.toList ++ stop :: rest) = true := by
    rw [spelled]
    exact parts c (by simp)
  simp only [name, continues, if_true, found]

/-! ### Parts between brackets -/

/-- A text with some parts, commas between them and perhaps behind the last, and any blanks around them. -/
inductive Spread : List (List Char) → List Char → Prop
  | none {gap : List Char} (blank : IsGap gap) : Spread [] gap
  | last {before part behind : List Char} (before_blank : IsGap before) (behind_blank : IsGap behind) :
      Spread [part] (before ++ (part ++ behind))
  | more {before part behind s : List Char} {parts : List (List Char)} (before_blank : IsGap before)
      (behind_blank : IsGap behind) (others : Spread parts s) :
      Spread (part :: parts) (before ++ (part ++ (behind ++ ',' :: s)))

inductive Gathers {σ : Type} (element : σ → List Char → Except Error (σ × List Char)) :
    σ → List (List Char) → σ → Prop
  | nil (a : σ) : Gathers element a [] a
  | cons {a b c : σ} {part : List Char} {parts : List (List Char)} (starts : StartsPart part)
      (takes : ∀ stop rest, isStop stop = true → element a (part ++ stop :: rest) = .ok (b, stop :: rest))
      (others : Gathers element b parts c) : Gathers element a (part :: parts) c

theorem Spread.length_le {parts : List (List Char)} {s : List Char} (spread : Spread parts s) :
    parts.length ≤ s.length + 1 := by
  induction spread with
  | none => simp
  | last => simp
  | more _ _ _ ih =>
      simp only [List.length_append, List.length_cons]
      omega

section

variable {σ : Type} {element : σ → List Char → Except Error (σ × List Char)} {a b : σ} {close : Char}

theorem separated_part {before part behind : List Char} (before_blank : IsGap before)
    (behind_blank : IsGap behind) (starts : StartsPart part)
    (takes : ∀ stop rest, isStop stop = true → element a (part ++ stop :: rest) = .ok (b, stop :: rest))
    (closes : close = ')' ∨ close = ']') {next : Char} (follows : next = ',' ∨ next = close) (fuel : Nat)
    (rest : List Char) : separated close element (fuel + 1) a (before ++ (part ++ (behind ++ next :: rest))) =
      if next = ',' then separated close element fuel b rest else .ok (b, rest) := by
  have solid : isBlank next = false ∧ next ≠ '/' ∧ isStop next = true := by
    obtain rfl | rfl := follows
    · decide
    · obtain rfl | rfl := closes <;> decide
  have taken : element a (part ++ (behind ++ next :: rest)) = .ok (b, behind ++ next :: rest) := by
    obtain ⟨stop, s, spelled, ends⟩ := exists_stop_of_gap behind_blank solid.2.2 rest
    rw [spelled, takes stop s ends]
  have found := skipBlank_gap_cons behind_blank solid.1 solid.2.1 rest
  have skipped : skipBlank (before ++ (part ++ (behind ++ next :: rest))) =
      .ok (part ++ (behind ++ next :: rest)) := by
    rw [skipBlank_gap before_blank, starts.skipBlank_eq]
  obtain ⟨d, ds, rfl, -, opens⟩ := starts
  have other : d ≠ close := by
    rintro rfl
    obtain rfl | rfl := closes <;> simp at opens
  simp only [List.cons_append] at taken skipped ⊢
  simp only [separated, skipped, ok_bind, if_neg other, taken, found]
  obtain rfl | rfl := follows
  · simp
  · have no_comma : next ≠ ',' := by obtain rfl | rfl := closes <;> decide
    simp only [if_neg no_comma, if_true]
    rfl

theorem separated_spread {parts : List (List Char)} (gathers : Gathers element a parts b) {s : List Char}
    (spread : Spread parts s) (closes : close = ')' ∨ close = ']') (rest : List Char) {fuel : Nat}
    (enough : parts.length < fuel) : separated close element fuel a (s ++ close :: rest) = .ok (b, rest) := by
  have no_comma : close ≠ ',' := by obtain rfl | rfl := closes <;> decide
  obtain ⟨fuel, rfl⟩ := Nat.exists_eq_succ_of_ne_zero (Nat.ne_of_gt (Nat.zero_lt_of_lt enough))
  induction spread generalizing a fuel with
  | @none gap blank =>
      cases gathers
      have found : skipBlank (gap ++ close :: rest) = .ok (close :: rest) := by
        obtain rfl | rfl := closes <;> exact skipBlank_gap_cons blank (by decide) (by decide) rest
      simp only [separated, found, ok_bind, if_true]
      rfl
  | last before_blank behind_blank =>
      obtain _ | ⟨starts, takes, others⟩ := gathers
      cases others
      simp only [List.append_assoc]
      rw [separated_part before_blank behind_blank starts takes closes (.inr rfl), if_neg no_comma]
  | more before_blank behind_blank _ ih =>
      obtain _ | ⟨starts, takes, others⟩ := gathers
      have fewer := Nat.lt_of_succ_lt_succ enough
      obtain ⟨fuel, rfl⟩ := Nat.exists_eq_succ_of_ne_zero (Nat.ne_of_gt (Nat.zero_lt_of_lt fewer))
      simp only [List.append_assoc, List.cons_append]
      rw [separated_part before_blank behind_blank starts takes closes (.inl rfl), if_pos rfl]
      exact ih others fuel fewer

/-- There are about as many characters as parts, so there is enough fuel for all of them. -/
theorem separated_all {parts : List (List Char)} (gathers : Gathers element a parts b) {s : List Char}
    (spread : Spread parts s) (closes : close = ')' ∨ close = ']') (rest : List Char) :
    separated close element ((s ++ close :: rest).length + 1) a (s ++ close :: rest) = .ok (b, rest) := by
  have := spread.length_le
  refine separated_spread gathers spread closes rest ?_
  simp only [List.length_append, List.length_cons]
  omega

end

/-! ### Values and fields -/

/-- The reader takes a value back from the spelling of a term, where a stop follows. -/
structure Restores {α : Type} (read : Reader α) (t : Term) (a : α) : Prop where
  starts : ∀ level, StartsPart (t.tall level).toList
  takes : ∀ level m stop rest, isStop stop = true →
    read m ((t.tall level).toList ++ stop :: rest) = .ok (a, stop :: rest)

/-- The fields put what they take into what was gathered, each under its name. -/
inductive Fills {σ : Type} (table : List (Field σ)) :
    List String × σ → List (String × Term) → List String × σ → Prop
  | nil (g : List String × σ) : Fills table g [] g
  | cons {α : Type} {seen : List String} {gathered : σ} {last : List String × σ} {name : String}
      {item : Reader α} {put : α → σ → σ} {value : Term} {a : α} {fields : List (String × Term)}
      (known : table.find? (·.name = name) = some (field name item put)) (word : isWord name)
      (new : name ∉ seen) (restores : Restores item value a)
      (others : Fills table (name :: seen, put a gathered) fields last) :
      Fills table (seen, gathered) ((name, value) :: fields) last

def SpellsField (f : String × Term) (s : List Char) : Prop :=
  ∃ level before behind, IsGap before ∧ IsGap behind ∧
    s = f.1.toList ++ (before ++ ':' :: (behind ++ (f.2.tall level).toList))

theorem colon_gaps {before behind value : List Char} (before_blank : IsGap before) (behind_blank : IsGap behind)
    (starts : StartsPart value) (rest : List Char) :
    colon (before ++ ':' :: (behind ++ (value ++ rest))) = .ok (value ++ rest) := by
  have found := skipBlank_gap_cons before_blank (c := ':') (by decide) (by decide) (behind ++ (value ++ rest))
  have skipped : skipBlank (behind ++ (value ++ rest)) = .ok (value ++ rest) := by
    rw [skipBlank_gap behind_blank, starts.skipBlank_eq]
  simp only [colon, found, ok_bind, expect, if_true, skipped]

theorem Fills.gathers {σ : Type} {table : List (Field σ)} {g last : List String × σ}
    {fields : List (String × Term)} (fills : Fills table g fields last) {parts : List (List Char)}
    (spelled : List.Forall₂ SpellsField fields parts) (record : String) (m : Mode) :
    Gathers (oneField record table m) g parts last := by
  induction fills generalizing parts with
  | nil g =>
      cases spelled
      exact .nil g
  | @cons α seen gathered last name item put value a fields known word new restores _ ih =>
      obtain _ | ⟨⟨level, before, behind, before_blank, behind_blank, rfl⟩, spelled⟩ := spelled
      refine .cons (startsPart_of_isWord word _) (fun stop rest ends => ?_) (ih spelled)
      obtain ⟨next, s, colon_next, next_stops⟩ := exists_stop_of_gap before_blank (c := ':') (by decide)
        (behind ++ ((value.tall level).toList ++ stop :: rest))
      have named := identifier_word word (stops_of_isStop next_stops) s
      have separator := colon_gaps before_blank behind_blank (restores.starts level) (stop :: rest)
      have taken := restores.takes level (m.deeper 2) stop rest ends
      rw [← colon_next] at named
      simp only [List.append_assoc, List.cons_append]
      simp only [oneField, named, ok_bind, known, if_neg new, separator, field, taken]
      rfl

/-! ### Records -/

inductive SpellsRecord (itsName : String) (fields : List (String × Term)) : Bool → List Char → Prop
  | named {gap body : List Char} {parts : List (List Char)} (blank : IsGap gap)
      (spelled : List.Forall₂ SpellsField fields parts) (spread : Spread parts body) :
      SpellsRecord itsName fields true (itsName.toList ++ (gap ++ '(' :: (body ++ [')'])))
  | bare {body : List Char} {parts : List (List Char)} (spelled : List.Forall₂ SpellsField fields parts)
      (spread : Spread parts body) : SpellsRecord itsName fields false ('(' :: (body ++ [')']))

variable {σ α : Type} {itsName : String} {table : List (Field σ)} {start : σ} {fields : List (String × Term)}
  {last : List String × σ} {finish : σ → Except Error α} {a : α} {named : Bool} {s : List Char}

theorem SpellsRecord.starts (spells : SpellsRecord itsName fields named s) (word : isWord itsName) :
    StartsPart s := by
  cases spells with
  | named => exact startsPart_of_isWord word _
  | bare => exact .of_head? (c := '(') rfl (by decide)

/-- A record whose fields are put together to a value is read back, whatever follows. Where records must be
named, its name has to be there. -/
theorem record_spelled (word : isWord itsName) (fills : Fills table ([], start) fields last)
    (finished : finish last.2 = .ok a) (spells : SpellsRecord itsName fields named s) {m : Mode}
    (allowed : m.namedRecords = true → named = true) (rest : List Char) :
    record itsName table start finish m (s ++ rest) = .ok (a, rest) := by
  have inside {body : List Char} {parts : List (List Char)} (spelled : List.Forall₂ SpellsField fields parts)
      (spread : Spread parts body) : separated ')' (oneField itsName table m)
        ((body ++ ')' :: rest).length + 1) ([], start) (body ++ ')' :: rest) = .ok (last, rest) :=
    separated_all (fills.gathers spelled itsName m) spread (.inl rfl) rest
  have opening {gap : List Char} (blank : IsGap gap) (s : List Char) :
      skipBlank (gap ++ '(' :: s) = .ok ('(' :: s) :=
    skipBlank_gap_cons blank (by decide) (by decide) s
  cases spells with
  | @named gap body parts blank spelled spread =>
      obtain ⟨next, s, paren_next, next_stops⟩ := exists_stop_of_gap blank (c := '(') (by decide)
        (body ++ ')' :: rest)
      have front := name_word word m (stops_of_isStop next_stops) s
      rw [← paren_next] at front
      simp only [List.append_assoc, List.cons_append, List.nil_append]
      simp only [record, front, ok_bind, opening blank, expect, if_true, inside spelled spread, finished]
      rfl
  | @bare body parts spelled spread =>
      have front : name itsName m ('(' :: (body ++ ')' :: rest)) = .ok ('(' :: (body ++ ')' :: rest)) := by
        have no_word : continuesWord ('(' :: (body ++ ')' :: rest)) = false := by
          simp only [continuesWord]
          decide
        have plain : m.namedRecords = false := Bool.eq_false_iff.mpr fun must => Bool.false_ne_true (allowed must)
        simp only [name, no_word, plain, Bool.false_eq_true, if_false]
      have open_bare := opening isGap_nil (body ++ ')' :: rest)
      simp only [List.nil_append] at open_bare
      simp only [List.append_assoc, List.cons_append, List.nil_append]
      simp only [record, front, ok_bind, open_bare, expect, if_true, inside spelled spread, finished]
      rfl

theorem attributes_eq (starts : StartsPart s) (fuel : Nat) (m : Mode) :
    attributes (fuel + 1) m s = .ok (m, s) := by
  obtain ⟨c, cs, rfl, _, other⟩ := starts
  simp only [attributes]
  split
  · next same =>
      rw [(List.cons.inj same).1] at other
      simp at other
  · rfl

def SpellsFile (itsName : String) (fields : List (String × Term)) (named : Bool) (text : String) : Prop :=
  ∃ before s behind, IsGap before ∧ SpellsRecord itsName fields named s ∧ IsGap behind ∧
    text.toList = before ++ (s ++ behind)

theorem read_spelled (word : isWord itsName) (fills : Fills table ([], start) fields last)
    (finished : finish last.2 = .ok a) {text : String} (spells : SpellsFile itsName fields named text) :
    read (record itsName table start finish) text = .ok a := by
  obtain ⟨before, s, behind, before_blank, spelled, behind_blank, whole⟩ := spells
  have starts := spelled.starts word
  have skipped : skipBlank text.toList = .ok (s ++ behind) := by
    rw [whole, skipBlank_gap before_blank, starts.skipBlank_eq]
  have taken := record_spelled word fills finished spelled (m := .plain) (by simp [Mode.plain]) behind
  have ended : skipBlank behind = .ok [] := by
    have empty := skipBlank_gap behind_blank []
    rwa [List.append_nil] at empty
  rw [read, skipped, ok_bind, attributes_eq (starts.append behind), ok_bind]
  simp only [taken, ok_bind, ended]
  rfl

end SignalGraph.Ron
