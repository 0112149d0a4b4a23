import SignalGraph.Proofs.Ron.Blank
import SignalGraph.Ron.Text
import SignalGraph.Text.Quoted

/-!
Reading back numbers and quoted text. Every character has one spelling between quotes, and reading takes
it for that character whatever follows. The digits of a number end where a stop follows.
-/

namespace SignalGraph

/-! ### Digits -/

theorem takeWhile_append_cons {α : Type} {p : α → Bool} {l : List α} {a : α}
    (all : ∀ b ∈ l, p b = true) (stop : p a = false) (rest : List α) :
    (l ++ a :: rest).takeWhile p = l := by
  rw [List.takeWhile_append_of_pos all, List.takeWhile_cons_of_neg (by simp [stop]),
    List.append_nil]

/-- Whatever goes on by one digit after the other reads a number back. -/
theorem foldlM_toDigits {base : Nat} (one_lt : 1 < base) {step : Nat → Char → Option Nat}
    (digit : ∀ n d, d < base → step n d.digitChar = some (base * n + d)) (n : Nat) :
    (Nat.toDigits base n).foldlM step 0 = some n := by
  induction n using Nat.strongRecOn with
  | ind n ih =>
      by_cases small : n < base
      · simp [Nat.toDigits_of_lt_base small, digit 0 n small]
      · have le := Nat.le_of_not_lt small
        have less : n / base < n := Nat.div_lt_self (by omega) one_lt
        have last := digit (n / base) (n % base) (Nat.mod_lt _ (by omega))
        rw [Nat.toDigits_of_base_le one_lt le, List.foldlM_append, ih _ less]
        simp [last, Nat.div_add_mod]

theorem exists_digit_of_mem {base n : Nat} (one_lt : 1 < base) {c : Char}
    (mem : c ∈ Nat.toDigits base n) : ∃ d < base, c = d.digitChar := by
  induction n using Nat.strongRecOn with
  | ind n ih =>
      by_cases small : n < base
      · rw [Nat.toDigits_of_lt_base small, List.mem_singleton] at mem
        exact ⟨n, small, mem⟩
      · rw [Nat.toDigits_of_base_le one_lt (Nat.le_of_not_lt small), List.mem_append,
          List.mem_singleton] at mem
        obtain before | last := mem
        · exact ih _ (Nat.div_lt_self (by omega) one_lt) before
        · exact ⟨n % base, Nat.mod_lt _ (by omega), last⟩

theorem forall_mem_toDigits {base n : Nat} (one_lt : 1 < base) {P : Char → Prop}
    (digit : ∀ d < base, P d.digitChar) : ∀ c ∈ Nat.toDigits base n, P c := by
  intro c mem
  obtain ⟨d, small, rfl⟩ := exists_digit_of_mem one_lt mem
  exact digit d small

namespace Text

theorem hexValue?_digitChar : ∀ d < 16, hexValue? d.digitChar = some d := by decide

theorem hexDigits_one (n : Nat) : hexDigits 1 n = Nat.toDigits 16 n := by
  have some_digit := Nat.length_toDigits_pos (b := 16) (n := n)
  have none_missing : 1 - (Nat.toDigits 16 n).length = 0 := by omega
  simp only [hexDigits, none_missing, List.replicate_zero, List.nil_append]

theorem quotedChar_ne_nil (escapeApostrophe : Bool) (c : Char) :
    quotedChar escapeApostrophe c ≠ [] := by
  simp only [quotedChar, codePointEscape]
  repeat' split
  all_goals simp

theorem length_le_length_flatMap_quotedChar (escapeApostrophe : Bool) (cs : List Char) :
    cs.length ≤ (cs.flatMap (quotedChar escapeApostrophe)).length := by
  induction cs with
  | nil => exact Nat.le_refl 0
  | cons c cs ih =>
      have := List.length_pos_iff.mpr (quotedChar_ne_nil escapeApostrophe c)
      rw [List.flatMap_cons, List.length_append, List.length_cons]
      omega

end Text

namespace Ron

open Text

@[simp]
theorem ok_bind {α γ : Type} (a : α) (f : α → Except Error γ) : (Except.ok a >>= f) = f a := rfl

/-! ### Quoted text -/

theorem hexNumber?_toDigits (n : Nat) : hexNumber? (Nat.toDigits 16 n) = some n := by
  refine foldlM_toDigits (by decide) ?_ n
  intro n d small
  rw [hexValue?_digitChar d small]
  rfl

theorem codePoint_hexDigits (c : Char) (rest : List Char) :
    codePoint ('{' :: hexDigits 1 c.toNat ++ '}' :: rest) = .ok (c, rest) := by
  have no_brace : ∀ d ∈ Nat.toDigits 16 c.toNat, decide (d ≠ '}') = true :=
    forall_mem_toDigits (by decide) (by decide)
  have short : (Nat.toDigits 16 c.toNat).length ≤ 6 := by
    rw [Nat.length_toDigits_le_iff (by decide) (by decide)]
    obtain low | ⟨_, high⟩ : c.toNat.isValidChar := c.valid <;> omega
  have digits : ((Nat.toDigits 16 c.toNat ++ '}' :: rest).takeWhile (· ≠ '}')).take 6 =
      Nat.toDigits 16 c.toNat := by
    rw [takeWhile_append_cons no_brace (by decide), List.take_of_length_le short]
  have some_digit : (Nat.toDigits 16 c.toNat).isEmpty = false :=
    List.isEmpty_eq_false_iff.mpr Nat.toDigits_ne_nil
  have valid : c.toNat.isValidChar := c.valid
  simp only [codePoint, hexDigits_one, List.cons_append, expect, if_true, ok_bind, digits,
    List.drop_left, some_digit, hexNumber?_toDigits, if_pos valid, Char.ofNat_toNat]
  rfl

theorem quotedChar_cases (c : Char) :
    (quotedChar true c = [c] ∧ c ≠ '"' ∧ c ≠ '\\') ∨
    ∃ e, quotedChar true c = '\\' :: e ∧ ∀ rest, escape (e ++ rest) = .ok (c, rest) := by
  by_cases short : c ∈ ['\x00', '\t', '\r', '\n', '\\', '"', '\'']
  · simp only [List.mem_cons, List.not_mem_nil, or_false] at short
    obtain rfl | rfl | rfl | rfl | rfl | rfl | rfl := short
    all_goals exact .inr ⟨_, rfl, fun _ => rfl⟩
  simp only [List.mem_cons, List.not_mem_nil, or_false, not_or] at short
  obtain ⟨null, tab, cr, newline, backslash, quote, apostrophe⟩ := short
  by_cases printable : isPrintable c
  · left
    simp [quotedChar, null, tab, cr, newline, backslash, quote, apostrophe, printable]
  · refine .inr ⟨'u' :: '{' :: (hexDigits 1 c.toNat ++ ['}']), ?_, ?_⟩
    · simp [quotedChar, null, tab, cr, newline, backslash, quote, apostrophe, printable,
        codePointEscape]
    · intro rest
      have read := codePoint_hexDigits c rest
      simp only [List.cons_append, List.append_assoc, List.nil_append] at read ⊢
      exact read

theorem quotedRest_quotedChars (cs rest : List Char) {fuel : Nat} (enough : cs.length < fuel) :
    quotedRest fuel (cs.flatMap (quotedChar true) ++ '"' :: rest) = .ok (cs, rest) := by
  induction cs generalizing fuel with
  | nil =>
      obtain ⟨fuel, rfl⟩ := Nat.exists_eq_add_of_lt enough
      simp [quotedRest]
  | cons c cs ih =>
      match fuel, enough with
      | fuel + 1, enough =>
        -- An escape costs no more fuel than the character it stands for.
        have tail := ih (Nat.lt_of_succ_lt_succ enough)
        rw [List.flatMap_cons, List.append_assoc]
        obtain ⟨itself, no_quote, no_escape⟩ | ⟨e, escaped, read⟩ := quotedChar_cases c
        · rw [itself]
          simp only [List.singleton_append, quotedRest, if_neg no_quote, if_neg no_escape, tail]
          rfl
        · rw [escaped]
          simp only [List.cons_append, quotedRest, if_neg (show '\\' ≠ '"' by decide), if_true, read,
            ok_bind, tail]
          rfl

theorem text_stored (s : String) (m : Mode) (rest : List Char) :
    text m ((stored s).toList ++ rest) = .ok (s, rest) := by
  have spelled : (stored s).toList ++ rest =
      '"' :: (s.toList.flatMap (quotedChar true) ++ '"' :: rest) := by
    simp [stored, quotedChars]
  have enough := length_le_length_flatMap_quotedChar true s.toList
  rw [spelled, text]
  simp only
  rw [quotedRest_quotedChars s.toList rest (by simp only [List.length_append]; omega), ok_bind,
    String.ofList_toList]
  rfl

/-! ### Numbers -/

theorem ofBase?_toDigits (n : Nat) : ofBase? 10 (Nat.toDigits 10 n) = some n := by
  have no_gap : ∀ c ∈ Nat.toDigits 10 n, decide (c ≠ '_') = true :=
    forall_mem_toDigits (by decide) (by decide)
  rw [ofBase?, List.filter_eq_self.mpr no_gap]
  refine foldlM_toDigits (by decide) ?_ n
  intro n d small
  simp only [hexValue?_digitChar d (Nat.lt_trans small (by decide)), if_pos small]

variable {stop : Char}

theorem base_toDigits (n : Nat) (ends : Stops stop) (rest : List Char) :
    base (Nat.toDigits 10 n ++ stop :: rest) = (10, Nat.toDigits 10 n ++ stop :: rest) := by
  have digit : ∀ c ∈ Nat.toDigits 10 n, c.isDigit = true :=
    forall_mem_toDigits (by decide) (by decide)
  have no_mark (c : Char) (cs : List Char) (mark : c.isDigit = false) (other : c ≠ stop) :
      Nat.toDigits 10 n ++ stop :: rest ≠ '0' :: c :: cs := by
    intro same
    rcases digits : Nat.toDigits 10 n with _ | ⟨d, _ | ⟨e, ds⟩⟩
    · exact Nat.toDigits_ne_nil digits
    · rw [digits] at same
      exact other (List.cons.inj (List.cons.inj same).2).1.symm
    · rw [digits] at same digit
      obtain rfl := (List.cons.inj (List.cons.inj same).2).1
      exact absurd (digit e (by simp)) (by simp [mark])
  simp only [base]
  split
  · next same => exact absurd same (no_mark 'x' _ (by decide) (ends.ne (by decide)))
  · next same => exact absurd same (no_mark 'b' _ (by decide) (ends.ne (by decide)))
  · next same => exact absurd same (no_mark 'o' _ (by decide) (ends.ne (by decide)))
  · rfl

theorem integerLiteral_toDigits (n : Nat) (ends : Stops stop) (rest : List Char) :
    integerLiteral (Nat.toDigits 10 n ++ stop :: rest) = .ok ((n, none), stop :: rest) := by
  have digit : ∀ c ∈ Nat.toDigits 10 n, isDigitOrGap c = true :=
    forall_mem_toDigits (by decide) (by decide)
  have plain : ∀ c ∈ Nat.toDigits 10 n, c ≠ 'b' ∧ c ≠ '-' ∧ c ≠ '+' ∧ c ≠ '_' :=
    forall_mem_toDigits (by decide) (by decide)
  have all := takeWhile_append_cons digit ends.no_digit rest
  have decimal := base_toDigits n ends rest
  have number := ofBase?_toDigits n
  obtain ⟨d, ds, digits⟩ := List.exists_cons_of_ne_nil (Nat.toDigits_ne_nil (b := 10) (n := n))
  rw [digits, List.cons_append] at all decimal
  rw [digits] at plain number
  -- What else a literal may start with is told from a number by its first character.
  obtain ⟨no_byte, no_minus, no_plus, no_gap⟩ := plain d (by simp)
  have unsigned : sign (d :: (ds ++ stop :: rest)) = (false, d :: (ds ++ stop :: rest)) := by
    simp only [sign]
    split
    · next same => exact absurd (List.cons.inj same).1 no_minus
    · next same => exact absurd (List.cons.inj same).1 no_plus
    · rfl
  have no_suffix : (stop :: rest).takeWhile isIdentifierPart = [] :=
    List.takeWhile_cons_of_neg (by simp [ends.no_part])
  rw [digits, List.cons_append]
  simp only [integerLiteral]
  split
  · next same => exact absurd (List.cons.inj same).1 no_byte
  · simp [unsigned, decimal, all, number, no_suffix, no_gap]

theorem integer_repr {t : IntType} {n : Nat} (holds : t.holds n) (m : Mode) (ends : Stops stop)
    (rest : List Char) : integer t m (n.repr.toList ++ stop :: rest) = .ok (n, stop :: rest) := by
  rw [Nat.repr_eq_ofList_toDigits, String.toList_ofList]
  simp only [integer, integerLiteral_toDigits n ends, ok_bind, holds, true_or, and_self, if_true]
  rfl

/-! ### Words -/

theorem keyword?_append (word : String) (ends : Stops stop) (rest : List Char) :
    keyword? word (word.toList ++ stop :: rest) = some (stop :: rest) := by
  have behind : word.toList.isPrefixOf? (word.toList ++ stop :: rest) = some (stop :: rest) := by
    induction word.toList with
    | nil => rfl
    | cons c cs ih => exact (if_pos (beq_self_eq_true c)).trans ih
  simp only [keyword?, behind, continuesWord, ends.no_part, Bool.false_eq_true, if_false]

end Ron
end SignalGraph
