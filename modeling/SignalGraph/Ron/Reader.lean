import SignalGraph.Ron.Error
import SignalGraph.Text.Identifier

/-!
Reading stored text: blanks, words and punctuation. A reader takes a value from the front of some
characters and leaves the rest; it starts where its value starts, so whoever calls it has skipped
the blanks before.
-/

namespace SignalGraph.Ron

structure Mode where
  /-- A present optional value may stand for itself. -/
  implicitSome : Bool
  bareWrappers : Bool
  /-- So they are where the wrapper is all that an alternative holds. -/
  bareWrappersInVariants : Bool
  namedRecords : Bool
  level : Nat
deriving DecidableEq

namespace Mode

def plain : Mode := ⟨false, false, false, false, 0⟩

def deeper (m : Mode) (levels : Nat) : Mode := { m with level := m.level + levels }

def enable? (m : Mode) : String → Option Mode
  | "implicit_some" => some { m with implicitSome := true }
  | "unwrap_newtypes" => some { m with bareWrappers := true }
  | "unwrap_variant_newtypes" => some { m with bareWrappersInVariants := true }
  | "explicit_struct_names" => some { m with namedRecords := true }
  | _ => none

end Mode

/-- Takes a value of type `α` from the front of some characters. -/
abbrev Reader (α : Type) := Mode → List Char → Except Error (α × List Char)

def isBlank (c : Char) : Bool :=
  c.toNat ∈ [0x20, 0x09, 0x0A, 0x0B, 0x0C, 0x0D, 0x85, 0x200E, 0x200F, 0x2028, 0x2029]

inductive BlankState where
  | between
  | lineComment
  | blockComment (outer : Nat)

def skipFrom : BlankState → List Char → Except Error (List Char)
  | .between, '/' :: '/' :: s => skipFrom .lineComment s
  | .between, '/' :: '*' :: s => skipFrom (.blockComment 0) s
  | .between, '/' :: _ => .error .malformed
  | .between, c :: s => if isBlank c then skipFrom .between s else .ok (c :: s)
  | .between, [] => .ok []
  | .lineComment, c :: s => if c = '\n' then skipFrom .between s else skipFrom .lineComment s
  | .lineComment, [] => .ok []
  | .blockComment outer, '/' :: '*' :: s => skipFrom (.blockComment (outer + 1)) s
  | .blockComment 0, '*' :: '/' :: s => skipFrom .between s
  | .blockComment (outer + 1), '*' :: '/' :: s => skipFrom (.blockComment outer) s
  | .blockComment outer, _ :: s => skipFrom (.blockComment outer) s
  | .blockComment _, [] => .error .malformed

def skipBlank (s : List Char) : Except Error (List Char) := skipFrom .between s

def expect (c : Char) : List Char → Except Error (List Char)
  | d :: s => if d = c then .ok s else .error .malformed
  | [] => .error .malformed

def continuesWord : List Char → Bool
  | c :: _ => Text.isIdentifierPart c
  | [] => false

/-- Takes a given word, unless it is only the start of a longer one. -/
def keyword? (word : String) (s : List Char) : Option (List Char) :=
  match word.toList.isPrefixOf? s with
  | some rest => if continuesWord rest then none else some rest
  | none => none

def isRawPart (c : Char) : Bool := Text.isIdentifierPart c || c = '.' || c = '+' || c = '-'

def startsLiteral : List Char → Bool
  | 'b' :: c :: s =>
    c = '\'' || c = '"' || (c = 'r' && (s.head? = some '"' || s.head? = some '#'))
  | 'r' :: '"' :: _ => true
  | 'r' :: '#' :: c :: _ => c = '"' || c = '#'
  | _ => false

/-- Takes an identifier. One that holds a point or a sign must follow `r#`. -/
def identifier (s : List Char) : Except Error (String × List Char) :=
  match s with
  | [] => .error .malformed
  | c :: _ =>
    if !Text.isIdentifierStart c || startsLiteral s then .error .malformed
    else
      match s with
      | 'r' :: '#' :: s =>
        let name := s.takeWhile isRawPart
        if name.isEmpty then .error .malformed
        else .ok (String.ofList name, s.drop name.length)
      | s =>
        let name := s.takeWhile Text.isIdentifierPart
        let rest := s.drop name.length
        if rest.head?.any isRawPart then .error .malformed else .ok (String.ofList name, rest)

def closing (c : Char) (s : List Char) : Except Error (List Char) := do
  match ← skipBlank s with
  | ',' :: s => expect c (← skipBlank s)
  | s => expect c s

/-- Takes elements with commas between them, and perhaps one behind the last, up to the closing
character. Each element changes what was gathered before; `fuel` bounds their number. -/
def separated {σ : Type} (close : Char)
    (element : σ → List Char → Except Error (σ × List Char)) :
    (fuel : Nat) → σ → List Char → Except Error (σ × List Char)
  | 0, _, _ => .error .malformed
  | fuel + 1, gathered, s => do
    match ← skipBlank s with
    | [] => .error .malformed
    | c :: s =>
      if c = close then return (gathered, s)
      else
        let (gathered, s) ← element gathered (c :: s)
        match ← skipBlank s with
        | [] => .error .malformed
        | c :: s =>
          if c = ',' then separated close element fuel gathered s
          else if c = close then return (gathered, s)
          else .error .malformed

end SignalGraph.Ron
