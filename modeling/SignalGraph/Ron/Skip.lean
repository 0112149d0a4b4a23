import SignalGraph.Ron.Text

/-!
Skipping a value whose type is not known, as fields are that a record does not have. Such a value
may have any shape, but brackets may be nested only so deep. Behind `Some`, fields or several values
may stand in the parentheses where wrappers are left out; which of them stand there is found out by
looking ahead for a comma or the closing parenthesis.
-/

namespace SignalGraph.Ron

/-- How many levels of brackets a text may nest. A list takes two, one for itself and one for its
elements, and so do records. -/
def nestingLimit : Nat := 128

inductive ParenShape where
  | fields
  | elements

/-- Whether fields or elements follow an opening parenthesis: fields start with a name and a
colon. -/
def parenShape (s : List Char) : Except Error ParenShape := do
  let s ← skipBlank s
  match identifier s with
  | .error _ => return .elements
  | .ok (_, s) =>
    match ← skipBlank s with
    | ':' :: _ => return .fields
    | _ => return .elements

def colon (s : List Char) : Except Error (List Char) := do
  skipBlank (← expect ':' (← skipBlank s))

def skipSeparated (close : Char) (element : List Char → Except Error (List Char))
    (s : List Char) : Except Error (List Char) := do
  let (_, s) ← separated close (fun _ s => do return ((), ← element s)) (s.length + 1) () s
  return s

def attempt (skip : List Char → Except Error (List Char)) (s : List Char) : List Char :=
  match skip s with
  | .ok s => s
  | .error _ => s

def skipQuotedCharacter : List Char → Except Error (List Char)
  | '\'' :: s => skipCharacter s
  | _ => .error .malformed

def skipBytes : List Char → Except Error (List Char)
  | 'b' :: '"' :: s => skipByteString (s.length + 1) s
  | 'b' :: 'r' :: s => do return (← rawText s).2
  | _ => .error .malformed

/-- Whether a comma with more behind it comes before the closing parenthesis. Brackets are counted,
not matched; `depth` are open inside the parentheses. Those in quotes and comments do not count. -/
def severalAhead : (fuel : Nat) → (depth : Nat) → List Char → Except Error Bool
  | 0, _, _ => .error .malformed
  | fuel + 1, depth, s => do
    let s := attempt skipQuotedCharacter (← skipBlank s)
    let s := attempt skipBytes (attempt (fun s => do return (← text .plain s).2) s)
    match s with
    | [] => .error .malformed
    | c :: s =>
      if c ∈ ['(', '[', '{'] then severalAhead fuel (depth + 1) s
      else if c ∈ [')', ']', '}'] then
        match depth with
        | 0 => return false
        | depth + 1 => severalAhead fuel depth s
      else if c = ',' ∧ depth = 0 then return (← skipBlank s).head? ≠ some ')'
      else severalAhead fuel depth s

inductive Held where
  | nothing
  | one
  | several
  | fields

def held (s : List Char) : Except Error Held :=
  if s.head? = some ')' then .ok .nothing
  else do
    let s ← match identifier s with
      | .ok (_, s) => skipBlank s
      | .error _ => .ok s
    if s.head? = some ':' then return .fields
    else return if ← severalAhead (s.length + 1) 0 s then .several else .one

def skipValue (m : Mode) (s : List Char) : Except Error (List Char) :=
  let within (levels : Nat) (s : List Char) : Except Error (List Char) :=
    if _h : 0 < levels ∧ m.level + levels ≤ nestingLimit then skipValue (m.deeper levels) s
    else .error .malformed
  let nested (skip : List Char → Except Error (List Char)) (s : List Char) :=
    if m.level < nestingLimit then skip s else .error .malformed
  let fields (levels : Nat) (s : List Char) :=
    skipSeparated ')' (fun s => do within levels (← colon (← identifier s).2)) s
  let words := ["true", "false", "None", "inf", "inff32", "inff64", "NaN", "NaNf32", "NaNf64"]
  match words.findSome? (keyword? · s) with
  | some s => .ok s
  | none =>
    match keyword? "Some" s with
    | some s => do
      match ← skipBlank s with
      | '(' :: s => do
        let s ← skipBlank s
        match ← if m.bareWrappersInVariants then held s else .ok .one with
        | .nothing => nested (expect ')') s
        | .one => closing ')' (← within 1 s)
        | .several => skipSeparated ')' (within 3) s
        | .fields => fields 3 s
      | s => if m.implicitSome then within 1 s else .error .malformed
    | none =>
      let parentheses (s : List Char) : Except Error (List Char) := do
        match ← parenShape s with
        | .fields => fields 2 s
        | .elements => skipSeparated ')' (within 2) s
      match identifier s with
      | .ok (_, s) => do
        match ← skipBlank s with
        | '(' :: s => nested parentheses s
        | s => return s
      | .error _ =>
        match s with
        | '(' :: ')' :: s => .ok s
        | '(' :: s => nested parentheses s
        | '[' :: s => nested (skipSeparated ']' (within 2)) s
        | '{' :: s => nested (skipSeparated '}' fun s => do within 2 (← colon (← within 2 s))) s
        | '"' :: _ | 'r' :: _ => do return (← text .plain s).2
        | 'b' :: '\'' :: _ => skipNumber s
        | 'b' :: _ => skipBytes s
        | '\'' :: s => skipCharacter s
        | c :: _ =>
          if c.isDigit ∨ c = '+' ∨ c = '-' ∨ c = '.' then skipNumber s else .error .malformed
        | [] => .error .malformed
termination_by nestingLimit - m.level
decreasing_by
  simp only [Mode.deeper]
  omega

end SignalGraph.Ron
