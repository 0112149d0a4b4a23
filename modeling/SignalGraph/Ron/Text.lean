import SignalGraph.Ron.Number
import SignalGraph.Text.Utf8

/-!
Quoted text in stored text. Between plain quotes a backslash starts an escape; between the quotes of
a raw text nothing does.
-/

namespace SignalGraph.Ron

/-- Takes further byte escapes until the bytes, `first` and those `gathered`, are a character. -/
def escapedBytes (first : UInt8) :
    (fuel : Nat) → (gathered : List UInt8) → List Char → Except Error (Char × List Char)
  | 0, _, _ => .error .malformed
  | fuel + 1, gathered, s =>
    match Utf8.front first gathered with
    | .char c _ => .ok (c, s)
    | .invalid _ => .error .malformed
    | .incomplete =>
      match s with
      | '\\' :: 'x' :: s => do
        let (b, s) ← hexByte s
        escapedBytes first fuel (gathered ++ [b]) s
      | _ => .error .malformed

def hexNumber? (digits : List Char) : Option Nat :=
  digits.foldlM (fun n c => (Text.hexValue? c).map (16 * n + ·)) 0

def codePoint (s : List Char) : Except Error (Char × List Char) := do
  let s ← expect '{' s
  let digits := (s.takeWhile (· ≠ '}')).take 6
  let s ← expect '}' (s.drop digits.length)
  match digits.isEmpty, hexNumber? digits with
  | false, some n => if n.isValidChar then return (Char.ofNat n, s) else .error .malformed
  | _, _ => .error .malformed

def escape : List Char → Except Error (Char × List Char)
  | 'u' :: s => codePoint s
  | 'x' :: s => do
    let (b, s) ← hexByte s
    escapedBytes b 4 [] s
  | s => do
    let (b, s) ← byteEscape s
    return (Char.ofNat b.toNat, s)

/-- Takes the rest of a quoted text, and its closing quote; `fuel` bounds the characters. -/
def quotedRest : (fuel : Nat) → List Char → Except Error (List Char × List Char)
  | 0, _ => .error .malformed
  | _ + 1, [] => .error .malformed
  | fuel + 1, c :: s =>
    if c = '"' then .ok ([], s)
    else if c = '\\' then do
      let (c, s) ← escape s
      let (cs, s) ← quotedRest fuel s
      return (c :: cs, s)
    else do
      let (cs, s) ← quotedRest fuel s
      return (c :: cs, s)

def rawRest (hashes : Nat) : List Char → Except Error (List Char × List Char)
  | [] => .error .malformed
  | c :: s =>
    if c = '"' ∧ s.take hashes = List.replicate hashes '#' then .ok ([], s.drop hashes)
    else do
      let (cs, s) ← rawRest hashes s
      return (c :: cs, s)

def rawText (s : List Char) : Except Error (List Char × List Char) := do
  let hashes := (s.takeWhile (· = '#')).length
  rawRest hashes (← expect '"' (s.drop hashes))

def text : Reader String := fun _ s => do
  let (cs, s) ← match s with
    | '"' :: s => quotedRest (s.length + 1) s
    | 'r' :: s => rawText s
    | _ => .error .malformed
  return (String.ofList cs, s)

/-- Skips a character in single quotes, behind the first. A character past ASCII needs one
escape. -/
def skipCharacter (s : List Char) : Except Error (List Char) :=
  match s with
  | '\\' :: 'x' :: s => do
    let (b, s) ← hexByte s
    if b.toNat < 0x80 then expect '\'' s else .error .malformed
  | '\\' :: s => do expect '\'' (← escape s).2
  | _ :: s => expect '\'' s
  | [] => .error .malformed

def skipByteString : (fuel : Nat) → List Char → Except Error (List Char)
  | 0, _ => .error .malformed
  | fuel + 1, s =>
    match s with
    | '"' :: s => .ok s
    | '\\' :: 'u' :: s => do skipByteString fuel (← codePoint s).2
    | '\\' :: s => do skipByteString fuel (← byteEscape s).2
    | _ :: s => skipByteString fuel s
    | [] => .error .malformed

end SignalGraph.Ron
