import SignalGraph.InstanceId
import SignalGraph.Ron.Skip

/-!
Composite values in stored text: records, lists, optional values, wrappers and alternatives. A
record is read by its fields: each takes its value and puts it into what has been gathered, in
whatever order the fields come, and what the gathered fields make is up to the record.
-/

namespace SignalGraph.Ron

def bool : Reader Bool := fun _ s =>
  match keyword? "true" s, keyword? "false" s with
  | some s, _ => .ok (true, s)
  | _, some s => .ok (false, s)
  | none, none => .error .malformed

def instanceId : Reader InstanceId := fun m s => do
  let (t, s) ← text m s
  match InstanceId.ofText? t with
  | some id => return (id, s)
  | none => .error .malformed

def list {α : Type} (item : Reader α) : Reader (List α) := fun m s => do
  let s ← expect '[' s
  let element (gathered : Array α) (s : List Char) := do
    let (a, s) ← item (m.deeper 2) s
    return (gathered.push a, s)
  let (gathered, s) ← separated ']' element (s.length + 1) #[] s
  return (gathered.toList, s)

/-- Takes `None`, or `Some` with a value. Where values may stand for themselves, so may one behind
the word `Some`. -/
def option {α : Type} (item : Reader α) : Reader (Option α) := fun m s =>
  let bare (s : List Char) : Except Error (Option α × List Char) := do
    let (a, s) ← item (m.deeper 1) s
    return (some a, s)
  match keyword? "None" s with
  | some s => .ok (none, s)
  | none =>
    match keyword? "Some" s with
    | none => if m.implicitSome then bare s else .error .malformed
    | some s => do
      match ← skipBlank s with
      | '(' :: s => do
        let (a, s) ← bare (← skipBlank s)
        return (a, ← closing ')' s)
      | s => if m.implicitSome then bare s else .error .malformed

def name (expected : String) (m : Mode) (s : List Char) : Except Error (List Char) :=
  if continuesWord s then
    match identifier s with
    | .error _ => .error .malformed
    | .ok (found, s) => if found = expected then .ok s else .error (.wrongName expected found)
  else if m.namedRecords then .error .malformed
  else .ok s

/-- Takes a value in parentheses that may be named. `inVariant` tells that it is all that an
alternative holds. -/
def wrapper {α : Type} (itsName : String) (item : Reader α) (inVariant : Bool) : Reader α :=
  fun m s =>
    if m.bareWrappers ∨ (inVariant ∧ m.bareWrappersInVariants) then item (m.deeper 1) s
    else do
      let s ← expect '(' (← skipBlank (← name itsName m s))
      let (a, s) ← item (m.deeper 1) (← skipBlank s)
      return (a, ← closing ')' s)

abbrev Alternative (α : Type) := String × Reader α

def unit {α : Type} (itsName : String) (a : α) : Alternative α := (itsName, fun _ s => .ok (a, s))

def holding {α γ : Type} (itsName : String) (make : γ → α) (item : Reader γ) : Alternative α :=
  (itsName, fun m s => do
    let s ← expect '(' (← skipBlank s)
    let (c, s) ← item (m.deeper 2) (← skipBlank s)
    return (make c, ← closing ')' s))

def oneOf {α : Type} (alternatives : List (Alternative α)) : Reader α := fun m s => do
  let (found, s) ← identifier (← skipBlank s)
  match alternatives.lookup found with
  | some read => read m s
  | none => .error .malformed

structure Field (σ : Type) where
  name : String
  /-- Takes the field's value and puts it into what was gathered. -/
  read : Mode → σ → List Char → Except Error (σ × List Char)

def field {σ α : Type} (itsName : String) (item : Reader α) (put : α → σ → σ) : Field σ where
  name := itsName
  read m gathered s := do
    let (a, s) ← item m s
    return (put a gathered, s)

/-- Takes one field: its name, a colon, and its value. Fields that the record does not have are
skipped. -/
def oneField {σ : Type} (record : String) (fields : List (Field σ)) (m : Mode)
    (gathered : List String × σ) (s : List Char) :
    Except Error ((List String × σ) × List Char) := do
  let (found, s) ← identifier s
  match fields.find? (·.name = found) with
  | none =>
    let s ← skipValue (m.deeper 2) (← colon s)
    return (gathered, s)
  | some f =>
    if found ∈ gathered.1 then .error (.duplicateField found record)
    else
      let (fields, s) ← f.read (m.deeper 2) gathered.2 (← colon s)
      return ((found :: gathered.1, fields), s)

def record {σ α : Type} (itsName : String) (fields : List (Field σ)) (start : σ)
    (finish : σ → Except Error α) : Reader α := fun m s => do
  let s ← expect '(' (← skipBlank (← name itsName m s))
  let ((_, gathered), s) ← separated ')' (oneField itsName fields m) (s.length + 1) ([], start) s
  return (← finish gathered, s)

def required {α : Type} (record field : String) : Option α → Except Error α
  | some a => .ok a
  | none => .error (.missingField field record)

def extensions : (fuel : Nat) → Mode → List Char → Except Error (Mode × List Char)
  | 0, _, _ => .error .malformed
  | fuel + 1, m, s => do
    let (found, s) ← identifier s
    match m.enable? found with
    | none => .error .malformed
    | some m =>
      match ← skipBlank s with
      | ',' :: s =>
        let s ← skipBlank s
        if continuesWord s then extensions fuel m s else return (m, ← expect ')' s)
      | s => return (m, ← expect ')' s)

/-- Takes the attributes at the start of a text, each of which enables extensions. -/
def attributes : (fuel : Nat) → Mode → List Char → Except Error (Mode × List Char)
  | 0, _, _ => .error .malformed
  | fuel + 1, m, s =>
    match s with
    | '#' :: s => do
      let s ← skipBlank (← expect '!' (← skipBlank s))
      let s ← skipBlank (← expect '[' s)
      match "enable".toList.isPrefixOf? s with
      | none => .error .malformed
      | some s =>
        let s ← skipBlank (← expect '(' (← skipBlank s))
        let (m, s) ← extensions (s.length + 1) m s
        let s ← expect ']' (← skipBlank s)
        attributes fuel m (← skipBlank s)
    | s => .ok (m, s)

def read {α : Type} (value : Reader α) (text : String) : Except Error α := do
  let s ← skipBlank text.toList
  let (m, s) ← attributes (s.length + 1) .plain s
  let (a, s) ← value m s
  if (← skipBlank s).isEmpty then return a else .error .malformed

end SignalGraph.Ron
