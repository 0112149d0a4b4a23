import SignalGraph.Host.Path

/-!
Access to files, and a model of it in memory. Whatever the host does with files it does through two
operations, so that it can be run on real files as well as reasoned about on a map from places to
contents. A read or write that fails changes nothing.
-/

namespace SignalGraph

inductive FileError where
  | notFound
  | isDirectory
  | notDirectory
  | notText
  | nameTooLong
  /-- The path has a byte that no name can have. -/
  | zeroByte
  | other (message : String)
deriving DecidableEq

namespace FileError

def message : FileError → String
  | notFound => "No such file or directory (os error 2)"
  | isDirectory => "Is a directory (os error 21)"
  | notDirectory => "Not a directory (os error 20)"
  | notText => "stream did not contain valid UTF-8"
  | nameTooLong => "File name too long (os error 36)"
  | zeroByte => "file name contained an unexpected NUL byte"
  | other message => message

end FileError

class FileAccess (m : Type → Type) where
  read : Path → m (Except FileError (List UInt8))
  write : Path → List UInt8 → m (Except FileError Unit)

def FileAccess.readText {m : Type → Type} [Monad m] [FileAccess m] (p : Path) :
    m (Except FileError String) := do
  match ← FileAccess.read p with
  | .error cause => return .error cause
  | .ok bytes =>
    match Utf8.decode bytes with
    | .ok s => return .ok s
    | .error _ => return .error .notText

inductive Anchor where
  | root
  | above (levels : Nat)
deriving DecidableEq

structure Place where
  anchor : Anchor
  names : List (List UInt8)
deriving DecidableEq

namespace Place

def start (p : Path) : Place := ⟨if p.isAbsolute then .root else .above 0, []⟩

def parent (place : Place) : Place :=
  match place.anchor, place.names with
  | .above levels, [] => ⟨.above (levels + 1), []⟩
  | anchor, names => ⟨anchor, names.dropLast⟩

def step (place : Place) (part : List UInt8) : Place :=
  if part.isEmpty ∨ part = Path.dot then place
  else if part = Path.dotDot then place.parent
  else { place with names := place.names ++ [part] }

end Place

inductive FileEntry where
  | directory
  | file (bytes : List UInt8)
deriving DecidableEq

/-- Files and directories by their places. The root, the working directory and those above it are
always there. -/
structure Files where
  entries : List (Place × FileEntry)
deriving DecidableEq

namespace Files

def empty : Files := ⟨[]⟩

def entry? (f : Files) (place : Place) : Option FileEntry :=
  if place.names.isEmpty then some .directory else f.entries.lookup place

def put (f : Files) (place : Place) (e : FileEntry) : Files :=
  ⟨(place, e) :: f.entries.filter (·.1 ≠ place)⟩

/-- Follows the parts of a path; all but the last must lead to directories. -/
def follow (f : Files) : Place → List (List UInt8) → Except FileError Place
  | place, [] => .ok place
  | place, part :: rest =>
    match f.entry? place with
    | none => .error .notFound
    | some (.file _) => .error .notDirectory
    | some .directory =>
      if 255 < part.length then .error .nameTooLong else f.follow (place.step part) rest

def parts (p : Path) : Except FileError (List (List UInt8)) :=
  if p.bytes.isEmpty then .error .notFound
  else if 0 ∈ p.bytes then .error .zeroByte
  else if 4096 ≤ p.bytes.length then .error .nameTooLong
  else .ok (Path.splitBytes p.bytes)

def read (f : Files) (p : Path) : Except FileError (List UInt8) := do
  let place ← f.follow (.start p) (← parts p)
  match f.entry? place with
  | none => .error .notFound
  | some .directory => .error .isDirectory
  | some (.file bytes) => .ok bytes

/-- Gives the file that a path leads to a content, and makes the file if its directory is there. A
slash at the end asks for a directory. -/
def write (f : Files) (p : Path) (bytes : List UInt8) : Except FileError Files := do
  let parts ← parts p
  let place ← f.follow (.start p) (parts.reverse.dropWhile List.isEmpty).reverse
  if parts.getLast? = some [] ∨ f.entry? place = some .directory then .error .isDirectory
  else .ok (f.put place (.file bytes))

def makeDirectories (f : Files) : Place → List (List UInt8) → Files
  | _, [] => f
  | place, part :: rest =>
    let place := place.step part
    match f.entry? place with
    | some (.file _) => f
    | some .directory => f.makeDirectories place rest
    | none => (f.put place .directory).makeDirectories place rest

/-- Makes the directories that the parent of a path leads through. -/
def makeParents (f : Files) (p : Path) : Files :=
  match p.parent? with
  | none => f
  | some dir => f.makeDirectories (.start p) (Path.splitBytes dir.bytes)

instance : FileAccess (StateM Files) where
  read p f := (f.read p, f)
  write p bytes f :=
    match f.write p bytes with
    | .ok f => (.ok (), f)
    | .error cause => (.error cause, f)

end Files
end SignalGraph
