import SignalGraph.Text.Utf8

/-!
Paths of files. A path is a string of bytes in which slashes separate names; it need not be text. No
operation here looks at the files themselves, and none resolves dots.
-/

namespace SignalGraph

structure Path where
  bytes : List UInt8
deriving DecidableEq, Inhabited

namespace Path

def slash : UInt8 := 0x2F

def dot : List UInt8 := [0x2E]

def dotDot : List UInt8 := [0x2E, 0x2E]

def ofString (s : String) : Path := ⟨Utf8.encode s⟩

def toString? (p : Path) : Option String := (Utf8.decode p.bytes).toOption

def text (p : Path) : String := Utf8.lossy p.bytes

def isAbsolute (p : Path) : Bool := p.bytes.head? = some slash

def splitBytes : List UInt8 → List (List UInt8)
  | [] => [[]]
  | b :: rest =>
    if b = slash then [] :: splitBytes rest
    else
      match splitBytes rest with
      | part :: parts => (b :: part) :: parts
      | [] => [[b]]

def joinBytes : List (List UInt8) → List UInt8
  | [] => []
  | [part] => part
  | part :: parts => part ++ slash :: joinBytes parts

/-- Leaves out the parts at the end that name nothing. -/
def trim (parts : List (List UInt8)) : List (List UInt8) :=
  (parts.reverse.dropWhile fun part => part.isEmpty || part = dot).reverse

def anchor (p : Path) : List UInt8 :=
  if p.isAbsolute then [slash]
  else if p.bytes = dot ∨ p.bytes.take 2 = dot ++ [slash] then dot
  else []

/-- The path without its last name. The root and the empty path have none. -/
def parent? (p : Path) : Option Path :=
  let anchor := p.anchor
  match trim (splitBytes (p.bytes.drop anchor.length)) with
  | [] => if anchor = dot then some ⟨[]⟩ else none
  | parts => some ⟨anchor ++ joinBytes (trim parts.dropLast)⟩

/-- A path as seen from a directory. An absolute path stays what it is. -/
def join (dir p : Path) : Path :=
  if p.isAbsolute then p
  else if dir.bytes.isEmpty ∨ dir.bytes.getLast? = some slash then ⟨dir.bytes ++ p.bytes⟩
  else ⟨dir.bytes ++ slash :: p.bytes⟩

end Path
end SignalGraph
