import SignalGraph.Text.Identifier

/-!
Why a text is not the stored form of a value. Three faults name what is wrong; the others only say
that the text is malformed.
-/

namespace SignalGraph.Ron

/-- The first fault of a text, read from left to right. -/
inductive Error where
  | malformed
  | missingField (field record : String)
  | duplicateField (field record : String)
  | wrongName (expected found : String)
deriving DecidableEq

/-- A name in back quotes, spelled as in a text: one that is no plain identifier follows `r#`. -/
def quotedName (name : String) : String :=
  let isPlain := match name.toList with
    | [] => false
    | c :: cs => Text.isIdentifierStart c && cs.all Text.isIdentifierPart
  "\x60" ++ (if isPlain then name else "r#" ++ name) ++ "\x60"

def Error.detail? : Error → Option String
  | malformed => none
  | missingField field record =>
    some ("Unexpected missing field named " ++ quotedName field ++ " in " ++ quotedName record)
  | duplicateField field record =>
    some ("Unexpected duplicate field named " ++ quotedName field ++ " in " ++ quotedName record)
  | wrongName expected found =>
    some ("Expected struct " ++ quotedName expected ++ " but found " ++ quotedName found)

end SignalGraph.Ron
