import SignalGraph.Text.Quoted

/-!
Writing stored text. A value is first laid out as a term, and a term has two spellings: the tall one
of files, with a line for every field and element, and the compact one without names of records and
without blanks.
-/

namespace SignalGraph.Ron

inductive Term where
  | atom (text : String)
  | record (name : String) (fields : List (String × Term))
  | list (items : List Term)
  | wrapper (name : String) (value : Term)
  /-- An alternative with a value. -/
  | holding (name : String) (value : Term)

namespace Term

def nat (n : Nat) : Term := atom n.repr

def int (i : Int) : Term := atom i.repr

def bool (b : Bool) : Term := atom (if b then "true" else "false")

def string (s : String) : Term := atom (Text.stored s)

def option : Option Term → Term
  | none => atom "None"
  | some t => holding "Some" t

def indent (level : Nat) : String := String.ofList (List.replicate (4 * level) ' ')

mutual

/-- The tall spelling of a term whose lines are so far indented. -/
def tall (level : Nat) : Term → String
  | atom text => text
  | record name [] => name ++ "()"
  | record name fields => name ++ "(\n" ++ tallFields (level + 1) fields ++ indent level ++ ")"
  | list [] => "[]"
  | list items => "[\n" ++ tallItems (level + 1) items ++ indent level ++ "]"
  | wrapper name value => name ++ "(" ++ tall level value ++ ")"
  | holding name value => name ++ "(" ++ tall level value ++ ")"

def tallFields (level : Nat) : List (String × Term) → String
  | [] => ""
  | (name, value) :: rest =>
    indent level ++ name ++ ": " ++ tall level value ++ ",\n" ++ tallFields level rest

def tallItems (level : Nat) : List Term → String
  | [] => ""
  | item :: rest => indent level ++ tall level item ++ ",\n" ++ tallItems level rest

end

mutual

def compact : Term → String
  | atom text => text
  | record _ fields => "(" ++ compactFields fields ++ ")"
  | list items => "[" ++ compactItems items ++ "]"
  | wrapper _ value => "(" ++ compact value ++ ")"
  | holding name value => name ++ "(" ++ compact value ++ ")"

def compactFields : List (String × Term) → String
  | [] => ""
  | [(name, value)] => name ++ ":" ++ compact value
  | (name, value) :: rest => name ++ ":" ++ compact value ++ "," ++ compactFields rest

def compactItems : List Term → String
  | [] => ""
  | [item] => compact item
  | item :: rest => compact item ++ "," ++ compactItems rest

end

def write (t : Term) : String := t.tall 0

end Term
end SignalGraph.Ron
