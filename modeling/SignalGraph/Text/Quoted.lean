import SignalGraph.Text.Hex
import SignalGraph.Text.Printable

/-!
Quoted text. Characters without a glyph of their own are written as escapes, so a quoted text is one
visible line; every escape is one that reading undoes.
-/

namespace SignalGraph.Text

def codePointEscape (c : Char) : List Char :=
  ['\\', 'u', '{'] ++ hexDigits 1 c.toNat ++ ['}']

/-- One character inside quotes. An apostrophe needs no escape there, but stored text gives it
one. -/
def quotedChar (escapeApostrophe : Bool) (c : Char) : List Char :=
  if c = '\x00' then ['\\', '0']
  else if c = '\t' then ['\\', 't']
  else if c = '\r' then ['\\', 'r']
  else if c = '\n' then ['\\', 'n']
  else if c = '\\' then ['\\', '\\']
  else if c = '"' then ['\\', '"']
  else if c = '\'' ∧ escapeApostrophe then ['\\', '\'']
  else if isPrintable c then [c]
  else codePointEscape c

def quotedChars (escapeApostrophe : Bool) (s : String) : List Char :=
  '"' :: s.toList.flatMap (quotedChar escapeApostrophe) ++ ['"']

def stored (s : String) : String := String.ofList (quotedChars true s)

def dumped (s : String) : String := String.ofList (quotedChars false s)

end SignalGraph.Text
