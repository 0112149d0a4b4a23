import SignalGraph.Host.Error
import SignalGraph.Text.Identifier

/-!
Directives for the log: a list with commas, in which each directive is a level, a target, or a
target with a level.
-/

namespace SignalGraph.Logging

def levelNames : List String := ["off", "error", "warn", "info", "debug", "trace"]

def isLevelNumber (s : List Char) : Bool :=
  let digits := match s with
    | '+' :: digits => digits
    | digits => digits
  digits.dropLast.all (· = '0') && digits.getLast?.any fun c => '0' ≤ c && c ≤ '5'

def isLevel (s : List Char) : Bool :=
  levelNames.any (fun n => n.toList = s.map Char.toLower) || isLevelNumber s

def startsTarget (c : Char) : Bool :=
  Text.isIdentifierPart c || c = '-' || c = ':'

/-- Whether a directive is well formed: behind an equals sign only a level may stand, or nothing. -/
def isDirective (s : List Char) : Bool :=
  match s with
  | [] => true
  | c :: _ =>
    startsTarget c &&
      match s.dropWhile (· ≠ '=') with
      | [] => true
      | _ :: level => level.isEmpty || isLevel level

def splitDirectives : List Char → List (List Char)
  | [] => [[]]
  | c :: rest =>
    if c = ',' then [] :: splitDirectives rest
    else
      match splitDirectives rest with
      | part :: parts => (c :: part) :: parts
      | [] => [[c]]

def check (directives : String) : Except HostError Unit :=
  if (splitDirectives directives.toList).all isDirective then .ok () else .error .logging

/-- Sets up the log. Directives from the environment win if they are well formed. -/
def setup (environment : Option String) (directives : String) : Except HostError Unit :=
  match environment.map check with
  | some (.ok ()) => .ok ()
  | _ => check directives

end SignalGraph.Logging
