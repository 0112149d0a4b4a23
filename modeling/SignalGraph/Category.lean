/-!
What a spot carries and which way. Two spots may be linked only if their directions are opposite and
their categories go together; going together is symmetric.
-/

namespace SignalGraph

inductive Direction where
  | input
  | output
deriving DecidableEq, Inhabited

namespace Direction

def opposite : Direction → Direction
  | input => output
  | output => input

def text : Direction → String
  | input => "In"
  | output => "Out"

end Direction

inductive Category where
  | any
  | object
  | float
  | int
  | bool
  | string
  | instanceRef
  | custom (name : String)
deriving DecidableEq, Inhabited

namespace Category

/-- Whether spots of the two categories may be linked: equal ones, the two number categories, and
`any` with all others. -/
def goesWith (a b : Category) : Bool :=
  a = any ∨ b = any ∨ a = b ∨ (a = int ∧ b = float) ∨ (a = float ∧ b = int)

def text : Category → String
  | any => "Any"
  | object => "Object"
  | float => "Float"
  | int => "Int"
  | bool => "Bool"
  | string => "String"
  | instanceRef => "Instance"
  | custom name => "Custom(" ++ name ++ ")"

theorem goesWith_comm (a b : Category) : a.goesWith b = b.goesWith a := by
  unfold goesWith
  congr 1
  simp only [eq_iff_iff]
  constructor <;> rintro (h | h | h | h | h) <;> simp_all

end Category

inductive Arity where
  | unbounded
  | atMost (limit : UInt32)
deriving DecidableEq, Inhabited

namespace Arity

def admits : Arity → Nat → Bool
  | unbounded, _ => true
  | atMost limit, count => count ≤ limit.toNat

/-- The arity as one number: `-1` without a limit, else the limit as far as 32 signed bits hold
it. -/
def toRaw : Arity → Int
  | unbounded => -1
  | atMost limit => min limit.toNat 0x7FFFFFFF

def text : Arity → String
  | unbounded => "*"
  | atMost limit => limit.toNat.repr

end Arity
end SignalGraph
