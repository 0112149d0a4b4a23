import SignalGraph.Category
import SignalGraph.InstanceId
import SignalGraph.Number.Decimal

/-!
The values that signals carry.
-/

namespace SignalGraph

inductive Value where
  | float (x : Binary32)
  | int (i : Int64)
  | bool (b : Bool)
  | string (s : String)
  | object (handle : UInt64)
  | instanceRef (id : InstanceId)
deriving DecidableEq, Inhabited

namespace Value

def category : Value → Category
  | float _ => .float
  | int _ => .int
  | bool _ => .bool
  | string _ => .string
  | object _ => .object
  | instanceRef _ => .instanceRef

/-- A number as a double. Integers past `2 ^ 53` are rounded. -/
def asFloat? : Value → Option Binary64
  | float x => some x.widen
  | int i => some (Binary64.ofInt i.toInt)
  | _ => none

def asInt? : Value → Option Int64
  | int i => some i
  | _ => none

def asBool? : Value → Option Bool
  | bool b => some b
  | _ => none

def asString? : Value → Option String
  | string s => some s
  | _ => none

def asObject? : Value → Option UInt64
  | object h => some h
  | _ => none

def asInstance? : Value → Option InstanceId
  | instanceRef id => some id
  | _ => none

def text : Value → String
  | float x => x.write .message
  | int i => i.toInt.repr
  | bool b => if b then "true" else "false"
  | string s => s
  | object h => "object#" ++ h.toNat.repr
  | instanceRef id => "instance:" ++ id.text

def listText (args : List Value) : String := ", ".intercalate (args.map text)

end Value

def checkedAdd (a b : Int64) : Option Int64 :=
  let sum := a.toInt + b.toInt
  if Int64.minValue.toInt ≤ sum ∧ sum ≤ Int64.maxValue.toInt then some (Int64.ofInt sum) else none

end SignalGraph
