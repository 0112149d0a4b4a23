import SignalGraph.Builtin
import SignalGraph.Document.Text

/-!
Values and the types of spots as stored text. A signal's value is an alternative named by its kind;
the handles of objects and instances are wrapped in types of their own.
-/

namespace SignalGraph

namespace Value

def term : Value → Ron.Term
  | float x => .holding "Float" (.atom (x.write .stored))
  | int i => .holding "Int" (.int i.toInt)
  | bool b => .holding "Bool" (.bool b)
  | string s => .holding "String" (.string s)
  | object h => .holding "Object" (.wrapper "ObjectHandle" (.nat h.toNat))
  | instanceRef id => .holding "Instance" (.wrapper "InstanceId" (.string id.text))

def int64 : Ron.Reader Int64 := fun m s => do
  let (i, s) ← Ron.integer .i64 m s
  return (Int64.ofInt i, s)

def handle : Ron.Reader UInt64 := fun m s => do
  let (i, s) ← Ron.integer .u64 m s
  return (UInt64.ofNat i.toNat, s)

def reader : Ron.Reader Value := Ron.oneOf
  [Ron.holding "Float" float Ron.single,
   Ron.holding "Int" int int64,
   Ron.holding "Bool" bool Ron.bool,
   Ron.holding "String" string Ron.text,
   Ron.holding "Object" object (Ron.wrapper "ObjectHandle" handle true),
   Ron.holding "Instance" instanceRef (Ron.wrapper "InstanceId" Ron.instanceId true)]

end Value

namespace Category

def term : Category → Ron.Term
  | any => .atom "Any"
  | object => .atom "Object"
  | float => .atom "Float"
  | int => .atom "Int"
  | bool => .atom "Bool"
  | string => .atom "String"
  | instanceRef => .atom "Instance"
  | custom name => .holding "Custom" (.string name)

def reader : Ron.Reader Category := Ron.oneOf
  [Ron.unit "Any" any, Ron.unit "Object" object, Ron.unit "Float" float, Ron.unit "Int" int,
   Ron.unit "Bool" bool, Ron.unit "String" string, Ron.unit "Instance" instanceRef,
   Ron.holding "Custom" custom Ron.text]

end Category

namespace Direction

def term (d : Direction) : Ron.Term := .atom d.text

def reader : Ron.Reader Direction := Ron.oneOf [Ron.unit "In" input, Ron.unit "Out" output]

end Direction

namespace Arity

def term : Arity → Ron.Term
  | unbounded => .atom "Unbounded"
  | atMost limit => .holding "AtMost" (.nat limit.toNat)

def reader : Ron.Reader Arity := Ron.oneOf
  [Ron.unit "Unbounded" unbounded, Ron.holding "AtMost" atMost Ron.word]

end Arity

namespace CounterState

def term (s : CounterState) : Ron.Term :=
  .record "CounterState" [("count", .int s.count.toInt), ("step", .int s.step.toInt)]

structure Partial where
  count : Option Int64
  step : Option Int64

def Partial.finish (p : Partial) : Except Ron.Error CounterState := do
  let count ← Ron.required "CounterState" "count" p.count
  let step ← Ron.required "CounterState" "step" p.step
  return ⟨count, step⟩

def fields : List (Ron.Field Partial) :=
  [Ron.field "count" Value.int64 fun i p => { p with count := some i },
   Ron.field "step" Value.int64 fun i p => { p with step := some i }]

def reader : Ron.Reader CounterState := Ron.record "CounterState" fields ⟨none, none⟩ Partial.finish

end CounterState
end SignalGraph
