import SignalGraph.Number.Format

/-!
The two number types that signals and clocks carry. Both are kept as bit patterns, so equality
tells `0.0` from `-0.0` and compares not-a-numbers by their payload.
-/

namespace SignalGraph

structure Binary32 where
  bits : UInt32
deriving DecidableEq, Inhabited

structure Binary64 where
  bits : UInt64
deriving DecidableEq, Inhabited

namespace Binary64

def ofInt (i : Int) : Binary64 :=
  ⟨UInt64.ofNat (FloatFormat.double.withSign (i < 0) (FloatFormat.double.round i.natAbs 1))⟩

def add (x y : Binary64) : Binary64 :=
  ⟨(Float.ofBits x.bits + Float.ofBits y.bits).toBits⟩

def isNegative (x : Binary64) : Bool := FloatFormat.double.isNegative x.bits.toNat

def magnitude (x : Binary64) : Magnitude := FloatFormat.double.magnitude x.bits.toNat

end Binary64

namespace Binary32

def isNegative (x : Binary32) : Bool := FloatFormat.single.isNegative x.bits.toNat

def magnitude (x : Binary32) : Magnitude := FloatFormat.single.magnitude x.bits.toNat

/-- The same number as a double; no number is lost. -/
def widen (x : Binary32) : Binary64 :=
  ⟨UInt64.ofNat (FloatFormat.convert .single .double x.bits.toNat)⟩

def ofRatio (negative : Bool) (n d : Nat) : Binary32 :=
  ⟨UInt32.ofNat (FloatFormat.single.withSign negative (FloatFormat.single.round n d))⟩

def infinity (negative : Bool) : Binary32 :=
  ⟨UInt32.ofNat (FloatFormat.single.withSign negative FloatFormat.single.infinityBits)⟩

def nan (negative : Bool) : Binary32 :=
  ⟨UInt32.ofNat (FloatFormat.single.withSign negative FloatFormat.single.nanBits)⟩

end Binary32
end SignalGraph
