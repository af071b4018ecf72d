/-!
# Doubles as bit patterns

A double is kept as its sixty-four IEEE-754 bits, so that two doubles are equal
exactly when they are the same number with the same sign of zero, and so that
their decimal text can be computed in exact integer arithmetic.
-/

set_option autoImplicit false

namespace ScreenPilot

/-- A double-precision number, given by its IEEE-754 bits. -/
structure Double where
  /-- Sign, eleven bits of exponent, fifty-two bits of fraction. -/
  bits : UInt64
deriving DecidableEq, Inhabited

namespace Double

/-- The double the machine holds in a float. -/
def ofFloat (number : Float) : Double := ⟨number.toBits⟩

/-- The machine's float with these bits. -/
def toFloat (number : Double) : Float := Float.ofBits number.bits

/-- Whether the sign bit is set; it is for minus zero. -/
def isNegative (number : Double) : Bool := number.bits >>> 63 == 1

/-- The eleven exponent bits as a number. -/
def exponentField (number : Double) : Nat := number.bits.toNat / Nat.pow 2 52 % Nat.pow 2 11

/-- The fifty-two fraction bits as a number. -/
def fractionField (number : Double) : Nat := number.bits.toNat % Nat.pow 2 52

/-- The number is neither infinite nor undefined. -/
def isFinite (number : Double) : Bool := number.exponentField < 2047

/-- The magnitude as a significand and a power of two: a finite double is
`significand * 2 ^ power` up to its sign. -/
def magnitude (number : Double) : Nat × Int :=
  if number.exponentField = 0 then (number.fractionField, -1074)
  else (number.fractionField + Nat.pow 2 52, (number.exponentField : Int) - 1075)

/-- Whether the magnitude is a power of two whose lower neighbour is nearer
than its upper one. -/
def isUneven (number : Double) : Bool :=
  number.fractionField == 0 && number.exponentField > 1

end Double

end ScreenPilot
