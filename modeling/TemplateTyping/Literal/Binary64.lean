/-!
# Rounding to 64-bit floating point

A positive ratio is rounded to the nearest 64-bit floating-point number, and to
the even one of two nearest. Ratios too large for any finite number become
infinity.
-/

namespace TemplateTyping.Binary64

/-- The least whole number with 53 binary digits. -/
def hiddenBit : Nat := 0x10000000000000

/-- A quotient rounded to the nearest whole number, a half to the even one. -/
def roundDiv (num den : Nat) : Nat :=
  let quotient := num / den
  let rest := num % den
  if 2 * rest < den then quotient
  else if den < 2 * rest then quotient + 1
  else quotient + quotient % 2

/-- The ratio of two numbers times a power of two, as a ratio. -/
def scale (num den : Nat) (exponent : Int) : Nat × Nat :=
  if 0 ≤ exponent then (num <<< exponent.toNat, den) else (num, den <<< (-exponent).toNat)

/-- The exponent of the last binary digit that is kept of a ratio: the quotient
has 53 digits then, or fewer if the exponent would fall below the least one. -/
def lastExponent (num den : Nat) : Int :=
  let estimate : Int := (num.log2 : Int) - den.log2 - 52
  let (n, d) := scale num den (-estimate)
  max (if n / d < hiddenBit then estimate - 1 else estimate) (-1074)

/-- The bits of the floating-point number nearest to a positive ratio. -/
def nearestBits (num den : Nat) : UInt64 :=
  let exponent := lastExponent num den
  let (n, d) := scale num den (-exponent)
  let mantissa := roundDiv n d
  let bits := if mantissa < hiddenBit then mantissa
    else ((exponent + 1074).toNat <<< 52) + mantissa
  if bits < 0x7ff <<< 52 then bits.toUInt64 else (0x7ff <<< 52 : Nat).toUInt64

/-- The floating-point number nearest to a ratio. -/
def ofRatio (num den : Nat) : Float :=
  if num = 0 then 0 else Float.ofBits (nearestBits num den)

/-- The floating-point number nearest to a whole number. -/
def ofInt (n : Int) : Float :=
  if n < 0 then -ofRatio n.natAbs 1 else ofRatio n.natAbs 1

/-- The floating-point number nearest to `mantissa * 10 ^ exponent`. Exponents
beyond the range of all floating-point numbers are not worked out. -/
def ofDecimal (mantissa : Nat) (exponent : Int) : Float :=
  let leading := exponent + (Nat.toDigits 10 mantissa).length
  if mantissa = 0 ∨ leading < -330 then 0
  else if 310 < leading then Float.ofBits 0x7ff0000000000000
  else if 0 ≤ exponent then ofRatio (mantissa * Nat.pow 10 exponent.toNat) 1
  else ofRatio mantissa (Nat.pow 10 (-exponent).toNat)

/-- The power of two, infinite where it is too large. For a negative exponent it is one
over the power with the opposite exponent, hence zero where that one is infinite. -/
def powerOfTwo (exponent : Int) : Float :=
  if 1024 ≤ exponent then Float.ofBits 0x7ff0000000000000
  else if exponent ≤ -1024 then 0
  else if 0 ≤ exponent then ofRatio (1 <<< exponent.toNat) 1
  else ofRatio 1 (1 <<< (-exponent).toNat)

end TemplateTyping.Binary64
