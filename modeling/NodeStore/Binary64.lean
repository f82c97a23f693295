/-!
# Binary floating point

Finite numbers of the 64-bit binary format are kept exactly, as `mantissa * 2 ^ exponent`. A
decimal is rounded to the nearest of them, a tie to the even mantissa, in exact arithmetic on
naturals.
-/

namespace NodeStore

/-- A number of the 64-bit binary format. The magnitude of a finite one is
`mantissa * 2 ^ (exponent - 1074)`. -/
inductive Binary64 where
  | finite (negative : Bool) (mantissa exponent : Nat)
  | infinite (negative : Bool)
  | nan
deriving DecidableEq, Repr

namespace Binary64

/-- The quotient of two naturals rounded to the nearest, a tie to the even one. -/
def roundQuotient (num den : Nat) : Nat :=
  let q := num / den
  let r := num % den
  if 2 * r < den then q
  else if den < 2 * r then q + 1
  else if q % 2 = 0 then q else q + 1

/-- Puts a mantissa of at most 53 bits, or `2 ^ 53` itself, into its normal place. -/
def place (negative : Bool) (mantissa exponent : Nat) : Binary64 :=
  let (m, e) := if mantissa = Nat.pow 2 53 then (Nat.pow 2 52, exponent + 1)
    else (mantissa, exponent)
  if 2045 < e then .infinite negative
  else if m = 0 then .finite negative 0 0
  else .finite negative m e

/-- The number nearest to the quotient of two naturals, the second of which is not zero. -/
def ofQuotient (negative : Bool) (num den : Nat) : Binary64 :=
  if num = 0 then .finite negative 0 0
  else
    -- in units of `2 ^ -1074` the quotient is `num * 2 ^ 1074 / den`
    let scaled := num * Nat.pow 2 1074
    let bits := Nat.log2 (scaled / den)
    let exponent := bits - 52
    place negative (roundQuotient scaled (den * Nat.pow 2 exponent)) exponent

/-- The number nearest to `digits * 10 ^ exponent`. An exponent that is far out of range in
comparison with the digits is cut off before a power is taken. -/
def ofDecimal (negative : Bool) (digits : Nat) (exponent : Int) : Binary64 :=
  if digits = 0 then .finite negative 0 0
  else
    let size : Int := Nat.log2 digits
    if 0 ≤ exponent then
      if 400 < exponent then .infinite negative
      else ofQuotient negative (digits * Nat.pow 10 exponent.toNat) 1
    else if size + 3 * exponent < -1200 then .finite negative 0 0
    else ofQuotient negative digits (Nat.pow 10 (-exponent).toNat)

/-- The number nearest to an integer. -/
def ofInt (n : Int) : Binary64 :=
  ofQuotient (n < 0) n.natAbs 1

/-- Neither infinite nor a nan. -/
def isFinite : Binary64 → Bool
  | finite .. => true
  | _ => false

/-- Greater than zero. -/
def isPositive : Binary64 → Bool
  | finite negative m _ => !negative && m != 0
  | infinite negative => !negative
  | nan => false

/-- The integer that a finite number is equal to. -/
def toInt? : Binary64 → Option Int
  | finite negative m e =>
    let signed (n : Nat) : Int := if negative then -(n : Int) else n
    if 1074 ≤ e then some (signed (m * Nat.pow 2 (e - 1074)))
    else if m % Nat.pow 2 (1074 - e) = 0 then some (signed (m / Nat.pow 2 (1074 - e)))
    else none
  | _ => none

/-- The 64 bits of the number. -/
def bits : Binary64 → Nat
  | finite negative m e =>
    let sign := if negative then Nat.pow 2 63 else 0
    let normal := Nat.pow 2 52
    if m < normal then sign + m else sign + (e + 1) * normal + (m - normal)
  | infinite negative => (if negative then Nat.pow 2 63 else 0) + 0x7ff * Nat.pow 2 52
  | nan => 0x7ff8 * Nat.pow 2 48

end Binary64

end NodeStore
