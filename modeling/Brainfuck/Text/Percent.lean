/-!
# Shares in percent

The share of a count in a total is computed in binary floating point with 53
significant bits: the quotient is rounded, then its product with 100 is rounded.
The result is printed with one digit behind the point, rounded from its exact
value.  A tie goes to the even neighbour in all three roundings, so 6.25 is
printed `6.2` and 18.75 is printed `18.8`.
-/

namespace Brainfuck.Text

/-- The integer nearest to `num / den`, the even one of two. -/
def roundQuotient (num den : Nat) : Nat :=
  let q := num / den
  let twice := 2 * (num % den)
  if twice < den then q
  else if den < twice then q + 1
  else q + q % 2

/-- The number `mantissa / 2 ^ scale`. -/
structure Dyadic where
  mantissa : Nat
  scale : Nat
  deriving DecidableEq, Repr

/-- `num / den` rounded to 53 significant bits, for quotients below `2 ^ 53`. -/
def Dyadic.ofQuotient (num den : Nat) : Dyadic :=
  let guess := 53 + Nat.log2 den - Nat.log2 num
  -- the quotient scaled by the guess lies between 2 ^ 52 and 2 ^ 54
  let scale := if (num <<< guess) / den < 1 <<< 53 then guess else guess - 1
  ⟨roundQuotient (num <<< scale) den, scale⟩

/-- A number scaled by 100 and rounded to 53 significant bits. -/
def Dyadic.hundredfold (d : Dyadic) : Dyadic :=
  .ofQuotient (d.mantissa * 100) (1 <<< d.scale)

/-- A number with one digit behind the point. -/
def Dyadic.oneDecimal (d : Dyadic) : List Char :=
  let tenths := roundQuotient (d.mantissa * 10) (1 <<< d.scale)
  Nat.toDigits 10 (tenths / 10) ++ '.' :: Nat.toDigits 10 (tenths % 10)

/-- The share of `count` in `total`, in percent. -/
def percent (count total : Nat) : List Char :=
  (Dyadic.ofQuotient count total).hundredfold.oneDecimal

end Brainfuck.Text
