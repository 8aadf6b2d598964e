/-! Rounding a quotient to the nearest whole number, a half to the even one, and
the place of a quotient's leading digit. -/

namespace ScriptLauncher.Number

/-- The whole number nearest to `num / den`; of two equally near, the even one. -/
def roundDiv (num den : Nat) : Nat :=
  let q := num / den
  let r := num % den
  if 2 * r < den then q
  else if den < 2 * r then q + 1
  else q + q % 2

/-- `num / den` in units of `base ^ place`, as a quotient. -/
def inUnits (base : Nat) (place : Int) (num den : Nat) : Nat × Nat :=
  if 0 ≤ place then (num, den * base.pow place.toNat) else (num * base.pow (-place).toNat, den)

/-- The decimal place of the first digit of a positive quotient. -/
def leadingPlace (num den : Nat) : Int :=
  if den ≤ num then ((Nat.toDigits 10 (num / den)).length : Int) - 1
  else
    let zeros := (Nat.toDigits 10 (den / num)).length - 1
    if den ≤ num * Nat.pow 10 zeros then -zeros else -(zeros + 1 : Int)

end ScriptLauncher.Number
