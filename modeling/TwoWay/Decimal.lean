/-!
Decimal text of 64-bit integers. Writing gives the canonical text: a minus sign in front of a
negative number, no plus sign and no leading zero. Reading accepts one optional sign and at least
one digit, any number of leading zeros included, as long as the value is in range.
-/

namespace TwoWay
namespace Decimal

/-- The digits of a number, with a minus sign in front if it is negative. -/
def write (n : Int64) : List Char :=
  if n.toInt < 0 then '-' :: Nat.toDigits 10 n.toInt.natAbs else Nat.toDigits 10 n.toInt.natAbs

/-- The value of a nonempty run of digits. -/
def magnitude? (digits : List Char) : Option Nat :=
  if digits ≠ [] ∧ digits.all Char.isDigit then some (Nat.ofDigitChars 10 digits 0) else none

/-- A number as a 64-bit integer, if it is in range. -/
def ofInt? (n : Int) : Option Int64 :=
  if Int64.minValue.toInt ≤ n ∧ n ≤ Int64.maxValue.toInt then some (Int64.ofInt n) else none

def read? : List Char → Option Int64
  | '-' :: digits => (magnitude? digits).bind fun n => ofInt? (-n)
  | '+' :: digits => (magnitude? digits).bind fun n => ofInt? n
  | digits => (magnitude? digits).bind fun n => ofInt? n

theorem ofInt?_toInt (n : Int64) : ofInt? n.toInt = some n := by
  rw [ofInt?, if_pos ⟨n.minValue_le_toInt, n.toInt_le⟩, Int64.ofInt_toInt]

end Decimal
end TwoWay
