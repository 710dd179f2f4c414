import ChannelConcat.Fault

/-!
# Sizes

Sizes are natural numbers below `2 ^ 64`. The operations here are exact inside that range and
fault where a result would leave it.
-/

namespace ChannelConcat.Size

/-- The least number that is not a size. -/
def limit : Nat :=
  0x10000000000000000

/-- The product of two sizes, or a fault if it is no size. -/
def mul (a b : Nat) : Except Fault Nat :=
  if a * b < limit then .ok (a * b) else .error .product

/-- The sum of two sizes, or a fault if it is no size. -/
def add (a b : Nat) : Except Fault Nat :=
  if a + b < limit then .ok (a + b) else .error .sum

/-- The quotient of two sizes, or a fault if the divisor is zero. -/
def div (a b : Nat) : Except Fault Nat :=
  if b = 0 then .error .division else .ok (a / b)

/-- The sum of a list of sizes, added from the left. -/
def sum (sizes : List Nat) : Except Fault Nat :=
  sizes.foldlM add 0

/-- The sum of a list of sizes, or nothing if it is no size. -/
def sum? (sizes : List Nat) : Option Nat :=
  (sum sizes).toOption

/-- A product is computed exactly if it is a size. -/
theorem mul_eq_ok_iff {a b n : Nat} : mul a b = .ok n ↔ a * b = n ∧ n < limit := by
  unfold mul
  split <;> simp <;> omega

/-- A quotient is computed exactly if the divisor is not zero. -/
theorem div_eq_ok_iff {a b n : Nat} : div a b = .ok n ↔ b ≠ 0 ∧ a / b = n := by
  unfold div
  split <;> simp_all

end ChannelConcat.Size
