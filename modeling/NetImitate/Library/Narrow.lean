import Mathlib.Tactic

/-!
# Narrowing conversions of C integers

`int32 n`, `int64 n`, `uint32 n` and `sizeT n` are the two's complement value of `n` at the width of the type.

* `int32_eq_self`, `int64_eq_self` : a value in range is kept;
* `int32_natCast`, `int32_natCast_le` : a length below `2 ^ 31` is kept, and none narrows to more than it is;
* `uint32_eq_emod` : conversion to `unsigned int` is the remainder modulo `2 ^ 32`;
* `sizeT_int32_natCast` : an `int` counter as a `size_t`.
-/

namespace NetImitate

/-- Conversion to `int`. -/
def int32 (n : Int) : Int := n.bmod (2 ^ 32)

/-- Conversion to `long`. -/
def int64 (n : Int) : Int := n.bmod (2 ^ 64)

/-- Conversion to `unsigned int`. -/
def uint32 (n : Int) : Nat := (n % 2 ^ 32).toNat

/-- The `size_t` an `int` is passed as. -/
def sizeT (n : Int) : Nat := (n % 2 ^ 64).toNat

theorem int32_eq_self {n : Int} (h : -2 ^ 31 ≤ n) (h' : n < 2 ^ 31) : int32 n = n :=
  Int.bmod_eq_of_le (by omega) (by omega)

theorem int32_natCast {n : Nat} (h : n < 2 ^ 31) : int32 n = n :=
  int32_eq_self (by omega) (by omega)

theorem int64_eq_self {n : Int} (h : -2 ^ 63 ≤ n) (h' : n < 2 ^ 63) : int64 n = n :=
  Int.bmod_eq_of_le (by omega) (by omega)

/-- Narrowing a summand does not change a narrowed sum. -/
theorem int32_int32_add (m n : Int) : int32 (int32 m + n) = int32 (m + n) := Int.bmod_add_bmod

theorem int64_add_int64 (m n : Int) : int64 (m + int64 n) = int64 (m + n) := Int.add_bmod_bmod

/-- Nor does narrowing a factor of a summand. -/
theorem int64_add_int64_mul (m n k : Int) : int64 (m + int64 n * k) = int64 (m + n * k) := by
  rw [← int64_add_int64, ← int64_add_int64 m (n * k)]
  congr 2
  exact Int.bmod_mul_bmod

theorem int32_lt (n : Int) : int32 n < 2 ^ 31 := by
  have := Int.bmod_lt (x := n) (m := 2 ^ 32) (by decide)
  unfold int32
  omega

/-- A length never narrows to more than it is. -/
theorem int32_natCast_le (n : Nat) : int32 n ≤ n := by
  unfold int32
  rw [Int.bmod_def]
  split <;> omega

/-- A counter that is an `int`, passed as a `size_t`: it wraps at `2 ^ 31` to the top of `size_t`, and at `2 ^ 32` to
zero. -/
theorem sizeT_int32_natCast (n : Nat) :
    sizeT (int32 n) = if n % 2 ^ 32 < 2 ^ 31 then n % 2 ^ 32 else n % 2 ^ 32 + (2 ^ 64 - 2 ^ 32) := by
  unfold sizeT int32
  rw [Int.bmod_def]
  split <;> split <;> omega

theorem uint32_eq_emod (n : Int) : (uint32 n : Int) = n % 2 ^ 32 := by
  unfold uint32
  omega

theorem sizeT_natCast {n : Nat} (h : n < 2 ^ 64) : sizeT n = n := by
  unfold sizeT
  omega

attribute [irreducible] int32 int64 uint32 sizeT

end NetImitate
