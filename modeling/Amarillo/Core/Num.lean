import Mathlib

/-!
# Fixed-width arithmetic on `Nat` and `Int`

An unsigned machine integer is a `Nat` below `2 ^ w`, a signed one an `Int`
between `-2 ^ (w - 1)` and `2 ^ (w - 1) - 1`. The casts `as i64`, `as i32`
and `as u64` reinterpret the low bits; `satAdd` / `satSub` saturate at the
ends of `u64`.
-/
namespace Amarillo.Core

def U64_MAX : Nat := 2 ^ 64 - 1

/-- `n as i64` for a `u64`. -/
def asI64 (n : Nat) : Int :=
  if n % 2 ^ 64 < 2 ^ 63 then (n % 2 ^ 64 : Nat) else (n % 2 ^ 64 : Nat) - 2 ^ 64

/-- `n as i32` for a `u64`: the low 32 bits. -/
def asI32 (n : Nat) : Int :=
  if n % 2 ^ 32 < 2 ^ 31 then (n % 2 ^ 32 : Nat) else (n % 2 ^ 32 : Nat) - 2 ^ 32

/-- `z as u64` for an `i64`. -/
def asU64 (z : Int) : Nat := (z % 2 ^ 64).toNat

def satAdd (a b : Nat) : Nat := min (a + b) U64_MAX

def satSub (a b : Nat) : Nat := a - b

theorem asI64_of_lt {n : Nat} (h : n < 2 ^ 63) : asI64 n = n := by
  unfold asI64
  rw [Nat.mod_eq_of_lt (by omega), if_pos h]

theorem asI64_lt (n : Nat) : asI64 n < 2 ^ 63 := by
  unfold asI64
  split <;> omega

theorem asI64_nonneg_iff {n : Nat} (h : n < 2 ^ 64) : 0 ≤ asI64 n ↔ n < 2 ^ 63 := by
  unfold asI64
  rw [Nat.mod_eq_of_lt h]
  split <;> omega

theorem asU64_asI64 {n : Nat} (h : n < 2 ^ 64) : asU64 (asI64 n) = n := by
  unfold asU64 asI64
  split <;> omega

theorem asI64_asU64 {z : Int} (h : -2 ^ 63 ≤ z) (h' : z < 2 ^ 63) : asI64 (asU64 z) = z := by
  unfold asU64 asI64
  split <;> omega

end Amarillo.Core
