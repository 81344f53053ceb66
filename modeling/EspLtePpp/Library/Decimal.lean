import Mathlib.Data.Nat.Digits.Defs

/-! # Decimal numbers as text

The digits of a number, most significant first, as bytes of ASCII text. Reading them
from the left gives the number back.
-/

namespace Decimal

def digit (d : ℕ) : UInt8 := UInt8.ofNat (48 + d)

/-- The number as text, without leading zeros. -/
def decimal (n : ℕ) : List UInt8 :=
  if n = 0 then [digit 0] else (Nat.digits 10 n).reverse.map digit

def value (ds : List UInt8) : ℕ := ds.foldl (fun v d => v * 10 + (d.toNat - 48)) 0

theorem toNat_digit {d : ℕ} (h : d < 10) : (digit d).toNat = 48 + d := by
  rw [digit, UInt8.toNat_ofNat']
  omega

theorem decimal_ne_nil (n : ℕ) : decimal n ≠ [] := by
  unfold decimal
  split
  · simp
  · next h => simpa using Nat.digits_ne_nil_iff_ne_zero.mpr h

theorem exists_of_mem_decimal {n : ℕ} {b : UInt8} (h : b ∈ decimal n) :
    ∃ d < 10, b = digit d := by
  unfold decimal at h
  split at h
  · exact ⟨0, by omega, List.mem_singleton.mp h⟩
  · obtain ⟨d, hd, rfl⟩ := List.mem_map.mp h
    exact ⟨d, Nat.digits_lt_base (by omega) (List.mem_reverse.mp hd), rfl⟩

theorem toNat_of_mem_decimal {n : ℕ} {b : UInt8} (h : b ∈ decimal n) :
    48 ≤ b.toNat ∧ b.toNat ≤ 57 := by
  obtain ⟨d, hd, rfl⟩ := exists_of_mem_decimal h
  rw [toNat_digit hd]
  omega

theorem value_map_digit {ds : List ℕ} (h : ∀ d ∈ ds, d < 10) :
    value (ds.reverse.map digit) = Nat.ofDigits 10 ds := by
  induction ds with
  | nil => rfl
  | cons d ds ih =>
    have hd := h d List.mem_cons_self
    have hi := ih fun e he => h e (List.mem_cons_of_mem _ he)
    unfold value at *
    rw [List.reverse_cons, List.map_append, List.foldl_append, hi, Nat.ofDigits_cons]
    simp only [List.map_cons, List.map_nil, List.foldl_cons, List.foldl_nil, toNat_digit hd]
    omega

theorem value_decimal (n : ℕ) : value (decimal n) = n := by
  unfold decimal
  split
  · next h =>
    rw [h]
    rfl
  · rw [value_map_digit fun d hd => Nat.digits_lt_base (by omega) hd, Nat.ofDigits_digits]

end Decimal
