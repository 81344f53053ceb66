import Mathlib.Data.List.Infix

/-! # Memory of a fixed size

A region is a block of cells. Copying into it and taking a slice out of it exist
exactly when they stay inside the block; a copy leaves every slice before it alone.
-/

structure Region (α : Type*) (n : ℕ) where
  cells : List α
  length_cells : cells.length = n
  deriving DecidableEq

namespace Region

variable {α : Type*} {n o p k m : ℕ} {r r' : Region α n} {src bs cs : List α}

def fill (n : ℕ) (a : α) : Region α n := ⟨List.replicate n a, List.length_replicate⟩

def get (r : Region α n) (i : Fin n) : α := r.cells.get (i.cast r.length_cells.symm)

/-- `memcpy(r + o, src, src.length)`, defined when it stays inside. -/
def memcpy (r : Region α n) (o : ℕ) (src : List α) : Option (Region α n) :=
  if h : o + src.length ≤ n then
    some ⟨r.cells.take o ++ src ++ r.cells.drop (o + src.length), by
      have := r.length_cells
      simp only [List.length_append, List.length_take, List.length_drop]
      omega⟩
  else none

def slice (r : Region α n) (o k : ℕ) : Option (List α) :=
  if o + k ≤ n then some ((r.cells.drop o).take k) else none

theorem exists_memcpy (r : Region α n) (o : ℕ) (src : List α) (h : o + src.length ≤ n) :
    ∃ r', r.memcpy o src = some r' := ⟨_, dif_pos h⟩

theorem memcpy_eq_none_iff : r.memcpy o src = none ↔ n < o + src.length := by
  unfold memcpy
  split <;> simp <;> omega

theorem cells_memcpy (h : r.memcpy o src = some r') :
    o + src.length ≤ n ∧ r'.cells = r.cells.take o ++ src ++ r.cells.drop (o + src.length) := by
  unfold memcpy at h
  split at h
  · rename_i hle
    obtain rfl := Option.some.inj h
    exact ⟨hle, rfl⟩
  · cases h

theorem exists_slice (r : Region α n) (h : o + k ≤ n) : ∃ bs, r.slice o k = some bs :=
  ⟨_, if_pos h⟩

theorem slice_eq_some_iff :
    r.slice o k = some bs ↔ o + k ≤ n ∧ bs = (r.cells.drop o).take k := by
  unfold slice
  split
  · rename_i hle
    simp [hle, eq_comm]
  · rename_i hlt
    simp [hlt]

theorem length_slice (h : r.slice o k = some bs) : bs.length = k := by
  obtain ⟨hle, rfl⟩ := slice_eq_some_iff.mp h
  have := r.length_cells
  simp only [List.length_take, List.length_drop]
  omega

@[simp] theorem slice_zero (h : o ≤ n) : r.slice o 0 = some [] := by
  rw [slice_eq_some_iff]
  simpa using h

theorem slice_take (h : r.slice o k = some bs) (hm : m ≤ k) : r.slice o m = some (bs.take m) := by
  obtain ⟨hle, rfl⟩ := slice_eq_some_iff.mp h
  rw [slice_eq_some_iff, List.take_take, Nat.min_eq_left hm]
  exact ⟨by omega, rfl⟩

theorem slice_drop (h : r.slice o k = some bs) (hm : m ≤ k) :
    r.slice (o + m) (k - m) = some (bs.drop m) := by
  obtain ⟨hle, rfl⟩ := slice_eq_some_iff.mp h
  rw [slice_eq_some_iff, List.drop_take, List.drop_drop]
  exact ⟨by omega, rfl⟩

theorem slice_append (hb : r.slice o k = some bs) (hc : r.slice (o + k) m = some cs) :
    r.slice o (k + m) = some (bs ++ cs) := by
  obtain ⟨hle, rfl⟩ := slice_eq_some_iff.mp hb
  obtain ⟨hle', rfl⟩ := slice_eq_some_iff.mp hc
  rw [slice_eq_some_iff, List.take_add, List.drop_drop]
  exact ⟨by omega, rfl⟩

theorem slice_memcpy (h : r.memcpy o src = some r') : r'.slice o src.length = some src := by
  obtain ⟨hle, hc⟩ := cells_memcpy h
  have hlen : (r.cells.take o).length = o := by
    rw [List.length_take, r.length_cells]
    omega
  rw [slice_eq_some_iff, hc, List.append_assoc, List.drop_append_of_le_length hlen.ge,
    List.drop_of_length_le hlen.le, List.nil_append, List.take_left]
  exact ⟨hle, rfl⟩

theorem slice_memcpy_of_le (h : r.memcpy o src = some r') (hp : p + k ≤ o) :
    r'.slice p k = r.slice p k := by
  obtain ⟨hle, hc⟩ := cells_memcpy h
  have hlen : (r.cells.take o).length = o := by
    rw [List.length_take, r.length_cells]
    omega
  unfold slice
  rw [hc, List.append_assoc, List.drop_append_of_le_length (by omega),
    List.take_append_of_le_length (by rw [List.length_drop]; omega), List.drop_take,
    List.take_take, Nat.min_eq_left (by omega)]

theorem slice_grow (h : r.memcpy o src = some r') (hb : r.slice p k = some bs) (ho : p + k = o) :
    r'.slice p (k + src.length) = some (bs ++ src) := by
  apply slice_append
  · rw [slice_memcpy_of_le h ho.le]
    exact hb
  · rw [ho]
    exact slice_memcpy h

theorem getElem?_slice (h : r.slice o k = some bs) {j : ℕ} (hj : j < k) {i : Fin n}
    (hi : i.val = o + j) : bs[j]? = some (r.get i) := by
  obtain ⟨hle, rfl⟩ := slice_eq_some_iff.mp h
  have hlt : o + j < r.cells.length := hi ▸ r.length_cells.symm ▸ i.isLt
  rw [List.getElem?_take_of_lt hj, List.getElem?_drop, List.getElem?_eq_getElem hlt]
  simp [get, hi]

end Region
