import Mathlib.Data.List.Infix
import Mathlib.Data.List.TakeWhile

/-! # Bytes, C strings and character arrays

Text travels as bytes. A C string ends at its first NUL; a character array has a
fixed size, and `strlcpy` may be told a size that is not the array's own.
-/

namespace EspLtePpp

abbrev Bytes := List UInt8

def ascii (s : String) : Bytes := s.toList.map fun c => UInt8.ofNat c.toNat

def CR : UInt8 := 13
def LF : UInt8 := 10

/-- The C string held by `b` and a closing NUL: everything before the first NUL. -/
def cStr (b : Bytes) : Bytes := b.takeWhile (· ≠ 0)

theorem zero_not_mem_cStr (b : Bytes) : 0 ∉ cStr b := by
  intro h; simpa using List.mem_takeWhile_imp h

theorem cStr_of_not_mem {b : Bytes} (h : 0 ∉ b) : cStr b = b :=
  List.takeWhile_eq_self_iff.mpr fun x hx => by
    simpa using fun he : x = 0 => h (he ▸ hx)

theorem cStr_append_zero {b : Bytes} (h : 0 ∉ b) (c : Bytes) : cStr (b ++ 0 :: c) = b := by
  have hb := cStr_of_not_mem h
  unfold cStr at *
  rw [List.takeWhile_append, hb]
  simp

theorem cStr_isPrefix (b : Bytes) : cStr b <+: b := List.takeWhile_prefix _

structure CString where
  bytes : Bytes
  nul_not_mem : 0 ∉ bytes
  deriving DecidableEq

structure CharArray (size : ℕ) where
  bytes : Bytes
  length_bytes : bytes.length = size
  deriving DecidableEq

namespace CharArray

variable {size : ℕ}

def zero (size : ℕ) : CharArray size := ⟨List.replicate size 0, List.length_replicate⟩

def text (a : CharArray size) : Bytes := cStr a.bytes

@[simp] theorem text_zero : (zero size).text = [] := by
  cases size <;> simp [text, zero, cStr, List.replicate_succ]

end CharArray

def strlcpyText (src : Bytes) (n : ℕ) : Bytes := (cStr src).take (n - 1)

def strlcpyIndices (src : Bytes) (n : ℕ) : List ℕ := List.range (min (cStr src).length (n - 1) + 1)

/--
`strlcpy(dst, src, n)`. A store past the end of the array is undefined, and the model
drops its bytes; `strlcpyIndices` tells where it writes.
-/
def strlcpy {size : ℕ} (dst : CharArray size) (src : Bytes) (n : ℕ) : CharArray size where
  bytes := (strlcpyText src n ++ 0 :: dst.bytes.drop ((strlcpyText src n).length + 1)).take size
  length_bytes := by
    have := dst.length_bytes
    simp only [List.length_take, List.length_append, List.length_cons, List.length_drop]
    omega

theorem strlcpyText_isPrefix (src : Bytes) (n : ℕ) : strlcpyText src n <+: src := by
  have ht : strlcpyText src n <+: cStr src := List.take_prefix _ _
  exact ht.trans (cStr_isPrefix src)

theorem zero_not_mem_strlcpyText (src : Bytes) (n : ℕ) : 0 ∉ strlcpyText src n :=
  fun h => zero_not_mem_cStr src (List.mem_of_mem_take h)

theorem length_strlcpyText (src : Bytes) (n : ℕ) :
    (strlcpyText src n).length = min (n - 1) (cStr src).length := List.length_take

theorem strlcpyText_of_not_mem {src : Bytes} (h : 0 ∉ src) (n : ℕ) :
    strlcpyText src n = src.take (n - 1) := by rw [strlcpyText, cStr_of_not_mem h]

theorem text_strlcpy {size n : ℕ} (dst : CharArray size) {src : Bytes}
    (h : (strlcpyText src n).length < size) : (strlcpy dst src n).text = strlcpyText src n := by
  obtain ⟨k, rfl⟩ : ∃ k, size = (strlcpyText src n).length + (k + 1) :=
    ⟨size - (strlcpyText src n).length - 1, by omega⟩
  have hb : (strlcpy dst src n).bytes = strlcpyText src n ++
      0 :: (dst.bytes.drop ((strlcpyText src n).length + 1)).take k := by
    simp [strlcpy, List.take_length_add_append]
  rw [CharArray.text, hb, cStr_append_zero (zero_not_mem_strlcpyText src n)]

theorem mem_strlcpyIndices {src : Bytes} {n i : ℕ} :
    i ∈ strlcpyIndices src n ↔ i ≤ min (cStr src).length (n - 1) := by
  rw [strlcpyIndices, List.mem_range, Nat.lt_succ_iff]

theorem strlcpyIndices_lt_iff {src : Bytes} {n size : ℕ} :
    (∀ i ∈ strlcpyIndices src n, i < size) ↔ min (cStr src).length (n - 1) < size := by
  simp only [mem_strlcpyIndices]
  exact ⟨fun h => h _ le_rfl, fun h i hi => lt_of_le_of_lt hi h⟩

def find (hay needle : Bytes) : Bool := decide (needle <:+: hay)

@[simp] theorem find_eq_true {hay needle : Bytes} : find hay needle = true ↔ needle <:+: hay :=
  decide_eq_true_iff

def strstr {size : ℕ} (hay : CharArray size) (needle : Bytes) : Bool := find hay.text needle

end EspLtePpp
