import Mathlib.Data.List.Infix

/-! # Occurrences of a pattern

Substring tests read as the infix order on lists. A separator that the pattern
does not contain splits the search, and a letter missing from the text rules the
pattern out.
-/

namespace Infix

variable {α : Type*} {p l m a b : List α} {s : α}

theorem not_infix_of_not_mem {x : α} (hx : x ∈ p) (hl : x ∉ l) : ¬ p <:+: l :=
  fun h => hl (h.subset hx)

theorem infix_append_sep (hs : s ∉ p) : p <:+: a ++ s :: b ↔ p <:+: a ∨ p <:+: b := by
  constructor
  · rintro ⟨u, v, h⟩
    rw [List.append_assoc, List.append_eq_append_iff] at h
    rcases h with ⟨c, rfl, hc⟩ | ⟨c, rfl, hc⟩
    · -- the pattern begins within `a`; the separator stands after its end
      rw [List.append_eq_append_iff] at hc
      rcases hc with ⟨d, rfl, -⟩ | ⟨d, rfl, hd⟩
      · exact Or.inl ⟨u, d, by simp⟩
      · cases d with
        | nil => exact Or.inl ⟨u, [], by simp⟩
        | cons x d =>
          obtain ⟨rfl, -⟩ := List.cons.inj hd
          exact absurd (List.mem_append_right _ List.mem_cons_self) hs
    · cases c with
      | nil =>
        cases p with
        | nil => exact Or.inl List.nil_infix
        | cons x p =>
          obtain ⟨rfl, -⟩ := List.cons.inj hc
          exact absurd List.mem_cons_self hs
      | cons x c =>
        obtain ⟨-, rfl⟩ := List.cons.inj hc
        exact Or.inr ⟨c, v, by simp⟩
  · rintro (h | h)
    · exact h.trans (List.infix_append [] a (s :: b))
    · exact h.trans ⟨a ++ [s], [], by simp⟩

theorem infix_append_of_head (hp : p.head? = some s) (hs : s ∉ l) :
    p <:+: l ++ m ↔ p <:+: m := by
  obtain ⟨q, rfl⟩ : ∃ q, p = s :: q := List.head?_eq_some_iff.mp hp
  induction l with
  | nil => rfl
  | cons a l ih =>
    rw [List.mem_cons, not_or] at hs
    rw [List.cons_append, List.infix_cons_iff, ih hs.2]
    constructor
    · rintro (h | h)
      · exact absurd (List.cons_prefix_cons.mp h).1 hs.1
      · exact h
    · exact Or.inr

end Infix
