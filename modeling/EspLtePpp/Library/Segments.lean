import Mathlib.Data.List.Infix

/-! # Complete segments of a stream

A stream is cut at a separator. Only what stands before a separator counts as a
segment, so the unfinished tail is left out and more input never changes the
segments already complete.
-/

namespace Segments

variable {α : Type*} [DecidableEq α] {sep : α}

/-- What stands before each separator, without the unfinished tail. -/
def segments (sep : α) : List α → List (List α)
  | [] => []
  | a :: l =>
    if a = sep then [] :: segments sep l
    else match segments sep l with
      | [] => []
      | s :: ss => (a :: s) :: ss

@[simp] theorem segments_nil : segments sep [] = [] := rfl

@[simp] theorem segments_sep_cons (l : List α) :
    segments sep (sep :: l) = [] :: segments sep l := by simp [segments]

theorem segments_cons_of_ne {a : α} (h : a ≠ sep) (l : List α) :
    segments sep (a :: l) = match segments sep l with
      | [] => []
      | s :: ss => (a :: s) :: ss := by simp only [segments, if_neg h]

theorem segments_of_not_mem {l : List α} (h : sep ∉ l) : segments sep l = [] := by
  induction l with
  | nil => rfl
  | cons a l ih =>
    rw [segments_cons_of_ne (List.ne_of_not_mem_cons h).symm,
      ih (List.not_mem_of_not_mem_cons h)]

theorem segments_append_sep {s : List α} (h : sep ∉ s) (l : List α) :
    segments sep (s ++ sep :: l) = s :: segments sep l := by
  induction s with
  | nil => simp
  | cons a s ih =>
    rw [List.cons_append, segments_cons_of_ne (List.ne_of_not_mem_cons h).symm,
      ih (List.not_mem_of_not_mem_cons h)]

theorem segments_ne_nil {l : List α} (h : sep ∈ l) : segments sep l ≠ [] := by
  obtain ⟨s, t, rfl, hs⟩ := List.eq_append_cons_of_mem h
  rw [segments_append_sep hs]
  exact List.cons_ne_nil _ _

theorem segments_append {l : List α} (h : l = [] ∨ [sep] <:+ l) (m : List α) :
    segments sep (l ++ m) = segments sep l ++ segments sep m := by
  rcases h with rfl | ⟨l, rfl⟩
  · simp
  induction l with
  | nil => simp
  | cons a l ih =>
    by_cases ha : a = sep
    · subst ha
      simpa using ih
    · rw [List.cons_append, List.cons_append, segments_cons_of_ne ha, segments_cons_of_ne ha, ih]
      cases hs : segments sep (l ++ [sep]) with
      | nil => exact absurd hs (segments_ne_nil (by simp))
      | cons s ss => rfl

theorem segments_append_of_not_mem (l : List α) {m : List α} (h : sep ∉ m) :
    segments sep (l ++ m) = segments sep l := by
  induction l with
  | nil => simpa using segments_of_not_mem h
  | cons a l ih =>
    by_cases ha : a = sep
    · subst ha; simp [ih]
    · rw [List.cons_append, segments_cons_of_ne ha, segments_cons_of_ne ha, ih]

theorem segments_isPrefix {l m : List α} (h : l <+: m) : segments sep l <+: segments sep m := by
  induction l generalizing m with
  | nil => exact List.nil_prefix
  | cons a l ih =>
    cases m with
    | nil => exact absurd (List.prefix_nil.mp h) (by simp)
    | cons b m =>
      obtain ⟨rfl, hlm⟩ := List.cons_prefix_cons.mp h
      by_cases ha : a = sep
      · subst ha; simpa using ih hlm
      · rw [segments_cons_of_ne ha, segments_cons_of_ne ha]
        have hp := ih hlm
        cases hl : segments sep l with
        | nil => exact List.nil_prefix
        | cons s ss =>
          rw [hl] at hp
          obtain ⟨t, ht⟩ := hp
          rw [← ht]
          exact ⟨t, rfl⟩

theorem segments_flatMap {ls : List (List α)} (h : ∀ s ∈ ls, sep ∉ s) :
    segments sep (ls.flatMap (· ++ [sep])) = ls := by
  induction ls with
  | nil => rfl
  | cons s ls ih =>
    rw [List.flatMap_cons, List.append_assoc, List.singleton_append,
      segments_append_sep (h s List.mem_cons_self),
      ih fun t ht => h t (List.mem_cons_of_mem _ ht)]

end Segments
