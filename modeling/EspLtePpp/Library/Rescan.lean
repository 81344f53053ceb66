import EspLtePpp.Library.Segments

/-! # Reading a growing buffer again from its start

A reader is shown everything received so far each time a chunk completes a segment,
and keeps what it stored before. If more input never takes a stored value back, its
answer depends on the input alone and not on how it was cut into chunks.
-/

namespace Rescan

open Segments

variable {α ρ σ : Type*} {sep : α} {pending : ρ} {call : σ → List α → ρ × σ} {s₀ s : σ}
  {t : List α} {r : ρ}

/-- The verdict and the stored value after the input came in some chunks. -/
inductive Reads (sep : α) (pending : ρ) (call : σ → List α → ρ × σ) (s₀ : σ) :
    List α → ρ → σ → Prop where

  | start : Reads sep pending call s₀ [] pending s₀

  | part {t c : List α} {s : σ} : Reads sep pending call s₀ t pending s → sep ∉ c →
      Reads sep pending call s₀ (t ++ c) pending s

  | line {t c : List α} {s : σ} : Reads sep pending call s₀ t pending s → sep ∈ c →
      Reads sep pending call s₀ (t ++ c) (call s (t ++ c)).1 (call s (t ++ c)).2

theorem Reads.exists_call (h : Reads sep pending call s₀ t r s) (hr : r ≠ pending) :
    sep ∈ t ∧ ∃ s', call s' t = (r, s) := by
  cases h with
  | start => exact absurd rfl hr
  | part => exact absurd rfl hr
  | line _ hc => exact ⟨List.mem_append_right _ hc, _, rfl⟩

/-- A reader whose answer is a function of the complete segments. -/
structure Reading [DecidableEq α] (sep : α) (pending : ρ) (call : σ → List α → ρ × σ) where
  verdict : List (List α) → ρ
  store : List (List α) → Option σ
  call_eq : ∀ s t, call s t = (verdict (segments sep t), (store (segments sep t)).getD s)
  verdict_nil : verdict [] = pending
  store_nil : store [] = none
  kept : ∀ ts us, verdict ts = pending → ts <+: us → store us = none → store ts = none

/-- Whatever the chunks were, the answer is the reading of the complete segments. -/
theorem Reading.reads [DecidableEq α] (R : Reading sep pending call)
    (h : Reads sep pending call s₀ t r s) :
    r = R.verdict (segments sep t) ∧ s = (R.store (segments sep t)).getD s₀ := by
  induction h with
  | start => simp [R.verdict_nil, R.store_nil]
  | part _ hc ih => rwa [segments_append_of_not_mem _ hc]
  | @line t c s _ _ ih =>
    rw [R.call_eq]
    refine ⟨rfl, ?_⟩
    cases hu : R.store (segments sep (t ++ c)) with
    | some v => rfl
    | none =>
      have hp : segments sep t <+: segments sep (t ++ c) :=
        segments_isPrefix (List.prefix_append t c)
      have ht : R.store (segments sep t) = none := R.kept _ _ ih.1.symm hp hu
      rw [ih.2, ht]
      rfl

end Rescan
