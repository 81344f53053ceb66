import Mathlib.Data.List.Basic

/-! # Machines that read letters and put out letters

A machine may refuse a letter. Its run on a text is the same however the text is
cut up, and a text made of pieces that each lead back to one state is read piece
by piece.
-/

namespace Transducer

variable {σ α β γ : Type*} {step : σ → α → Option (σ × List β)} {s s' t : σ}
  {xs ys : List α} {out : List β}

def run (step : σ → α → Option (σ × List β)) : σ → List α → Option (σ × List β)
  | s, [] => some (s, [])
  | s, x :: xs =>
    match step s x with
    | none => none
    | some (t, o) => (run step t xs).map fun r => (r.1, o ++ r.2)

@[simp] theorem run_nil : run step s [] = some (s, []) := rfl

theorem run_cons_eq_some_iff {x : α} :
    run step s (x :: xs) = some (s', out) ↔
      ∃ t o₁ o₂, step s x = some (t, o₁) ∧ run step t xs = some (s', o₂) ∧ out = o₁ ++ o₂ := by
  simp only [run]
  constructor
  · intro h
    split at h
    · cases h
    · rename_i t o₁ hs
      obtain ⟨⟨u, o₂⟩, hr, he⟩ := Option.map_eq_some_iff.mp h
      obtain ⟨rfl, rfl⟩ := Prod.mk.inj he
      exact ⟨t, o₁, o₂, hs, hr, rfl⟩
  · rintro ⟨t, o₁, o₂, hs, hr, rfl⟩
    rw [hs]
    simp [hr]

theorem run_singleton {x : α} : run step s [x] = step s x := by
  cases h : step s x with
  | none => simp [run, h]
  | some r => simp [run, h]

theorem run_append_eq_some_iff :
    run step s (xs ++ ys) = some (s', out) ↔
      ∃ t o₁ o₂, run step s xs = some (t, o₁) ∧ run step t ys = some (s', o₂) ∧
        out = o₁ ++ o₂ := by
  induction xs generalizing s out with
  | nil => simp
  | cons x xs ih =>
    rw [List.cons_append, run_cons_eq_some_iff]
    constructor
    · rintro ⟨t, o₁, o₂, hs, hr, rfl⟩
      obtain ⟨u, p₁, p₂, hx, hy, rfl⟩ := ih.mp hr
      exact ⟨u, o₁ ++ p₁, p₂, run_cons_eq_some_iff.mpr ⟨t, o₁, p₁, hs, hx, rfl⟩, hy,
        (List.append_assoc ..).symm⟩
    · rintro ⟨u, o, p₂, hx, hy, rfl⟩
      obtain ⟨t, o₁, p₁, hs, hr, rfl⟩ := run_cons_eq_some_iff.mp hx
      exact ⟨t, o₁, p₁ ++ p₂, hs, ih.mpr ⟨u, p₁, p₂, hr, hy, rfl⟩, List.append_assoc ..⟩

theorem run_append {o₁ o₂ : List β} (hx : run step s xs = some (t, o₁))
    (hy : run step t ys = some (s', o₂)) : run step s (xs ++ ys) = some (s', o₁ ++ o₂) :=
  run_append_eq_some_iff.mpr ⟨t, o₁, o₂, hx, hy, rfl⟩

theorem run_append_of_nil (hx : run step s xs = some (t, [])) :
    run step s (xs ++ ys) = run step t ys := by
  cases hy : run step t ys with
  | none =>
    by_contra hne
    obtain ⟨⟨u, o⟩, hr⟩ := Option.ne_none_iff_exists'.mp hne
    obtain ⟨v, o₁, o₂, h₁, h₂, -⟩ := run_append_eq_some_iff.mp hr
    obtain ⟨rfl, rfl⟩ := Prod.mk.inj (Option.some.inj (hx.symm.trans h₁))
    cases hy.symm.trans h₂
  | some r => exact run_append hx hy

/-- Pieces that each lead from a state back to it are read one after the other. -/
theorem run_flatMap {code : γ → List α} {mean : γ → List β} {cs : List γ}
    (h : ∀ c ∈ cs, run step s (code c) = some (s, mean c)) :
    run step s (cs.flatMap code) = some (s, cs.flatMap mean) := by
  induction cs with
  | nil => rfl
  | cons c cs ih =>
    exact run_append (h c (List.mem_cons_self ..))
      (ih fun d hd => h d (List.mem_cons_of_mem c hd))

end Transducer
