import Mathlib.Data.Nat.Notation

/-! # Loops with an early return

`loop cond body n` runs `while (cond) if (!body) return false; return true;` for at
most `n` turns. The body may fault. A loop whose body keeps an invariant, lowers a
measure and never faults comes to an end, and `loop_spec` says in which states.
-/

namespace Loop

variable {τ : Type*} {cond : τ → Bool} {body : τ → Option (Bool × τ)}

/-- `none` when the body faults or the turns run out. -/
def loop (cond : τ → Bool) (body : τ → Option (Bool × τ)) : ℕ → τ → Option (Bool × τ)
  | 0, t => if cond t then none else some (true, t)
  | n + 1, t =>
    if cond t then
      match body t with
      | none => none
      | some (false, t') => some (false, t')
      | some (true, t') => loop cond body n t'
    else some (true, t)

/-- One turn under an invariant: it goes on with a lower measure, or it returns. -/
def Turn (body : τ → Option (Bool × τ)) (I : τ → Prop) (μ : τ → ℕ) (Q : τ → Prop) (t : τ) : Prop :=
  (∃ t', body t = some (true, t') ∧ I t' ∧ μ t' < μ t) ∨ ∃ t', body t = some (false, t') ∧ Q t'

variable {I Q : τ → Prop} {μ : τ → ℕ}

theorem loop_spec (hturn : ∀ t, I t → cond t = true → Turn body I μ Q t)
    (hexit : ∀ t, I t → cond t = false → Q t) (n : ℕ) (t : τ) (ht : I t) (hn : μ t < n) :
    ∃ b t', loop cond body n t = some (b, t') ∧ Q t' := by
  induction n generalizing t with
  | zero => omega
  | succ n ih =>
    cases hc : cond t with
    | false => exact ⟨true, t, by simp [loop, hc], hexit t ht hc⟩
    | true =>
      rcases hturn t ht hc with ⟨t', hb, hi, hlt⟩ | ⟨t', hb, hq⟩
      · obtain ⟨b, u, hu, hq⟩ := ih t' hi (by omega)
        exact ⟨b, u, by simp [loop, hc, hb, hu], hq⟩
      · exact ⟨false, t', by simp [loop, hc, hb], hq⟩

end Loop
