import Mathlib.Logic.Basic

/-! # Stateful programs that may stop

Programs that read and write a state and may stop early. `Completes m s Q` says
that `m` started in `s` runs to its end and that `Q` relates its value and final
state. `Preserves I m` says that `m` keeps an invariant, however it ends.
-/

namespace Exec

universe u
variable {ε σ α β : Type u} {s : σ}

/-- Run a program: its value or the reason it stopped, and the state it leaves. -/
def exec (m : ExceptT ε (StateM σ) α) (s : σ) : Except ε α × σ := m.run.run s

theorem exec_bind (m : ExceptT ε (StateM σ) α) (f : α → ExceptT ε (StateM σ) β) (s : σ) :
    exec (m >>= f) s = match exec m s with
      | (.ok a, s') => exec (f a) s'
      | (.error e, s') => (.error e, s') := by
  change (ExceptT.bindCont f (exec m s).1).run (exec m s).2 = _
  rcases exec m s with ⟨_ | a, s'⟩ <;> rfl

@[simp] theorem exec_pure (a : α) : exec (pure a : ExceptT ε (StateM σ) α) s = (.ok a, s) := rfl

@[simp] theorem exec_throw (e : ε) :
    exec (throw e : ExceptT ε (StateM σ) α) s = (.error e, s) := rfl

@[simp] theorem exec_get : exec (get : ExceptT ε (StateM σ) σ) s = (.ok s, s) := rfl

@[simp] theorem exec_set (s' : σ) :
    exec (set s' : ExceptT ε (StateM σ) PUnit) s = (.ok ⟨⟩, s') := rfl

@[simp] theorem exec_modify (f : σ → σ) :
    exec (modify f : ExceptT ε (StateM σ) PUnit) s = (.ok ⟨⟩, f s) := rfl

theorem exec_bind_of_ok {m : ExceptT ε (StateM σ) α} {f : α → ExceptT ε (StateM σ) β}
    {a : α} {s' : σ} (h : exec m s = (.ok a, s')) : exec (m >>= f) s = exec (f a) s' := by
  rw [exec_bind, h]

theorem exec_bind_of_error {m : ExceptT ε (StateM σ) α} {f : α → ExceptT ε (StateM σ) β}
    {e : ε} {s' : σ} (h : exec m s = (.error e, s')) : exec (m >>= f) s = (.error e, s') := by
  rw [exec_bind, h]

/-- The program runs to its end, and `Q` holds of its value and final state. -/
def Completes (m : ExceptT ε (StateM σ) α) (s : σ) (Q : α → σ → Prop) : Prop :=
  ∃ a s', exec m s = (.ok a, s') ∧ Q a s'

variable {m : ExceptT ε (StateM σ) α} {f : α → ExceptT ε (StateM σ) β} {Q R : α → σ → Prop}
  {S : β → σ → Prop}

theorem Completes.mono (h : Completes m s Q) (hQR : ∀ a s', Q a s' → R a s') :
    Completes m s R := by
  obtain ⟨a, s', h, hq⟩ := h
  exact ⟨a, s', h, hQR a s' hq⟩

theorem Completes.bind (h : Completes m s Q) (hf : ∀ a s', Q a s' → Completes (f a) s' S) :
    Completes (m >>= f) s S := by
  obtain ⟨a, s', h, hq⟩ := h
  obtain ⟨b, s'', hb, hS⟩ := hf a s' hq
  exact ⟨b, s'', (exec_bind_of_ok h).trans hb, hS⟩

theorem completes_pure {a : α} (h : Q a s) : Completes (pure a : ExceptT ε (StateM σ) α) s Q :=
  ⟨a, s, rfl, h⟩

theorem completes_modify {g : σ → σ} {Q : PUnit → σ → Prop} (h : Q ⟨⟩ (g s)) :
    Completes (modify g : ExceptT ε (StateM σ) PUnit) s Q := ⟨⟨⟩, g s, rfl, h⟩

def Preserves (I : σ → Prop) (m : ExceptT ε (StateM σ) α) : Prop := ∀ s, I s → I (exec m s).2

variable {I : σ → Prop}

theorem preserves_pure (a : α) : Preserves I (pure a : ExceptT ε (StateM σ) α) := fun _ h => h

theorem preserves_throw (e : ε) : Preserves I (throw e : ExceptT ε (StateM σ) α) := fun _ h => h

theorem preserves_modify {g : σ → σ} (h : ∀ s, I s → I (g s)) :
    Preserves I (modify g : ExceptT ε (StateM σ) PUnit) := h

theorem Preserves.bind (hm : Preserves I m) (hf : ∀ a, Preserves I (f a)) :
    Preserves I (m >>= f) := by
  intro s hs
  have hs' := hm s hs
  rw [exec_bind]
  generalize exec m s = r at hs'
  rcases r with ⟨_ | a, s'⟩
  · exact hs'
  · exact hf a s' hs'

theorem preserves_get_bind {f : σ → ExceptT ε (StateM σ) β} (h : ∀ s, I s → I (exec (f s) s).2) :
    Preserves I (get >>= f) := by
  intro s hs
  rw [exec_bind_of_ok exec_get]
  exact h s hs

theorem Preserves.ite {c : Prop} [Decidable c] {n : ExceptT ε (StateM σ) α}
    (hm : Preserves I m) (hn : Preserves I n) : Preserves I (if c then m else n) := by
  split
  · exact hm
  · exact hn

end Exec
