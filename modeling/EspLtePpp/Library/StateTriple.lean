import Mathlib

/-! # Triples over a state, from what a program does

A specification that relates the state before to the result and the state after says
most. Any triple follows from it, and a triple is about runs.
-/

namespace StateTriple

open Std.Do

variable {σ α : Type} {x : StateM σ α} {P : σ → Prop} {Q : α → σ → Prop} {R : σ → α → σ → Prop}

theorem of_relation (hx : ∀ s₀, ⦃fun s => ⌜s = s₀⌝⦄ x ⦃⇓ a s => ⌜R s₀ a s⌝⦄)
    (h : ∀ s₀ a s, P s₀ → R s₀ a s → Q a s) : ⦃fun s => ⌜P s⌝⦄ x ⦃⇓ a s => ⌜Q a s⌝⦄ := by
  intro s hs
  exact h s _ _ hs (hx s s rfl)

theorem run (hx : ⦃fun s => ⌜P s⌝⦄ x ⦃⇓ a s => ⌜Q a s⌝⦄) {s : σ} (hs : P s) :
    Q (x.run s).1 (x.run s).2 := hx s hs

theorem run_relation (hx : ∀ s₀, ⦃fun s => ⌜s = s₀⌝⦄ x ⦃⇓ a s => ⌜R s₀ a s⌝⦄) (s : σ) :
    R s (x.run s).1 (x.run s).2 := hx s s rfl

end StateTriple
