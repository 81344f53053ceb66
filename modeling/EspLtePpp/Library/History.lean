import Mathlib.Data.List.Infix

/-! # Past-time properties of event histories

`Always P t` says that each event of `t` satisfies `P` together with the events
before it. Growing a history asks for the new event only, so such a property is
carried along a run one event at a time.
-/

namespace History

variable {ε : Type*} {P : List ε → ε → Prop} {t u : List ε} {e : ε}

/-- Every event satisfies `P` against the events that precede it. -/
def Always (P : List ε → ε → Prop) (t : List ε) : Prop :=
  ∀ pre e post, t = pre ++ e :: post → P pre e

@[simp] theorem always_nil : Always P [] := by
  intro pre e post h; simp at h

theorem always_append_singleton : Always P (t ++ [e]) ↔ Always P t ∧ P t e := by
  constructor
  · intro h
    exact ⟨fun pre e' post ht => h pre e' (post ++ [e]) (by simp [ht]), h t e [] rfl⟩
  · rintro ⟨ht, he⟩ pre e' post h
    rcases List.eq_nil_or_concat post with rfl | ⟨post, x, rfl⟩
    · obtain ⟨rfl, hx⟩ := List.append_inj' h rfl
      obtain rfl := List.singleton_inj.mp hx
      exact he
    · apply ht pre e' post
      have h' : t ++ [e] = (pre ++ e' :: post) ++ [x] := by simpa using h
      exact (List.append_inj' h' rfl).1

theorem always_append : Always P (t ++ u) ↔ Always P t ∧ Always (fun pre => P (t ++ pre)) u := by
  induction u using List.reverseRecOn with
  | nil => simp
  | append_singleton u e ih =>
    rw [← List.append_assoc, always_append_singleton, always_append_singleton, ih, and_assoc]

theorem always_of_forall (h : ∀ pre, ∀ e ∈ t, P pre e) : Always P t := by
  rintro pre e post rfl
  exact h pre e (by simp)

end History
