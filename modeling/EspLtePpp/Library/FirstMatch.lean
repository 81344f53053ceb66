import Mathlib.Data.List.Basic

/-! # The first match of a list

A choice takes the first element that passes a test, or a default. A test that is
stricter than another may choose later or not at all; when the chosen values differ
from one another, the two choices agree in the cases listed here only.
-/

namespace FirstMatch

variable {α β : Type*} {l : List α} {p q : α → Bool} {f : α → β} {d : β} {a r : α}

/-- The value of the first element that passes the test, or the default. -/
def choose (l : List α) (p : α → Bool) (f : α → β) (d : β) : β := ((l.find? p).map f).getD d

@[simp] theorem choose_nil : choose [] p f d = d := rfl

theorem choose_cons : choose (a :: l) p f d = if p a then f a else choose l p f d := by
  unfold choose
  cases hp : p a with
  | true => rw [List.find?_cons_of_pos hp]; rfl
  | false => rw [List.find?_cons_of_neg (by simp [hp])]; rfl

theorem choose_of_find {a : α} (h : l.find? p = some a) : choose l p f d = f a := by
  simp [choose, h]

theorem choose_of_forall (h : ∀ a ∈ l, ¬ p a) : choose l p f d = d := by
  have hn : l.find? p = none := List.find?_eq_none.mpr h
  simp [choose, hn]

theorem find_of_imp (hpq : ∀ a ∈ l, p a → q a) (h : l.find? q = some r) (hr : p r) :
    l.find? p = some r := by
  obtain ⟨-, as, bs, rfl, has⟩ := List.find?_eq_some_iff_append.mp h
  refine List.find?_eq_some_iff_append.mpr ⟨hr, as, bs, rfl, ?_⟩
  intro a ha
  have hq := has a ha
  by_contra hp
  have hqa := hpq a (List.mem_append_left _ ha) (by simpa using hp)
  simp [hqa] at hq

/-- A stricter test makes the same choice exactly in these cases. -/
theorem choose_eq_choose_iff (hpq : ∀ a ∈ l, p a → q a) (hf : Function.Injective f) :
    choose l p f d = choose l q f d ↔
      ∀ r, l.find? q = some r → p r ∨ d = f r ∧ ∀ a ∈ l, ¬ p a := by
  constructor
  · intro h r hr
    rw [choose_of_find hr] at h
    by_cases hp : ∀ a ∈ l, ¬ p a
    · rw [choose_of_forall hp] at h
      exact Or.inr ⟨h, hp⟩
    · left
      obtain ⟨a, ha⟩ : ∃ a, l.find? p = some a := by
        rw [← Option.isSome_iff_exists, List.find?_isSome]
        simpa using hp
      rw [choose_of_find ha] at h
      rw [← hf h]
      exact List.find?_some ha
  · intro h
    cases hq : l.find? q with
    | none =>
      have hp : ∀ a ∈ l, ¬ p a := fun a ha hpa =>
        List.find?_eq_none.mp hq a ha (hpq a ha hpa)
      have hn := List.find?_eq_none.mp hq
      rw [choose_of_forall hp, choose_of_forall hn]
    | some r =>
      rcases h r hq with hr | ⟨hd, hp⟩
      · rw [choose_of_find (find_of_imp hpq hq hr), choose_of_find hq]
      · rw [choose_of_forall hp, choose_of_find hq, hd]

end FirstMatch
