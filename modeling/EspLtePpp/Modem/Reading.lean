import EspLtePpp.App.Exchanges
import EspLtePpp.Modem.Answer

/-! # How an answer is read

A command that finds the line quiet and gets its answer in time reads it up to the
first final result. Of an answer with one plain line it keeps that line.
-/

namespace EspLtePpp

open Reply Segments

variable {turns : ℕ → Turn} {cmd : Bytes} {x : Exchange} {a : Answer} {l : AtLine}

/--
What is left of earlier answers holds no result and no line of more than two characters,
and ends where a line ends.
-/
def Exchange.Quiet (x : Exchange) : Prop :=
  (∀ t ∈ segments LF x.stale, Mute t) ∧ (x.stale = [] ∨ [LF] <:+ x.stale)

instance : DecidablePred Exchange.Quiet := fun x => by unfold Exchange.Quiet; infer_instance

theorem Exchange.quiet_of_nil (h : x.stale = []) : x.Quiet := by
  rw [Exchange.Quiet, h]
  simp

theorem Exchange.Quiet.segments_eq (h : x.Quiet) :
    segments LF (x.stale ++ x.reply) = segments LF x.stale ++ segments LF x.reply :=
  segments_append h.2 _

/-- On a quiet line the callback reads the lines of the command's own answer. -/
theorem Written.own_lines (h : Written turns cmd x) (hs : x.Quiet) :
    ∃ ts, ts <+: segments LF x.reply ∧ verdict x.tokens = verdict ts ∧
      lastLong x.tokens = lastLong ts := by
  have hp : x.tokens <+: segments LF (x.stale ++ x.reply) := segments_isPrefix h.handed_isPrefix
  rw [hs.segments_eq] at hp
  exact exists_of_mute hs.1 hp

/-- On a quiet line the command gets this answer, in time and within the DTE buffer. -/
structure Exchange.Receives (x : Exchange) (a : Answer) : Prop where
  quiet : x.Quiet
  timely : x.Timely
  reply_eq : x.reply = a.render
  fits : (x.stale ++ a.render).length ≤ dteBufferSize

theorem Exchange.Receives.lines_eq (h : x.Receives a) :
    segments LF (x.stale ++ x.reply) = segments LF x.stale ++ a.tokens := by
  rw [h.quiet.segments_eq, h.reply_eq, Answer.segments_render]

theorem Got.verdict_ne (h : Got turns cmd x) (hx : x.Receives a)
    (hv : verdict a.tokens ≠ .timeout) : verdict x.tokens ≠ .timeout := by
  intro ht
  have hfits := hx.reply_eq ▸ hx.fits
  have hall := h.handed_of_timeout hx.timely ht
  rw [List.take_of_length_le hfits] at hall
  rw [Exchange.tokens, hall, hx.lines_eq, verdict_append (verdict_of_mute hx.quiet.1)] at ht
  exact hv ht

theorem Got.reads (h : Got turns cmd x) (hx : x.Receives a) (hv : verdict a.tokens ≠ .timeout) :
    verdict x.tokens = verdict a.tokens ∧ lastLong x.tokens = lastLong a.tokens := by
  obtain ⟨ts, hp, hvt, hlt⟩ := h.own_lines hx.quiet
  rw [hx.reply_eq, Answer.segments_render] at hp
  obtain ⟨hvs, hls⟩ := eq_of_isPrefix (hvt ▸ h.verdict_ne hx hv) hp
  exact ⟨hvt.trans hvs.symm, hlt.trans hls.symm⟩

/-- A line that the splitter keeps as it is. -/
structure AtLine.Plain (l : AtLine) : Prop where
  cr_not_mem : CR ∉ l.body
  long : 2 < l.body.length
  not_final : ¬ Final l.token

theorem Got.read_line (h : Got turns cmd x) (hx : x.Receives (.closed [l])) (hl : l.Plain) :
    x.result = .ok ∧ x.captured = l.body := by
  have hv : verdict (Answer.closed [l]).tokens = .ok := Answer.verdict_single hl.not_final
  obtain ⟨hvs, hls⟩ := h.reads hx (by rw [hv]; decide)
  constructor
  · exact h.result_ok_iff.mpr (hvs.trans hv)
  · rw [Exchange.captured, hls, Answer.lastLong_single hl.cr_not_mem hl.long hl.not_final,
      Option.getD_some]

end EspLtePpp
