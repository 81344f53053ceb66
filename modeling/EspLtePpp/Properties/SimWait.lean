import Mathlib.Data.List.DropRight
import EspLtePpp.App.Ledger
import EspLtePpp.App.Run
import EspLtePpp.Library.History
import EspLtePpp.Library.Infix
import EspLtePpp.Modem.Reading

/-! # Leaving the SIM loop

The loop looks for `READY` anywhere in the last long line before the first line with
`OK`. Which answers let it go is a property of their text; some of them are no answer
of a ready SIM.
-/

namespace EspLtePpp

open History Reply Segments

variable {turns : ℕ → Turn} {cmd : Bytes} {x : Exchange} {a : Answer} {t : List Event}

def isCrLf (b : UInt8) : Bool := b = CR ∨ b = LF

def pinCode (line : Bytes) : Option Bytes :=
  if ascii "+CPIN: " <+: line then some ((line.drop 7).rdropWhile isCrLf) else none

/-- The answer ended with OK and holds a line `+CPIN: <code>` with the code READY. -/
def Answer.Ready (a : Answer) : Prop :=
  a.result.body = ascii "OK" ∧ ∃ l ∈ a.lines, pinCode l.body = some (ascii "READY")

instance : DecidablePred Answer.Ready := fun a => by unfold Answer.Ready; infer_instance

def Exchange.Ready (x : Exchange) : Prop := ∃ a : Answer, x.reply = a.render ∧ a.Ready

/-- The lines on the line for a command, as far as they fit the DTE buffer. -/
def Exchange.offered (x : Exchange) : List Bytes :=
  segments LF ((x.stale ++ x.reply).take dteBufferSize)

/--
The first line with `OK` or `ERROR` holds `OK`, and the last line of more than two
characters before it holds `+CPIN:` and `READY` but neither `SIM PIN` nor `SIM PUK`.
-/
structure Accepted (ts : List Bytes) : Prop where
  ok : verdict ts = .ok
  cpin : ascii "+CPIN:" <:+: (lastLong ts).getD []
  not_simPin : ¬ ascii "SIM PIN" <:+: (lastLong ts).getD []
  not_simPuk : ¬ ascii "SIM PUK" <:+: (lastLong ts).getD []
  ready : ascii "READY" <:+: (lastLong ts).getD []

/-- The loop is left only at a poll whose own answer reports a ready SIM. -/
def LeavesOnReady (pre : List Event) : Event → Prop
  | .simReady => ∃ x ∈ (exchanges pre).getLast?, x.cmd = ascii "AT+CPIN?\r" ∧ x.Ready
  | _ => True

/-- The SIM loop as it should be: left on a ready SIM only, and polling again otherwise. -/
structure WaitsForSim (t : List Event) (end_ : Except Stop Unit) : Prop where
  left : Always LeavesOnReady t
  again : ∀ pre x post, exchanges t = pre ++ x :: post → x.cmd = ascii "AT+CPIN?\r" →
    ¬ x.Ready → (post = [] ∧ end_ = .error .polling) ∨
      ∃ y rest, post = y :: rest ∧ y.cmd = ascii "AT+CPIN?\r"

theorem parsePin_eq_true_iff (out : Bytes) :
    parsePin .ok out = (.ok, some true) ↔ ascii "+CPIN:" <:+: out ∧ ¬ ascii "SIM PIN" <:+: out ∧
      ¬ ascii "SIM PUK" <:+: out ∧ ascii "READY" <:+: out := by
  unfold parsePin
  by_cases hc : ascii "+CPIN:" <:+: out
  · have hcpin : find out (ascii "+CPIN:") = true := find_eq_true.mpr hc
    by_cases hs : ascii "SIM PIN" <:+: out ∨ ascii "SIM PUK" <:+: out
    · rcases hs with hs | hs
      · simp [hcpin, hs]
      · simp [hcpin, hs]
    · rw [not_or] at hs
      by_cases hr : ascii "READY" <:+: out
      · simp [hcpin, hc, hs, hr]
      · simp [hcpin, hs, hr]
  · have hcpin : find out (ascii "+CPIN:") = false := Bool.eq_false_iff.mpr (mt find_eq_true.mp hc)
    simp [hcpin, hc]

theorem accepted_iff {ts : List Bytes} : Accepted ts ↔
    verdict ts = .ok ∧ parsePin .ok ((lastLong ts).getD []) = (.ok, some true) := by
  rw [parsePin_eq_true_iff]
  constructor
  · rintro ⟨hv, hcpin, hpin, hpuk, hready⟩
    exact ⟨hv, hcpin, hpin, hpuk, hready⟩
  · rintro ⟨hv, hcpin, hpin, hpuk, hready⟩
    exact ⟨hv, hcpin, hpin, hpuk, hready⟩

instance : DecidablePred Accepted := fun _ => decidable_of_iff _ accepted_iff.symm

theorem parsePin_accepts {ret : CommandResult} {out : Bytes}
    (h : parsePin ret out = (.ok, some true)) : ret = .ok := by
  unfold parsePin at h
  by_contra hr
  rw [if_pos hr] at h
  obtain ⟨hret, -⟩ := Prod.mk.inj h
  exact hr hret

theorem Got.tokens_isPrefix_offered (h : Got turns cmd x) : x.tokens <+: x.offered :=
  segments_isPrefix (List.prefix_take_iff.mpr ⟨h.handed_isPrefix, h.handed_le⟩)

theorem Got.accepted (h : Got turns cmd x) (hs : x.AcceptsSim) : Accepted x.offered := by
  have hr : x.result = .ok := parsePin_accepts hs
  have hv := h.result_ok_iff.mp hr
  have hne : verdict x.tokens ≠ .timeout := by
    rw [hv]
    decide
  obtain ⟨hvs, hls⟩ := eq_of_isPrefix hne h.tokens_isPrefix_offered
  unfold Exchange.AcceptsSim Exchange.pin at hs
  rw [accepted_iff, hls]
  exact ⟨hvs.trans hv, by rwa [hr] at hs⟩

theorem Got.acceptsSim (h : Got turns cmd x) (ht : x.Timely) (ha : Accepted x.offered) :
    x.AcceptsSim := by
  have hne : verdict x.tokens ≠ .timeout := by
    intro hv
    have hok := ha.ok
    rw [Exchange.offered, ← h.handed_of_timeout ht hv] at hok
    exact absurd (hv.symm.trans hok) (by decide)
  obtain ⟨hvs, hls⟩ := eq_of_isPrefix hne h.tokens_isPrefix_offered
  have hr : x.result = .ok := h.result_ok_iff.mpr (hvs.symm.trans ha.ok)
  have hpin := (accepted_iff.mp ha).2
  rw [hls] at hpin
  unfold Exchange.AcceptsSim Exchange.pin
  rwa [hr]

section Codes

variable {code : Bytes}

def pinLine (code : Bytes) (hf : LF ∉ code) : AtLine where
  body := ascii "+CPIN: " ++ code
  lf_not_mem := by
    rw [List.mem_append, not_or]
    exact ⟨by decide, hf⟩

def pinAnswer (code : Bytes) (hf : LF ∉ code) : Answer := .closed [pinLine code hf]

theorem infix_pinLine (hf : LF ∉ code) {w : Bytes} {b : UInt8} (hw : w.head? = some b)
    (hb : b ∉ ascii "+CPIN: ") : w <:+: (pinLine code hf).body ↔ w <:+: code :=
  Infix.infix_append_of_head hw hb

theorem length_pinLine (hf : LF ∉ code) : 2 < (pinLine code hf).body.length := by
  have hlen : (ascii "+CPIN: ").length = 7 := by decide
  simp only [pinLine, List.length_append]
  omega

theorem cr_not_mem_pinLine (hc : CR ∉ code) (hf : LF ∉ code) : CR ∉ (pinLine code hf).body := by
  rw [pinLine, List.mem_append, not_or]
  exact ⟨by decide, hc⟩

theorem final_pinLine_iff (hc : CR ∉ code) (hf : LF ∉ code) :
    Final (pinLine code hf).token ↔ ascii "OK" <:+: code ∨ ascii "ERROR" <:+: code := by
  have hne : (pinLine code hf).body ≠ [] := List.append_ne_nil_of_left_ne_nil (by decide) code
  have hstrip : stripToken (pinLine code hf).token = (pinLine code hf).body :=
    stripToken_append_CR hne (cr_not_mem_pinLine hc hf) (pinLine code hf).lf_not_mem
  unfold Final
  rw [hstrip, infix_pinLine hf (b := 79) (by decide) (by decide),
    infix_pinLine hf (b := 69) (by decide) (by decide)]

theorem parsePin_pinLine_iff (hf : LF ∉ code) :
    parsePin .ok (pinLine code hf).body = (.ok, some true) ↔ ascii "READY" <:+: code ∧
      ¬ ascii "SIM PIN" <:+: code ∧ ¬ ascii "SIM PUK" <:+: code := by
  have hcpin : ascii "+CPIN:" <:+: (pinLine code hf).body := by
    have hp : ascii "+CPIN:" <+: ascii "+CPIN: " := by decide
    exact (hp.trans (List.prefix_append _ _)).isInfix
  rw [parsePin_eq_true_iff,
    infix_pinLine hf (w := ascii "SIM PIN") (b := 83) (by decide) (by decide),
    infix_pinLine hf (w := ascii "SIM PUK") (b := 83) (by decide) (by decide),
    infix_pinLine hf (w := ascii "READY") (b := 82) (by decide) (by decide)]
  constructor
  · rintro ⟨-, hpin, hpuk, hready⟩
    exact ⟨hready, hpin, hpuk⟩
  · rintro ⟨hready, hpin, hpuk⟩
    exact ⟨hcpin, hpin, hpuk, hready⟩

/--
The codes that let the loop go: they contain READY, but neither `SIM PIN` nor `SIM PUK`,
and nothing that the splitter takes for a result.
-/
def Passes (code : Bytes) : Prop :=
  ¬ (ascii "OK" <:+: code ∨ ascii "ERROR" <:+: code) ∧ ascii "READY" <:+: code ∧
    ¬ ascii "SIM PIN" <:+: code ∧ ¬ ascii "SIM PUK" <:+: code

instance : DecidablePred Passes := fun code => by unfold Passes; infer_instance

theorem accepted_pinAnswer_iff (hc : CR ∉ code) (hf : LF ∉ code) :
    Accepted (pinAnswer code hf).tokens ↔ Passes code := by
  rw [Passes, ← final_pinLine_iff hc hf, ← parsePin_pinLine_iff hf, accepted_iff]
  by_cases h : Final (pinLine code hf).token
  · have hparse : parsePin .ok (Option.getD none []) ≠ (.ok, some true) := by decide
    rw [pinAnswer, Answer.lastLong_single_of_final h]
    exact iff_of_false (fun ha => hparse ha.2) fun ha => ha.1 h
  · rw [pinAnswer, Answer.verdict_single h,
      Answer.lastLong_single (cr_not_mem_pinLine hc hf) (length_pinLine hf) h, Option.getD_some]
    exact and_congr_left fun _ => iff_of_true rfl h

theorem Got.acceptsSim_pinAnswer_iff (h : Got turns (ascii "AT+CPIN?\r") x) (hc : CR ∉ code)
    (hf : LF ∉ code) (hx : x.Receives (pinAnswer code hf)) :
    x.AcceptsSim ↔ Passes code := by
  have hfits : (x.stale ++ x.reply).length ≤ dteBufferSize := hx.reply_eq ▸ hx.fits
  have hoffered : x.offered = segments LF x.stale ++ (pinAnswer code hf).tokens := by
    rw [Exchange.offered, List.take_of_length_le hfits, hx.lines_eq]
  have hmute : Accepted x.offered ↔ Accepted (pinAnswer code hf).tokens := by
    rw [accepted_iff, accepted_iff, hoffered, lastLong_append_of_mute hx.quiet.1,
      verdict_append (verdict_of_mute hx.quiet.1)]
  rw [← accepted_pinAnswer_iff hc hf, ← hmute]
  exact ⟨h.accepted, h.acceptsSim hx.timely⟩

end Codes

theorem always_leaves_append {t u : List Event} (ht : Always LeavesOnReady t)
    (hu : .simReady ∉ u) : Always LeavesOnReady (t ++ u) := by
  refine always_append.mpr ⟨ht, always_of_forall ?_⟩
  intro pre e he
  cases e with
  | simReady => exact absurd he hu
  | _ => trivial

theorem Dialled.simReady_not_mem {apn : Bytes} {es : List Event} {end_ : Except Stop Unit}
    (h : Dialled turns apn es end_) : .simReady ∉ es := by
  intro he
  rcases h.mem he with ⟨x, he, -⟩ | he
  · cases he
  · cases he

theorem always_leaves_search (xs : List Exchange) : Always LeavesOnReady (searchEvents 0 xs) := by
  have h := always_leaves_append always_nil (milestone_not_mem_searchEvents (Or.inl rfl) 0 xs)
  rwa [List.nil_append] at h

theorem Run.leavesOnReady {modemApn : Bytes} {end_ : Except Stop Unit}
    (h : Run turns modemApn t end_)
    (hx : ∀ x ∈ exchanges t, x.cmd = ascii "AT+CPIN?\r" → Accepted x.offered → x.Ready) :
    Always LeavesOnReady t := by
  cases h with
  | searching => exact always_leaves_search _
  | @dialled xs x q es end_ hxs hcpin hs hq hd =>
    set test := Event.operatorTest q.copsResponse.text (apnToUse modemApn q.copsResponse)
    have hready : x.Ready := by
      refine hx x ?_ hcpin.cmd_eq (hcpin.accepted hs)
      rw [exchanges_run xs x q (e := test) rfl es]
      simp
    have h₁ : Always LeavesOnReady (searchEvents 0 xs ++ pollEvents x) :=
      always_leaves_append (always_leaves_search xs) (by simp [pollEvents])
    have h₂ : Always LeavesOnReady (searchEvents 0 xs ++ pollEvents x ++ [.simReady]) := by
      refine always_append_singleton.mpr ⟨h₁, x, ?_, hcpin.cmd_eq, hready⟩
      simp [exchanges_append]
    have h₃ := always_leaves_append h₂ (q.milestone_not_mem_events (Or.inl rfl))
    have h₄ := always_leaves_append h₃ (u := test :: es)
      (List.not_mem_cons_of_ne_of_not_mem (by simp [test]) hd.simReady_not_mem)
    simpa only [List.append_assoc] using h₄

theorem Run.pollsAgain {modemApn : Bytes} {end_ : Except Stop Unit}
    (h : Run turns modemApn t end_) {pre post : List Exchange}
    (ht : exchanges t = pre ++ x :: post) (hc : x.cmd = ascii "AT+CPIN?\r")
    (hs : ¬ x.AcceptsSim) :
    (post = [] ∧ end_ = .error .polling) ∨
      ∃ y rest, post = y :: rest ∧ y.cmd = ascii "AT+CPIN?\r" := by
  cases h with
  | @searching xs hxs =>
    rw [exchanges_searchEvents] at ht
    cases post with
    | nil => exact Or.inl ⟨rfl, rfl⟩
    | cons y post => exact Or.inr ⟨y, post, rfl, (hxs y (by simp [ht])).1.cmd_eq⟩
  | @dialled xs z q es end_ hxs hcpin hz hq hd =>
    rw [exchanges_run xs z q rfl es, List.append_eq_append_iff] at ht
    rcases ht with ⟨c, rfl, hpost⟩ | ⟨c, rfl, hpost⟩
    · -- the poll is the accepting one, or the command came after the loop
      cases c with
      | nil =>
        obtain ⟨rfl, -⟩ := List.cons.inj hpost
        exact absurd hz hs
      | cons y c =>
        obtain ⟨rfl, htail⟩ := List.cons.inj hpost
        refine absurd hc (hd.cmd_ne_cpin hq ?_)
        rw [htail]
        exact List.mem_append_right c List.mem_cons_self
    · right
      cases c with
      | nil =>
        obtain ⟨rfl, -⟩ := List.cons.inj hpost
        exact absurd hz hs
      | cons y c =>
        obtain ⟨rfl, rfl⟩ := List.cons.inj hpost
        cases c with
        | nil => exact ⟨z, _, rfl, hcpin.cmd_eq⟩
        | cons y c => exact ⟨y, _, rfl, (hxs y (by simp)).1.cmd_eq⟩

theorem history_pollsAgain (modemApn : CString) (sentAlready : Bytes) (turns : ℕ → Turn)
    (polls : ℕ) {pre post : List Exchange} {code : Bytes}
    (ht : exchanges (history modemApn sentAlready turns polls) = pre ++ x :: post)
    (hcmd : x.cmd = ascii "AT+CPIN?\r") (hc : CR ∉ code) (hf : LF ∉ code)
    (hx : x.Receives (pinAnswer code hf)) (hn : ¬ Passes code) :
    (post = [] ∧ ending modemApn sentAlready turns polls = .error .polling) ∨
      ∃ y rest, post = y :: rest ∧ y.cmd = ascii "AT+CPIN?\r" := by
  have h := run_appMain modemApn sentAlready turns polls
  apply h.pollsAgain ht hcmd
  intro hs
  obtain ⟨cmd, hg⟩ := h.got_of_ask (x := x) (by simp [ht]) (by rw [hcmd]; simp [askCommands])
  have hgot : Got turns (ascii "AT+CPIN?\r") x := by
    rwa [← hcmd, hg.cmd_eq]
  exact hn ((hgot.acceptsSim_pinAnswer_iff hc hf hx).mp hs)

example : ¬ Passes (ascii "PH-NET PIN") ∧ Passes (ascii "NOT READY") := by decide

theorem Run.waitsForSim {modemApn : Bytes} {end_ : Except Stop Unit}
    (h : Run turns modemApn t end_)
    (hx : ∀ x ∈ exchanges t, x.cmd = ascii "AT+CPIN?\r" → Accepted x.offered → x.Ready) :
    WaitsForSim t end_ := by
  constructor
  · exact h.leavesOnReady hx
  · intro pre x post ht hc hn
    have hm : x ∈ exchanges t := by simp [ht]
    apply h.pollsAgain ht hc
    intro hs
    obtain ⟨cmd, hg⟩ := h.got_of_ask hm (by rw [hc]; simp [askCommands])
    exact hn (hx x hm hc (hg.accepted hs))

theorem Run.ready_of_accepted {modemApn : Bytes} {end_ : Except Stop Unit}
    (h : Run turns modemApn t end_)
    (ht : ∀ x ∈ exchanges t, x.cmd = ascii "AT+CPIN?\r" → x.Timely) (hw : WaitsForSim t end_) :
    ∀ x ∈ exchanges t, x.cmd = ascii "AT+CPIN?\r" → Accepted x.offered → x.Ready := by
  intro y hy hc ha
  have hty := ht y hy hc
  cases h with
  | @searching xs hxs =>
    rw [exchanges_searchEvents] at hy
    obtain ⟨hg, hn⟩ := hxs y hy
    exact absurd (hg.acceptsSim hty ha) hn
  | @dialled xs x q es end_ hxs hcpin hs hq hd =>
    rw [exchanges_run xs x q rfl es, List.mem_append, List.mem_cons] at hy
    rcases hy with hy | rfl | hy
    · obtain ⟨hg, hn⟩ := hxs y hy
      exact absurd (hg.acceptsSim hty ha) hn
    · obtain ⟨x, hlast, -, hr⟩ := hw.left (searchEvents 0 xs ++ pollEvents y) .simReady
        (q.events ++ .operatorTest q.copsResponse.text
          (apnToUse modemApn q.copsResponse) :: es) (by simp)
      rw [exchanges_append, exchanges_pollEvents, List.getLast?_concat] at hlast
      obtain rfl := Option.some.inj hlast
      exact hr
    · exact absurd hc (hd.cmd_ne_cpin hq hy)

/--
With timely polls, the SIM loop is left on a ready SIM only and polls again otherwise
exactly when each answer that passes its tests is the answer of a ready SIM.
-/
theorem history_waitsForSim_iff (modemApn : CString) (sentAlready : Bytes) (turns : ℕ → Turn)
    (polls : ℕ)
    (ht : ∀ x ∈ exchanges (history modemApn sentAlready turns polls),
      x.cmd = ascii "AT+CPIN?\r" → x.Timely) :
    WaitsForSim (history modemApn sentAlready turns polls)
        (ending modemApn sentAlready turns polls) ↔
      ∀ x ∈ exchanges (history modemApn sentAlready turns polls),
        x.cmd = ascii "AT+CPIN?\r" → Accepted x.offered → x.Ready :=
  have h := run_appMain modemApn sentAlready turns polls
  ⟨h.ready_of_accepted ht, h.waitsForSim⟩

theorem history_waitsForSim_iff_of_delivers (modemApn : CString) (sentAlready : Bytes)
    (turns : ℕ → Turn) (polls : ℕ)
    (hd : ∀ n x, (exchanges (history modemApn sentAlready turns polls))[n]? = some x →
      x.cmd = ascii "AT+CPIN?\r" → (turns n).Delivers x.stale.length ∧
        (x.stale ++ x.reply).length ≤ dteBufferSize) :
    WaitsForSim (history modemApn sentAlready turns polls)
        (ending modemApn sentAlready turns polls) ↔
      ∀ x ∈ exchanges (history modemApn sentAlready turns polls),
        x.cmd = ascii "AT+CPIN?\r" → Accepted x.offered → x.Ready := by
  have h := run_appMain modemApn sentAlready turns polls
  obtain ⟨left, hl⟩ := ledger_history modemApn sentAlready turns polls
  refine ⟨h.ready_of_accepted fun x hx hc => ?_, h.waitsForSim⟩
  obtain ⟨n, hn⟩ := List.mem_iff_getElem?.mp hx
  obtain ⟨hturn, hfit⟩ := hd n x hn hc
  exact hl.timely hn hturn hfit

def pinFirstAnswers : ℕ → Answer
  | 0 => .ok ["+CPIN: SIM PIN"]
  | n + 1 => Answer.promptAnswers n

theorem pinFirst_waitsForSim :
    WaitsForSim (history ⟨ascii "internet", by decide⟩ [] (fun n => (pinFirstAnswers n).prompt) 5)
      (ending ⟨ascii "internet", by decide⟩ [] (fun n => (pinFirstAnswers n).prompt) 5) := by
  apply (history_waitsForSim_iff _ _ _ _ (by decide +kernel)).mpr
  intro x hx hc ha
  have hreply : ∀ x ∈ exchanges (history ⟨ascii "internet", by decide⟩ []
      (fun n => (pinFirstAnswers n).prompt) 5), x.cmd = ascii "AT+CPIN?\r" → Accepted x.offered →
      x.reply = (Answer.promptAnswers 0).render := by decide +kernel
  exact ⟨Answer.promptAnswers 0, hreply x hx hc ha, by decide⟩

def notReadyAnswers : ℕ → Answer
  | 0 => .ok ["+CPIN: NOT READY"]
  | n => Answer.promptAnswers n

theorem notReady_not_waitsForSim :
    (∀ x ∈ exchanges (history ⟨ascii "internet", by decide⟩ []
      (fun n => (notReadyAnswers n).prompt) 1), x.cmd = ascii "AT+CPIN?\r" → x.Timely) ∧
    ¬ WaitsForSim
      (history ⟨ascii "internet", by decide⟩ [] (fun n => (notReadyAnswers n).prompt) 1)
      (ending ⟨ascii "internet", by decide⟩ [] (fun n => (notReadyAnswers n).prompt) 1) := by
  refine ⟨by decide +kernel, ?_⟩
  intro hw
  set t := history ⟨ascii "internet", by decide⟩ [] (fun n => (notReadyAnswers n).prompt) 1
  have ht : t = t.take 2 ++ .simReady :: t.drop 3 := by decide +kernel
  have hlast : ∀ x ∈ (exchanges (t.take 2)).getLast?, x.reply = (notReadyAnswers 0).render := by
    decide +kernel
  obtain ⟨x, hx, -, a, har, hok, hl⟩ := hw.left _ _ _ ht
  obtain rfl := Answer.render_injective ((hlast x hx).symm.trans har)
  have hready : (notReadyAnswers 0).Ready := ⟨hok, hl⟩
  exact absurd hready (by decide)

end EspLtePpp
