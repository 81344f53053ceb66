import EspLtePpp.App.Run
import EspLtePpp.Library.History
import EspLtePpp.Modem.Reading

/-! # Whose answer a text is

Nothing ties an answer to its command but the order on the line. A text is rightly
attributed while the line is quiet when its command is written and the answer gives
the callback a line to keep; a late answer or an empty one shows another's text.
-/

namespace EspLtePpp

open History Reply Segments

variable {turns : ℕ → Turn} {cmd text : Bytes} {x : Exchange} {a : Answer} {t es : List Event}
  {size : ℕ}

/-- The modem answers every command once, in the order written. -/
def AnswersEach (turns : ℕ → Turn) : Prop := ∀ n, ∃ a : Answer, (turns n).reply = a.render

def Exchange.Answered (x : Exchange) : Prop := ∃ a : Answer, x.reply = a.render

theorem AnswersEach.answered (ha : AnswersEach turns) (h : Written turns cmd x) : x.Answered := by
  obtain ⟨n, hn⟩ := h.replied
  obtain ⟨a, hr⟩ := ha n
  exact ⟨a, hn.trans hr⟩

/-- The text is a line of the answer to this command, as far as the array holds it. -/
def FromAnswer (x : Exchange) (text : Bytes) : Prop :=
  ∃ a : Answer, x.reply = a.render ∧ ∃ l ∈ a.allLines, Truncated text l.body

/--
A logged buffer belongs to the last command written, and the text searched for
operator names is empty or belongs to `AT+COPS?`.
-/
def Attributed (pre : List Event) : Event → Prop
  | .reported text => ∃ x ∈ (exchanges pre).getLast?, FromAnswer x text
  | .operatorTest text _ =>
    text = [] ∨ ∃ x ∈ exchanges pre, x.cmd = ascii "AT+COPS?\r\n\r" ∧ FromAnswer x text
  | _ => True

/-- The commands that `app_main` gives to `esp_modem_at`, as written. -/
def atCommands : List Bytes :=
  [ascii "ATI\r\n\r", ascii "AT+CREG?\r\n\r", ascii "AT+COPS?\r\n\r", ascii "AT+CPSI?\r\n\r"]

theorem mem_askCommands {cmd : Bytes} (h : cmd ∈ atCommands) : cmd ∈ askCommands := by
  have hsub : ∀ cmd ∈ atCommands, cmd ∈ askCommands := by decide
  exact hsub cmd h

/--
If the first line of the answer with `OK` or `ERROR` holds `OK`, a line of more than
two characters precedes it.
-/
def Exchange.Speaks (x : Exchange) : Prop :=
  verdict (segments LF x.reply) = .ok → lastLong (segments LF x.reply) ≠ none

/-- The line is quiet, and the answer has text to keep. -/
def Exchange.Clear (x : Exchange) : Prop := x.Quiet ∧ x.Speaks

instance : DecidablePred Exchange.Clear := fun x => by
  unfold Exchange.Clear Exchange.Speaks; infer_instance

/--
A logged buffer belongs to the last command written if that one was clear, and the text
searched for operator names to `AT+COPS?` if that one found the line quiet.
-/
def AttributedIfClear (pre : List Event) : Event → Prop
  | .reported text =>
    ∃ x ∈ (exchanges pre).getLast?, x.cmd ∈ atCommands ∧ (x.Clear → FromAnswer x text)
  | .operatorTest text _ => ∃ x ∈ exchanges pre, x.cmd = ascii "AT+COPS?\r\n\r" ∧
    (x.Quiet → text = [] ∨ FromAnswer x text)
  | _ => True

theorem AttributedIfClear.attributed {pre : List Event} {e : Event}
    (h : AttributedIfClear pre e)
    (hx : ∀ x ∈ exchanges pre, x.cmd ∈ atCommands → x.Clear) : Attributed pre e := by
  cases e with
  | reported text =>
    obtain ⟨x, hlast, hc, hfrom⟩ := h
    exact ⟨x, hlast, hfrom (hx x (List.mem_of_getLast? hlast) hc)⟩
  | operatorTest text apn =>
    obtain ⟨x, hm, hc, hfrom⟩ := h
    have hclear := hx x hm (by rw [hc]; simp [atCommands])
    exact (hfrom hclear.1).imp_right fun ht => ⟨x, hm, hc, ht⟩
  | _ => trivial

theorem Got.fromAnswer (h : Got turns cmd x) (hr : x.reply = a.render) (hs : x.Quiet)
    (hc : x.captured ≠ []) : FromAnswer x (strlcpyText x.captured cApiStrMax) := by
  obtain ⟨ts, hp, -, hlt⟩ := h.own_lines hs
  rw [hr, Answer.segments_render] at hp
  unfold Exchange.captured at *
  rw [hlt] at hc ⊢
  cases hl : lastLong ts with
  | none => simp [hl] at hc
  | some s =>
    obtain ⟨l, hl', ht⟩ := Answer.truncated_of_lastLong hl hp
    exact ⟨a, hr, l, hl', ht⟩

theorem Got.captured_ne_nil (h : Got turns cmd x) (hx : x.Clear) (hr : x.result = .ok) :
    x.captured ≠ [] := by
  obtain ⟨ts, hp, hvt, hlt⟩ := h.own_lines hx.1
  have hv : verdict ts = .ok := hvt.symm.trans (h.result_ok_iff.mp hr)
  have hne : verdict ts ≠ .timeout := by
    rw [hv]
    decide
  obtain ⟨hvs, hls⟩ := eq_of_isPrefix hne hp
  have hspeaks := hx.2
  unfold Exchange.Speaks at hspeaks
  rw [hvs, hls] at hspeaks
  obtain ⟨s, hs⟩ := Option.ne_none_iff_exists'.mp (hspeaks hv)
  have hl := (exists_of_lastLong hs).1
  unfold Exchange.captured
  rw [hlt, hs]
  intro hnil
  rw [Option.getD_some] at hnil
  simp [hnil] at hl

def Event.Silent : Event → Prop
  | .reported _ | .operatorTest _ _ => False
  | _ => True

theorem Event.Silent.attributedIfClear {e : Event} (h : e.Silent) (pre : List Event) :
    AttributedIfClear pre e := by
  cases e <;> trivial

theorem always_silent (ht : Always AttributedIfClear t) (hes : ∀ e ∈ es, e.Silent) :
    Always AttributedIfClear (t ++ es) :=
  always_append.mpr ⟨ht, always_of_forall fun _ e he => (hes e he).attributedIfClear _⟩

theorem silent_storeEvents (size : ℕ) (out : Bytes) : ∀ e ∈ storeEvents size out, e.Silent := by
  intro e he
  obtain ⟨-, rfl⟩ := mem_storeEvents.mp he
  trivial

theorem always_askEvents (ht : Always AttributedIfClear t) (h : Got turns cmd x)
    (hc : cmd ∈ atCommands) (ha : x.Answered) (buf : CharArray 128) :
    Always AttributedIfClear (t ++ askEvents buf x) := by
  have hsilent : ∀ e ∈ Event.exchange x :: storeEvents 128 x.captured, e.Silent := by
    intro e he
    rcases List.mem_cons.mp he with rfl | he
    · trivial
    · exact silent_storeEvents _ _ e he
  have hpre := always_silent ht hsilent
  unfold askEvents
  rw [← List.append_assoc]
  split
  · next hr =>
    have hlast : exchanges (t ++ Event.exchange x :: storeEvents 128 x.captured) =
        exchanges t ++ [x] := by
      rw [exchanges_append, ← List.singleton_append, exchanges_append, exchanges_storeEvents]
      rfl
    rw [always_append_singleton]
    refine ⟨hpre, x, ?_, h.cmd_eq ▸ hc, fun hx => ?_⟩
    · rw [hlast, List.getLast?_concat]
      rfl
    · obtain ⟨a, ha⟩ := ha
      have hne := h.captured_ne_nil hx hr
      rw [text_copied buf hne]
      exact h.fromAnswer ha hx.1 hne
  · rwa [List.append_nil]

theorem silent_pollEvents (x : Exchange) : ∀ e ∈ pollEvents x, e.Silent := by
  simp [pollEvents, Event.Silent]

theorem silent_searchEvents (n : ℕ) (xs : List Exchange) :
    ∀ e ∈ searchEvents n xs, e.Silent := by
  intro e he
  rcases mem_searchEvents he with ⟨x, -, he⟩ | ⟨k, rfl⟩
  · exact silent_pollEvents x e he
  · trivial

theorem silent_imeiEvents (x : Exchange) : ∀ e ∈ imeiEvents x, e.Silent := by
  intro e he
  rcases mem_imeiEvents.mp he with rfl | ⟨-, he | rfl⟩
  · trivial
  · exact silent_storeEvents _ _ e he
  · trivial

theorem silent_signalEvents (x : Exchange) : ∀ e ∈ signalEvents x, e.Silent := by
  intro e he
  rcases mem_signalEvents he with rfl | ⟨n, rfl⟩
  · trivial
  · trivial

theorem silent_dialled {apn : Bytes} {end_ : Except Stop Unit}
    (h : Dialled turns apn es end_) : ∀ e ∈ es, e.Silent := by
  intro e he
  rcases h.mem he with ⟨x, rfl, -⟩ | rfl
  · trivial
  · trivial

theorem Questions.Asked.always_attributedIfClear {q : Questions} (hq : q.Asked turns)
    (ht : Always AttributedIfClear t) (ha : ∀ x ∈ [q.ati, q.creg, q.cops, q.cpsi], x.Answered) :
    Always AttributedIfClear (t ++ q.events) := by
  simp only [List.forall_mem_cons] at ha
  obtain ⟨hati, hcreg, hcops, hcpsi, -⟩ := ha
  have h₁ := always_askEvents ht hq.ati (by simp [atCommands]) hati (.zero 128)
  have h₂ := always_silent h₁ (silent_imeiEvents q.cgsn)
  have h₃ := always_askEvents h₂ hq.creg (by simp [atCommands]) hcreg q.response₁
  have h₄ := always_askEvents h₃ hq.cops (by simp [atCommands]) hcops (.zero 128)
  have h₅ := always_askEvents h₄ hq.cpsi (by simp [atCommands]) hcpsi q.response₂
  have h₆ := always_silent h₅ (silent_signalEvents q.csq)
  simpa only [Questions.events, List.append_assoc] using h₆

/-- Whatever the other commands did, an event is attributed as far as its own command goes. -/
theorem Run.attributedIfClear {modemApn : Bytes} {end_ : Except Stop Unit}
    (h : Run turns modemApn t end_)
    (ha : ∀ x ∈ exchanges t, x.cmd ∈ atCommands → x.Answered) :
    Always AttributedIfClear t := by
  cases h with
  | searching => exact always_silent always_nil (silent_searchEvents 0 _)
  | @dialled xs x q es end_ _ _ _ hq hd =>
    have hanswered (y : Exchange) (hy : y ∈ [q.ati, q.cgsn, q.creg, q.cops, q.cpsi, q.csq])
        (hc : y.cmd ∈ atCommands) : y.Answered := ha y (q.mem_exchanges_run hy _ _) hc
    have h₀ : Always AttributedIfClear (searchEvents 0 xs ++ (pollEvents x ++ [.simReady])) := by
      have hs := always_silent always_nil (silent_searchEvents 0 xs)
      apply always_silent hs
      intro e he
      rcases List.mem_append.mp he with he | he
      · exact silent_pollEvents x e he
      · obtain rfl := List.mem_singleton.mp he
        trivial
    have hcops := hanswered q.cops (by simp) (by rw [hq.cops.cmd_eq]; decide)
    have h₁ := hq.always_attributedIfClear h₀ (by
      simp only [List.forall_mem_cons]
      exact ⟨hanswered q.ati (by simp) (by rw [hq.ati.cmd_eq]; decide),
        hanswered q.creg (by simp) (by rw [hq.creg.cmd_eq]; decide), hcops,
        hanswered q.cpsi (by simp) (by rw [hq.cpsi.cmd_eq]; decide), by simp⟩)
    have h₂ := always_append_singleton.mpr ⟨h₁, show AttributedIfClear _ (.operatorTest
        q.copsResponse.text (apnToUse modemApn q.copsResponse)) from ?_⟩
    · have h₃ := always_silent h₂ (silent_dialled hd)
      simpa only [List.append_assoc, List.singleton_append] using h₃
    · have hm := q.mem_exchanges_run (x := q.cops) (by simp)
        (searchEvents 0 xs ++ (pollEvents x ++ [.simReady])) []
      rw [List.append_nil] at hm
      refine ⟨q.cops, hm, hq.cops.cmd_eq, fun hquiet => ?_⟩
      by_cases hc : q.cops.captured = []
      · left
        rw [Questions.copsResponse, hc, copied_nil, CharArray.text_zero]
      · right
        obtain ⟨a, ha⟩ := hcops
        rw [Questions.copsResponse, text_copied _ hc]
        exact hq.cops.fromAnswer ha hquiet hc

theorem Run.attributed {modemApn : Bytes} {end_ : Except Stop Unit}
    (h : Run turns modemApn t end_)
    (hx : ∀ x ∈ exchanges t, x.cmd ∈ atCommands → x.Answered ∧ x.Clear) :
    Always Attributed t := by
  have hall := h.attributedIfClear fun x hm hc => (hx x hm hc).1
  intro pre e post ht
  apply (hall pre e post ht).attributed
  intro x hm hc
  refine (hx x ?_ hc).2
  rw [ht, exchanges_append]
  exact List.mem_append_left _ hm

/--
Attribution event by event: in every run, what is logged belongs to its command if that one
was clear, whatever happened to the others, and the operator test depends on `AT+COPS?` alone.
-/
theorem history_attributedIfClear (modemApn : CString) (sentAlready : Bytes) (turns : ℕ → Turn)
    (polls : ℕ) (ha : AnswersEach turns) :
    Always AttributedIfClear (history modemApn sentAlready turns polls) := by
  have h := run_appMain modemApn sentAlready turns polls
  apply h.attributedIfClear
  intro x hmem hc
  obtain ⟨cmd, hg⟩ := h.got_of_ask hmem (mem_askCommands hc)
  exact ha.answered hg.toWritten

/--
Attribution over a run: it holds of every event when each command given to
`esp_modem_at` is written to a quiet line and its answer has text to keep.
-/
theorem history_attributed (modemApn : CString) (sentAlready : Bytes) (turns : ℕ → Turn)
    (polls : ℕ) (ha : AnswersEach turns)
    (hx : ∀ x ∈ exchanges (history modemApn sentAlready turns polls),
      x.cmd ∈ atCommands → x.Clear) :
    Always Attributed (history modemApn sentAlready turns polls) := by
  have h := run_appMain modemApn sentAlready turns polls
  apply h.attributed
  intro x hmem hc
  obtain ⟨cmd, hg⟩ := h.got_of_ask hmem (mem_askCommands hc)
  exact ⟨ha.answered hg.toWritten, hx x hmem hc⟩

theorem prompt_history_attributed : Always Attributed
    (history ⟨ascii "internet", by decide⟩ [] (fun n => (Answer.promptAnswers n).prompt) 1) :=
  history_attributed _ _ _ _ (fun n => ⟨Answer.promptAnswers n, rfl⟩) (by decide +kernel)

/-- The same modem, with the answer to `AT+CREG?` arriving after the timeout. -/
def lateAnswers (n : ℕ) : Turn :=
  if n = 3 then (Answer.promptAnswers n).late
  else { (Answer.promptAnswers n).prompt with idle := [.arrive 100] }

theorem answersEach_lateAnswers : AnswersEach lateAnswers := by
  intro n
  refine ⟨Answer.promptAnswers n, ?_⟩
  unfold lateAnswers
  split
  · rfl
  · rfl

theorem late_history_attributedIfClear : Always AttributedIfClear
    (history ⟨ascii "internet", by decide⟩ [] lateAnswers 1) :=
  history_attributedIfClear _ _ _ _ answersEach_lateAnswers

theorem late_history_not_attributed : AnswersEach lateAnswers ∧
    ¬ Always Attributed (history ⟨ascii "internet", by decide⟩ [] lateAnswers 1) := by
  refine ⟨answersEach_lateAnswers, ?_⟩
  intro hall
  set t := history ⟨ascii "internet", by decide⟩ [] lateAnswers 1
  have ht : t = t.take 18 ++
      .operatorTest (ascii "+CREG: 0,1") (ascii "internet") :: t.drop 19 := by decide +kernel
  have hcops : ∀ x ∈ exchanges (t.take 18), x.cmd = ascii "AT+COPS?\r\n\r" →
      x.reply = (Answer.promptAnswers 4).render := by decide +kernel
  have hlines : ¬ ∃ l ∈ (Answer.promptAnswers 4).allLines,
      Truncated (ascii "+CREG: 0,1") l.body := by decide +kernel
  rcases hall _ _ _ ht with hnil | ⟨x, hx, hc, a, har, hl⟩
  · exact absurd hnil (by decide)
  · rw [hcops x hx hc] at har
    rw [← Answer.render_injective har] at hl
    exact hlines hl

end EspLtePpp
