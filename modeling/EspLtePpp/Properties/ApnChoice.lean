import EspLtePpp.App.Ledger
import EspLtePpp.App.Run
import EspLtePpp.Library.FirstMatch
import EspLtePpp.Library.Infix
import EspLtePpp.Modem.Reading

/-! # The APN and the operator's name

The reference choice reads the name without regard to letter case. `app_main` searches
the raw line for chosen spellings, after a splitter that stops at `OK` and `ERROR`
inside the name; the two agree in the cases stated here.
-/

namespace EspLtePpp

open Reply Segments FirstMatch

variable {turns : ℕ → Turn} {x : Exchange} {t : List Event} {oper : Bytes}

def isLetter (b : UInt8) : Bool := (65 ≤ b ∧ b ≤ 90) ∨ (97 ≤ b ∧ b ≤ 122)

def toLower (b : UInt8) : UInt8 := if 65 ≤ b ∧ b ≤ 90 then b + 32 else b

/-- The choice made on the operator's name alone, ignoring letter case. -/
def referenceApn (modemApn oper : Bytes) : Bytes :=
  let name := oper.map toLower
  if find name (ascii "viettel") then ascii "v-internet"
  else if find name (ascii "mobifone") then ascii "m-wap"
  else if find name (ascii "wintel") then ascii "m9-wintel"
  else if find name (ascii "vinaphone") then ascii "m3-world"
  else modemApn

def Operator.brand : Operator → Bytes
  | viettel => ascii "viettel"
  | mobifone => ascii "mobifone"
  | wintel => ascii "wintel"
  | vinaphone => ascii "vinaphone"

def Named (oper : Bytes) (o : Operator) : Bool := find (oper.map toLower) o.brand

theorem referenceApn_eq_choose (modemApn oper : Bytes) :
    referenceApn modemApn oper = choose Operator.all (Named oper) Operator.apn modemApn := by
  simp only [Operator.all, choose_cons, choose_nil]
  rfl

/-- The name holds a listed spelling, and nothing that the splitter takes for a result. -/
def Recognised (oper : Bytes) (o : Operator) : Bool :=
  !find oper (ascii "OK") && !find oper (ascii "ERROR") && o.spellings.any (find oper)

/--
The name holds no brand in any case; or the first brand it holds is recognised; or no
brand is recognised and the APN of that first brand is the configured one.
-/
def FollowsCase (modemApn oper : Bytes) : Prop :=
  ∀ o ∈ Operator.all.find? (Named oper),
    Recognised oper o ∨ modemApn = o.apn ∧ ∀ o' ∈ Operator.all, ¬ Recognised oper o'

instance (modemApn oper : Bytes) : Decidable (FollowsCase modemApn oper) := by
  unfold FollowsCase; infer_instance

theorem Operator.apn_injective : Function.Injective Operator.apn := by
  intro a b
  cases a <;> cases b <;> decide

theorem named_of_recognised {o : Operator} (h : Recognised oper o) : Named oper o := by
  have hb : ∀ s ∈ o.spellings, o.brand <:+: s.map toLower := by
    cases o <;> decide
  simp only [Recognised, Bool.and_eq_true, List.any_eq_true, find_eq_true] at h
  obtain ⟨-, s, hs, hi⟩ := h
  have hm : s.map toLower <:+: oper.map toLower := hi.map toLower
  rw [Named, find_eq_true]
  exact (hb s hs).trans hm

/-- The choice among recognised names agrees with the reference in these cases only. -/
theorem choose_recognised_iff (modemApn oper : Bytes) :
    choose Operator.all (Recognised oper) Operator.apn modemApn = referenceApn modemApn oper ↔
      FollowsCase modemApn oper := by
  rw [referenceApn_eq_choose]
  exact choose_eq_choose_iff (fun _ _ => named_of_recognised) Operator.apn_injective

structure CopsLine where
  mode : Bytes
  format : Bytes
  oper : Bytes
  act : Option Bytes
  mode_digits : ∀ b ∈ mode, isDigit b
  format_digits : ∀ b ∈ format, isDigit b
  oper_chars : ∀ b ∈ oper, isLetter b ∨ isDigit b ∨ b = 32
  act_digits : ∀ d ∈ act, ∀ b ∈ d, isDigit b

namespace CopsLine

variable (c : CopsLine)

def head : Bytes := ascii "+COPS: " ++ c.mode ++ ascii "," ++ c.format ++ ascii ","

def tail : Bytes := c.act.elim [] fun d => ascii "," ++ d

def body : Bytes := c.head ++ 34 :: (c.oper ++ 34 :: c.tail)

def Frame (b : UInt8) : Prop := b ∈ ascii "+COPS: ," ∨ isDigit b

instance : DecidablePred Frame := fun b => by unfold Frame; infer_instance

theorem frame_of_mem_head {b : UInt8} (h : b ∈ c.head) : Frame b := by
  simp only [head, List.mem_append] at h
  rcases h with (((h | h) | h) | h) | h
  · exact Or.inl (List.mem_append_left (ascii ",") h)
  · exact Or.inr (c.mode_digits b h)
  · exact Or.inl (List.mem_append_right (ascii "+COPS: ") h)
  · exact Or.inr (c.format_digits b h)
  · exact Or.inl (List.mem_append_right (ascii "+COPS: ") h)

theorem frame_of_mem_tail {b : UInt8} (h : b ∈ c.tail) : Frame b := by
  have hact := c.act_digits
  unfold tail at h
  cases hd : c.act with
  | none => simp [hd] at h
  | some d =>
    rw [hd, Option.elim_some, List.mem_append] at h
    rcases h with h | h
    · exact Or.inl (List.mem_append_right (ascii "+COPS: ") h)
    · exact Or.inr (hact d hd b h)

theorem infix_body_iff {w : Bytes} (hq : 34 ∉ w) (hw : ∃ b ∈ w, ¬ Frame b) :
    w <:+: c.body ↔ w <:+: c.oper := by
  obtain ⟨b, hb, hf⟩ := hw
  have hhead : ¬ w <:+: c.head :=
    Infix.not_infix_of_not_mem hb fun h => hf (c.frame_of_mem_head h)
  have htail : ¬ w <:+: c.tail :=
    Infix.not_infix_of_not_mem hb fun h => hf (c.frame_of_mem_tail h)
  rw [body, Infix.infix_append_sep hq, Infix.infix_append_sep hq]
  simp only [hhead, htail, false_or, or_false]

theorem le_of_mem_body {b : UInt8} (h : b ∈ c.body) : 32 ≤ b := by
  have hframe : ∀ b, Frame b → 32 ≤ b := by
    rintro b (h | h)
    · have hall : (ascii "+COPS: ,").all (32 ≤ ·) = true := by decide
      exact of_decide_eq_true (List.all_eq_true.mp hall b h)
    · simp only [isDigit, decide_eq_true_eq] at h
      exact UInt8.le_trans (show (32 : UInt8) ≤ 48 by decide) h.1
  simp only [body, List.mem_append, List.mem_cons] at h
  rcases h with h | rfl | h | rfl | h
  · exact hframe b (c.frame_of_mem_head h)
  · decide
  · rcases c.oper_chars b h with h | h | rfl
    · simp only [isLetter, decide_eq_true_eq] at h
      rcases h with h | h
      · exact UInt8.le_trans (show (32 : UInt8) ≤ 65 by decide) h.1
      · exact UInt8.le_trans (show (32 : UInt8) ≤ 97 by decide) h.1
    · exact hframe b (Or.inr h)
    · decide
  · decide
  · exact hframe b (c.frame_of_mem_tail h)

theorem not_mem_body {b : UInt8} (hb : ¬ 32 ≤ b) : b ∉ c.body :=
  fun h => hb (c.le_of_mem_body h)

def atLine : AtLine := ⟨c.body, c.not_mem_body (by decide)⟩

theorem body_ne_nil : c.body ≠ [] := by simp [body]

theorem stripToken_token : stripToken c.atLine.token = c.body :=
  stripToken_append_CR c.body_ne_nil (c.not_mem_body (by decide)) (c.not_mem_body (by decide))

theorem length_body : 2 < c.body.length := by
  have hh : 7 ≤ c.head.length := by
    simp only [head, List.length_append]
    have : (ascii "+COPS: ").length = 7 := by decide
    omega
  simp only [body, List.length_append]
  omega

theorem final_token_iff :
    Final c.atLine.token ↔ ascii "OK" <:+: c.oper ∨ ascii "ERROR" <:+: c.oper := by
  unfold Final
  rw [c.stripToken_token, c.infix_body_iff (by decide) (by decide),
    c.infix_body_iff (by decide) (by decide)]

end CopsLine

/--
An answer to `AT+COPS?`: an optional echo line, the line with the operator's name and
OK. Each of the last two may have an empty line before it.
-/
structure CopsAnswer where
  echo : Option AtLine
  blankBeforeCops : Bool
  blankBeforeOk : Bool
  cops : CopsLine
  echo_chars : ∀ l ∈ echo, ∀ b ∈ l.body, b ∈ ascii "AT+COPS?\r"
  echo_length_le : ∀ l ∈ echo, l.body.length ≤ 127
  cops_length_le : cops.body.length ≤ 127

def blankLine (b : Bool) : List AtLine := if b then [.of ""] else []

theorem mem_blankLine {b : Bool} {l : AtLine} (h : l ∈ blankLine b) : l = .of "" := by
  unfold blankLine at h
  split at h
  · exact List.mem_singleton.mp h
  · cases h

namespace CopsAnswer

variable (c : CopsAnswer)

def before : List AtLine := c.echo.toList ++ blankLine c.blankBeforeCops

def answer : Answer := .closed (c.before ++ c.cops.atLine :: blankLine c.blankBeforeOk)

theorem tokens_answer : c.answer.tokens = c.before.map AtLine.token ++ c.cops.atLine.token ::
    ((blankLine c.blankBeforeOk).map AtLine.token ++ [(AtLine.of "OK").token]) := by
  simp [answer, Answer.closed, Answer.tokens, Answer.allLines]

theorem mem_echo_of_mem_before {l : AtLine} (h : l ∈ c.before) {b : UInt8} (hb : b ∈ l.body) :
    b ∈ ascii "AT+COPS?\r" := by
  rcases List.mem_append.mp h with h | h
  · exact c.echo_chars l (Option.mem_toList.mp h) b hb
  · rw [mem_blankLine h] at hb
    cases hb

theorem mem_echo_of_mem_token {l : AtLine} (h : l ∈ c.before) {b : UInt8} (hb : b ∈ l.token) :
    b ∈ ascii "AT+COPS?\r" := by
  rcases List.mem_append.mp hb with hb | hb
  · exact c.mem_echo_of_mem_before h hb
  · obtain rfl := List.mem_singleton.mp hb
    decide

theorem not_infix_before {l : AtLine} (h : l ∈ c.before) {w : Bytes}
    (hw : ∃ b ∈ w, b ∉ ascii "AT+COPS?\r") : ¬ w <:+: stripToken l.token := by
  obtain ⟨b, hb, hf⟩ := hw
  apply Infix.not_infix_of_not_mem hb
  intro hm
  exact hf (c.mem_echo_of_mem_token h ((stripToken_isPrefix l.token).subset hm))

theorem verdict_before : verdict (c.before.map AtLine.token) = .timeout := by
  rw [verdict_eq_timeout]
  intro t ht
  obtain ⟨l, hl, rfl⟩ := List.mem_map.mp ht
  rintro (h | h)
  · exact c.not_infix_before hl (by decide) h
  · exact c.not_infix_before hl (by decide) h

theorem lastLong_after (b : Bool) :
    lastLong ((blankLine b).map AtLine.token ++ [(AtLine.of "OK").token]) = none := by
  cases b
  · decide
  · decide

theorem verdict_answer_ne : verdict c.answer.tokens ≠ .timeout := by
  intro h
  have hok : (AtLine.of "OK").token ∈ c.answer.tokens := by simp [c.tokens_answer]
  exact verdict_eq_timeout.mp h _ hok (by decide)

theorem length_render_le : c.answer.render.length ≤ 266 := by
  have hlen (l : AtLine) : (l.token ++ [LF]).length = l.body.length + 2 := by
    simp [AtLine.token]
  have hblank (b : Bool) : (((blankLine b).map fun l => (l.token ++ [LF]).length).sum) ≤ 2 := by
    cases b
    · decide
    · decide
  have hbefore := hblank c.blankBeforeCops
  have hafter := hblank c.blankBeforeOk
  have hecho : ((c.echo.toList.map fun l => (l.token ++ [LF]).length).sum) ≤ 129 := by
    have he := c.echo_length_le
    cases hc : c.echo with
    | none => simp
    | some l =>
      have hl := he l hc
      simp only [Option.toList_some, List.map_cons, List.map_nil, List.sum_cons, List.sum_nil, hlen]
      omega
  have hcops : (c.cops.atLine.token ++ [LF]).length ≤ 129 := by
    have hc : c.cops.atLine.body.length ≤ 127 := c.cops_length_le
    rw [hlen]
    omega
  have hok : ((AtLine.of "OK").token ++ [LF]).length = 4 := by decide
  simp only [Answer.render, Answer.allLines, Answer.closed, answer, before, List.length_flatMap,
    List.map_append,
    List.map_cons, List.map_nil, List.sum_append, List.sum_cons, List.sum_nil, hok]
  omega

end CopsAnswer

theorem apnToUse_eq_choose {size : ℕ} (modemApn : Bytes) (cops : CharArray size) :
    apnToUse modemApn cops =
      choose Operator.all (fun o => o.spellings.any (strstr cops)) Operator.apn modemApn := by
  unfold apnToUse choose
  cases Operator.all.find? fun o => o.spellings.any (strstr cops) <;> rfl

theorem spelling_letters (o : Operator) : ∀ s ∈ o.spellings, 34 ∉ s ∧
    (∃ b ∈ s, ¬ CopsLine.Frame b) ∧ ∃ b ∈ s, b ∉ ascii "AT+COPS?\r" := by
  cases o <;> decide

namespace CopsAnswer

variable (c : CopsAnswer)

theorem lastLong_answer (h : ¬ Final c.cops.atLine.token) :
    lastLong c.answer.tokens = some c.cops.body := by
  have hl : 2 < (stripToken c.cops.atLine.token).length := by
    rw [c.cops.stripToken_token]
    exact c.cops.length_body
  rw [c.tokens_answer, lastLong_append_cons c.verdict_before h hl (lastLong_after _),
    c.cops.stripToken_token]

theorem mem_echo_of_lastLong (h : Final c.cops.atLine.token) {s : Bytes}
    (hs : lastLong c.answer.tokens = some s) {b : UInt8} (hb : b ∈ s) :
    b ∈ ascii "AT+COPS?\r" := by
  rw [c.tokens_answer, lastLong_append_final c.verdict_before h] at hs
  obtain ⟨-, t, ht, rfl⟩ := exists_of_lastLong hs
  rw [heading_eq_self c.verdict_before] at ht
  obtain ⟨l, hl, rfl⟩ := List.mem_map.mp ht
  exact c.mem_echo_of_mem_token hl ((stripToken_isPrefix l.token).subset hb)

end CopsAnswer

theorem Got.lastLong_eq (h : Got turns (ascii "AT+COPS?\r\n\r") x) (c : CopsAnswer)
    (hx : x.Receives c.answer) : lastLong x.tokens = lastLong c.answer.tokens :=
  (h.reads hx c.verdict_answer_ne).2

theorem Got.any_strstr_eq (h : Got turns (ascii "AT+COPS?\r\n\r") x) (c : CopsAnswer)
    (hx : x.Receives c.answer) (o : Operator) :
    o.spellings.any (strstr (copied (.zero 128) x.captured)) = Recognised c.cops.oper o := by
  have hlong := h.lastLong_eq c hx
  rw [Bool.eq_iff_iff]
  by_cases hf : Final c.cops.atLine.token
  · have hrec : ¬ Recognised c.cops.oper o := by
      rcases c.cops.final_token_iff.mp hf with hk | hk
      · simp [Recognised, find_eq_true.mpr hk]
      · simp [Recognised, find_eq_true.mpr hk]
    refine iff_of_false ?_ hrec
    simp only [List.any_eq_true, strstr, find_eq_true, not_exists, not_and]
    intro s hso
    obtain ⟨-, -, b, hb, he⟩ := spelling_letters o s hso
    apply Infix.not_infix_of_not_mem hb
    intro hm
    unfold Exchange.captured at hm
    rw [hlong] at hm
    cases hl : lastLong c.answer.tokens with
    | none => simp [hl, copied_nil] at hm
    | some w =>
      rw [hl, Option.getD_some] at hm
      have hw : w ≠ [] := by
        rintro rfl
        simpa using (exists_of_lastLong hl).1
      rw [text_copied _ hw] at hm
      exact he (c.mem_echo_of_lastLong hf hl ((strlcpyText_isPrefix w _).subset hm))
  · have htext : (copied (.zero 128) x.captured).text = c.cops.body := by
      have h0 : (0 : UInt8) ∉ c.cops.body := c.cops.not_mem_body (by decide)
      have hcap : x.captured = c.cops.body := by
        rw [Exchange.captured, hlong, c.lastLong_answer hf, Option.getD_some]
      rw [hcap, text_copied _ c.cops.body_ne_nil, strlcpyText_of_not_mem h0]
      exact List.take_of_length_le c.cops_length_le
    have hnot := mt c.cops.final_token_iff.mpr hf
    rw [not_or] at hnot
    simp only [Recognised, List.any_eq_true, strstr, find_eq_true, htext, Bool.and_eq_true,
      Bool.not_eq_true', Bool.eq_false_iff, ne_eq, hnot.1, hnot.2, not_false_eq_true, true_and]
    refine exists_congr fun s => and_congr_right fun hso => ?_
    obtain ⟨hq, hw, -⟩ := spelling_letters o s hso
    exact c.cops.infix_body_iff hq hw

theorem Got.apnToUse_eq (h : Got turns (ascii "AT+COPS?\r\n\r") x) (c : CopsAnswer)
    (hx : x.Receives c.answer) (modemApn : Bytes) :
    apnToUse modemApn (copied (.zero 128) x.captured) =
      choose Operator.all (Recognised c.cops.oper) Operator.apn modemApn := by
  rw [apnToUse_eq_choose]
  congr 1
  funext o
  exact h.any_strstr_eq c hx o

theorem Run.apn_iff {modemApn : Bytes} {end_ : Except Stop Unit}
    (h : Run turns modemApn t end_) (c : CopsAnswer) (hx : x ∈ exchanges t)
    (hcmd : x.cmd = ascii "AT+COPS?\r\n\r") (hr : x.Receives c.answer) :
    chosenApn t = some (referenceApn modemApn c.cops.oper) ↔ FollowsCase modemApn c.cops.oper := by
  cases h with
  | @searching xs hxs =>
    rw [exchanges_searchEvents] at hx
    have hpin := (hxs x hx).1.cmd_eq
    exact absurd (hpin.symm.trans hcmd) (by decide)
  | @dialled xs y q es end_ hxs hcpin _ hq hd =>
    have hask : x.cmd ∈ askCommands := by
      rw [hcmd]
      simp [askCommands]
    have hm := hd.mem_questions hxs hcpin hx rfl hask (by rw [hcmd]; decide)
    obtain rfl := hq.eq_of_cmd hm (y := q.cops) (by simp) (hcmd.trans hq.cops.cmd_eq.symm)
    have happ := hq.cops.apnToUse_eq c hr modemApn
    rw [hd.chosenApn_eq, Option.some.injEq, ← choose_recognised_iff, Questions.copsResponse, happ]

/--
After a timely answer to `AT+COPS?` on a quiet line, the APN of the run is the one the
reference chooses exactly when the name follows the letter cases `app_main` knows.
-/
theorem history_apn_iff (modemApn : CString) (sentAlready : Bytes) (turns : ℕ → Turn)
    (polls : ℕ) (c : CopsAnswer) (x : Exchange)
    (hx : x ∈ exchanges (history modemApn sentAlready turns polls))
    (hcmd : x.cmd = ascii "AT+COPS?\r\n\r") (hs : x.Quiet) (ht : x.Timely)
    (hr : x.reply = c.answer.render)
    (hfit : (x.stale ++ c.answer.render).length ≤ dteBufferSize) :
    chosenApn (history modemApn sentAlready turns polls) =
        some (referenceApn modemApn.bytes c.cops.oper) ↔
      FollowsCase modemApn.bytes c.cops.oper :=
  (run_appMain modemApn sentAlready turns polls).apn_iff c hx hcmd ⟨hs, ht, hr, hfit⟩

/-- In terms of the turn: the answer is written to an empty line and delivered. -/
theorem history_apn_iff_of_delivers (modemApn : CString) (sentAlready : Bytes) (turns : ℕ → Turn)
    (polls n : ℕ) (c : CopsAnswer) (x : Exchange)
    (hx : (exchanges (history modemApn sentAlready turns polls))[n]? = some x)
    (hcmd : x.cmd = ascii "AT+COPS?\r\n\r") (hs : x.stale = []) (hr : x.reply = c.answer.render)
    (hd : (turns n).Delivers 0) :
    chosenApn (history modemApn sentAlready turns polls) =
        some (referenceApn modemApn.bytes c.cops.oper) ↔
      FollowsCase modemApn.bytes c.cops.oper := by
  obtain ⟨left, hl⟩ := ledger_history modemApn sentAlready turns polls
  have hfit : (x.stale ++ c.answer.render).length ≤ dteBufferSize := by
    rw [hs, List.nil_append, dteBufferSize]
    exact c.length_render_le.trans (by decide)
  have ht : x.Timely := hl.timely hx (by rwa [hs]) (by rwa [hr])
  exact (run_appMain modemApn sentAlready turns polls).apn_iff c (List.mem_of_getElem? hx) hcmd
    ⟨Exchange.quiet_of_nil hs, ht, hr, hfit⟩

def copsAnswer (oper : String)
    (h : (ascii oper).all (fun b => isLetter b || (isDigit b || b = 32)) = true)
    (hl : (ascii oper).length ≤ 100) : CopsAnswer where
  echo := none
  blankBeforeCops := true
  blankBeforeOk := true
  cops := {
    mode := ascii "0"
    format := ascii "0"
    oper := ascii oper
    act := some (ascii "7")
    mode_digits := List.all_eq_true.mp (by decide)
    format_digits := List.all_eq_true.mp (by decide)
    oper_chars := by simpa using h
    act_digits := by
      rintro d ⟨⟩
      exact List.all_eq_true.mp (by decide) }
  echo_chars := by simp
  echo_length_le := by simp
  cops_length_le := by
    have hh : (ascii "+COPS: " ++ ascii "0" ++ ascii "," ++ ascii "0" ++
        ascii ",").length = 11 := by
      decide
    have ht : (ascii "," ++ ascii "7").length = 2 := by decide
    simp only [CopsLine.body, CopsLine.head, CopsLine.tail, Option.elim_some, List.length_append,
      List.length_cons] at hh ht ⊢
    omega

def operatorTurns (c : CopsAnswer) (n : ℕ) : Turn :=
  if n = 4 then c.answer.prompt else (Answer.promptAnswers n).prompt

theorem vinaphone_apn :
    chosenApn (history ⟨ascii "v-internet", by decide⟩ []
      (operatorTurns (copsAnswer "VN VINAPHONE" (by decide) (by decide))) 1) =
      some (referenceApn (ascii "v-internet") (ascii "VN VINAPHONE")) := by
  set c := copsAnswer "VN VINAPHONE" (by decide) (by decide)
  obtain ⟨x, hx, hcmd, hs, ht, hr, hfit⟩ : ∃ x ∈ exchanges (history
      ⟨ascii "v-internet", by decide⟩ [] (operatorTurns c) 1), x.cmd = ascii "AT+COPS?\r\n\r" ∧
        x.Quiet ∧ x.Timely ∧ x.reply = c.answer.render ∧
        (x.stale ++ c.answer.render).length ≤ dteBufferSize := by decide +kernel
  exact (history_apn_iff _ _ _ _ c x hx hcmd hs ht hr hfit).mpr (by decide +kernel)

theorem mobiFone_apn_ne :
    (∃ x ∈ exchanges (history ⟨ascii "v-internet", by decide⟩ []
      (operatorTurns (copsAnswer "MobiFone" (by decide) (by decide))) 1),
        x.cmd = ascii "AT+COPS?\r\n\r" ∧ x.stale = [] ∧ x.Timely ∧
          x.reply = (copsAnswer "MobiFone" (by decide) (by decide)).answer.render) ∧
      chosenApn (history ⟨ascii "v-internet", by decide⟩ []
        (operatorTurns (copsAnswer "MobiFone" (by decide) (by decide))) 1) ≠
        some (referenceApn (ascii "v-internet") (ascii "MobiFone")) := by
  decide +kernel

end EspLtePpp
