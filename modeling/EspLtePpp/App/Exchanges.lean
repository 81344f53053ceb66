import EspLtePpp.App.Main

/-! # What each call records

Between commands the port is idle, so no call is ever stopped by the callback's own
check. Each call then adds its exchange and its effects to the history and leaves the
rest of the world as it was.
-/

namespace EspLtePpp

open Exec Segments Reply

namespace Exchange

def tokens (x : Exchange) : List Bytes := segments LF x.handed

def captured (x : Exchange) : Bytes := (lastLong x.tokens).getD []

def pin (x : Exchange) : CommandResult × Option Bool := parsePin x.result x.captured

def AcceptsSim (x : Exchange) : Prop := x.pin = (.ok, some true)

instance : DecidablePred AcceptsSim := fun x => by unfold AcceptsSim; infer_instance

/-- Everything on the line for the command is read before the timeout. -/
def Timely (x : Exchange) : Prop := x.result = .timeout → x.handed = x.stale ++ x.reply

instance : DecidablePred Timely := fun x => by unfold Timely; infer_instance

end Exchange

variable {turns : ℕ → Turn} {cmd : Bytes} {x : Exchange} {w w' w'' : World} {size : ℕ}
  {es fs : List Event}

/-- A command that was written, and the turn of the modem that followed. -/
structure Written (turns : ℕ → Turn) (cmd : Bytes) (x : Exchange) : Prop where
  cmd_eq : x.cmd = cmd
  replied : ∃ n, x.reply = (turns n).reply
  handed_isPrefix : x.handed <+: x.stale ++ x.reply
  handed_le : x.handed.length ≤ dteBufferSize

/-- A command written by `generic_get_string`. -/
structure Got (turns : ℕ → Turn) (cmd : Bytes) (x : Exchange) : Prop
    extends Written turns cmd x where
  result_eq : x.result = verdict x.tokens ∨
    x.result = .fail ∧ verdict x.tokens = .timeout ∧ x.handed.length = dteBufferSize

/-- A command written by `generic_command`: it ends with OK only on one of its phrases. -/
structure Ran (turns : ℕ → Turn) (cmd : Bytes) (pass : List Bytes) (x : Exchange) : Prop
    extends Written turns cmd x where
  passed : x.result = .ok → ∃ phrase ∈ pass, phrase <:+: x.handed

theorem Got.result_ok_iff (h : Got turns cmd x) : x.result = .ok ↔ verdict x.tokens = .ok := by
  rcases h.result_eq with hr | ⟨hr, hv, -⟩
  · rw [hr]
  · simp [hr, hv]

theorem Got.handed_of_timeout (h : Got turns cmd x) (ht : x.Timely)
    (hv : verdict x.tokens = .timeout) : x.handed = (x.stale ++ x.reply).take dteBufferSize := by
  rcases h.result_eq with hr | ⟨-, -, hl⟩
  · have hx := ht (hr.trans hv)
    rw [← hx, List.take_of_length_le h.handed_le]
  · rw [← hl]
    exact List.prefix_iff_eq_take.mp h.handed_isPrefix

def copied (buf : CharArray size) (out : Bytes) : CharArray size :=
  if out ≠ [] then strlcpy buf out cApiStrMax else buf

def storeEvents (size : ℕ) (out : Bytes) : List Event :=
  if out ≠ [] then [.stored size (strlcpyIndices out cApiStrMax)] else []

def pollEvents (x : Exchange) : List Event :=
  [.exchange x, .readPin (commandResponseToEspErr x.pin.1) x.pin.2]

def askEvents (buf : CharArray size) (x : Exchange) : List Event :=
  .exchange x :: storeEvents size x.captured ++
    if x.result = .ok then [.reported (copied buf x.captured).text] else []

def imeiEvents (x : Exchange) : List Event :=
  .exchange x ::
    if x.result = .ok then
      storeEvents 32 x.captured ++ [.imei (copied (.zero 32) x.captured).text]
    else []

def signalEvents (x : Exchange) : List Event :=
  .exchange x ::
    if (parseCsq x.result x.captured).1 = .ok then
      [.signalQuality ((parseCsq x.result x.captured).2.1.getD 0)]
    else []

theorem mem_storeEvents {out : Bytes} {e : Event} :
    e ∈ storeEvents size out ↔ out ≠ [] ∧ e = .stored size (strlcpyIndices out cApiStrMax) := by
  unfold storeEvents
  split
  · next h => simp [h]
  · next h => simp [h]

theorem mem_askEvents {buf : CharArray size} {e : Event} (h : e ∈ askEvents buf x) :
    e = .exchange x ∨ e ∈ storeEvents size x.captured ∨
      x.result = .ok ∧ e = .reported (copied buf x.captured).text := by
  unfold askEvents at h
  rw [List.cons_append, List.mem_cons, List.mem_append] at h
  rcases h with h | h | h
  · exact Or.inl h
  · exact Or.inr (Or.inl h)
  · split at h
    · next hr => exact Or.inr (Or.inr ⟨hr, List.mem_singleton.mp h⟩)
    · cases h

theorem mem_imeiEvents {e : Event} :
    e ∈ imeiEvents x ↔ e = .exchange x ∨ x.result = .ok ∧
      (e ∈ storeEvents 32 x.captured ∨ e = .imei (copied (.zero 32) x.captured).text) := by
  unfold imeiEvents
  rw [List.mem_cons]
  split
  · next h => simp [h]
  · next h => simp [h]

theorem mem_signalEvents {e : Event} (h : e ∈ signalEvents x) :
    e = .exchange x ∨ ∃ n, e = .signalQuality n := by
  unfold signalEvents at h
  rw [List.mem_cons] at h
  rcases h with h | h
  · exact Or.inl h
  · split at h
    · exact Or.inr ⟨_, List.mem_singleton.mp h⟩
    · cases h

theorem copied_nil (buf : CharArray size) : copied buf [] = buf := rfl

theorem copied_of_ne {out : Bytes} (h : out ≠ []) (buf : CharArray size) :
    copied buf out = strlcpy buf out cApiStrMax := if_pos h

theorem text_copied (buf : CharArray 128) {out : Bytes} (h : out ≠ []) :
    (copied buf out).text = strlcpyText out cApiStrMax := by
  have hlen : (strlcpyText out cApiStrMax).length < 128 := by
    rw [length_strlcpyText, cApiStrMax]
    omega
  rw [copied_of_ne h, text_strlcpy buf hlen]

theorem storeEvents_of_ne {out : Bytes} (h : out ≠ []) (size : ℕ) :
    storeEvents size out = [.stored size (strlcpyIndices out cApiStrMax)] := if_pos h

namespace World

/-- The events `es` later, between commands again, and otherwise unchanged. -/
def After (w : World) (es : List Event) (w' : World) : Prop :=
  ∃ p n, Port.Idle p ∧ w' = { w.record es with port := p, sent := n }

theorem After.idle (h : w.After es w') : w'.port.Idle := by
  obtain ⟨p, n, hp, rfl⟩ := h
  exact hp

theorem After.turns_eq (h : w.After es w') : w'.turns = w.turns := by
  obtain ⟨p, n, hp, rfl⟩ := h
  rfl

theorem After.history_eq (h : w.After es w') : w'.history = w.history ++ es := by
  obtain ⟨p, n, hp, rfl⟩ := h
  rfl

theorem After.trans (h : w.After es w') (h' : w'.After fs w'') : w.After (es ++ fs) w'' := by
  obtain ⟨p, n, -, rfl⟩ := h
  obtain ⟨q, m, hq, rfl⟩ := h'
  exact ⟨q, m, hq, by simp [record]⟩

theorem after_record (h : w.port.Idle) (es : List Event) : w.After es (w.record es) :=
  ⟨w.port, w.sent, h, rfl⟩

theorem After.refl (h : w.port.Idle) : w.After [] w := ⟨w.port, w.sent, h, by simp [record]⟩

end World

open World

theorem emit_completes (h : w.port.Idle) (e : Event) :
    Completes (emit e) w fun _ w' => w.After [e] w' :=
  completes_modify (after_record h [e])

theorem emitIf_completes (h : w.port.Idle) (c : Prop) [Decidable c] (e : Event) :
    Completes (emitIf c e) w fun _ w' => w.After (if c then [e] else []) w' := by
  unfold emitIf
  split
  · exact emit_completes h e
  · exact completes_pure (.refl h)

theorem exec_command (h : w.port.Idle) (cmd : Bytes) (g : GotLine) (timeMs : ℕ) :
    ∃ x o p, exec (command cmd g timeMs) w = (.ok (x.result, o), w.exchanged x p) ∧ p.Idle ∧
      x.cmd = cmd ∧ x.stale = w.port.outstanding ∧ x.reply = (w.turns w.sent).reply ∧
      x.stale ++ x.reply = x.handed ++ p.outstanding ∧ x.handed.length ≤ dteBufferSize ∧
      Port.Outcome g x.handed x.result o ∧ ((w.turns w.sent).Delivers x.stale.length →
        (x.stale ++ x.reply).length ≤ dteBufferSize → x.Timely) := by
  obtain ⟨x, o, p, hc, hp, hcmd, -, hspec⟩ :=
    Port.command_spec h (w.turns w.sent) cmd g timeMs
  refine ⟨x, o, p, ?_, hp, hcmd, hspec⟩
  unfold command
  rw [exec_bind_of_ok exec_get]
  simp only [hc]
  rfl

theorem command_completes (h : w.port.Idle) (cmd : Bytes) (g : GotLine) (timeMs : ℕ) :
    Completes (command cmd g timeMs) w fun r w' => ∃ x, Written w.turns cmd x ∧
      r.1 = x.result ∧ Port.Outcome g x.handed x.result r.2 ∧ w.After [.exchange x] w' := by
  obtain ⟨x, o, p, hx, hp, hcmd, -, hreply, hcons, hle, hout, -⟩ := exec_command h cmd g timeMs
  have hw : Written w.turns cmd x := {
    cmd_eq := hcmd
    replied := ⟨w.sent, hreply⟩
    handed_isPrefix := ⟨p.outstanding, hcons.symm⟩
    handed_le := hle }
  exact ⟨_, _, hx, x, hw, rfl, hout, p, w.sent + 1, hp, rfl⟩

theorem genericGetString_completes (h : w.port.Idle) (cmd : Bytes) (timeoutMs : ℕ) :
    Completes (genericGetString cmd timeoutMs) w fun r w' => ∃ x, Got w.turns cmd x ∧
      r = (x.result, x.captured) ∧ w.After [.exchange x] w' := by
  apply (command_completes h cmd _ timeoutMs).mono
  rintro ⟨r, o⟩ w' ⟨x, hx, rfl, hout, ha⟩
  obtain ⟨ho, hr⟩ := outcome_getStringCb hout
  exact ⟨x, ⟨hx, hr⟩, Prod.ext rfl ho, ha⟩

theorem genericCommand_completes (h : w.port.Idle) (cmd : Bytes) (pass fail : List Bytes)
    (timeoutMs : ℕ) :
    Completes (genericCommand cmd pass fail timeoutMs) w fun r w' => ∃ x,
      Ran w.turns cmd pass x ∧ r = x.result ∧ w.After [.exchange x] w' := by
  apply (command_completes h cmd _ timeoutMs).bind
  rintro ⟨r, o⟩ w' ⟨x, hx, rfl, hout, ha⟩
  refine completes_pure ⟨x, ⟨hx, ?_⟩, rfl, ha⟩
  intro hr
  rw [hr] at hout
  exact outcome_genericCommandCb hout

theorem espModemReadPin_completes (h : w.port.Idle) :
    Completes espModemReadPin w fun r w' => ∃ x, Got w.turns (ascii "AT+CPIN?\r") x ∧
      r = (commandResponseToEspErr x.pin.1, x.pin.2) ∧ w.After (pollEvents x) w' := by
  have hpin : Completes readPin w fun r w' => ∃ x, Got w.turns (ascii "AT+CPIN?\r") x ∧
      r = x.pin ∧ w.After [.exchange x] w' := by
    apply (genericGetString_completes h _ _).bind
    rintro _ w' ⟨x, hx, rfl, ha⟩
    exact completes_pure ⟨x, hx, rfl, ha⟩
  apply hpin.bind
  rintro _ w₁ ⟨x, hx, rfl, ha⟩
  apply (emit_completes ha.idle _).bind
  intro _ w₂ hb
  exact completes_pure ⟨x, hx, rfl, ha.trans hb⟩

theorem copyOut_completes (h : w.port.Idle) (pOut : CharArray size) (out : Bytes) :
    Completes (copyOut pOut out) w fun r w' => r = strlcpy pOut out cApiStrMax ∧
      w.After [.stored size (strlcpyIndices out cApiStrMax)] w' := by
  apply (emit_completes h _).bind
  intro _ w' ha
  exact completes_pure ⟨rfl, ha⟩

theorem espModemAt_completes (h : w.port.Idle) (cmd : Bytes) (buf : CharArray size)
    (timeout : ℕ) :
    Completes (espModemAt cmd buf timeout) w fun r w' =>
      ∃ x, Got w.turns (cmd ++ ascii "\r") x ∧
        r = (commandResponseToEspErr x.result, copied buf x.captured) ∧
        w.After (.exchange x :: storeEvents size x.captured) w' := by
  apply (genericGetString_completes h _ timeout).bind
  rintro _ w₁ ⟨x, hx, rfl, ha⟩
  dsimp only
  by_cases ho : x.captured ≠ []
  · rw [if_pos ho]
    apply (copyOut_completes ha.idle buf x.captured).bind
    rintro _ w₂ ⟨rfl, hb⟩
    refine completes_pure ⟨x, hx, by rw [copied_of_ne ho], ?_⟩
    rw [storeEvents_of_ne ho]
    exact ha.trans hb
  · rw [if_neg ho]
    refine completes_pure ⟨x, hx, ?_, ?_⟩
    · rw [not_not.mp ho, copied_nil]
    · rw [not_not.mp ho]
      exact ha

theorem commandResponseToEspErr_eq_ok {r : CommandResult} :
    commandResponseToEspErr r = .ok ↔ r = .ok := by
  cases r <;> simp [commandResponseToEspErr]

theorem askAndReport_completes (h : w.port.Idle) (cmd : Bytes) (buf : CharArray size)
    (timeout : ℕ) :
    Completes (askAndReport cmd buf timeout) w fun r w' =>
      ∃ x, Got w.turns (cmd ++ ascii "\r") x ∧ r = copied buf x.captured ∧
        w.After (askEvents buf x) w' := by
  apply (espModemAt_completes h cmd buf timeout).bind
  rintro _ w₁ ⟨x, hx, rfl, ha⟩
  apply (emitIf_completes ha.idle _ _).bind
  intro _ w₂ hb
  have hc := ha.trans hb
  simp only [commandResponseToEspErr_eq_ok] at hc
  exact completes_pure ⟨x, hx, rfl, hc⟩

theorem espModemGetImei_completes (h : w.port.Idle) (buf : CharArray size) :
    Completes (espModemGetImei buf) w fun r w' =>
      ∃ x, Got w.turns (ascii "AT+CGSN\r") x ∧
        r = (commandResponseToEspErr x.result,
          if x.result = .ok then copied buf x.captured else buf) ∧
        w.After (.exchange x :: if x.result = .ok then storeEvents size x.captured else []) w' := by
  apply (genericGetString_completes h _ _).bind
  rintro _ w₁ ⟨x, hx, rfl, ha⟩
  simp only [commandResponseToEspErr_eq_ok]
  by_cases hr : x.result = .ok
  · by_cases ho : x.captured ≠ []
    · rw [if_pos ⟨hr, ho⟩]
      apply (copyOut_completes ha.idle _ x.captured).bind
      rintro _ w₂ ⟨rfl, hb⟩
      refine completes_pure ⟨x, hx, by rw [if_pos hr, copied_of_ne ho], ?_⟩
      rw [if_pos hr, storeEvents_of_ne ho]
      exact ha.trans hb
    · rw [if_neg fun hc => ho hc.2]
      refine completes_pure ⟨x, hx, ?_, ?_⟩
      · rw [if_pos hr, not_not.mp ho, copied_nil]
      · rw [if_pos hr, not_not.mp ho]
        exact ha
  · rw [if_neg fun hc => hr hc.1]
    refine completes_pure ⟨x, hx, by rw [if_neg hr], ?_⟩
    rwa [if_neg hr]

theorem reportImei_completes (h : w.port.Idle) :
    Completes reportImei w fun _ w' =>
      ∃ x, Got w.turns (ascii "AT+CGSN\r") x ∧ w.After (imeiEvents x) w' := by
  apply (espModemGetImei_completes h _).bind
  rintro _ w₁ ⟨x, hx, rfl, ha⟩
  apply (emitIf_completes ha.idle _ _).mono
  intro _ w₂ hb
  refine ⟨x, hx, ?_⟩
  have hc := ha.trans hb
  simp only [commandResponseToEspErr_eq_ok] at hc
  by_cases hr : x.result = .ok
  · simp only [hr, if_true, List.cons_append] at hc
    simpa only [imeiEvents, hr, if_true] using hc
  · simp only [hr, if_false, List.append_nil] at hc
    simpa only [imeiEvents, hr, if_false] using hc

theorem reportSignalQuality_completes (h : w.port.Idle) :
    Completes reportSignalQuality w fun _ w' =>
      ∃ x, Got w.turns (ascii "AT+CSQ\r") x ∧ w.After (signalEvents x) w' := by
  have hget : Completes getSignalQuality w fun r w' =>
      ∃ x, Got w.turns (ascii "AT+CSQ\r") x ∧ r = parseCsq x.result x.captured ∧
        w.After [.exchange x] w' := by
    apply (genericGetString_completes h _ _).bind
    rintro _ w₁ ⟨x, hx, rfl, ha⟩
    exact completes_pure ⟨x, hx, rfl, ha⟩
  have hapi : Completes espModemGetSignalQuality w fun r w' =>
      ∃ x, Got w.turns (ascii "AT+CSQ\r") x ∧
        r = (commandResponseToEspErr (parseCsq x.result x.captured).1,
          (parseCsq x.result x.captured).2) ∧ w.After [.exchange x] w' := by
    apply hget.bind
    rintro _ w₁ ⟨x, hx, rfl, ha⟩
    exact completes_pure ⟨x, hx, rfl, ha⟩
  apply hapi.bind
  rintro _ w₁ ⟨x, hx, rfl, ha⟩
  apply (emitIf_completes ha.idle _ _).mono
  intro _ w₂ hb
  have hc := ha.trans hb
  simp only [commandResponseToEspErr_eq_ok] at hc
  exact ⟨x, hx, hc⟩

end EspLtePpp
