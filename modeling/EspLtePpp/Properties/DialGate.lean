import EspLtePpp.App.Run
import EspLtePpp.Library.History
import EspLtePpp.Modem.Answer

/-! # The gate before dialling

Dialling needs a ready SIM, the echo switched off and the PDP context with the chosen
APN; the network interface needs a carrier. These facts are established far apart, so
each event of a run is judged against the whole history before it.
-/

namespace EspLtePpp

open History

variable {turns : ℕ → Turn} {modemApn : Bytes} {cops : CharArray 128} {t es : List Event}
  {end_ : Except Stop Unit} {x e c d o : Exchange}

/-- `ATD*99#` or its fallback. -/
def Exchange.Dials (x : Exchange) : Prop := x.cmd = ascii "ATD*99#\r" ∨ x.cmd = ascii "ATO\r"

def contextCommand (apn : Bytes) : Bytes :=
  ascii "AT+CGDCONT=1,\"IP\",\"" ++ apn ++ ascii "\"\r"

def Exchange.SetsUp (x : Exchange) : Prop :=
  x.cmd = ascii "ATE0\r" ∨ ascii "AT+CGDCONT=" <+: x.cmd

instance : DecidablePred Exchange.SetsUp := fun x => by unfold Exchange.SetsUp; infer_instance

/--
The history allows dialling: a poll found the SIM ready, and the module was set up by
`ATE0` and then by the context with the APN of the operator test, both with OK.
-/
structure DialReady (modemApn : Bytes) (pre : List Event) : Prop where
  pinRead : .readPin .ok (some true) ∈ pre
  setUp : ∃ e c, (exchanges pre).filter Exchange.SetsUp = [e, c] ∧
    e.cmd = ascii "ATE0\r" ∧ e.result = .ok ∧ c.result = .ok ∧
    ∃ cops : CharArray 128, .operatorTest cops.text (apnToUse modemApn cops) ∈ pre ∧
      chosenApn pre = some (apnToUse modemApn cops) ∧
      c.cmd = contextCommand (apnToUse modemApn cops)

/-- What may happen next: no command after the start of PPP, and both steps gated. -/
def Gated (modemApn : Bytes) (pre : List Event) : Event → Prop
  | .exchange x => .pppStarted ∉ pre ∧ (x.Dials → DialReady modemApn pre)
  | .pppStarted => ∃ x ∈ exchanges pre, x.Dials ∧ x.result = .ok
  | _ => True

/-- A set-up command failed, or the SIM loop was left and no dialling succeeded. -/
def DialFailed (t : List Event) : Prop :=
  (∃ x ∈ exchanges t, x.SetsUp ∧ x.result ≠ .ok) ∨
    .simReady ∈ t ∧ ∀ x ∈ exchanges t, x.Dials → x.result ≠ .ok

structure DialGate (modemApn : Bytes) (t : List Event) (end_ : Except Stop Unit) : Prop where
  gated : Always (Gated modemApn) t
  aborted : DialFailed t → end_ = .error .errorCheck ∧ .pppStarted ∉ t

theorem pdpCommand_new (apn : Bytes) : pdpCommand (.new apn) = contextCommand apn := by
  have hhead : ascii "AT+CGDCONT=" ++ ascii (toString (1 : ℕ)) ++ ascii ",\"" ++ ascii "IP" ++
      ascii "\",\"" = ascii "AT+CGDCONT=1,\"IP\",\"" := by decide
  have hcmd : pdpCommand (.new apn) = ascii "AT+CGDCONT=" ++ ascii (toString (1 : ℕ)) ++
      ascii ",\"" ++ ascii "IP" ++ ascii "\",\"" ++ apn ++ ascii "\"\r" := rfl
  rw [hcmd, hhead, contextCommand]

theorem isPrefix_pdpCommand (pdp : PdpContext) : ascii "AT+CGDCONT=" <+: pdpCommand pdp := by
  rw [← take_pdpCommand pdp]
  exact List.take_prefix 11 _

theorem Written.setsUp_echo (h : Written turns (ascii "ATE0\r") e) : e.SetsUp := Or.inl h.cmd_eq

theorem Written.setsUp_context {pdp : PdpContext} (h : Written turns (pdpCommand pdp) c) :
    c.SetsUp := by
  right
  rw [h.cmd_eq]
  exact isPrefix_pdpCommand pdp

theorem Exchange.Dials.not_setsUp (h : x.Dials) : ¬ x.SetsUp := by
  unfold Exchange.SetsUp
  rcases h with h | h
  · rw [h]
    decide
  · rw [h]
    decide

theorem Exchange.SetsUp.not_dials (h : x.SetsUp) : ¬ x.Dials := fun hd => hd.not_setsUp h

theorem Written.dials (h : Written turns (ascii "ATD*99#\r") d) : d.Dials := Or.inl h.cmd_eq

theorem Written.dials_fallback (h : Written turns (ascii "ATO\r") o) : o.Dials := Or.inr h.cmd_eq

/-- The history up to the operator test, which chose the APN from this buffer. -/
structure Tested (modemApn : Bytes) (cops : CharArray 128) (t : List Event) : Prop where
  pinRead : .readPin .ok (some true) ∈ t
  quiet : ∀ x ∈ exchanges t, ¬ x.SetsUp ∧ ¬ x.Dials
  notStarted : .pppStarted ∉ t
  test_mem : .operatorTest cops.text (apnToUse modemApn cops) ∈ t
  chosen : chosenApn t = some (apnToUse modemApn cops)

namespace Tested

theorem filter_eq_nil (h : Tested modemApn cops t) :
    (exchanges t).filter Exchange.SetsUp = [] := by
  rw [List.filter_eq_nil_iff]
  intro x hx
  simpa using (h.quiet x hx).1

/-- Once both set-up commands ended with OK, dialling is allowed from then on. -/
theorem dialReady (h : Tested modemApn cops t) (he : Written turns (ascii "ATE0\r") e)
    (hr : e.result = .ok)
    (hc : Written turns (pdpCommand (.new (apnToUse modemApn cops))) c) (hk : c.result = .ok)
    (es : List Event) (hes : ∀ y ∈ es, ∃ x, y = .exchange x ∧ x.Dials) :
    DialReady modemApn (t ++ .exchange e :: .exchange c :: es) := by
  have hdials : ∀ x ∈ exchanges es, x.Dials := by
    intro x hx
    obtain ⟨y, hy, hd⟩ := hes _ (mem_exchanges.mp hx)
    rwa [Event.exchange.inj hy]
  have hlate : (exchanges es).filter Exchange.SetsUp = [] := by
    rw [List.filter_eq_nil_iff]
    intro x hx
    simpa using (hdials x hx).not_setsUp
  constructor
  · exact List.mem_append_left _ h.pinRead
  refine ⟨e, c, ?_, he.cmd_eq, hr, hk, cops, List.mem_append_left _ h.test_mem, ?_, ?_⟩
  · have hexch : exchanges (.exchange e :: .exchange c :: es) = e :: c :: exchanges es := rfl
    rw [exchanges_append, hexch, List.filter_append, h.filter_eq_nil, List.nil_append,
      List.filter_cons_of_pos (by simpa using he.setsUp_echo),
      List.filter_cons_of_pos (by simpa using hc.setsUp_context), hlate]
  · rw [chosenApn_append_of_none, h.chosen]
    intro y hy
    simp only [List.mem_cons] at hy
    rcases hy with rfl | rfl | hy
    · rfl
    · rfl
    · obtain ⟨x, rfl, -⟩ := hes y hy
      rfl
  · rw [hc.cmd_eq, pdpCommand_new]

end Tested

theorem gated_append_exchange (ht : Always (Gated modemApn) t) (hn : .pppStarted ∉ t)
    (hx : x.Dials → DialReady modemApn t) : Always (Gated modemApn) (t ++ [.exchange x]) :=
  always_append_singleton.mpr ⟨ht, hn, hx⟩

theorem gated_append_setUp (ht : Always (Gated modemApn) t) (hn : .pppStarted ∉ t)
    (hx : x.SetsUp) : Always (Gated modemApn) (t ++ [.exchange x]) :=
  gated_append_exchange ht hn fun hd => absurd hd hx.not_dials

theorem not_started_append_exchange (hn : .pppStarted ∉ t) (x : Exchange) :
    .pppStarted ∉ t ++ [.exchange x] := by
  simp [hn]

theorem gated_append_start (ht : Always (Gated modemApn) (t ++ [.exchange x])) (hx : x.Dials)
    (hr : x.result = .ok) : Always (Gated modemApn) (t ++ [.exchange x] ++ [.pppStarted]) := by
  refine always_append_singleton.mpr ⟨ht, x, ?_, hx, hr⟩
  rw [mem_exchanges]
  simp

theorem Tested.gated (h : Tested modemApn cops t) (ht : Always (Gated modemApn) t)
    (hd : Dialled turns (apnToUse modemApn cops) es end_) :
    Always (Gated modemApn) (t ++ es) := by
  have echo {e : Exchange} (he : Written turns (ascii "ATE0\r") e) :
      Always (Gated modemApn) (t ++ [.exchange e]) :=
    gated_append_setUp ht h.notStarted he.setsUp_echo
  have context {e c : Exchange} (he : Written turns (ascii "ATE0\r") e)
      (hc : Written turns (pdpCommand (.new (apnToUse modemApn cops))) c) :
      Always (Gated modemApn) (t ++ [.exchange e] ++ [.exchange c]) :=
    gated_append_setUp (echo he) (not_started_append_exchange h.notStarted e) hc.setsUp_context
  have notStarted (e c : Exchange) : .pppStarted ∉ t ++ [.exchange e] ++ [.exchange c] :=
    not_started_append_exchange (not_started_append_exchange h.notStarted e) c
  have dial {e c : Exchange} (d : Exchange) (he : Written turns (ascii "ATE0\r") e)
      (hr : e.result = .ok) (hc : Written turns (pdpCommand (.new (apnToUse modemApn cops))) c)
      (hk : c.result = .ok) :
      Always (Gated modemApn) (t ++ [.exchange e] ++ [.exchange c] ++ [.exchange d]) := by
    refine gated_append_exchange (context he hc) (notStarted e c) fun _ => ?_
    simpa using h.dialReady he hr hc hk [] (by simp)
  have fallback {e c d : Exchange} (o : Exchange) (he : Written turns (ascii "ATE0\r") e)
      (hr : e.result = .ok) (hc : Written turns (pdpCommand (.new (apnToUse modemApn cops))) c)
      (hk : c.result = .ok) (hd : Written turns (ascii "ATD*99#\r") d) :
      Always (Gated modemApn)
        (t ++ [.exchange e] ++ [.exchange c] ++ [.exchange d] ++ [.exchange o]) := by
    refine gated_append_exchange (dial d he hr hc hk)
      (not_started_append_exchange (notStarted e c) d) fun _ => ?_
    simpa using h.dialReady he hr hc hk [.exchange d] (by simpa using hd.dials)
  cases hd with
  | echoFailed he _ => exact echo he.toWritten
  | contextFailed he _ hc _ => simpa using context he.toWritten hc.toWritten
  | @noCarrier e c d o he hr hc hk hd _ ho _ =>
    simpa using fallback o he.toWritten hr hc.toWritten hk hd.toWritten
  | @connected e c d he hr hc hk hd hdr =>
    have hdial := dial d he.toWritten hr hc.toWritten hk
    simpa using gated_append_start hdial hd.dials hdr
  | @resumed e c d o he hr hc hk hd _ ho hor =>
    have hfallback := fallback o he.toWritten hr hc.toWritten hk hd.toWritten
    simpa using gated_append_start hfallback ho.dials_fallback hor

theorem Tested.aborted (h : Tested modemApn cops t)
    (hd : Dialled turns (apnToUse modemApn cops) es end_) (hf : DialFailed (t ++ es)) :
    end_ = .error .errorCheck ∧ .pppStarted ∉ t ++ es := by
  have hnew : (∃ x ∈ exchanges es, x.SetsUp ∧ x.result ≠ .ok) ∨
      ∀ x ∈ exchanges es, x.Dials → x.result ≠ .ok := by
    simp only [DialFailed, exchanges_append, List.mem_append] at hf
    rcases hf with ⟨x, hx | hx, hs, hr⟩ | ⟨-, hall⟩
    · exact absurd hs (h.quiet x hx).1
    · exact Or.inl ⟨x, hx, hs, hr⟩
    · exact Or.inr fun x hx => hall x (Or.inr hx)
  rw [List.mem_append, not_or]
  cases hd with
  | echoFailed he hr => exact ⟨rfl, h.notStarted, by simp⟩
  | contextFailed he hr hc hk => exact ⟨rfl, h.notStarted, by simp⟩
  | noCarrier he hr hc hk hd hdr ho hor => exact ⟨rfl, h.notStarted, by simp⟩
  | @connected e c d he hr hc hk hd hdr =>
    have hes : exchanges [.exchange e, .exchange c, .exchange d, .pppStarted] = [e, c, d] := rfl
    rw [hes] at hnew
    rcases hnew with ⟨x, hx, hs, hn⟩ | hall
    · simp only [List.mem_cons, List.not_mem_nil, or_false] at hx
      rcases hx with rfl | rfl | rfl
      · exact absurd hr hn
      · exact absurd hk hn
      · exact absurd hdr hn
    · exact absurd hdr (hall d (by simp) hd.dials)
  | @resumed e c d o he hr hc hk hd hdr ho hor =>
    have hes : exchanges [.exchange e, .exchange c, .exchange d, .exchange o, .pppStarted] =
      [e, c, d, o] := rfl
    rw [hes] at hnew
    rcases hnew with ⟨x, hx, hs, hn⟩ | hall
    · simp only [List.mem_cons, List.not_mem_nil, or_false] at hx
      rcases hx with rfl | rfl | rfl | rfl
      · exact absurd hr hn
      · exact absurd hk hn
      · exact absurd hs hd.dials.not_setsUp
      · exact absurd hor hn
    · exact absurd hor (hall o (by simp) ho.dials_fallback)

theorem always_gated_of_quiet (hq : ∀ x ∈ exchanges t, ¬ x.Dials) (hn : .pppStarted ∉ t) :
    Always (Gated modemApn) t := by
  rintro pre y post rfl
  cases y with
  | exchange x =>
    have hx : x ∈ exchanges (pre ++ .exchange x :: post) := mem_exchanges.mpr (by simp)
    exact ⟨fun h => hn (List.mem_append_left _ h), fun hd => absurd hd (hq x hx)⟩
  | pppStarted => exact absurd (by simp) hn
  | _ => trivial

theorem quiet_of_got (h : ∃ cmd ∈ askCommands, Got turns cmd x) : ¬ x.SetsUp ∧ ¬ x.Dials := by
  have hquiet : ∀ cmd ∈ askCommands, ¬ (cmd = ascii "ATE0\r" ∨ ascii "AT+CGDCONT=" <+: cmd) ∧
      ¬ (cmd = ascii "ATD*99#\r" ∨ cmd = ascii "ATO\r") := by decide
  obtain ⟨cmd, hc, hg⟩ := h
  unfold Exchange.SetsUp Exchange.Dials
  rw [hg.cmd_eq]
  exact hquiet cmd hc

theorem tested_of_accepted {xs : List Exchange} {q : Questions}
    (hxs : ∀ x ∈ xs, Missed turns x) (hx : Got turns (ascii "AT+CPIN?\r") x) (hs : x.AcceptsSim)
    (hq : q.Asked turns) :
    Tested modemApn q.copsResponse (searchEvents 0 xs ++ (pollEvents x ++ [.simReady]) ++
      q.events ++ [.operatorTest q.copsResponse.text (apnToUse modemApn q.copsResponse)]) := by
  constructor
  · have hpin : pollEvents x = [.exchange x, .readPin .ok (some true)] := by
      have hp : x.pin = (.ok, some true) := hs
      rw [pollEvents, hp]
      rfl
    simp [hpin]
  · rw [exchanges_run xs x q rfl []]
    intro y hy
    simp only [List.mem_append, List.mem_cons (a := y) (b := x)] at hy
    rcases hy with hy | rfl | hy | hy
    · exact quiet_of_got (hxs y hy).got
    · exact quiet_of_got ⟨_, by simp [askCommands], hx⟩
    · exact quiet_of_got (hq.got y hy)
    · cases hy
  · have hsearch := milestone_not_mem_searchEvents (Or.inr rfl) 0 xs
    have hevents := q.milestone_not_mem_events (Or.inr rfl)
    simp [hsearch, hevents, pollEvents]
  · simp
  · exact chosenApn_append_test _ _ _

theorem Run.dialGate (h : Run turns modemApn t end_) : DialGate modemApn t end_ := by
  cases h with
  | @searching xs hxs =>
    have hquiet : ∀ x ∈ exchanges (searchEvents 0 xs), ¬ x.SetsUp ∧ ¬ x.Dials := by
      rw [exchanges_searchEvents]
      exact fun x hx => quiet_of_got (hxs x hx).got
    constructor
    · exact always_gated_of_quiet (fun x hx => (hquiet x hx).2)
        (milestone_not_mem_searchEvents (Or.inr rfl) 0 xs)
    · rintro (⟨x, hx, hs, -⟩ | ⟨hready, -⟩)
      · exact absurd hs (hquiet x hx).1
      · exact absurd hready (milestone_not_mem_searchEvents (Or.inl rfl) 0 xs)
  | @dialled xs x q es end_ hxs hcpin hs hq hd =>
    have h : Tested modemApn q.copsResponse _ := tested_of_accepted hxs hcpin hs hq
    have hgated := h.gated (always_gated_of_quiet (fun x hx => (h.quiet x hx).2) h.notStarted) hd
    have haborted := h.aborted hd
    rw [List.append_assoc, List.singleton_append] at hgated haborted
    exact ⟨hgated, haborted⟩

/--
In every run, dialling waits for the SIM and for the context with the chosen APN, PPP
waits for the carrier and ends the commands, and a failure before that ends in the abort.
-/
theorem history_dialGate (modemApn : CString) (sentAlready : Bytes) (turns : ℕ → Turn)
    (polls : ℕ) :
    DialGate modemApn.bytes (history modemApn sentAlready turns polls)
      (ending modemApn sentAlready turns polls) :=
  (run_appMain modemApn sentAlready turns polls).dialGate

/-- A modem that answers at once and connects when it is dialled. -/
def connectingTurns (n : ℕ) : Turn :=
  if n = 9 then ⟨[], [], [.arrive 9, .task], ascii "CONNECT\r\n"⟩
  else (Answer.promptAnswers n).prompt

example : .pppStarted ∈ history ⟨ascii "internet", by decide⟩ [] connectingTurns 1 ∧
    ending ⟨ascii "internet", by decide⟩ [] connectingTurns 1 = .ok () := by
  decide +kernel

theorem Dialling.passed {apn : Bytes} (h : Dialling turns apn x) (hr : x.result = .ok) :
    (x.SetsUp → ascii "OK" <:+: x.handed) ∧ (x.Dials → ascii "CONNECT" <:+: x.handed) := by
  obtain ⟨c, hc, hx⟩ := h
  have hphrase : c.2 <:+: x.handed := by simpa using hx.passed hr
  simp only [dialling, List.mem_cons, List.not_mem_nil, or_false] at hc
  rcases hc with rfl | rfl | rfl | rfl
  · exact ⟨fun _ => hphrase, fun hd => absurd hx.setsUp_echo hd.not_setsUp⟩
  · exact ⟨fun _ => hphrase, fun hd => absurd hx.setsUp_context hd.not_setsUp⟩
  · exact ⟨fun hs => absurd hx.dials hs.not_dials, fun _ => hphrase⟩
  · exact ⟨fun hs => absurd hx.dials_fallback hs.not_dials, fun _ => hphrase⟩

/--
What a run takes for success was read from the line: OK for the set-up commands, CONNECT
for the dialling. So PPP never starts without CONNECT.
-/
theorem history_passed (modemApn : CString) (sentAlready : Bytes) (turns : ℕ → Turn)
    (polls : ℕ) :
    ∀ x ∈ exchanges (history modemApn sentAlready turns polls), x.result = .ok →
      (x.SetsUp → ascii "OK" <:+: x.handed) ∧ (x.Dials → ascii "CONNECT" <:+: x.handed) := by
  intro x hx hr
  obtain ⟨gs, ds, apn, ht, hgs, hds⟩ := (run_appMain modemApn sentAlready turns polls).split
  rw [ht, List.mem_append] at hx
  rcases hx with hx | hx
  · obtain ⟨hs, hd⟩ := quiet_of_got (hgs x hx)
    exact ⟨fun h => absurd h hs, fun h => absurd h hd⟩
  · exact (hds x hx).passed hr

theorem history_passed_connectingTurns :
    ∃ x ∈ exchanges (history ⟨ascii "internet", by decide⟩ [] connectingTurns 1),
      x.Dials ∧ ascii "CONNECT" <:+: x.handed := by
  have hdial : ∃ x ∈ exchanges (history ⟨ascii "internet", by decide⟩ [] connectingTurns 1),
      x.result = .ok ∧ x.cmd = ascii "ATD*99#\r" := by
    decide +kernel
  obtain ⟨x, hx, hr, hc⟩ := hdial
  exact ⟨x, hx, Or.inl hc, (history_passed _ _ _ _ x hx hr).2 (Or.inl hc)⟩

end EspLtePpp
