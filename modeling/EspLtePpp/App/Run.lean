import Mathlib.Data.List.Nodup
import EspLtePpp.App.Exchanges

/-! # The runs of `app_main`

A run is described without the code: polls that leave the SIM loop waiting, then the
poll that ends it, the questions to the modem, the choice of the APN and the dialling.
Every run of `app_main` is one of these.
-/

namespace EspLtePpp

open Exec World

variable {turns : ℕ → Turn} {w w' : World} {es : List Event}

/-- Polls after which the SIM loop goes on, with the notice at every fifth. -/
def searchEvents : ℕ → List Exchange → List Event
  | _, [] => []
  | retryCount, x :: xs =>
    pollEvents x ++ (if (retryCount + 1) % 5 = 0 then [.simSearching (retryCount + 1)] else []) ++
      searchEvents (retryCount + 1) xs

theorem mem_searchEvents {n : ℕ} {xs : List Exchange} {e : Event} (h : e ∈ searchEvents n xs) :
    (∃ x ∈ xs, e ∈ pollEvents x) ∨ ∃ k, e = .simSearching k := by
  induction xs generalizing n with
  | nil => cases h
  | cons x xs ih =>
    rw [searchEvents, List.append_assoc, List.mem_append, List.mem_append] at h
    rcases h with h | h | h
    · exact Or.inl ⟨x, List.mem_cons_self, h⟩
    · split at h
      · exact Or.inr ⟨n + 1, List.mem_singleton.mp h⟩
      · cases h
    · rcases ih h with ⟨y, hy, he⟩ | hk
      · exact Or.inl ⟨y, List.mem_cons_of_mem _ hy, he⟩
      · exact Or.inr hk

/-- The questions asked between the SIM loop and the choice of the APN. -/
structure Questions where
  ati : Exchange
  cgsn : Exchange
  creg : Exchange
  cops : Exchange
  cpsi : Exchange
  csq : Exchange

namespace Questions

variable (q : Questions)

/-- `response` after `ATI` and after `AT+CREG?`, and `cops_response`. -/
def response₁ : CharArray 128 := copied (.zero 128) q.ati.captured
def response₂ : CharArray 128 := copied q.response₁ q.creg.captured
def copsResponse : CharArray 128 := copied (.zero 128) q.cops.captured

def events : List Event :=
  askEvents (.zero 128) q.ati ++ imeiEvents q.cgsn ++ askEvents q.response₁ q.creg ++
    askEvents (.zero 128) q.cops ++ askEvents q.response₂ q.cpsi ++ signalEvents q.csq

structure Asked (turns : ℕ → Turn) (q : Questions) : Prop where
  ati : Got turns (ascii "ATI\r\n\r") q.ati
  cgsn : Got turns (ascii "AT+CGSN\r") q.cgsn
  creg : Got turns (ascii "AT+CREG?\r\n\r") q.creg
  cops : Got turns (ascii "AT+COPS?\r\n\r") q.cops
  cpsi : Got turns (ascii "AT+CPSI?\r\n\r") q.cpsi
  csq : Got turns (ascii "AT+CSQ\r") q.csq

end Questions

inductive Dialled (turns : ℕ → Turn) (apn : Bytes) : List Event → Except Stop Unit → Prop where

  | echoFailed {e : Exchange} : Ran turns (ascii "ATE0\r") [ascii "OK"] e → e.result ≠ .ok →
      Dialled turns apn [.exchange e] (.error .errorCheck)

  | contextFailed {e c : Exchange} : Ran turns (ascii "ATE0\r") [ascii "OK"] e →
      e.result = .ok → Ran turns (pdpCommand (.new apn)) [ascii "OK"] c → c.result ≠ .ok →
      Dialled turns apn [.exchange e, .exchange c] (.error .errorCheck)

  | noCarrier {e c d o : Exchange} : Ran turns (ascii "ATE0\r") [ascii "OK"] e →
      e.result = .ok → Ran turns (pdpCommand (.new apn)) [ascii "OK"] c → c.result = .ok →
      Ran turns (ascii "ATD*99#\r") [ascii "CONNECT"] d → d.result ≠ .ok →
      Ran turns (ascii "ATO\r") [ascii "CONNECT"] o → o.result ≠ .ok →
      Dialled turns apn [.exchange e, .exchange c, .exchange d, .exchange o] (.error .errorCheck)

  | connected {e c d : Exchange} : Ran turns (ascii "ATE0\r") [ascii "OK"] e →
      e.result = .ok → Ran turns (pdpCommand (.new apn)) [ascii "OK"] c → c.result = .ok →
      Ran turns (ascii "ATD*99#\r") [ascii "CONNECT"] d → d.result = .ok →
      Dialled turns apn [.exchange e, .exchange c, .exchange d, .pppStarted] (.ok ())

  | resumed {e c d o : Exchange} : Ran turns (ascii "ATE0\r") [ascii "OK"] e →
      e.result = .ok → Ran turns (pdpCommand (.new apn)) [ascii "OK"] c → c.result = .ok →
      Ran turns (ascii "ATD*99#\r") [ascii "CONNECT"] d → d.result ≠ .ok →
      Ran turns (ascii "ATO\r") [ascii "CONNECT"] o → o.result = .ok →
      Dialled turns apn
        [.exchange e, .exchange c, .exchange d, .exchange o, .pppStarted] (.ok ())

/-- The commands of the dialling, each with the phrase it waits for. -/
def dialling (apn : Bytes) : List (Bytes × Bytes) :=
  [(ascii "ATE0\r", ascii "OK"), (pdpCommand (.new apn), ascii "OK"),
    (ascii "ATD*99#\r", ascii "CONNECT"), (ascii "ATO\r", ascii "CONNECT")]

def dialCommands (apn : Bytes) : List Bytes := (dialling apn).map Prod.fst

def Dialling (turns : ℕ → Turn) (apn : Bytes) (x : Exchange) : Prop :=
  ∃ c ∈ dialling apn, Ran turns c.1 [c.2] x

section Dialling

variable {apn : Bytes} {x : Exchange}

theorem Ran.echo (h : Ran turns (ascii "ATE0\r") [ascii "OK"] x) : Dialling turns apn x :=
  ⟨(ascii "ATE0\r", ascii "OK"), by simp [dialling], h⟩

theorem Ran.context (h : Ran turns (pdpCommand (.new apn)) [ascii "OK"] x) :
    Dialling turns apn x := ⟨(pdpCommand (.new apn), ascii "OK"), by simp [dialling], h⟩

theorem Ran.dial (h : Ran turns (ascii "ATD*99#\r") [ascii "CONNECT"] x) :
    Dialling turns apn x := ⟨(ascii "ATD*99#\r", ascii "CONNECT"), by simp [dialling], h⟩

theorem Ran.resume (h : Ran turns (ascii "ATO\r") [ascii "CONNECT"] x) :
    Dialling turns apn x := ⟨(ascii "ATO\r", ascii "CONNECT"), by simp [dialling], h⟩

end Dialling

theorem Dialled.mem {apn : Bytes} {end_ : Except Stop Unit} {e : Event}
    (h : Dialled turns apn es end_) (he : e ∈ es) :
    (∃ x, e = .exchange x ∧ Dialling turns apn x) ∨ e = .pppStarted := by
  cases h with
  | echoFailed h₁ _ =>
    obtain rfl := List.mem_singleton.mp he
    exact Or.inl ⟨_, rfl, h₁.echo⟩
  | contextFailed h₁ _ h₂ _ =>
    simp only [List.mem_cons, List.not_mem_nil, or_false] at he
    rcases he with rfl | rfl
    · exact Or.inl ⟨_, rfl, h₁.echo⟩
    · exact Or.inl ⟨_, rfl, h₂.context⟩
  | noCarrier h₁ _ h₂ _ h₃ _ h₄ _ =>
    simp only [List.mem_cons, List.not_mem_nil, or_false] at he
    rcases he with rfl | rfl | rfl | rfl
    · exact Or.inl ⟨_, rfl, h₁.echo⟩
    · exact Or.inl ⟨_, rfl, h₂.context⟩
    · exact Or.inl ⟨_, rfl, h₃.dial⟩
    · exact Or.inl ⟨_, rfl, h₄.resume⟩
  | connected h₁ _ h₂ _ h₃ _ =>
    simp only [List.mem_cons, List.not_mem_nil, or_false] at he
    rcases he with rfl | rfl | rfl | rfl
    · exact Or.inl ⟨_, rfl, h₁.echo⟩
    · exact Or.inl ⟨_, rfl, h₂.context⟩
    · exact Or.inl ⟨_, rfl, h₃.dial⟩
    · exact Or.inr rfl
  | resumed h₁ _ h₂ _ h₃ _ h₄ _ =>
    simp only [List.mem_cons, List.not_mem_nil, or_false] at he
    rcases he with rfl | rfl | rfl | rfl | rfl
    · exact Or.inl ⟨_, rfl, h₁.echo⟩
    · exact Or.inl ⟨_, rfl, h₂.context⟩
    · exact Or.inl ⟨_, rfl, h₃.dial⟩
    · exact Or.inl ⟨_, rfl, h₄.resume⟩
    · exact Or.inr rfl

/-- A poll that leaves the SIM loop waiting. -/
def Missed (turns : ℕ → Turn) (x : Exchange) : Prop :=
  Got turns (ascii "AT+CPIN?\r") x ∧ ¬ x.AcceptsSim

/-- The histories of `app_main` with the given `MODEM_APN`, and their ends. -/
inductive Run (turns : ℕ → Turn) (modemApn : Bytes) : List Event → Except Stop Unit → Prop where

  | searching {xs : List Exchange} : (∀ x ∈ xs, Missed turns x) →
      Run turns modemApn (searchEvents 0 xs) (.error .polling)

  | dialled {xs : List Exchange} {x : Exchange} {q : Questions} {es : List Event}
      {end_ : Except Stop Unit} : (∀ x ∈ xs, Missed turns x) →
      Got turns (ascii "AT+CPIN?\r") x → x.AcceptsSim → q.Asked turns →
      Dialled turns (apnToUse modemApn q.copsResponse) es end_ →
      Run turns modemApn
        (searchEvents 0 xs ++ (pollEvents x ++ [.simReady]) ++ q.events ++
          (.operatorTest q.copsResponse.text (apnToUse modemApn q.copsResponse) :: es)) end_

theorem parsePin_ok {ret : CommandResult} {out : Bytes} (h : (parsePin ret out).1 = .ok) :
    ∃ b, parsePin ret out = (.ok, some b) := by
  unfold parsePin at *
  split at h
  · next hr => exact absurd h hr
  · split at h
    · cases h
    · split at h
      · next hr hc hs => exact ⟨false, by simp [hr, hc, hs]⟩
      · split at h
        · next hr hc hs hy => exact ⟨true, by simp_all⟩
        · cases h

theorem acceptsSim_iff (x : Exchange) (pinOk : Bool) :
    (commandResponseToEspErr x.pin.1 = .ok ∧ x.pin.2.getD pinOk = true) ↔ x.AcceptsSim := by
  rw [commandResponseToEspErr_eq_ok]
  constructor
  · rintro ⟨hr, hb⟩
    obtain ⟨b, hp⟩ := parsePin_ok hr
    have hx : x.pin = (.ok, some b) := hp
    rw [hx] at hb
    exact hx.trans (by simpa using hb)
  · intro h
    rw [Exchange.AcceptsSim] at h
    simp [h]

theorem waitForSim_run (polls : ℕ) (pinOk : Bool) (retryCount : ℕ) (h : w.port.Idle) :
    ∃ xs, (∀ x ∈ xs, Missed w.turns x) ∧
      ((∃ w', exec (waitForSim polls pinOk retryCount) w = (.error .polling, w') ∧
          w.After (searchEvents retryCount xs) w') ∨
        Completes (waitForSim polls pinOk retryCount) w fun _ w' =>
          ∃ x, Got w.turns (ascii "AT+CPIN?\r") x ∧ x.AcceptsSim ∧
            w.After (searchEvents retryCount xs ++ (pollEvents x ++ [.simReady])) w') := by
  induction polls generalizing pinOk retryCount w with
  | zero => exact ⟨[], by simp, Or.inl ⟨w, rfl, .refl h⟩⟩
  | succ polls ih =>
    obtain ⟨_, w₁, he, x, hx, rfl, ha⟩ := espModemReadPin_completes h
    have hstep : exec (waitForSim (polls + 1) pinOk retryCount) w =
        exec (if x.AcceptsSim then emit .simReady else do
          emitIf ((retryCount + 1) % 5 = 0) (.simSearching (retryCount + 1))
          waitForSim polls (x.pin.2.getD pinOk) (retryCount + 1)) w₁ := by
      rw [waitForSim, exec_bind_of_ok he]
      simp only [acceptsSim_iff]
    by_cases hs : x.AcceptsSim
    · rw [if_pos hs] at hstep
      refine ⟨[], by simp, Or.inr ?_⟩
      obtain ⟨_, w₂, hem, hb⟩ := emit_completes ha.idle .simReady
      exact ⟨_, w₂, hstep.trans hem, x, hx, hs, ha.trans hb⟩
    · rw [if_neg hs] at hstep
      obtain ⟨_, w₂, hem, hb⟩ := emitIf_completes ha.idle ((retryCount + 1) % 5 = 0)
        (.simSearching (retryCount + 1))
      rw [exec_bind_of_ok hem] at hstep
      have hab := ha.trans hb
      obtain ⟨xs, hxs, hrun⟩ := ih (x.pin.2.getD pinOk) (retryCount + 1) hab.idle
      rw [hab.turns_eq] at hxs hrun
      refine ⟨x :: xs, List.forall_mem_cons.mpr ⟨⟨hx, hs⟩, hxs⟩, ?_⟩
      rcases hrun with ⟨w', hw, hc⟩ | ⟨_, w', hw, y, hy, hsy, hc⟩
      · exact Or.inl ⟨w', hstep.trans hw, hab.trans hc⟩
      · refine Or.inr ⟨_, w', hstep.trans hw, y, hy, hsy, ?_⟩
        rw [searchEvents, List.append_assoc]
        exact hab.trans hc

@[simp] theorem exchanges_pollEvents (x : Exchange) : exchanges (pollEvents x) = [x] := rfl

@[simp] theorem exchanges_storeEvents (size : ℕ) (out : Bytes) :
    exchanges (storeEvents size out) = [] := by
  unfold storeEvents
  split
  · rfl
  · rfl

@[simp] theorem exchanges_askEvents {size : ℕ} (buf : CharArray size) (x : Exchange) :
    exchanges (askEvents buf x) = [x] := by
  unfold askEvents
  rw [List.cons_append, ← List.singleton_append, exchanges_append, exchanges_append,
    exchanges_storeEvents]
  split
  · rfl
  · rfl

@[simp] theorem exchanges_imeiEvents (x : Exchange) : exchanges (imeiEvents x) = [x] := by
  unfold imeiEvents
  rw [← List.singleton_append, exchanges_append]
  split
  · rw [exchanges_append, exchanges_storeEvents]
    rfl
  · rfl

@[simp] theorem exchanges_signalEvents (x : Exchange) : exchanges (signalEvents x) = [x] := by
  unfold signalEvents
  split
  · rfl
  · rfl

@[simp] theorem exchanges_searchEvents (n : ℕ) (xs : List Exchange) :
    exchanges (searchEvents n xs) = xs := by
  induction xs generalizing n with
  | nil => rfl
  | cons x xs ih =>
    rw [searchEvents, exchanges_append, exchanges_append, ih, exchanges_pollEvents]
    split
    · rfl
    · rfl

@[simp] theorem Questions.exchanges_events (q : Questions) :
    exchanges q.events = [q.ati, q.cgsn, q.creg, q.cops, q.cpsi, q.csq] := by
  simp [Questions.events, exchanges_append]

theorem take_pdpCommand (pdp : PdpContext) :
    (pdpCommand pdp).take 11 = ascii "AT+CGDCONT=" := by
  simp only [pdpCommand, List.append_assoc]
  exact List.take_left' rfl

theorem not_mem_dialCommands {cmd : Bytes} (apn : Bytes)
    (h : cmd ∉ [ascii "ATE0\r", ascii "ATD*99#\r", ascii "ATO\r"])
    (ht : cmd.take 11 ≠ ascii "AT+CGDCONT=") : cmd ∉ dialCommands apn := by
  have hp : cmd ≠ pdpCommand (.new apn) := by
    rintro rfl
    exact ht (take_pdpCommand _)
  simp only [dialCommands, dialling, List.map_cons, List.map_nil, List.mem_cons, List.not_mem_nil,
    or_false, not_or] at h ⊢
  exact ⟨h.1, hp, h.2⟩

theorem Dialling.cmd_mem {apn : Bytes} {x : Exchange} (h : Dialling turns apn x) :
    x.cmd ∈ dialCommands apn := by
  obtain ⟨c, hc, hx⟩ := h
  rw [hx.cmd_eq]
  exact List.mem_map_of_mem hc

theorem Dialled.dialling {apn : Bytes} {end_ : Except Stop Unit} {x : Exchange}
    (h : Dialled turns apn es end_) (hx : x ∈ exchanges es) : Dialling turns apn x := by
  rcases h.mem (mem_exchanges.mp hx) with ⟨y, he, hd⟩ | he
  · obtain rfl : x = y := Event.exchange.inj he
    exact hd
  · cases he

theorem Questions.mem_events {q : Questions} {e : Event} (h : e ∈ q.events) :
    (∃ x, e = .exchange x) ∨ (∃ size indices, e = .stored size indices) ∨
      (∃ text, e = .reported text) ∨ (∃ text, e = .imei text) ∨ ∃ n, e = .signalQuality n := by
  have hask {size : ℕ} {buf : CharArray size} {x : Exchange} (h : e ∈ askEvents buf x) :
      (∃ x, e = .exchange x) ∨ (∃ size indices, e = .stored size indices) ∨
        ∃ text, e = .reported text := by
    rcases mem_askEvents h with rfl | h | ⟨-, rfl⟩
    · exact Or.inl ⟨x, rfl⟩
    · obtain ⟨-, rfl⟩ := mem_storeEvents.mp h
      exact Or.inr (Or.inl ⟨_, _, rfl⟩)
    · exact Or.inr (Or.inr ⟨_, rfl⟩)
  simp only [Questions.events, List.mem_append] at h
  rcases h with ((((h | h) | h) | h) | h) | h
  · rcases hask h with h | h | h <;> simp [h]
  · rcases mem_imeiEvents.mp h with rfl | ⟨-, h | rfl⟩
    · simp
    · obtain ⟨-, rfl⟩ := mem_storeEvents.mp h
      simp
    · simp
  · rcases hask h with h | h | h <;> simp [h]
  · rcases hask h with h | h | h <;> simp [h]
  · rcases hask h with h | h | h <;> simp [h]
  · rcases mem_signalEvents h with rfl | ⟨n, rfl⟩
    · simp
    · simp

theorem milestone_not_mem_searchEvents {e : Event} (he : e = .simReady ∨ e = .pppStarted) (n : ℕ)
    (xs : List Exchange) : e ∉ searchEvents n xs := by
  intro h
  rcases mem_searchEvents h with ⟨x, -, hx⟩ | ⟨k, hk⟩
  · rcases he with rfl | rfl
    · simp [pollEvents] at hx
    · simp [pollEvents] at hx
  · rcases he with rfl | rfl
    · cases hk
    · cases hk

theorem Questions.milestone_not_mem_events {e : Event} (he : e = .simReady ∨ e = .pppStarted)
    (q : Questions) : e ∉ q.events := by
  intro h
  rcases q.mem_events h with ⟨x, rfl⟩ | ⟨size, indices, rfl⟩ | ⟨text, rfl⟩ | ⟨text, rfl⟩ | ⟨n, rfl⟩
  all_goals rcases he with he | he <;> cases he

theorem Questions.mem_exchanges_run (q : Questions) {x : Exchange}
    (h : x ∈ [q.ati, q.cgsn, q.creg, q.cops, q.cpsi, q.csq]) (t u : List Event) :
    x ∈ exchanges (t ++ q.events ++ u) := by
  rw [exchanges_append, exchanges_append, q.exchanges_events]
  exact List.mem_append_left _ (List.mem_append_right _ h)

theorem Questions.Asked.cmd_eq {q : Questions} (h : q.Asked turns) :
    [q.ati, q.cgsn, q.creg, q.cops, q.cpsi, q.csq].map Exchange.cmd =
      [ascii "ATI\r\n\r", ascii "AT+CGSN\r", ascii "AT+CREG?\r\n\r", ascii "AT+COPS?\r\n\r",
        ascii "AT+CPSI?\r\n\r", ascii "AT+CSQ\r"] := by
  simp only [List.map_cons, List.map_nil, h.ati.cmd_eq, h.cgsn.cmd_eq, h.creg.cmd_eq,
    h.cops.cmd_eq, h.cpsi.cmd_eq, h.csq.cmd_eq]

def askCommands : List Bytes :=
  [ascii "AT+CPIN?\r", ascii "ATI\r\n\r", ascii "AT+CGSN\r", ascii "AT+CREG?\r\n\r",
    ascii "AT+COPS?\r\n\r", ascii "AT+CPSI?\r\n\r", ascii "AT+CSQ\r"]

theorem ask_not_mem_dialCommands (apn : Bytes) {cmd : Bytes} (h : cmd ∈ askCommands) :
    cmd ∉ dialCommands apn := by
  have hne : ∀ cmd ∈ askCommands, cmd ∉ [ascii "ATE0\r", ascii "ATD*99#\r", ascii "ATO\r"] ∧
      cmd.take 11 ≠ ascii "AT+CGDCONT=" := by decide
  exact not_mem_dialCommands apn (hne cmd h).1 (hne cmd h).2

theorem Questions.Asked.got {q : Questions} (h : q.Asked turns) :
    ∀ x ∈ [q.ati, q.cgsn, q.creg, q.cops, q.cpsi, q.csq], ∃ cmd ∈ askCommands, Got turns cmd x := by
  simp only [List.forall_mem_cons]
  exact ⟨⟨_, by simp [askCommands], h.ati⟩, ⟨_, by simp [askCommands], h.cgsn⟩,
    ⟨_, by simp [askCommands], h.creg⟩, ⟨_, by simp [askCommands], h.cops⟩,
    ⟨_, by simp [askCommands], h.cpsi⟩, ⟨_, by simp [askCommands], h.csq⟩, by simp⟩

theorem Missed.got {x : Exchange} (h : Missed turns x) : ∃ cmd ∈ askCommands, Got turns cmd x :=
  ⟨_, by simp [askCommands], h.1⟩

theorem Questions.Asked.eq_of_cmd {q : Questions} (h : q.Asked turns) {x y : Exchange}
    (hx : x ∈ [q.ati, q.cgsn, q.creg, q.cops, q.cpsi, q.csq])
    (hy : y ∈ [q.ati, q.cgsn, q.creg, q.cops, q.cpsi, q.csq]) (hxy : x.cmd = y.cmd) : x = y := by
  refine List.inj_on_of_nodup_map ?_ hx hy hxy
  rw [h.cmd_eq]
  decide

theorem exchanges_run (xs : List Exchange) (x : Exchange) (q : Questions) {e : Event}
    (he : e.exchange? = none) (es : List Event) :
    exchanges (searchEvents 0 xs ++ (pollEvents x ++ [.simReady]) ++ q.events ++ e :: es) =
      xs ++ x :: ([q.ati, q.cgsn, q.creg, q.cops, q.cpsi, q.csq] ++ exchanges es) := by
  have hes : exchanges (e :: es) = exchanges es := by simp [exchanges, he]
  have hready : exchanges [Event.simReady] = [] := rfl
  rw [exchanges_append, exchanges_append, exchanges_append, exchanges_append, hes, hready,
    exchanges_searchEvents, exchanges_pollEvents, q.exchanges_events]
  simp

theorem Run.split {modemApn : Bytes} {end_ : Except Stop Unit} {t : List Event}
    (h : Run turns modemApn t end_) :
    ∃ gs ds apn, exchanges t = gs ++ ds ∧ (∀ g ∈ gs, ∃ cmd ∈ askCommands, Got turns cmd g) ∧
      ∀ d ∈ ds, Dialling turns apn d := by
  cases h with
  | @searching xs hxs =>
    refine ⟨xs, [], [], by simp, fun x hx => (hxs x hx).got, ?_⟩
    simp
  | @dialled xs x q es end_ hxs hx hs hq hd =>
    refine ⟨xs ++ x :: [q.ati, q.cgsn, q.creg, q.cops, q.cpsi, q.csq], exchanges es, _, ?_, ?_,
      fun d => hd.dialling⟩
    · rw [exchanges_run xs x q rfl es]
      simp
    · intro g hg
      rcases List.mem_append.mp hg with hg | hg
      · exact (hxs g hg).got
      · rcases List.mem_cons.mp hg with rfl | hg
        · exact ⟨_, by simp [askCommands], hx⟩
        · exact hq.got g hg

theorem Run.got_of_ask {modemApn : Bytes} {end_ : Except Stop Unit} {t : List Event}
    {x : Exchange} (h : Run turns modemApn t end_) (hx : x ∈ exchanges t)
    (hc : x.cmd ∈ askCommands) : ∃ cmd, Got turns cmd x := by
  obtain ⟨gs, ds, apn, ht, hgs, hds⟩ := h.split
  rw [ht, List.mem_append] at hx
  obtain ⟨cmd, -, hg⟩ := hgs x
    (hx.resolve_right fun hd => ask_not_mem_dialCommands apn hc (hds x hd).cmd_mem)
  exact ⟨cmd, hg⟩

theorem chosenApn_append_of_none {t u : List Event} (h : ∀ e ∈ u, e.apn? = none) :
    chosenApn (t ++ u) = chosenApn t := by
  have hu : u.filterMap Event.apn? = [] := List.filterMap_eq_nil_iff.mpr h
  rw [chosenApn, List.filterMap_append, hu, List.append_nil, chosenApn]

theorem chosenApn_append_test (t : List Event) (text apn : Bytes) :
    chosenApn (t ++ [.operatorTest text apn]) = some apn := by
  simp [chosenApn, Event.apn?]

theorem Dialled.apn_of_mem {apn : Bytes} {end_ : Except Stop Unit} {e : Event}
    (h : Dialled turns apn es end_) (he : e ∈ es) : e.apn? = none := by
  rcases h.mem he with ⟨x, rfl, -⟩ | rfl
  · rfl
  · rfl

theorem Dialled.chosenApn_eq {apn : Bytes} {end_ : Except Stop Unit}
    (h : Dialled turns apn es end_) (t : List Event) (text : Bytes) :
    chosenApn (t ++ .operatorTest text apn :: es) = some apn := by
  have ht : t ++ .operatorTest text apn :: es = t ++ [.operatorTest text apn] ++ es := by simp
  rw [ht, chosenApn_append_of_none fun e he => h.apn_of_mem he, chosenApn_append_test]

theorem Dialled.mem_questions {apn : Bytes} {end_ : Except Stop Unit} {xs : List Exchange}
    {x y : Exchange} {q : Questions} {e : Event} (h : Dialled turns apn es end_)
    (hxs : ∀ x ∈ xs, Missed turns x) (hx : Got turns (ascii "AT+CPIN?\r") x)
    (hy : y ∈ exchanges (searchEvents 0 xs ++ (pollEvents x ++ [.simReady]) ++ q.events ++ e :: es))
    (he : e.exchange? = none) (hask : y.cmd ∈ askCommands) (hpin : y.cmd ≠ ascii "AT+CPIN?\r") :
    y ∈ [q.ati, q.cgsn, q.creg, q.cops, q.cpsi, q.csq] := by
  rw [exchanges_run xs x q he es, List.mem_append, List.mem_cons, List.mem_append] at hy
  rcases hy with hy | rfl | hy | hy
  · exact absurd (hxs y hy).1.cmd_eq hpin
  · exact absurd hx.cmd_eq hpin
  · exact hy
  · exact absurd (h.dialling hy).cmd_mem (ask_not_mem_dialCommands _ hask)

theorem Run.asked {modemApn : Bytes} {end_ : Except Stop Unit} {t : List Event} {x : Exchange}
    (h : Run turns modemApn t end_) (hx : x ∈ exchanges t) (hask : x.cmd ∈ askCommands)
    (hpin : x.cmd ≠ ascii "AT+CPIN?\r") :
    ∃ q : Questions, q.Asked turns ∧ x ∈ [q.ati, q.cgsn, q.creg, q.cops, q.cpsi, q.csq] ∧
      ∀ e ∈ q.events, e ∈ t := by
  cases h with
  | @searching xs hxs =>
    rw [exchanges_searchEvents] at hx
    exact absurd (hxs x hx).1.cmd_eq hpin
  | @dialled xs y q es end_ hxs hy hs hq hd =>
    refine ⟨q, hq, hd.mem_questions hxs hy hx rfl hask hpin, ?_⟩
    intro e he
    exact List.mem_append_left _ (List.mem_append_right _ he)

theorem Dialled.cmd_ne_cpin {apn : Bytes} {end_ : Except Stop Unit} {q : Questions}
    (hq : q.Asked turns) (h : Dialled turns apn es end_) {y : Exchange}
    (hy : y ∈ [q.ati, q.cgsn, q.creg, q.cops, q.cpsi, q.csq] ++ exchanges es) :
    y.cmd ≠ ascii "AT+CPIN?\r" := by
  intro hc
  rcases List.mem_append.mp hy with hy | hy
  · have hm := List.mem_map_of_mem (f := Exchange.cmd) hy
    rw [hq.cmd_eq, hc] at hm
    exact absurd hm (by decide)
  · have hm := (h.dialling hy).cmd_mem
    rw [hc] at hm
    exact absurd hm (ask_not_mem_dialCommands _ (by simp [askCommands]))

theorem setupDataMode_run (h : w.port.Idle) :
    Completes GenericModule.setupDataMode w fun done w' =>
      (∃ e, Ran w.turns (ascii "ATE0\r") [ascii "OK"] e ∧ e.result ≠ .ok ∧ done = false ∧
        w.After [.exchange e] w') ∨
      ∃ e c, Ran w.turns (ascii "ATE0\r") [ascii "OK"] e ∧ e.result = .ok ∧
        Ran w.turns (pdpCommand w.pdp) [ascii "OK"] c ∧ done = decide (c.result = .ok) ∧
        w.After [.exchange e, .exchange c] w' := by
  apply (genericCommand_completes h _ _ _ _).bind
  rintro _ w₁ ⟨e, he, rfl, ha⟩
  by_cases hr : e.result = .ok
  · rw [if_neg (not_not.mpr hr)]
    have hpdp : w₁.pdp = w.pdp := by
      obtain ⟨p, n, -, rfl⟩ := ha
      rfl
    obtain ⟨_, w₂, hc, c, hw, rfl, hb⟩ : Completes (setPdpContext w.pdp) w₁ _ :=
      genericCommand_completes ha.idle _ _ _ _
    rw [ha.turns_eq] at hw
    refine ⟨decide (c.result = .ok), w₂, ?_, Or.inr ⟨e, c, he, hr, hw, rfl, ha.trans hb⟩⟩
    rw [exec_bind_of_ok exec_get, hpdp, exec_bind_of_ok hc]
    by_cases hk : c.result = .ok
    · simp [hk]
    · simp [hk]
  · rw [if_pos hr]
    exact completes_pure (Or.inl ⟨e, he, hr, rfl, ha⟩)

theorem setMode_run (h : w.port.Idle) :
    Completes GenericModule.setMode w fun done w' =>
      (∃ d, Ran w.turns (ascii "ATD*99#\r") [ascii "CONNECT"] d ∧ d.result = .ok ∧ done = true ∧
        w.After [.exchange d] w') ∨
      ∃ d o, Ran w.turns (ascii "ATD*99#\r") [ascii "CONNECT"] d ∧ d.result ≠ .ok ∧
        Ran w.turns (ascii "ATO\r") [ascii "CONNECT"] o ∧ done = decide (o.result = .ok) ∧
        w.After [.exchange d, .exchange o] w' := by
  apply (genericCommand_completes h _ _ _ _).bind
  rintro _ w₁ ⟨d, hd, rfl, ha⟩
  by_cases hr : d.result = .ok
  · rw [if_neg (not_not.mpr hr)]
    exact completes_pure (Or.inl ⟨d, hd, hr, rfl, ha⟩)
  · rw [if_pos hr]
    apply (genericCommand_completes ha.idle _ _ _ _).bind
    rintro _ w₂ ⟨o, ho, rfl, hb⟩
    rw [ha.turns_eq] at ho
    exact completes_pure (Or.inr ⟨d, o, hd, hr, ho, rfl, ha.trans hb⟩)

/-- The world in which data mode is entered for the first time. -/
structure BeforeData (w : World) : Prop where
  idle : w.port.Idle
  dteMode_eq : w.dteMode = .undef
  dceMode_eq : w.dceMode = .undef
  notStarted : w.pppStarted = false

theorem BeforeData.after (h : BeforeData w) (ha : w.After es w') : BeforeData w' := by
  obtain ⟨p, n, hp, rfl⟩ := ha
  exact ⟨hp, h.dteMode_eq, h.dceMode_eq, h.notStarted⟩

theorem exec_dteSetMode (h : w.dteMode = .undef) :
    exec Dte.setMode w = (.ok true, { w with dteMode := .dataMode }) := by
  rw [Dte.setMode, exec_bind_of_ok (exec_modify _)]
  simp [h]

theorem exec_netifStart (h : w.pppStarted = false) :
    exec Netif.start w = (.ok (), { w.record [.pppStarted] with pppStarted := true }) := by
  rw [Netif.start, exec_bind_of_ok exec_get]
  simp [h]

theorem connect_run (h : BeforeData w) :
    ∃ w', exec (do
      if !(← Dte.setMode) then return false
      Netif.start
      return true) w = (.ok true, w') ∧ w'.history = w.history ++ [.pppStarted] := by
  refine ⟨{ w.record [.pppStarted] with dteMode := .dataMode, pppStarted := true }, ?_, rfl⟩
  have hn : exec Netif.start { w with dteMode := .dataMode } = _ := exec_netifStart h.notStarted
  rw [exec_bind_of_ok (exec_dteSetMode h.dteMode_eq)]
  simp only [Bool.not_true, Bool.false_eq_true, if_false]
  rw [exec_bind_of_ok hn]
  rfl

theorem enterData_run {apn : Bytes} (h : BeforeData w) (hpdp : w.pdp = .new apn) :
    ∃ done es w', exec enterData w = (.ok done, w') ∧ w'.history = w.history ++ es ∧
      Dialled w.turns apn es (if done then .ok () else .error .errorCheck) := by
  obtain ⟨_, w₁, hset, ⟨e, he, hr, rfl, ha⟩ | ⟨e, c, he, hr, hc, rfl, ha⟩⟩ :=
    setupDataMode_run h.idle
  · exact ⟨false, _, w₁, by rw [enterData, exec_bind_of_ok hset]; rfl, ha.history_eq,
      .echoFailed he hr⟩
  rw [hpdp] at hc
  by_cases hk : c.result = .ok
  swap
  · refine ⟨false, _, w₁, ?_, ha.history_eq, .contextFailed he hr hc hk⟩
    rw [enterData, exec_bind_of_ok hset]
    simp [hk]
  rw [decide_eq_true hk] at hset
  obtain ⟨_, w₂, hmode, hcases⟩ := setMode_run ha.idle
  rw [ha.turns_eq] at hcases
  rcases hcases with ⟨d, hd, hdr, rfl, hb⟩ | ⟨d, o, hd, hdr, ho, rfl, hb⟩
  · have hab := ha.trans hb
    obtain ⟨w₃, hcon, hhist⟩ := connect_run (h.after hab)
    refine ⟨true, _, w₃, ?_, ?_, .connected he hr hc hk hd hdr⟩
    · rw [enterData, exec_bind_of_ok hset]
      simp only [Bool.not_true, Bool.false_eq_true, if_false]
      rw [exec_bind_of_ok hmode]
      simpa using hcon
    · rw [hhist, hab.history_eq]
      simp
  · have hab := ha.trans hb
    by_cases hor : o.result = .ok
    · rw [decide_eq_true hor] at hmode
      obtain ⟨w₃, hcon, hhist⟩ := connect_run (h.after hab)
      refine ⟨true, _, w₃, ?_, ?_, .resumed he hr hc hk hd hdr ho hor⟩
      · rw [enterData, exec_bind_of_ok hset]
        simp only [Bool.not_true, Bool.false_eq_true, if_false]
        rw [exec_bind_of_ok hmode]
        simpa using hcon
      · rw [hhist, hab.history_eq]
        simp
    · refine ⟨false, _, w₂, ?_, hab.history_eq, .noCarrier he hr hc hk hd hdr ho hor⟩
      rw [enterData, exec_bind_of_ok hset]
      simp only [Bool.not_true, Bool.false_eq_true, if_false]
      rw [exec_bind_of_ok hmode]
      simp [hor]

theorem espModemSetMode_run {apn : Bytes} (h : BeforeData w) (hpdp : w.pdp = .new apn) :
    ∃ err es w', exec espModemSetMode w = (.ok err, w') ∧ w'.history = w.history ++ es ∧
      Dialled w.turns apn es (if err = .ok then .ok () else .error .errorCheck) := by
  obtain ⟨done, es, w₁, hrun, hhist, hd⟩ := enterData_run h hpdp
  have hset : exec DceMode.set w =
      exec (if !done then pure false else do
        modify fun w : World => { w with dceMode := .dataMode }
        return true) w₁ := by
    rw [DceMode.set, exec_bind_of_ok exec_get]
    simp only [h.dceMode_eq, reduceCtorEq, ModemMode.isManual, Bool.false_eq_true, or_self,
      if_false]
    rw [exec_bind_of_ok hrun]
  cases done with
  | false =>
    refine ⟨.fail, es, w₁, ?_, hhist, by simpa using hd⟩
    rw [espModemSetMode, exec_bind_of_ok hset]
    rfl
  | true =>
    refine ⟨.ok, es, { w₁ with dceMode := .dataMode }, ?_, hhist, by simpa using hd⟩
    rw [espModemSetMode, exec_bind_of_ok hset]
    rfl

theorem dial_run {modemApn : Bytes} (h : BeforeData w) (hpdp : w.pdp = .new modemApn)
    (apn : Bytes) :
    ∃ es, (exec (dial modemApn apn) w).2.history = w.history ++ es ∧
      Dialled w.turns apn es (exec (dial modemApn apn) w).1 := by
  obtain ⟨w₁, hset, hb, hp, hhist, hturns⟩ : ∃ w₁,
      exec (if apn ≠ modemApn then espModemSetApn apn else pure ()) w = (.ok (), w₁) ∧
        BeforeData w₁ ∧ w₁.pdp = .new apn ∧ w₁.history = w.history ∧ w₁.turns = w.turns := by
    by_cases ha : apn = modemApn
    · exact ⟨w, by rw [if_neg (not_not.mpr ha)]; rfl, h, by rw [hpdp, ha], rfl, rfl⟩
    · exact ⟨{ w with pdp := .new apn }, by rw [if_pos ha]; rfl,
        ⟨h.idle, h.dteMode_eq, h.dceMode_eq, h.notStarted⟩, rfl, rfl, rfl⟩
  obtain ⟨err, es, w₂, hrun, hhist₂, hd⟩ := espModemSetMode_run hb hp
  have hdial : exec (dial modemApn apn) w = exec (espErrorCheck err) w₂ := by
    rw [dial, exec_bind_of_ok hset, exec_bind_of_ok hrun]
  rw [hhist] at hhist₂
  rw [hturns] at hd
  rw [hdial]
  refine ⟨es, ?_⟩
  by_cases he : err = .ok
  · rw [if_pos he] at hd
    simpa [espErrorCheck, he] using ⟨hhist₂, hd⟩
  · rw [if_neg he] at hd
    simpa [espErrorCheck, he] using ⟨hhist₂, hd⟩

theorem beforeData_boot (modemApn sentAlready : Bytes) (turns : ℕ → Turn) :
    BeforeData (.boot modemApn sentAlready turns) := ⟨⟨rfl, rfl⟩, rfl, rfl, rfl⟩

theorem askModem_completes (h : w.port.Idle) :
    Completes askModem w fun r w' => ∃ q : Questions, q.Asked w.turns ∧ r = q.copsResponse ∧
      w.After q.events w' := by
  apply (askAndReport_completes h _ _ _).bind
  rintro _ w₁ ⟨ati, hati, rfl, h₁⟩
  apply (reportImei_completes h₁.idle).bind
  rintro _ w₂ ⟨cgsn, hcgsn, h₂⟩
  rw [h₁.turns_eq] at hcgsn
  have h₂ := h₁.trans h₂
  apply (askAndReport_completes h₂.idle _ _ _).bind
  rintro _ w₃ ⟨creg, hcreg, rfl, h₃⟩
  rw [h₂.turns_eq] at hcreg
  have h₃ := h₂.trans h₃
  apply (askAndReport_completes h₃.idle _ _ _).bind
  rintro _ w₄ ⟨cops, hcops, rfl, h₄⟩
  rw [h₃.turns_eq] at hcops
  have h₄ := h₃.trans h₄
  apply (askAndReport_completes h₄.idle _ _ _).bind
  rintro _ w₅ ⟨cpsi, hcpsi, rfl, h₅⟩
  rw [h₄.turns_eq] at hcpsi
  have h₅ := h₄.trans h₅
  apply (reportSignalQuality_completes h₅.idle).bind
  rintro _ w₆ ⟨csq, hcsq, h₆⟩
  rw [h₅.turns_eq] at hcsq
  have h₆ := h₅.trans h₆
  exact completes_pure ⟨⟨ati, cgsn, creg, cops, cpsi, csq⟩,
    ⟨hati, hcgsn, hcreg, hcops, hcpsi, hcsq⟩, rfl, h₆⟩

/-- Every run of `app_main` is a run as described. -/
theorem run_appMain (modemApn : CString) (sentAlready : Bytes) (turns : ℕ → Turn) (polls : ℕ) :
    Run turns modemApn.bytes (history modemApn sentAlready turns polls)
      (ending modemApn sentAlready turns polls) := by
  have hb := beforeData_boot modemApn.bytes sentAlready turns
  unfold history ending runMain appMain
  obtain ⟨xs, hxs, ⟨w', he, ha⟩ | ⟨_, w₁, he, x, hx, hs, h₁⟩⟩ :=
    waitForSim_run polls false 0 hb.idle
  · have hhist : w'.history = searchEvents 0 xs := ha.history_eq
    rw [exec_bind_of_error he, hhist]
    exact .searching hxs
  obtain ⟨_, w₂, he₂, q, hq, rfl, h₂⟩ := askModem_completes h₁.idle
  rw [h₁.turns_eq] at hq
  have h₂ := h₁.trans h₂
  obtain ⟨_, w₃, he₃, h₃⟩ := emit_completes h₂.idle
    (.operatorTest q.copsResponse.text (apnToUse modemApn.bytes q.copsResponse))
  have h₃ := h₂.trans h₃
  have hpdp : w₃.pdp = .new modemApn.bytes := by
    obtain ⟨p, n, -, rfl⟩ := h₃
    rfl
  obtain ⟨es, hes, hd⟩ := dial_run (hb.after h₃) hpdp (apnToUse modemApn.bytes q.copsResponse)
  rw [h₃.turns_eq] at hd
  have hhist : w₃.history = searchEvents 0 xs ++ (pollEvents x ++ [.simReady]) ++ q.events ++
      [.operatorTest q.copsResponse.text (apnToUse modemApn.bytes q.copsResponse)] := h₃.history_eq
  rw [exec_bind_of_ok he, exec_bind_of_ok he₂, exec_bind_of_ok he₃, hes, hhist, List.append_assoc,
    List.singleton_append]
  exact .dialled hxs hx hs hq hd

end EspLtePpp
