import EspLtePpp.Dte.Basic
import EspLtePpp.Library.Exec

/-! # The state of the application

The application owns the DTE, the module's PDP context and the mode of the DCE. What
it does is recorded in order: every command it writes with the outcome, every store
into one of its arrays, every text it logs, and its decisions.
-/

namespace EspLtePpp

/-- The values of `esp_err_t` that the calls of the application return. -/
inductive EspErr | ok | fail | timeout
  deriving DecidableEq, Repr

def commandResponseToEspErr : CommandResult → EspErr
  | .ok => .ok
  | .fail => .fail
  | .timeout => .timeout

inductive ModemMode
  | undef
  | commandMode
  | dataMode
  | dualMode
  | cmuxMode
  | cmuxManualMode
  | cmuxManualExit
  | cmuxManualData
  | cmuxManualCommand
  | cmuxManualSwap
  | resumeDataMode
  | resumeCommandMode
  | resumeCmuxManualMode
  | resumeCmuxManualData
  | autodetect
  deriving DecidableEq, Repr

structure PdpContext where
  contextId : ℕ
  protocolType : Bytes
  apn : Bytes
  deriving DecidableEq

def PdpContext.new (apn : Bytes) : PdpContext := ⟨1, ascii "IP", apn⟩

inductive Event

  | exchange (x : Exchange)

  /-- `esp_modem_read_pin` returned, having stored this in `pin_ok`. -/
  | readPin (err : EspErr) (stored : Option Bool)

  | simReady

  | simSearching (retryCount : ℕ)

  /-- Text was stored at these indices of an array of this size. -/
  | stored (size : ℕ) (indices : List ℕ)

  /-- A buffer was logged after `esp_modem_at` returned `ESP_OK`. -/
  | reported (text : Bytes)

  | imei (text : Bytes)

  | signalQuality (rssi : ℤ)

  /-- Operator names were searched in this text and gave this APN. -/
  | operatorTest (text apn : Bytes)

  | pppStarted
  deriving DecidableEq

def Event.exchange? : Event → Option Exchange
  | .exchange x => some x
  | _ => none

def Event.apn? : Event → Option Bytes
  | .operatorTest _ apn => some apn
  | _ => none

def chosenApn (t : List Event) : Option Bytes := (t.filterMap Event.apn?).getLast?

def exchanges (t : List Event) : List Exchange := t.filterMap Event.exchange?

theorem exchanges_append (t u : List Event) : exchanges (t ++ u) = exchanges t ++ exchanges u :=
  List.filterMap_append

theorem mem_exchanges {t : List Event} {x : Exchange} : x ∈ exchanges t ↔ .exchange x ∈ t := by
  unfold exchanges
  rw [List.mem_filterMap]
  constructor
  · rintro ⟨e, he, hx⟩
    cases e with
    | exchange y =>
      obtain rfl := Option.some.inj hx
      exact he
    | _ => cases hx
  · intro h
    exact ⟨_, h, rfl⟩

structure World where
  port : Port
  /-- what the line and the modem do around each command -/
  turns : ℕ → Turn
  sent : ℕ
  pdp : PdpContext
  dteMode : ModemMode
  dceMode : ModemMode
  pppStarted : Bool
  history : List Event

namespace World

def record (w : World) (es : List Event) : World := { w with history := w.history ++ es }

def exchanged (w : World) (x : Exchange) (port : Port) : World :=
  { w.record [.exchange x] with port := port, sent := w.sent + 1 }

/-- After `esp_modem_new_dev`, with what the modem sent by itself still on its way. -/
def boot (modemApn sentAlready : Bytes) (turns : ℕ → Turn) : World where
  port := ⟨sentAlready, [], .init, .empty, []⟩
  turns := turns
  sent := 0
  pdp := .new modemApn
  dteMode := .undef
  dceMode := .undef
  pppStarted := false
  history := []

end World

inductive Stop
  | errorCheck
  /-- an exception is thrown, which aborts with exceptions switched off -/
  | exception
  /-- the polls granted to the run are used up -/
  | polling
  deriving DecidableEq, Repr

abbrev AppM := ExceptT Stop (StateM World)

def emit (e : Event) : AppM Unit := modify fun w => w.record [e]

def emitIf (c : Prop) [Decidable c] (e : Event) : AppM Unit :=
  if c then emit e else pure ()

end EspLtePpp
