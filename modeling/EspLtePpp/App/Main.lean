import EspLtePpp.App.CApi

/-! # `app_main`

Wait for the SIM, ask the modem about itself and its network, pick the APN by the
operator's name and enter data mode. Power, GPIO and the event handlers are left out.
-/

namespace EspLtePpp

/-- The operators known to the automatic choice, in the order they are tried. -/
inductive Operator | viettel | mobifone | wintel | vinaphone
  deriving DecidableEq, Repr

namespace Operator

def all : List Operator := [viettel, mobifone, wintel, vinaphone]

def spellings : Operator → List Bytes
  | viettel => [ascii "VIETTEL", ascii "Viettel", ascii "viettel"]
  | mobifone => [ascii "MOBIFONE", ascii "Mobifone", ascii "mobifone"]
  | wintel => [ascii "WINTEL", ascii "Wintel", ascii "wintel"]
  | vinaphone => [ascii "VINAPHONE", ascii "VinaPhone", ascii "vinaphone", ascii "VN VINAPHONE"]

def apn : Operator → Bytes
  | viettel => ascii "v-internet"
  | mobifone => ascii "m-wap"
  | wintel => ascii "m9-wintel"
  | vinaphone => ascii "m3-world"

end Operator

def apnToUse {size : ℕ} (modemApn : Bytes) (copsResponse : CharArray size) : Bytes :=
  match Operator.all.find? fun o => o.spellings.any (strstr copsResponse) with
  | some o => o.apn
  | none => modemApn

/--
The SIM loop. `pin_ok` and `retry_count` survive from one poll to the next; the first
argument bounds the polls of the run.
-/
def waitForSim : ℕ → Bool → ℕ → AppM Unit
  | 0, _, _ => throw .polling
  | polls + 1, pinOk, retryCount => do
    let (err, pin) ← espModemReadPin
    let pinOk := pin.getD pinOk
    if err = .ok ∧ pinOk then emit .simReady
    else
      let retryCount := retryCount + 1
      emitIf (retryCount % 5 = 0) (.simSearching retryCount)
      waitForSim polls pinOk retryCount

/-- `if (esp_modem_at(dce, cmd, buf, timeout) == ESP_OK) ESP_LOGI(TAG, .., buf)` -/
def askAndReport {size : ℕ} (cmd : Bytes) (buf : CharArray size) (timeout : ℕ) :
    AppM (CharArray size) := do
  let (err, buf) ← espModemAt cmd buf timeout
  emitIf (err = .ok) (.reported buf.text)
  return buf

def reportImei : AppM Unit := do
  let (err, imei) ← espModemGetImei (.zero 32)
  emitIf (err = .ok) (.imei imei.text)

def reportSignalQuality : AppM Unit := do
  let (err, rssi, _) ← espModemGetSignalQuality
  emitIf (err = .ok) (.signalQuality (rssi.getD 0))

def espErrorCheck (err : EspErr) : AppM Unit := if err ≠ .ok then throw .errorCheck else pure ()

def dial (modemApn apn : Bytes) : AppM Unit := do
  (if apn ≠ modemApn then espModemSetApn apn else pure ())
  espErrorCheck (← espModemSetMode)

def askModem : AppM (CharArray 128) := do
  let response ← askAndReport (ascii "ATI\r\n") (.zero 128) 1000
  reportImei
  let response ← askAndReport (ascii "AT+CREG?\r\n") response 2000
  let copsResponse ← askAndReport (ascii "AT+COPS?\r\n") (.zero 128) 2000
  let _ ← askAndReport (ascii "AT+CPSI?\r\n") response 2000
  reportSignalQuality
  return copsResponse

def appMain (modemApn : Bytes) (polls : ℕ) : AppM Unit := do
  waitForSim polls false 0
  let copsResponse ← askModem
  let apn := apnToUse modemApn copsResponse
  emit (.operatorTest copsResponse.text apn)
  dial modemApn apn

section Runs

variable (modemApn : CString) (sentAlready : Bytes) (turns : ℕ → Turn) (polls : ℕ)

def runMain : Except Stop Unit × World :=
  Exec.exec (appMain modemApn.bytes polls) (.boot modemApn.bytes sentAlready turns)

def history : List Event := (runMain modemApn sentAlready turns polls).2.history

def ending : Except Stop Unit := (runMain modemApn sentAlready turns polls).1

end Runs

end EspLtePpp
