import EspLtePpp.Dce.DataMode

/-! # The C interface

The wrappers convert results and copy strings into the caller's arrays. The size they
give to `strlcpy` is a build option and not the size of the array.
-/

namespace EspLtePpp

def cApiStrMax : ℕ := 128

variable {size : ℕ}

def copyOut (pOut : CharArray size) (out : Bytes) : AppM (CharArray size) := do
  emit (.stored size (strlcpyIndices out cApiStrMax))
  return strlcpy pOut out cApiStrMax

def espModemReadPin : AppM (EspErr × Option Bool) := do
  let (ret, pin) ← readPin
  let err := commandResponseToEspErr ret
  emit (.readPin err pin)
  return (err, pin)

def espModemAt (cmd : Bytes) (pOut : CharArray size) (timeout : ℕ) :
    AppM (EspErr × CharArray size) := do
  let (ret, out) ← atCommand cmd timeout
  let err := commandResponseToEspErr ret
  if out ≠ [] then return (err, ← copyOut pOut out)
  return (err, pOut)

def espModemGetImei (pImei : CharArray size) : AppM (EspErr × CharArray size) := do
  let (ret, imei) ← getImei
  let err := commandResponseToEspErr ret
  if err = .ok ∧ imei ≠ [] then return (err, ← copyOut pImei imei)
  return (err, pImei)

def espModemGetSignalQuality : AppM (EspErr × Option ℤ × Option ℤ) := do
  let (ret, rssi, ber) ← getSignalQuality
  return (commandResponseToEspErr ret, rssi, ber)

def espModemSetApn (apn : Bytes) : AppM Unit := GenericModule.configurePdpContext (.new apn)

/-- `esp_modem_set_mode(dce, ESP_MODEM_MODE_DATA)` -/
def espModemSetMode : AppM EspErr := do
  return if ← DceMode.set then .ok else .fail

end EspLtePpp
