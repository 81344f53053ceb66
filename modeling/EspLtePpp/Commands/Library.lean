import EspLtePpp.App.World
import EspLtePpp.Commands.Reply

/-! # The AT command library

Each command writes its text, waits for the reply and interprets it. Output
parameters are returned: `none` where the command leaves the variable alone.
-/

namespace EspLtePpp

def command (cmd : Bytes) (g : GotLine) (timeMs : ℕ) : AppM (CommandResult × Bytes) := do
  let w : World ← get
  match w.port.command (w.turns w.sent) cmd g timeMs with
  | none => throw .exception
  | some (x, output, port) =>
    set (w.exchanged x port)
    return (x.result, output)

def genericGetString (cmd : Bytes) (timeoutMs : ℕ) : AppM (CommandResult × Bytes) :=
  command cmd ⟨getStringCb, []⟩ timeoutMs

def genericCommand (cmd : Bytes) (pass fail : List Bytes) (timeoutMs : ℕ) :
    AppM CommandResult := do
  let (result, _) ← command cmd ⟨genericCommandCb pass fail, []⟩ timeoutMs
  return result

def genericCommandCommon (cmd : Bytes) (timeoutMs : ℕ) : AppM CommandResult :=
  genericCommand cmd [ascii "OK"] [ascii "ERROR"] timeoutMs

def defaultTimeoutMs : ℕ := 500

def parsePin (ret : CommandResult) (out : Bytes) : CommandResult × Option Bool :=
  if ret ≠ .ok then (ret, none)
  else if !find out (ascii "+CPIN:") then (.fail, none)
  else if find out (ascii "SIM PIN") || find out (ascii "SIM PUK") then (.ok, some false)
  else if find out (ascii "READY") then (.ok, some true)
  else (.fail, none)

def readPin : AppM (CommandResult × Option Bool) := do
  let (ret, out) ← genericGetString (ascii "AT+CPIN?\r") defaultTimeoutMs
  return parsePin ret out

def getImei : AppM (CommandResult × Bytes) := genericGetString (ascii "AT+CGSN\r") 5000

def atCommand (cmd : Bytes) (timeout : ℕ) : AppM (CommandResult × Bytes) :=
  genericGetString (cmd ++ ascii "\r") timeout

def isDigit (b : UInt8) : Bool := 48 ≤ b ∧ b ≤ 57

/--
`std::from_chars` for an `int`: `none` is `invalid_argument`, and the value is left
alone when it is out of range.
-/
def fromChars (b : Bytes) : Option (Option ℤ) :=
  let (neg, rest) := match b with
    | 45 :: rest => (true, rest)
    | _ => (false, b)
  match rest.takeWhile isDigit with
  | [] => none
  | ds =>
    let n : ℤ := ds.foldl (fun v d => v * 10 + (d.toNat - 48)) 0
    let v := if neg then -n else n
    if -2147483648 ≤ v ∧ v ≤ 2147483647 then some (some v) else some none

def parseCsq (ret : CommandResult) (out : Bytes) :
    CommandResult × Option ℤ × Option ℤ :=
  if ret ≠ .ok then (ret, none, none)
  else if !find out (ascii "+CSQ: ") then (.fail, none, none)
  else
    match out.findIdx? (· = 44) with
    | none => (.fail, none, none)
    | some berPos =>
      match fromChars ((out.take berPos).drop 6) with
      | none => (.fail, none, none)
      | some rssi =>
        match fromChars (out.drop (berPos + 1)) with
        | none => (.fail, rssi, none)
        | some ber => (.ok, rssi, ber)

def getSignalQuality : AppM (CommandResult × Option ℤ × Option ℤ) := do
  let (ret, out) ← genericGetString (ascii "AT+CSQ\r") defaultTimeoutMs
  return parseCsq ret out

def setEcho (on : Bool) : AppM CommandResult :=
  if on then genericCommandCommon (ascii "ATE1\r") defaultTimeoutMs
  else genericCommandCommon (ascii "ATE0\r") defaultTimeoutMs

def pdpCommand (pdp : PdpContext) : Bytes :=
  ascii "AT+CGDCONT=" ++ ascii (toString pdp.contextId) ++ ascii ",\"" ++ pdp.protocolType ++
    ascii "\",\"" ++ pdp.apn ++ ascii "\"\r"

def setPdpContext (pdp : PdpContext) : AppM CommandResult :=
  genericCommandCommon (pdpCommand pdp) 1000

def setDataMode : AppM CommandResult :=
  genericCommand (ascii "ATD*99#\r") [ascii "CONNECT"] [ascii "ERROR"] 5000

def resumeDataMode : AppM CommandResult :=
  genericCommand (ascii "ATO\r") [ascii "CONNECT"] [ascii "ERROR"] 5000

end EspLtePpp
