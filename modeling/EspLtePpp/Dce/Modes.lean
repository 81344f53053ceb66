import EspLtePpp.Dce.DataMode
import EspLtePpp.Dte.Terminals

/-! # Switching modes

The DCE switches the modem, the DTE and the network interface together. What the modem
answers, whether the multiplexer opens and closes, and what a probe of the line finds
is taken from an arbitrary sequence of answers. What is done is recorded in order.
-/

namespace EspLtePpp

namespace Modes

inductive DeviceCommand
  | setEcho
  | setPdpContext
  | setDataMode
  | resumeDataMode
  | setCommandMode
  | sync
  | setCmux
  deriving DecidableEq, Repr

inductive Guess
  | undef
  | commandMode
  | dataMode
  | cmuxMode
  deriving DecidableEq, Repr

/-- One answer of the surroundings, to whatever is asked next. -/
structure Answer where
  /-- what a command comes to, if its reply is heard -/
  result : CommandResult
  /-- what `CMux::init` or `CMux::deinit` returns -/
  line : Bool
  /-- whether a disconnection message comes within 2 s -/
  farewell : Bool
  guess : Guess

inductive Act
  | command (t : Terminal) (c : DeviceCommand) (r : CommandResult)
  | newline (t : Terminal)
  | guessed (t : Terminal) (g : Guess)
  /-- `esp_netif_action_start`, with the terminal that PPP writes to -/
  | pppStart (t : Terminal)
  | pppStop
  deriving DecidableEq

structure Dce where
  dte : Dte
  mode : ModemMode
  pppStarted : Bool
  answers : ℕ → Answer
  asked : ℕ
  acts : List Act

abbrev ModeM := StateM Dce

def act (a : Act) : ModeM Unit := modify fun w => { w with acts := w.acts ++ [a] }

def ask : ModeM Answer := do
  let w ← get
  set { w with asked := w.asked + 1 }
  return w.answers w.asked

def onDte (f : Dte → Dte) : ModeM Unit := modify fun w => { w with dte := f w.dte }

/-- A command on the primary terminal. Its reply is heard by the command callback only. -/
def command (c : DeviceCommand) : ModeM CommandResult := do
  let a ← ask
  let w ← get
  let t := w.dte.primaryTerm
  let r := if w.dte.readCb t = some .command then a.result else .timeout
  act (.command t c r)
  return r

def dteSetMode (m : ModemMode) : ModeM Bool := do
  let a ← ask
  let w ← get
  let (ok, dte) := w.dte.setMode m a.line
  set { w with dte := dte }
  return ok

def setupDataMode : ModeM Bool := do
  if (← command .setEcho) ≠ .ok then return false
  if (← command .setPdpContext) ≠ .ok then return false
  return true

def escape : ℕ → ModeM Bool
  | 0 => return false
  | n + 1 => do
    if (← command .setCommandMode) = .ok then return true
    let w ← get
    act (.newline w.dte.secondaryTerm)
    if (← command .sync) = .ok then return true
    escape n

def deviceSetMode : ModemMode → ModeM Bool
  | .dataMode => do
    if (← command .setDataMode) ≠ .ok then return (← command .resumeDataMode) = .ok
    return true
  | .commandMode => escape 3
  | .cmuxMode => return (← command .setCmux) = .ok
  | _ => return true

namespace Netif

def start : ModeM Unit := do
  onDte fun d => d.setReadCb (some .netif)
  let w ← get
  if !w.pppStarted then
    set { w with pppStarted := true }
    act (.pppStart w.dte.secondaryTerm)

def stop : ModeM Unit := do
  act .pppStop
  modify fun w => { w with pppStarted := false }

def resume : ModeM Unit := do
  onDte fun d => d.setReadCb (some .netif)
  modify fun w => { w with pppStarted := true }

def pause : ModeM Unit := modify fun w => { w with pppStarted := false }

end Netif

def exitData : ModeM Bool := do
  onDte fun d => d.setReadCb (some .farewell)
  Netif.stop
  if !(← ask).farewell then
    onDte fun d => d.setReadCb none
    if !(← deviceSetMode .commandMode) then return false
  onDte fun d => d.setReadCb none
  if !(← dteSetMode .commandMode) then return false
  return true

def enterData : ModeM Bool := do
  if !(← setupDataMode) then return false
  if !(← deviceSetMode .dataMode) then return false
  if !(← dteSetMode .dataMode) then return false
  Netif.start
  return true

/-- `guess_unsafe`: the probe listens on the primary terminal in place of the command callback. -/
def guessUnsafe (withCmux : Bool) : ModeM Guess := do
  let a ← ask
  let g := if a.guess = .cmuxMode ∧ withCmux = false then .undef else a.guess
  let w ← get
  act (.guessed w.dte.primaryTerm g)
  onDte fun d => (d.attach d.primaryTerm none).setCommandCallbacks
  return g

def setDceMode (m : ModemMode) : ModeM Unit := modify fun w => { w with mode := m }

/-- `DCE_Mode::set_unsafe` without `AUTODETECT`. -/
def setPlain (m : ModemMode) : ModeM Bool := do
  let w ← get
  match m with
  | .undef =>
    if !(← dteSetMode .undef) then return false
    setDceMode .undef
    return true
  | .dualMode => return false
  | .autodetect => return false
  | .commandMode =>
    if w.mode = .commandMode ∨ w.mode.isManual then return false
    if w.mode = .cmuxMode then
      Netif.stop
      if !(← dteSetMode .commandMode) then return false
      setDceMode .commandMode
      return true
    if !(← exitData) then
      setDceMode .undef
      return false
    setDceMode .commandMode
    return true
  | .resumeDataMode =>
    if !(← dteSetMode .dataMode) then return false
    Netif.start
    setDceMode .dataMode
    return true
  | .resumeCommandMode =>
    if !(← dteSetMode .commandMode) then return false
    setDceMode .commandMode
    return true
  | .resumeCmuxManualMode =>
    if !(← dteSetMode .cmuxManualMode) then return false
    setDceMode .cmuxManualMode
    return true
  | .resumeCmuxManualData =>
    if !(← dteSetMode .cmuxManualSwap) then return false
    Netif.start
    setDceMode .cmuxManualMode
    return true
  | .dataMode =>
    if w.mode = .dataMode ∨ w.mode = .cmuxMode ∨ w.mode.isManual then return false
    if !(← enterData) then return false
    setDceMode .dataMode
    return true
  | .cmuxMode =>
    if w.mode = .dataMode ∨ w.mode = .cmuxMode ∨ w.mode.isManual then return false
    -- the modem's answer is not looked at
    let _ ← deviceSetMode .cmuxMode
    if !(← dteSetMode .cmuxMode) then return false
    setDceMode .cmuxMode
    enterData
  | .cmuxManualMode =>
    if w.mode ≠ .commandMode ∧ w.mode ≠ .undef then return false
    let _ ← deviceSetMode .cmuxMode
    if !(← dteSetMode .cmuxManualMode) then return false
    setDceMode .cmuxManualMode
    return true
  | .cmuxManualExit =>
    if w.mode ≠ .cmuxManualMode ∧ w.mode ≠ .undef then return false
    if !(← dteSetMode .cmuxManualExit) then return false
    setDceMode .commandMode
    return true
  | .cmuxManualSwap =>
    if w.mode ≠ .cmuxManualMode ∧ w.mode ≠ .undef then return false
    dteSetMode .cmuxManualSwap
  | .cmuxManualData =>
    if w.mode ≠ .cmuxManualMode ∧ w.mode ≠ .undef then return false
    enterData
  | .cmuxManualCommand =>
    if w.mode ≠ .cmuxManualMode ∧ w.mode ≠ .undef then return false
    exitData

/-- `AUTODETECT`. The calls of `set_unsafe` inside it are for other modes. -/
def autodetect : ModeM Bool := do
  let guessed ← guessUnsafe true
  if guessed = .undef then return false
  if !(← dteSetMode .undef) then return false
  setDceMode .undef
  if guessed = .dataMode then return (← setPlain .resumeDataMode)
  if guessed = .commandMode then return (← setPlain .resumeCommandMode)
  if guessed = .cmuxMode then
    if !(← setPlain .resumeCmuxManualMode) then return false
    if (← guessUnsafe false) = .dataMode then
      if !(← setPlain .resumeCmuxManualData) then return false
    else
      if !(← setPlain .cmuxManualSwap) then return false
    if (← guessUnsafe false) = .dataMode then
      if !(← setPlain .resumeCmuxManualData) then return false
  return true

def setMode (m : ModemMode) : ModeM Bool :=
  if m = .autodetect then autodetect else setPlain m

def pauseNetif (doPause force : Bool) : ModeM CommandResult := do
  if doPause then
    Netif.pause
    onDte Dte.setCommandCallbacks
    command .setCommandMode
  else
    let result ← command .resumeDataMode
    if result = .ok ∨ force then Netif.resume
    return result

/-- What an application or a terminal asks for. `error` is `handle_error` on an error that calls
for `recover`. -/
inductive ModeOp
  | setMode (m : ModemMode)
  | pauseNetif (doPause force : Bool)
  | error
  deriving DecidableEq

namespace Dce

/-- `none` is a call on a null pointer. -/
def apply (w : Dce) : ModeOp → Option Dce
  | .setMode m => some ((setMode m).run w).2
  | .pauseNetif doPause force => some ((pauseNetif doPause force).run w).2
  | .error => w.dte.recover.map fun _ => w

def run (w : Dce) : List ModeOp → Option Dce
  | [] => some w
  | op :: ops => (w.apply op).bind fun w => w.run ops

def boot (dte : Dte) (answers : ℕ → Answer) : Dce := ⟨dte, .undef, false, answers, 0, []⟩

end Dce

end Modes

end EspLtePpp
