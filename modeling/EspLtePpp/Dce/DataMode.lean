import EspLtePpp.Commands.Library

/-! # Entering data mode

The module is set up with the echo off and its PDP context, then dials, with `ATO` as
a fallback; only then the DTE changes its mode and the network interface starts.
-/

namespace EspLtePpp

namespace GenericModule

def setupDataMode : AppM Bool := do
  if (← setEcho false) ≠ .ok then return false
  let w : World ← get
  if (← setPdpContext w.pdp) ≠ .ok then return false
  return true

def setMode : AppM Bool := do
  if (← setDataMode) ≠ .ok then return (← resumeDataMode) = .ok
  return true

def configurePdpContext (newPdp : PdpContext) : AppM Unit :=
  modify fun w : World => { w with pdp := newPdp }

end GenericModule

/--
The branch `DATA_MODE` of `DTE::set_mode`. With two terminals they are swapped and the
mode stays.
-/
def Dte.setMode : AppM Bool := do
  modify fun w : World =>
    if w.dteMode = .cmuxMode ∨ w.dteMode = .cmuxManualMode ∨ w.dteMode = .dualMode then w
    else { w with dteMode := .dataMode }
  return true

def Netif.start : AppM Unit := do
  let w : World ← get
  if !w.pppStarted then set { w.record [.pppStarted] with pppStarted := true }

def enterData : AppM Bool := do
  if !(← GenericModule.setupDataMode) then return false
  if !(← GenericModule.setMode) then return false
  if !(← Dte.setMode) then return false
  Netif.start
  return true

def ModemMode.isManual : ModemMode → Bool
  | .undef | .commandMode | .dataMode | .dualMode | .cmuxMode => false
  | _ => true

/-- The branch `DATA_MODE` of `DCE_Mode::set`. -/
def DceMode.set : AppM Bool := do
  let w : World ← get
  if w.dceMode = .dataMode ∨ w.dceMode = .cmuxMode ∨ w.dceMode.isManual then return false
  if !(← enterData) then return false
  modify fun w : World => { w with dceMode := .dataMode }
  return true

end EspLtePpp
