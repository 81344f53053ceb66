import EspLtePpp.App.World
import EspLtePpp.Cmux.Frame

/-! # The terminals of the DTE

A DTE sends commands on its primary terminal and data on its secondary one. Both are
the UART it was built with, or two UARTs, or the two instances of a multiplexer that
has taken the UART and the buffer over. Its mode says which of these it should be.
-/

namespace EspLtePpp

namespace Modes

/-- `first` and `second` are the terminals given to the constructor. -/
inductive Terminal
  | first
  | second
  | channel (inst : Fin maxTerminalsNum)
  deriving DecidableEq, Repr

inductive ReadCb
  | command
  | data
  | cmux
  deriving DecidableEq, Repr

inductive OnData
  | netif
  | farewell
  deriving DecidableEq, Repr

structure Dte where
  /-- whether the buffer is here and not with the multiplexer -/
  buffer : Bool
  /-- the terminal that the multiplexer has taken over -/
  cmuxTerm : Option Terminal
  primaryTerm : Terminal
  secondaryTerm : Terminal
  mode : ModemMode
  onData : Option OnData
  readCb : Terminal → Option ReadCb

namespace Dte

def attach (d : Dte) (t : Terminal) (cb : Option ReadCb) : Dte :=
  { d with readCb := fun u => if u = t then cb else d.readCb u }

def setCommandCallbacks (d : Dte) : Dte := d.attach d.primaryTerm (some .command)

def single : Dte :=
  setCommandCallbacks
    { buffer := true, cmuxTerm := none, primaryTerm := .first, secondaryTerm := .first,
      mode := .undef, onData := none, readCb := fun _ => none }

def dual : Dte :=
  setCommandCallbacks
    { buffer := true, cmuxTerm := none, primaryTerm := .first, secondaryTerm := .second,
      mode := .dualMode, onData := none, readCb := fun _ => none }

def swap (d : Dte) : Dte :=
  setCommandCallbacks { d with primaryTerm := d.secondaryTerm, secondaryTerm := d.primaryTerm }

def exitCmuxInternal (d : Dte) : Dte :=
  match d.cmuxTerm with
  | none => d
  | some t => setCommandCallbacks { d with buffer := true, primaryTerm := t, secondaryTerm := t }

def exitCmux (d : Dte) (closed : Bool) : Bool × Dte :=
  match d.cmuxTerm with
  | none => (false, d)
  | some t =>
    let d := if closed then d.attach t none else d
    (closed, { d.exitCmuxInternal with cmuxTerm := none })

/-- `setup_cmux`, when `CMux::init` returns `opened`. A new multiplexer has no callbacks yet. -/
def setupCmux (d : Dte) (opened : Bool) : Bool × Dte :=
  if d.cmuxTerm.isSome then (false, d)
  else
    let t := d.primaryTerm
    let d := { d with
      buffer := false
      cmuxTerm := some t
      readCb := fun
        | .channel _ => none
        | u => if u = t then some .cmux else d.readCb u }
    if opened then
      (true, setCommandCallbacks { d with primaryTerm := .channel 0, secondaryTerm := .channel 1 })
    else (false, { d.exitCmuxInternal with cmuxTerm := none })

/-- After a try: the new mode, or none at all. -/
def settle (m : ModemMode) (r : Bool × Dte) : Bool × Dte :=
  if r.1 then (true, { r.2 with mode := m }) else (false, { r.2 with mode := .undef })

/-- `DTE::set_mode`. `line` is what `CMux::init` or `CMux::deinit` returns, where one is called. -/
def setMode (d : Dte) (m : ModemMode) (line : Bool) : Bool × Dte :=
  match m with
  | .undef => (true, { d with mode := .undef })
  | .cmuxMode =>
    if d.mode = .undef ∨ d.mode = .commandMode then settle .cmuxMode (d.setupCmux line)
    else (false, { d with mode := .undef })
  | .dataMode | .resumeDataMode =>
    if d.mode = .cmuxMode ∨ d.mode = .cmuxManualMode ∨ d.mode = .dualMode then (true, d.swap)
    else (true, { d with mode := .dataMode })
  | .commandMode =>
    if d.mode = .cmuxMode then settle .commandMode (d.exitCmux line)
    else if d.mode = .cmuxManualMode ∨ d.mode = .dualMode then (true, d)
    else (true, { d with mode := .commandMode })
  | .cmuxManualMode => settle .cmuxManualMode (d.setupCmux line)
  | .cmuxManualExit =>
    if d.mode = .cmuxManualMode ∨ d.mode = .undef then settle .commandMode (d.exitCmux line)
    else (false, { d with mode := .undef })
  | .cmuxManualSwap =>
    if d.mode = .cmuxManualMode ∨ d.mode = .undef then (true, d.swap)
    else (false, { d with mode := .undef })
  | _ => (false, { d with mode := .undef })

def setReadCb (d : Dte) (f : Option OnData) : Dte :=
  match f with
  | none => d.setCommandCallbacks
  | some f => { d with onData := some f }.attach d.secondaryTerm (some .data)

/-- `DTE::recover`: whether the multiplexer was restarted; `none` is a call on a null pointer. -/
def recover (d : Dte) : Option Bool :=
  if d.mode = .cmuxMode ∨ d.mode = .cmuxManualMode ∨ d.mode = .dualMode then
    if d.cmuxTerm.isSome then some true else none
  else some false

end Dte

end Modes

end EspLtePpp
