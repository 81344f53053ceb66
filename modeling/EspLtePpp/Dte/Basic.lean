import EspLtePpp.Text.CString

/-! # The DTE and its read callback

One serial line joins the modem to the DTE. The UART task hands received bytes to
the read callback, which collects them in the DTE buffer and shows the whole buffer
to the reply callback of the command in progress. The URC handler and the inflatable
buffer are switched off in the build configuration.
-/

namespace EspLtePpp

inductive CommandResult | ok | fail | timeout
  deriving DecidableEq, Repr

structure GotLine where
  call : Bytes → Bytes → CommandResult × Bytes
  output : Bytes

def dteBufferSize : ℕ := 512

/-- The consumed part of the DTE buffer; it never exceeds the buffer. -/
structure UniqueBuffer where
  data : Bytes
  consumed_le : data.length ≤ dteBufferSize

namespace UniqueBuffer

def empty : UniqueBuffer := ⟨[], Nat.zero_le _⟩

def room (b : UniqueBuffer) : ℕ := dteBufferSize - b.data.length

def fill (b : UniqueBuffer) (rx : Bytes) : UniqueBuffer where
  data := b.data ++ rx.take b.room
  consumed_le := by
    have := b.consumed_le
    simp only [List.length_append, List.length_take, room]
    omega

@[simp] theorem data_empty : empty.data = [] := rfl
@[simp] theorem data_fill (b : UniqueBuffer) (rx : Bytes) :
    (b.fill rx).data = b.data ++ rx.take b.room := rfl

end UniqueBuffer

structure CommandCb where
  gotLine : Option GotLine
  separator : UInt8
  result : CommandResult
  signal : Bool

namespace CommandCb

def init : CommandCb := ⟨none, 0, .ok, false⟩

/-- `command_cb::set`; `none` is the consistency failure it throws. -/
def set (cb : CommandCb) (l : Option GotLine) (s : UInt8) : Option CommandCb :=
  match l with
  | some g => some { gotLine := some g, separator := s, result := .timeout, signal := false }
  | none =>
    if cb.signal = true ∧ cb.result = .timeout then none
    else some { cb with gotLine := none, separator := s }

def giveUp (cb : CommandCb) : CommandCb := { cb with result := .fail, signal := true }

/--
`command_cb::process_line` with `got_line` set to `g`: the callback sees the whole
buffer, but only when the new part of it holds a separator.
-/
def processLine (cb : CommandCb) (g : GotLine) (data : Bytes) (consumed : ℕ) :
    Bool × CommandCb :=
  if cb.separator ∈ data.drop consumed then
    let (result, output) := g.call g.output data
    let cb := { cb with gotLine := some { g with output := output }, result := result }
    match result with
    | .timeout => (false, cb)
    | _ => (true, { cb with signal := true })
  else (false, cb)

end CommandCb

/--
The serial line and the DTE at its end: bytes on their way from the modem, bytes in
the UART driver's FIFO, and the DTE. The last field is a history variable that no
step reads: the bytes read since the callback was last armed.
-/
structure Port where
  inflight : Bytes
  rx : Bytes
  commandCb : CommandCb
  buffer : UniqueBuffer
  taken : Bytes

namespace Port

def onRead (p : Port) : Bool × Port :=
  match p.commandCb.gotLine with
  | none => (false, p)
  | some g =>
    -- this line has been processed already (got OK or FAIL previously)
    if p.commandCb.result ≠ .timeout then (false, p)
    else if p.buffer.data.length < dteBufferSize then
      let data := (p.buffer.fill p.rx).data
      let (done, cb) := p.commandCb.processLine g data p.buffer.data.length
      let p' := { p with
        rx := p.rx.drop p.buffer.room
        taken := p.taken ++ p.rx.take p.buffer.room
        commandCb := cb }
      if done then (true, p') else (false, { p' with buffer := p.buffer.fill p.rx })
    -- cannot inflate -> report a failure
    else (true, { p with commandCb := p.commandCb.giveUp })

def uartTask (p : Port) : Port := if p.rx = [] then p else p.onRead.2

def arrive (p : Port) (n : ℕ) : Port :=
  { p with rx := p.rx ++ p.inflight.take n, inflight := p.inflight.drop n }

def send (p : Port) (reply : Bytes) : Port := { p with inflight := p.inflight ++ reply }

def outstanding (p : Port) : Bytes := p.rx ++ p.inflight

end Port

inductive LineStep
  | arrive (n : ℕ)
  | task
  deriving DecidableEq, Repr

def LineStep.apply : LineStep → Port → Port
  | .arrive n, p => p.arrive n
  | .task, p => p.uartTask

def Port.steps (l : List LineStep) (p : Port) : Port := l.foldl (fun p s => s.apply p) p

/--
What the line and the modem do around one command: the steps before the callback is
armed, the steps before the command is written, the steps until `wait_for_line`
returns and the callback is disarmed, and the bytes sent in answer. Time is not
modelled: a wait that ends without a signal is a timeout, after any delay.
-/
structure Turn where
  idle : List LineStep
  armed : List LineStep
  waiting : List LineStep
  reply : Bytes

def arrivals : List LineStep → ℕ
  | [] => 0
  | .arrive n :: l => n + arrivals l
  | .task :: l => arrivals l

/-- Everything arrives, also what is left of so many bytes sent earlier, and a round of the
UART task follows before the wait ends. -/
def Turn.Delivers (t : Turn) (earlier : ℕ) : Prop :=
  ∃ pre post, t.waiting = pre ++ .task :: post ∧
    earlier - arrivals (t.idle ++ t.armed) + t.reply.length ≤ arrivals pre

structure Exchange where
  cmd : Bytes
  timeMs : ℕ
  /-- bytes of earlier answers not yet read when the callback was armed -/
  stale : Bytes
  reply : Bytes
  handed : Bytes
  result : CommandResult
  deriving DecidableEq

/--
`DTE::command` with the separator `'\n'`: arm, write, wait, disarm, empty the buffer.
It returns what the callback left in the captured string; `none` is the failure
thrown by `command_cb::set`.
-/
def Port.command (p : Port) (t : Turn) (cmd : Bytes) (g : GotLine) (timeMs : ℕ) :
    Option (Exchange × Bytes × Port) := do
  let p := p.steps t.idle
  let stale := p.outstanding
  let cb ← p.commandCb.set (some g) LF
  let p := { p with commandCb := cb, taken := [] }
  let p := p.steps t.armed
  let p := p.send t.reply
  let p := p.steps t.waiting
  let output := (p.commandCb.gotLine.map GotLine.output).getD []
  let cb ← p.commandCb.set none LF
  let x := { cmd, timeMs, stale, reply := t.reply, handed := p.taken, result := cb.result }
  return (x, output, { p with commandCb := cb, buffer := .empty })

end EspLtePpp
