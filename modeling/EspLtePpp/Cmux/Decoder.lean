import EspLtePpp.Cmux.Frame
import EspLtePpp.Library.Loop
import EspLtePpp.Library.Region

/-! # The receiver of the multiplexed line

A state machine over chunks that the UART task reads into one buffer. Payloads are
not copied: the receiver keeps where in the buffer the payload of the frame at hand
starts and how much of it is there, and reads on right behind it. A copy or a slice
outside its memory makes a step undefined.
-/

namespace EspLtePpp

inductive CMuxState
  | init | header | payload | footer | recover
  deriving DecidableEq, Repr

/-- What the receiver tells others: `post` is the call of a read callback, with `none` for
the null pointer; `ack` and `disc` are the two places that set `sabm_ack`. -/
inductive Notice
  | post (virtualTerm : Fin maxTerminalsNum) (data : Option Bytes)
  | ack (dlci : UInt8)
  | disc
  deriving DecidableEq

structure CMuxFrame where
  ptr : ℕ
  data : Bytes
  deriving DecidableEq

namespace CMuxFrame

def len (frame : CMuxFrame) : ℕ := frame.data.length

def advance (frame : CMuxFrame) (size : ℕ) : CMuxFrame :=
  ⟨frame.ptr + size, frame.data.drop size⟩

def first (frame : CMuxFrame) (size : ℕ) : CMuxFrame := ⟨frame.ptr, frame.data.take size⟩

def isSof (frame : CMuxFrame) (i : ℕ) : Bool := frame.data[i]? == some sofMarker

end CMuxFrame

structure CMux (size : ℕ) where
  readCb : Fin maxTerminalsNum → Bool
  state : CMuxState
  dlci : UInt8
  type : UInt8
  payloadLen : ℕ
  frameHeader : Region UInt8 6
  frameHeaderOffset : ℕ
  payloadStart : Option ℕ
  totalPayloadSize : ℕ
  sabmAck : ℤ
  buffer : Region UInt8 size
  log : List Notice

namespace CMux

variable {size : ℕ}

def setReadCb (s : CMux size) (inst : Fin maxTerminalsNum) (f : Bool) : CMux size :=
  { s with readCb := fun i => if i = inst then f else s.readCb i }

def recoverProtocol (s : CMux size) : CMux size :=
  { s with payloadStart := none, totalPayloadSize := 0, frameHeaderOffset := 0, state := .recover }

/-- `payload_start = payload_start ?: data; total_payload_size += len`. -/
def accumulate (s : CMux size) (view : CMuxFrame) : CMux size :=
  match s.payloadStart with
  | none => { s with payloadStart := some view.ptr, totalPayloadSize := view.len }
  | some _ => { s with totalPayloadSize := s.totalPayloadSize + view.len }

/-- `read_cb[virtual_term](payload_start, total_payload_size)`. -/
def post (s : CMux size) (virtualTerm : Fin maxTerminalsNum) : Option (CMux size) :=
  match s.payloadStart with
  | none => some { s with log := s.log ++ [.post virtualTerm none] }
  | some p => (s.buffer.slice p s.totalPayloadSize).map fun data =>
      { s with log := s.log ++ [.post virtualTerm (some data)] }

/-- `data_available`; `none` is the call with a null pointer and no length. -/
def dataAvailable (s : CMux size) : Option CMuxFrame → Option (Bool × CMux size)
  | some view =>
    if isUih s.type ∧ 0 < view.len ∧ 0 < s.dlci then
      if h : s.dlci.toNat - 1 < maxTerminalsNum then
        -- data of a terminal without a callback is ignored
        if s.readCb ⟨s.dlci.toNat - 1, h⟩ then some (true, s.accumulate view) else some (true, s)
      else some (false, s)
    else if isUih s.type ∧ s.dlci = 0 then
      if view.data.head?.any (· &&& 0xE1 == 0xE1) then some (true, s)
      else some (true, { s with sabmAck := s.dlci.toNat, log := s.log ++ [.disc] })
    else some (false, s)
  | none =>
    if isUa s.type then
      some (true, { s with sabmAck := s.dlci.toNat, log := s.log ++ [.ack s.dlci] })
    else if 0 < s.dlci then
      if h : s.dlci.toNat - 1 < maxTerminalsNum then
        if s.readCb ⟨s.dlci.toNat - 1, h⟩ then
          (s.post ⟨s.dlci.toNat - 1, h⟩).map fun s => (true, s)
        else some (true, s)
      else some (false, s)
    else if isUih s.type ∧ s.dlci = 0 then some (true, s)
    else some (false, s)

def onInit (s : CMux size) (frame : CMuxFrame) : Option (Bool × CMux size × CMuxFrame) :=
  if ¬frame.isSof 0 then some (true, s.recoverProtocol, frame)
  else if frame.isSof 1 then some (true, s, frame.advance 1)
  else some (true, { s with state := .header, frameHeaderOffset := 1 }, frame.advance 1)

def onRecovery (s : CMux size) (frame : CMuxFrame) : Option (Bool × CMux size × CMuxFrame) :=
  if frame.isSof 0 then some (true, { s with state := .init }, frame)
  else
    match frame.data.idxOf? sofMarker with
    | none => some (false, s, frame)
    | some i =>
      let frame := frame.advance i
      let s := { s with state := .init }
      if frame.isSof 1 then some (true, s, frame.advance 1) else some (true, s, frame)

def headerDone (s : CMux size) (frame : CMuxFrame) (payloadOffset : ℕ) :
    Option (Bool × CMux size × CMuxFrame) :=
  let s := { s with dlci := s.frameHeader.get 1 >>> 2, type := s.frameHeader.get 2 }
  if maxTerminalsNum < s.dlci.toNat ∨ s.frameHeader.get 1 &&& EA = 0 ∨
      (isUih s.type = false ∧ isUa s.type = false) then
    some (true, s.recoverProtocol, frame)
  else
    some (true,
      { s with payloadLen := s.payloadLen + (s.frameHeader.get 3 >>> 1).toNat, state := .payload },
      frame.advance payloadOffset)

def onHeader (s : CMux size) (frame : CMuxFrame) : Option (Bool × CMux size × CMuxFrame) :=
  let offset := s.frameHeaderOffset
  if 0 < frame.len ∧ offset = 1 ∧ frame.isSof 0 then some (true, s, frame.advance 1)
  else if frame.len + offset < 4 then do
    let header ← s.frameHeader.memcpy offset frame.data
    some (false, { s with frameHeader := header, frameHeaderOffset := offset + frame.len }, frame)
  else do
    let payloadOffset := min frame.len (4 - offset)
    let header ← s.frameHeader.memcpy offset (frame.data.take payloadOffset)
    if header.get 3 &&& 1 = 0 then
      if offset + frame.len ≤ 4 then
        some (false, { s with frameHeader := header, frameHeaderOffset := offset + frame.len },
          frame)
      else
        let payloadOffset := min frame.len (5 - offset)
        let header ← header.memcpy offset (frame.data.take payloadOffset)
        headerDone
          { s with
            frameHeader := header
            payloadLen := (header.get 4).toNat <<< 7
            -- back to the four bytes that the footer continues
            frameHeaderOffset := offset + payloadOffset - 1 }
          frame payloadOffset
    else
      headerDone
        { s with
          frameHeader := header, payloadLen := 0, frameHeaderOffset := offset + payloadOffset }
        frame payloadOffset

def onPayload (s : CMux size) (frame : CMuxFrame) : Option (Bool × CMux size × CMuxFrame) :=
  if frame.len < s.payloadLen then do
    let (ok, s) ← { s with state := .payload }.dataAvailable (some frame)
    if ok then some (false, { s with payloadLen := s.payloadLen - frame.len }, frame)
    else some (true, s.recoverProtocol, frame)
  else do
    let (ok, s) ←
      if 0 < s.payloadLen then s.dataAvailable (some (frame.first s.payloadLen))
      else some (true, s)
    if ok then
      some (true, { s with state := .footer, payloadLen := 0 }, frame.advance s.payloadLen)
    else some (true, s.recoverProtocol, frame)

def onFooter (s : CMux size) (frame : CMuxFrame) : Option (Bool × CMux size × CMuxFrame) :=
  let offset := s.frameHeaderOffset
  if frame.len + offset < 6 then do
    let header ← s.frameHeader.memcpy offset frame.data
    some (false, { s with frameHeader := header, frameHeaderOffset := offset + frame.len }, frame)
  else do
    let footerOffset := min frame.len (6 - offset)
    let header ← s.frameHeader.memcpy offset (frame.data.take footerOffset)
    let s := { s with frameHeader := header }
    if header.get 5 ≠ sofMarker then some (true, s.recoverProtocol, frame)
    else
      let frame := frame.advance footerOffset
      let (ok, s) ← { s with state := .init, frameHeaderOffset := 0 }.dataAvailable none
      if ok then some (true, { s with payloadStart := none, totalPayloadSize := 0 }, frame)
      else some (true, s.recoverProtocol, frame)

def turn (t : CMux size × CMuxFrame) : Option (Bool × CMux size × CMuxFrame) :=
  match t.1.state with
  | .recover => t.1.onRecovery t.2
  | .init => t.1.onInit t.2
  | .header => t.1.onHeader t.2
  | .payload => t.1.onPayload t.2
  | .footer => t.1.onFooter t.2

/-- Turns that a chunk can take: no byte keeps the loop for more than five. -/
def maxTurns (len : ℕ) : ℕ := 5 * len + 5

/-- `buffer.size - 128` in a 32-bit `size_t`. -/
def firstRead (size : ℕ) : ℕ := (size + 2 ^ 32 - 128) % 2 ^ 32

/-- Where in the buffer `on_cmux_data` reads to and how many bytes it asks for. A payload that
would not fit any more is given away first. -/
def readRequest (s : CMux size) : Option (CMux size × ℕ × ℕ) :=
  match s.payloadStart with
  | none => some (s, 0, firstRead size)
  | some p =>
    let data := p + s.totalPayloadSize
    let dataToRead := s.payloadLen + 2
    if size ≤ data + dataToRead then
      (s.dataAvailable none).map fun r =>
        let s := r.2
        (if s.totalPayloadSize < s.payloadLen then
          { s with payloadStart := none, totalPayloadSize := 0 }
        else s.recoverProtocol, 0, size)
    else some (s, data, dataToRead)

/-- `on_cmux_data` with a null pointer, when the terminal has `avail` to read. The second
value is what it leaves in the terminal. -/
def onCmuxData (s : CMux size) (avail : Bytes) : Option (CMux size × Bytes) := do
  let (s, data, dataToRead) ← s.readRequest
  let got := avail.take dataToRead
  let buffer ← s.buffer.memcpy data got
  let (_, s, _) ← Loop.loop (fun t => 0 < t.2.len) turn (maxTurns got.length)
    ({ s with buffer := buffer }, (⟨data, got⟩ : CMuxFrame))
  some (s, avail.drop dataToRead)

end CMux

structure MuxLine (size : ℕ) where
  cmux : CMux size
  pending : Bytes

/-- What can happen on the line: bytes come and the UART task calls the receiver if there is
anything to read; an error restarts the protocol; an overrun empties the UART; and a terminal's
callback is set or taken away. -/
inductive MuxOp
  | arrive (bytes : Bytes)
  | recover
  | flush
  | setReadCb (inst : Fin maxTerminalsNum) (f : Bool)

namespace MuxLine

variable {size : ℕ}

def apply (l : MuxLine size) : MuxOp → Option (MuxLine size)
  | .arrive bytes =>
    if l.pending ++ bytes = [] then some l
    else (l.cmux.onCmuxData (l.pending ++ bytes)).map fun r => ⟨r.1, r.2⟩
  | .recover => some { l with cmux := l.cmux.recoverProtocol }
  | .flush => some { l with pending := [] }
  | .setReadCb inst f => some { l with cmux := l.cmux.setReadCb inst f }

def run (l : MuxLine size) : List MuxOp → Option (MuxLine size)
  | [] => some l
  | op :: ops => (l.apply op).bind fun l' => l'.run ops

end MuxLine

end EspLtePpp
