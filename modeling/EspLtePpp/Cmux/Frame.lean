import EspLtePpp.Text.CString
import Mathlib.Algebra.Group.Nat.Defs
import Mathlib.Logic.Function.Iterate

/-! # Frames of the multiplexed line

The multiplexer cuts what a virtual terminal writes into batches of at most 127
bytes and sends each in a frame of its own. `Frame` is what such bytes say: a frame
that the line format allows, with short or long length field.
-/

namespace EspLtePpp

def EA : UInt8 := 0x01

def PF : UInt8 := 0x10
def ftSabm : UInt8 := 0x2F
def ftDisc : UInt8 := 0x43
def ftUa : UInt8 := 0x63
def ftUih : UInt8 := 0xEF
def sofMarker : UInt8 := 0xF9
abbrev maxTerminalsNum : ℕ := 2

def isUih (type : UInt8) : Bool := type &&& ftUih == ftUih

def isUa (type : UInt8) : Bool := type == ftUa ||| PF

def fcsShift (crc : UInt8) : UInt8 := if crc &&& 0x01 ≠ 0 then crc >>> 1 ^^^ 0xe0 else crc >>> 1

def fcsByte (crc b : UInt8) : UInt8 := fcsShift^[8] (crc ^^^ b)

/-- `fcs_crc`: over the address, the control field and the first length octet. -/
def fcsCrc (frame : Bytes) : UInt8 := ((frame.drop 1).take 3).foldl fcsByte 0xFF

namespace CMux

def cmuxMaxLen : ℕ := 127

/-- The writes on the shared terminal that `write` turns one batch into. -/
def writeBatch (i : ℕ) (batch : Bytes) : List Bytes :=
  let frame : Bytes :=
    [sofMarker, .ofNat (i <<< 2 + 1), ftUih, .ofNat (batch.length <<< 1 + 1)]
  [frame, batch, [0xFF - fcsCrc frame, sofMarker]]

/-- The writes on the shared terminal; the value returned is the length of the data. -/
def write (virtualTerm : ℕ) (data : Bytes) : List Bytes :=
  if data = [] then []
  else
    let batchLen := min data.length cmuxMaxLen
    writeBatch (virtualTerm + 1) (data.take batchLen) ++ write virtualTerm (data.drop batchLen)
termination_by data.length
decreasing_by
  have : data.length ≠ 0 := by simpa using ‹¬data = []›
  simp only [List.length_drop, cmuxMaxLen]
  omega

def sendSabm (i : ℕ) : Bytes :=
  let frame : Bytes := [sofMarker, .ofNat (i <<< 2 ||| 0x3), ftSabm ||| PF, 1]
  frame ++ [0xFF - fcsCrc frame, sofMarker]

def sendDisconnect (i : ℕ) : Bytes :=
  if i = 0 then [sofMarker, 0x3, 0xEF, 0x5, 0xC3, 0x1, 0xF2, sofMarker]
  else
    let frame : Bytes := [sofMarker, 0x3 ||| .ofNat (i <<< 2), ftDisc ||| PF, 0x1]
    frame ++ [0xFF - fcsCrc frame, sofMarker]

end CMux

/-- What the receiver accepts in the header of a frame. -/
structure Heading where
  dlci : UInt8
  type : UInt8
  deriving DecidableEq

def Heading.Accepted (h : Heading) : Prop :=
  h.dlci.toNat ≤ maxTerminalsNum ∧ (isUih h.type = true ∨ isUa h.type = true)

instance (h : Heading) : Decidable h.Accepted := inferInstanceAs (Decidable (_ ∧ _))

/-- What the bytes after the flag say once the length field is complete: the address, the
control field and the number of payload bytes. -/
def headerOf : Bytes → Option (UInt8 × UInt8 × ℕ)
  | [addr, type, len] =>
    if len &&& EA = 0 then none else some (addr, type, (len >>> 1).toNat)
  | [addr, type, len, more] =>
    if len &&& EA = 0 then some (addr, type, more.toNat <<< 7 + (len >>> 1).toNat) else none
  | _ => none

def HeaderOk (addr type : UInt8) : Prop :=
  addr &&& EA ≠ 0 ∧ (Heading.mk (addr >>> 2) type).Accepted

instance (addr type : UInt8) : Decidable (HeaderOk addr type) :=
  inferInstanceAs (Decidable (_ ∧ _))

theorem headerOf_of_length_lt {bs : Bytes} (h : bs.length < 3) : headerOf bs = none := by
  match bs, h with
  | [], _ => rfl
  | [_], _ => rfl
  | [_, _], _ => rfl

theorem headerOf_three_eq_none_iff {addr type len : UInt8} :
    headerOf [addr, type, len] = none ↔ len &&& EA = 0 := by
  rw [headerOf]
  split <;> simp_all

theorem length_of_headerOf {bs : Bytes} {r : UInt8 × UInt8 × ℕ} (h : headerOf bs = some r) :
    bs.length = 3 ∨ bs.length = 4 := by
  unfold headerOf at h
  split at h
  · exact .inl rfl
  · exact .inr rfl
  · cases h

/-- A frame with a header that is accepted and a payload that its length field can count. -/
structure Frame where
  heading : Heading
  cr : Bool
  long : Bool
  payload : Bytes
  fcs : UInt8
  accepted : heading.Accepted
  length_payload : payload.length < if long then 2 ^ 15 else 2 ^ 7
  ua_empty : isUa heading.type = true → payload = []

namespace Frame

def address (f : Frame) : UInt8 := f.heading.dlci <<< 2 ||| (if f.cr then 0x02 else 0) ||| EA

/-- The length field: one octet with the extension bit, or two without it in the first. -/
def lengthField (f : Frame) : Bytes :=
  if f.long then [.ofNat ((f.payload.length % 128) <<< 1), .ofNat (f.payload.length / 128)]
  else [.ofNat (f.payload.length <<< 1 + 1)]

def bytes (f : Frame) : Bytes :=
  [sofMarker, f.address, f.heading.type] ++ f.lengthField ++ f.payload ++ [f.fcs, sofMarker]

end Frame

end EspLtePpp
