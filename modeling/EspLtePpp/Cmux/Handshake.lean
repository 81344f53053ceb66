import EspLtePpp.Cmux.Safety
import EspLtePpp.Library.Polling

/-! # Opening and closing the multiplexer

`init` asks for the control channel and for both virtual terminals, one after the
other, and `deinit` gives them back. Each request is sent once; then the sender looks
at `sabm_ack` every 10 ms. What the other side does is arbitrary: it hears what is
written and acts on the line while the sender sleeps.
-/

namespace EspLtePpp

/-- The other end of the line. `act` is what it makes of 10 ms. -/
structure Peer where
  State : Type
  hear : State → Bytes → State
  act : State → State × List MuxOp

/-- What passes between the two ends: a write, a sleep, and what the receiver tells. -/
inductive Talk
  | sent (frame : Bytes)
  | slept
  | told (notice : Notice)
  deriving DecidableEq

structure Session (p : Peer) (size : ℕ) where
  line : MuxLine size
  peer : p.State
  talk : List Talk

namespace Session

variable {p : Peer} {size : ℕ}

def write (c : Session p size) (frame : Bytes) : Session p size :=
  { c with peer := p.hear c.peer frame, talk := c.talk ++ [.sent frame] }

def setAck (c : Session p size) (ack : ℤ) : Session p size :=
  { c with line := { c.line with cmux := { c.line.cmux with sabmAck := ack } } }

def sleep (c : Session p size) : Option (Session p size) :=
  let (peer, ops) := p.act c.peer
  (c.line.run ops).map fun line =>
    { line := line
      peer := peer
      talk := c.talk ++
        .slept :: (line.cmux.log.drop c.line.cmux.log.length).map .told }

def acked (i : ℕ) (c : Session p size) : Bool := c.line.cmux.sabmAck == i

/-- How often `sabm_ack` is looked at before `timeout++ > 100` holds. -/
def looks : ℕ := 102

/-- One request and the loop that waits for its acknowledgement. -/
def request (c : Session p size) (i : ℕ) (frame : Bytes) : Option (Bool × Session p size) :=
  Polling.poll sleep (acked i) looks (c.write frame)

def requests (c : Session p size) : List (ℕ × Bytes) → Option (Bool × Session p size)
  | [] => some (true, c)
  | (i, frame) :: rest => do
    let (ok, c) ← c.request i frame
    if ok then requests (c.setAck (-1)) rest else some (false, c)

def initFrames : List (ℕ × Bytes) := (List.range 3).map fun i => (i, CMux.sendSabm i)

/-- `init`, from where the receiver's callback is set. -/
def init (c : Session p size) : Option (Bool × Session p size) :=
  let cmux := { c.line.cmux with frameHeaderOffset := 0, state := .init, sabmAck := -1 }
  { c with line := { c.line with cmux := cmux } }.requests initFrames

def deinitFrames : List (ℕ × Bytes) := [1, 2].map fun i => (i, CMux.sendDisconnect i)

/-- `deinit`, to where the receiver's callback is taken away. -/
def deinit (c : Session p size) : Option (Bool × Session p size) := do
  let (ok, c) ← (c.setAck (-1)).requests deinitFrames
  if ok then (c.setAck (-1)).request 0 (CMux.sendDisconnect 0) else some (false, c)

end Session

def Notice.ack? : Notice → Option UInt8
  | .ack dlci => some dlci
  | .disc => some 0
  | .post _ _ => none

def lastAck (news : List Notice) : Option UInt8 := (news.filterMap Notice.ack?).getLast?

def ackAfter (ack : ℤ) (news : List Notice) : ℤ := (lastAck news).elim ack fun d => d.toNat

theorem ackAfter_append {ack : ℤ} {news more : List Notice} :
    ackAfter ack (news ++ more) = ackAfter (ackAfter ack news) more := by
  unfold ackAfter lastAck
  rw [List.filterMap_append, List.getLast?_append]
  cases (more.filterMap Notice.ack?).getLast? with
  | none => rfl
  | some d => rfl

namespace CMux

variable {size : ℕ} {s s' t : CMux size} {frame frame' view : CMuxFrame} {b : Bool}

/-- What was told since, and `sabm_ack` with it. -/
structure Tells (s s' : CMux size) (news : List Notice) : Prop where
  log : s'.log = s.log ++ news
  ack : s'.sabmAck = ackAfter s.sabmAck news

theorem Tells.refl (s : CMux size) : Tells s s [] := ⟨(List.append_nil _).symm, rfl⟩

theorem Tells.trans {news more : List Notice} (h : Tells s s' news) (h' : Tells s' t more) :
    Tells s t (news ++ more) where
  log := by rw [h'.log, h.log, List.append_assoc]
  ack := by rw [h'.ack, h.ack, ackAfter_append]

theorem taken_tells (s : CMux size) (view : CMuxFrame) : ∃ news, Tells s (s.taken view) news := by
  unfold taken accumulate
  split
  · split
    · exact ⟨[], (List.append_nil _).symm, rfl⟩
    · exact ⟨[], (List.append_nil _).symm, rfl⟩
  · split
    · rename_i h
      exact ⟨[.disc], rfl, by rw [h.1]; rfl⟩
    · exact ⟨[], .refl s⟩

theorem closed_tells (s : CMux size) : ∃ news, Tells s s.closed news := by
  unfold closed
  split
  · exact ⟨[.ack s.dlci], rfl, rfl⟩
  · split
    · exact ⟨[.post _ _], rfl, rfl⟩
    · exact ⟨[], .refl s⟩

theorem Step.tells (h : Step s frame b s' frame') : ∃ news, Tells s s' news := by
  have hnone : s'.log = s.log → s'.sabmAck = s.sabmAck → ∃ news, Tells s s' news :=
    fun hl ha => ⟨[], by rw [hl, List.append_nil], ha⟩
  cases h with
  | payloadPart =>
    obtain ⟨news, hl, ha⟩ := taken_tells s frame
    exact ⟨news, hl, ha⟩
  | payloadDone =>
    obtain ⟨news, hl, ha⟩ := taken_tells s (frame.first s.payloadLen)
    exact ⟨news, hl, ha⟩
  | footerDone =>
    obtain ⟨news, hl, ha⟩ := closed_tells s
    exact ⟨news, hl, ha⟩
  | _ => exact hnone rfl rfl

theorem Request.tells {s₁ : CMux size} {o n : ℕ} (h : Request s s₁ o n) :
    ∃ news, Tells s s₁ news := by
  obtain ⟨news, hl, ha⟩ := closed_tells s
  cases h with
  | fresh => exact ⟨[], .refl s⟩
  | onward => exact ⟨[], .refl s⟩
  | spill => exact ⟨news, hl, ha⟩
  | giveUp => exact ⟨news, hl, ha⟩

theorem onCmuxData_tells (h : s.Sound) (hsize : 128 ≤ size) (hsize' : size < 2 ^ 32)
    (avail : Bytes) :
    ∃ s' rest, s.onCmuxData avail = some (s', rest) ∧ s'.Sound ∧ ∃ news, Tells s s' news := by
  obtain ⟨s₁, o, n, buffer, hr, -, hrun⟩ := onCmuxData_turns h hsize hsize' avail
  obtain ⟨news, hl, ha⟩ := hr.tells
  have hstep : ∀ {u v : CMux size} {f f' : CMuxFrame} {b : Bool},
      (∃ news, Tells s u news) → Step u f b v f' → ∃ news, Tells s v news := by
    rintro u v f f' b ⟨news, ht⟩ hst
    obtain ⟨more, ht'⟩ := hst.tells
    exact ⟨_, ht.trans ht'⟩
  obtain ⟨s', ho, hs', hq⟩ := hrun (fun t _ => ∃ news, Tells s t news)
    (fun t => ∃ news, Tells s t news) ⟨news, hl, ha⟩
    (fun _ _ _ _ _ _ hG hst => hstep hG hst)
    (fun _ _ _ _ _ _ hG hst => hstep hG hst)
    (fun _ _ _ _ hG => hG)
  exact ⟨s', _, ho, hs', hq⟩

end CMux

namespace MuxLine

variable {size : ℕ} {l : MuxLine size}

theorem apply_tells (h : l.cmux.Sound) (hsize : 128 ≤ size) (hsize' : size < 2 ^ 32) (op : MuxOp) :
    ∃ l', l.apply op = some l' ∧ l'.cmux.Sound ∧ ∃ news, CMux.Tells l.cmux l'.cmux news := by
  cases op with
  | arrive bytes =>
    rw [MuxLine.apply]
    split
    · exact ⟨l, rfl, h, [], .refl _⟩
    · obtain ⟨s', rest, ho, hs', ht⟩ := CMux.onCmuxData_tells h hsize hsize' (l.pending ++ bytes)
      exact ⟨⟨s', rest⟩, by rw [ho]; rfl, hs', ht⟩
  | recover =>
    exact ⟨_, rfl, CMux.recoverProtocol_sound _, [], (List.append_nil _).symm, rfl⟩
  | flush => exact ⟨_, rfl, h, [], .refl _⟩
  | setReadCb inst f =>
    exact ⟨_, rfl, ⟨h.header, h.payload, h.footer, h.accepted, h.start⟩, [],
      (List.append_nil _).symm, rfl⟩

theorem run_tells (h : l.cmux.Sound) (hsize : 128 ≤ size) (hsize' : size < 2 ^ 32)
    (ops : List MuxOp) :
    ∃ l', l.run ops = some l' ∧ l'.cmux.Sound ∧ ∃ news, CMux.Tells l.cmux l'.cmux news := by
  induction ops generalizing l with
  | nil => exact ⟨l, rfl, h, [], .refl _⟩
  | cons op ops ih =>
    obtain ⟨l₁, ha, h₁, news, ht⟩ := apply_tells h hsize hsize' op
    obtain ⟨l', hr, h', more, ht'⟩ := ih h₁
    exact ⟨l', by rw [MuxLine.run, ha]; exact hr, h', _, ht.trans ht'⟩

end MuxLine

def heard (turns : List (List Notice)) : List Talk :=
  turns.flatMap fun news => .slept :: news.map .told

namespace Session

variable {p : Peer} {size : ℕ} {c c' : Session p size} {i : ℕ} {b : Bool}

/-- A wait for the acknowledgement of channel `i`, by what was told in each of its sleeps. It ends
with the first look that finds it acknowledged last, or after all looks. -/
structure Waits (i : ℕ) (b : Bool) (turns : List (List Notice)) : Prop where
  le : turns.length ≤ looks
  unseen : ∀ j, 0 < j → j < turns.length → lastAck (turns.take j).flatten ≠ some (.ofNat i)
  seen : b = true → lastAck turns.flatten = some (.ofNat i)
  missed : b = false → turns.length = looks ∧ lastAck turns.flatten ≠ some (.ofNat i)

/-- Requests and what was heard after each, up to the first that was not acknowledged. -/
inductive Dialogue : List (ℕ × Bytes) → Bool → List Talk → Prop

  | done : Dialogue [] true []

  | next {i : ℕ} {frame : Bytes} {rest : List (ℕ × Bytes)} {turns : List (List Notice)}
      {talk : List Talk} {b : Bool} : Waits i true turns → Dialogue rest b talk →
      Dialogue ((i, frame) :: rest) b (.sent frame :: heard turns ++ talk)

  | fail {i : ℕ} {frame : Bytes} {rest : List (ℕ × Bytes)} {turns : List (List Notice)} :
      Waits i false turns → Dialogue ((i, frame) :: rest) false (.sent frame :: heard turns)

theorem ackAfter_eq_iff (hi : i < 256) {news : List Notice} :
    ackAfter (-1) news = i ↔ lastAck news = some (.ofNat i) := by
  unfold ackAfter
  cases lastAck news with
  | none => simp only [Option.elim_none, reduceCtorEq, Int.reduceNeg]
  | some d =>
    rw [Option.elim_some, Option.some_inj, Int.ofNat_inj, ← UInt8.toNat_inj, UInt8.toNat_ofNat',
      Nat.mod_eq_of_lt hi]

theorem setAck_sound (h : c.line.cmux.Sound) (ack : ℤ) : (c.setAck ack).line.cmux.Sound :=
  ⟨h.header, h.payload, h.footer, h.accepted, h.start⟩

section Waiting

variable (hsize : 128 ≤ size) (hsize' : size < 2 ^ 32)

include hsize hsize'

theorem sleep_spec (h : c.line.cmux.Sound) :
    ∃ c' news, c.sleep = some c' ∧ c'.line.cmux.Sound ∧
      CMux.Tells c.line.cmux c'.line.cmux news ∧
      c'.talk = c.talk ++ .slept :: news.map .told := by
  obtain ⟨line, hr, hs, news, ht⟩ := MuxLine.run_tells h hsize hsize' (p.act c.peer).2
  refine ⟨⟨line, (p.act c.peer).1, c.talk ++ .slept :: news.map .told⟩, news, ?_, hs, ht, rfl⟩
  change (c.line.run (p.act c.peer).2).map _ = _
  rw [hr, Option.map_some, ht.log, List.drop_left]

theorem sleeps_spec (k : ℕ) (h : c.line.cmux.Sound) :
    ∃ c' turns, Polling.sleeps sleep k c = some c' ∧ c'.line.cmux.Sound ∧ turns.length = k ∧
      c'.talk = c.talk ++ heard turns ∧
      ∀ j ≤ k, ∃ u, Polling.sleeps sleep j c = some u ∧
        CMux.Tells c.line.cmux u.line.cmux (turns.take j).flatten := by
  induction k generalizing c with
  | zero =>
    refine ⟨c, [], rfl, h, rfl, (List.append_nil _).symm, ?_⟩
    rintro j hj
    obtain rfl := Nat.le_zero.mp hj
    exact ⟨c, rfl, .refl _⟩
  | succ k ih =>
    obtain ⟨c₁, news, hs, h₁, ht, htalk⟩ := sleep_spec hsize hsize' h
    obtain ⟨c', turns, hss, h', hl, htalk', hj⟩ := ih h₁
    refine ⟨c', news :: turns, ?_, h', by rw [List.length_cons, hl], ?_, ?_⟩
    · rw [Polling.sleeps, hs]
      exact hss
    · rw [htalk', htalk, List.append_assoc]
      rfl
    · rintro (_ | j) hjk
      · exact ⟨c, rfl, .refl _⟩
      · obtain ⟨u, hu, hut⟩ := hj j (Nat.le_of_succ_le_succ hjk)
        refine ⟨u, ?_, ht.trans hut⟩
        rw [Polling.sleeps, hs]
        exact hu

theorem acked_iff {k : ℕ} {news : List Notice} (h : c.line.cmux.Sound)
    (ha : c.line.cmux.sabmAck = -1) (hs : Polling.sleeps sleep k c = some c')
    (hlog : c'.line.cmux.log = c.line.cmux.log ++ news) (hi : i < 256) :
    acked i c' = true ↔ lastAck news = some (.ofNat i) := by
  obtain ⟨d, turns, -, -, -, -, hat⟩ := sleeps_spec hsize hsize' k h
  obtain ⟨u, hu, ht⟩ := hat k le_rfl
  obtain rfl := Option.some.inj (hs.symm.trans hu)
  have hnews : (turns.take k).flatten = news := List.append_cancel_left (ht.log.symm.trans hlog)
  rw [acked, beq_iff_eq, ht.ack, ha, hnews, ackAfter_eq_iff hi]

theorem request_spec (h : c.line.cmux.Sound) (ha : c.line.cmux.sabmAck = -1) (hi : i < 256)
    (frame : Bytes) :
    ∃ b c' turns, c.request i frame = some (b, c') ∧ c'.line.cmux.Sound ∧ Waits i b turns ∧
      c'.talk = c.talk ++ .sent frame :: heard turns := by
  have hstep (c : Session p size) (hc : c.line.cmux.Sound) :
      ∃ c', sleep c = some c' ∧ c'.line.cmux.Sound := by
    obtain ⟨c', -, hs, hc', -⟩ := sleep_spec hsize hsize' hc
    exact ⟨c', hs, hc'⟩
  obtain ⟨b, c', hp, -⟩ :
      ∃ b c', Polling.poll sleep (acked i) looks (c.write frame) = some (b, c') ∧
        c'.line.cmux.Sound := Polling.poll_keeps hstep looks h
  obtain ⟨k, hw⟩ := Polling.poll_spec hp
  obtain ⟨d, turns, hs, hd, hl, htalk, hat⟩ := sleeps_spec hsize hsize' k (c := c.write frame) h
  obtain rfl : c' = d := Option.some.inj (hw.sleeps.symm.trans hs)
  have hseen : ∀ j ≤ k, ∀ u, Polling.sleeps sleep j (c.write frame) = some u →
      (acked i u = true ↔ lastAck (turns.take j).flatten = some (.ofNat i)) := by
    intro j hj u hu
    obtain ⟨v, hv, ht⟩ := hat j hj
    obtain rfl := Option.some.inj (hu.symm.trans hv)
    exact acked_iff hsize hsize' (c := c.write frame) h ha hu ht.log hi
  have hall : turns.take k = turns := by rw [← hl, List.take_length]
  have hend := hseen k le_rfl c' hs
  rw [hall] at hend
  refine ⟨b, c', turns, hp, hd, ⟨hl.trans_le hw.le, ?_, ?_, ?_⟩, ?_⟩
  · intro j hj hjk hlast
    rw [hl] at hjk
    obtain ⟨u, hu, -⟩ := hat j hjk.le
    have hno := hw.unseen j u hj hjk hu
    rw [(hseen j hjk.le u hu).mpr hlast] at hno
    cases hno
  · exact fun hb => hend.mp (hw.seen hb).2
  · intro hb
    obtain ⟨hk, hno⟩ := hw.missed hb
    refine ⟨hl.trans hk, fun hlast => ?_⟩
    rw [hend.mpr hlast] at hno
    cases hno (by rw [hk]; decide)
  · rw [htalk]
    exact List.append_assoc ..

theorem requests_spec (qs : List (ℕ × Bytes)) (hqs : ∀ q ∈ qs, q.1 < 256)
    (h : c.line.cmux.Sound) (ha : c.line.cmux.sabmAck = -1) :
    ∃ b c' talk, c.requests qs = some (b, c') ∧ c'.line.cmux.Sound ∧
      c'.talk = c.talk ++ talk ∧ Dialogue qs b talk := by
  induction qs generalizing c with
  | nil => exact ⟨true, c, [], rfl, h, (List.append_nil _).symm, .done⟩
  | cons q qs ih =>
    obtain ⟨i, frame⟩ := q
    obtain ⟨b, c₁, turns, hr, h₁, hw, htalk⟩ :=
      request_spec hsize hsize' h ha (hqs _ (List.mem_cons_self ..)) frame
    cases b with
    | false =>
      refine ⟨false, c₁, _, ?_, h₁, htalk, .fail hw⟩
      rw [requests, hr]
      rfl
    | true =>
      obtain ⟨b, c', talk, hrs, h', htalk', hd⟩ :=
        ih (fun q hq => hqs q (List.mem_cons_of_mem _ hq)) (setAck_sound h₁ (-1)) rfl
      refine ⟨b, c', .sent frame :: heard turns ++ talk, ?_, h', ?_, .next hw hd⟩
      · rw [requests, hr]
        exact hrs
      · rw [htalk', ← List.append_assoc, ← htalk]
        rfl

end Waiting

end Session

end EspLtePpp
