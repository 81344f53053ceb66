import EspLtePpp.Cmux.Turns

/-! # The receiver on any line

Whatever comes in, in whatever chunks and with whatever errors in between, the
receiver never leaves its memory, its loop comes to an end, and what it hands to the
terminals is made of bytes that were received, in their order and each at most once.
-/

namespace EspLtePpp

def Notice.bytes : Notice → Bytes
  | .post _ data => data.getD []
  | .ack _ => []
  | .disc => []

namespace CMuxFrame

variable {frame : CMuxFrame} {i j : ℕ}

theorem isSof_lt (h : frame.isSof i = true) : i < frame.len := by
  by_contra hge
  have hn : frame.data[i]? = none := by
    apply List.getElem?_eq_none
    unfold len at hge
    omega
  simp [isSof, hn] at h

@[simp] theorem len_advance : (frame.advance i).len = frame.len - i := by
  simp [advance, len]

theorem advance_advance : (frame.advance i).advance j = frame.advance (i + j) := by
  simp [advance, Nat.add_assoc]

end CMuxFrame

namespace CMux

variable {size : ℕ} {s s' : CMux size} {frame frame' view : CMuxFrame} {b : Bool}

theorem recoverProtocol_sound (s : CMux size) : s.recoverProtocol.Sound where
  header h := by cases h
  payload h := by cases h
  footer h := by cases h
  accepted h := by rcases h with h | h <;> cases h
  start p h := by cases h

theorem taken_start (view : CMuxFrame) (hv : 0 < view.len)
    (hnext : ∀ p, s.payloadStart = some p → p + s.totalPayloadSize = view.ptr) :
    ((s.taken view).payloadStart = s.payloadStart ∧
      (s.taken view).totalPayloadSize = s.totalPayloadSize) ∨
    ∃ p, (s.taken view).payloadStart = some p ∧ 0 < (s.taken view).totalPayloadSize ∧
      p + (s.taken view).totalPayloadSize = view.ptr + view.len := by
  unfold taken
  split
  · right
    unfold accumulate
    split
    · exact ⟨view.ptr, rfl, hv, rfl⟩
    · rename_i p hp
      refine ⟨p, hp, Nat.add_pos_right _ hv, ?_⟩
      rw [← hnext p hp]
      exact (Nat.add_assoc ..).symm
  · left
    split
    · exact ⟨rfl, rfl⟩
    · exact ⟨rfl, rfl⟩

theorem Step.advances (h : Step s frame b s' frame') :
    s'.buffer = s.buffer ∧ s'.readCb = s.readCb ∧
      ∃ n, n ≤ frame.len ∧ frame' = frame.advance n := by
  have htaken : ∀ v, (s.taken v).buffer = s.buffer ∧ (s.taken v).readCb = s.readCb := by
    intro v
    obtain ⟨_, _, _, _, h⟩ := taken_eq s v
    rw [h]
    exact ⟨rfl, rfl⟩
  obtain ⟨_, _, hclosed⟩ := closed_eq s
  cases h with
  | lostLead => exact ⟨rfl, rfl, 0, Nat.zero_le _, rfl⟩
  | emptyFrame _ h0 => exact ⟨rfl, rfl, 1, CMuxFrame.isSof_lt h0, rfl⟩
  | lead _ h0 => exact ⟨rfl, rfl, 1, CMuxFrame.isSof_lt h0, rfl⟩
  | foundHere => exact ⟨rfl, rfl, 0, Nat.zero_le _, rfl⟩
  | foundNowhere => exact ⟨rfl, rfl, 0, Nat.zero_le _, rfl⟩
  | found _ _ hlt => exact ⟨rfl, rfl, _, hlt.le, rfl⟩
  | foundEmpty _ hlt => exact ⟨rfl, rfl, _, hlt, CMuxFrame.advance_advance⟩
  | headerSkip _ _ h0 => exact ⟨rfl, rfl, 1, CMuxFrame.isSof_lt h0, rfl⟩
  | headerMore => exact ⟨rfl, rfl, 0, Nat.zero_le _, rfl⟩
  | headerDone _ _ _ hle => exact ⟨rfl, rfl, _, hle, rfl⟩
  | headerLost => exact ⟨rfl, rfl, 0, Nat.zero_le _, rfl⟩
  | payloadPart => exact ⟨(htaken _).1, (htaken _).2, 0, Nat.zero_le _, rfl⟩
  | payloadLost => exact ⟨rfl, rfl, 0, Nat.zero_le _, rfl⟩
  | payloadDone _ _ hle => exact ⟨(htaken _).1, (htaken _).2, _, hle, rfl⟩
  | payloadNone => exact ⟨rfl, rfl, 0, Nat.zero_le _, rfl⟩
  | footerMore => exact ⟨rfl, rfl, 0, Nat.zero_le _, rfl⟩
  | footerLost => exact ⟨rfl, rfl, 0, Nat.zero_le _, rfl⟩
  | footerDone _ _ hle => exact ⟨by rw [hclosed], by rw [hclosed], _, hle, rfl⟩

theorem slice_le {o k : ℕ} {r : Region UInt8 size} {bs : Bytes} (h : r.slice o k = some bs) :
    o + k ≤ size := (Region.slice_eq_some_iff.mp h).1

theorem Step.sound (h : SoundAt s frame) (hpos : 0 < frame.len)
    (hst : Step s frame b s' frame') : s'.Sound := by
  have hnone : ∀ {P : ℕ → Prop} {st : CMuxState}, s.state = st → st ≠ .payload → st ≠ .footer →
      ∀ p, s.payloadStart = some p → P p := by
    rintro P st rfl hp hf p hs
    rcases (h.start p hs).1 with hc | hc
    · exact absurd hc hp
    · exact absurd hc hf
  cases hst with
  | lostLead => exact recoverProtocol_sound _
  | emptyFrame => exact h.toSound
  | lead hs =>
    exact ⟨fun _ => ⟨le_rfl, Nat.le_add_left 1 3, by rintro ⟨⟩⟩,
      by rintro ⟨⟩, by rintro ⟨⟩, by simp,
      hnone hs (by decide) (by decide)⟩
  | foundHere hs =>
    exact ⟨by rintro ⟨⟩, by rintro ⟨⟩, by rintro ⟨⟩, by simp,
      hnone hs (by decide) (by decide)⟩
  | foundNowhere => exact h.toSound
  | found hs =>
    exact ⟨by rintro ⟨⟩, by rintro ⟨⟩, by rintro ⟨⟩, by simp,
      hnone hs (by decide) (by decide)⟩
  | foundEmpty hs =>
    exact ⟨by rintro ⟨⟩, by rintro ⟨⟩, by rintro ⟨⟩, by simp,
      hnone hs (by decide) (by decide)⟩
  | headerSkip => exact h.toSound
  | @headerMore hdr hs _ hle hgot hmore =>
    have ho := h.header hs
    refine ⟨fun _ => ⟨Nat.le_add_right_of_le ho.1, hle, ?_⟩, ?_, ?_, ?_, ?_⟩
    · intro h4
      rw [show s.frameHeaderOffset - 1 + frame.len = 3 by
        change s.frameHeaderOffset + frame.len = 4 at h4; omega] at hgot
      rw [header_three hgot] at hmore
      exact headerOf_three_eq_none_iff.mp hmore
    · intro hp; rw [show s.state = .payload from hp] at hs; cases hs
    · intro hp; rw [show s.state = .footer from hp] at hs; cases hs
    · intro hp
      rcases (show s.state = .payload ∨ s.state = .footer from hp) with hp | hp <;>
        · rw [hp] at hs; cases hs
    · exact hnone hs (by decide) (by decide)
  | headerDone hs _ _ _ _ hok =>
    exact ⟨by rintro ⟨⟩, fun _ => rfl, by rintro ⟨⟩, fun _ => hok.2,
      hnone hs (by decide) (by decide)⟩
  | headerLost => exact recoverProtocol_sound _
  | payloadPart hs hlt hu =>
    have hst := taken_start frame hpos (fun p hp => h.next p hp hs)
    obtain ⟨p, t, a, l, he⟩ := taken_eq s frame
    rw [he] at hst ⊢
    refine ⟨fun hc => ?_, fun _ => h.payload hs, fun hc => ?_, fun _ => h.accepted (.inl hs), ?_⟩
    · rw [show s.state = .header from hc] at hs; cases hs
    · rw [show s.state = .footer from hc] at hs; cases hs
    · intro q hq
      have hend := slice_le h.view
      rcases hst with ⟨hp, ht⟩ | ⟨p', hp', h0, hsum⟩
      · dsimp only at hp ht hq ⊢
        rw [hp] at hq
        rw [ht]
        exact h.start q hq
      · dsimp only at hp' h0 hsum hq ⊢
        obtain rfl : p' = q := Option.some.inj (hp'.symm.trans hq)
        exact ⟨.inl hs, hu, h0, by omega⟩
  | payloadLost => exact recoverProtocol_sound _
  | payloadDone hs hp0 hle hu =>
    have hv : (frame.first s.payloadLen).len = s.payloadLen := by
      unfold CMuxFrame.len at *
      rw [CMuxFrame.first, List.length_take]
      omega
    have hst := taken_start (frame.first s.payloadLen) (by omega)
      (fun p hp => h.next p hp hs)
    obtain ⟨p, t, a, l, he⟩ := taken_eq s (frame.first s.payloadLen)
    rw [he] at hst ⊢
    have ho := h.payload hs
    refine ⟨by rintro ⟨⟩, by rintro ⟨⟩, fun _ => ⟨ho.ge, ho.le.trans (Nat.le_add_right 4 1), rfl⟩,
      fun _ => h.accepted (.inl hs), ?_⟩
    intro q hq
    have hend := slice_le h.view
    rcases hst with ⟨hp, ht⟩ | ⟨p', hp', h0, hsum⟩
    · dsimp only at hp ht hq ⊢
      rw [hp] at hq
      rw [ht]
      exact ⟨.inr rfl, (h.start q hq).2⟩
    · dsimp only at hp' h0 hsum hq ⊢
      obtain rfl : p' = q := Option.some.inj (hp'.symm.trans hq)
      rw [hv] at hsum
      change p' + t = frame.ptr + s.payloadLen at hsum
      exact ⟨.inr rfl, hu, h0, by omega⟩
  | payloadNone hs =>
    have ho := h.payload hs
    exact ⟨by rintro ⟨⟩, by rintro ⟨⟩, fun _ => ⟨ho.ge, ho.le.trans (Nat.le_add_right 4 1), rfl⟩,
      fun _ => h.accepted (.inl hs), fun p hp => ⟨.inr rfl, (h.start p hp).2⟩⟩
  | footerMore hs ho =>
    have hp0 := (h.footer hs).2.2
    refine ⟨fun hc => ?_, fun hc => ?_, fun _ => ⟨Nat.le_add_right 4 1, le_rfl, hp0⟩,
      fun _ => h.accepted (.inr hs), h.start⟩
    · rw [show s.state = .header from hc] at hs; cases hs
    · rw [show s.state = .payload from hc] at hs; cases hs
  | footerLost => exact recoverProtocol_sound _
  | footerDone => exact ⟨by rintro ⟨⟩, by rintro ⟨⟩, by rintro ⟨⟩, by simp, by rintro p ⟨⟩⟩

theorem Step.soundAt (h : SoundAt s frame) (hpos : 0 < frame.len)
    (hst : Step s frame true s' frame') : SoundAt s' frame' := by
  refine ⟨hst.sound h hpos, ?_, ?_⟩
  · obtain ⟨hb, -, n, hn, rfl⟩ := hst.advances
    rw [hb, CMuxFrame.len_advance]
    exact Region.slice_drop h.view hn
  · intro p hp hs'
    have hno : s.state = .init ∨ s.state = .recover ∨ s.state = .header →
        s.payloadStart ≠ some p := by
      intro hst hp
      rcases (h.start p hp).1 with hc | hc <;> rw [hc] at hst <;> simp at hst
    cases hst with
    | lostLead => cases hs'
    | emptyFrame hs => rw [hs] at hs'; cases hs'
    | lead => cases hs'
    | foundHere => cases hs'
    | found => cases hs'
    | foundEmpty => cases hs'
    | headerSkip hs => rw [hs] at hs'; cases hs'
    | headerDone hs => exact absurd hp (hno (.inr (.inr hs)))
    | headerLost => cases hs'
    | payloadLost => cases hs'
    | payloadDone => cases hs'
    | payloadNone => cases hs'
    | footerLost => cases hs'
    | footerDone => cases hs'

/-- How far the receiver is from its next byte. -/
def rank (s : CMux size) (frame : CMuxFrame) : ℕ :=
  match s.state with
  | .payload => 4
  | .footer => 3
  | .header => 3
  | .init => 1
  | .recover => if frame.isSof 0 then 2 else 0

def turnsLeft (t : CMux size × CMuxFrame) : ℕ := 5 * t.2.len + rank t.1 t.2

theorem rank_le (s : CMux size) (frame : CMuxFrame) : rank s frame ≤ 4 := by
  unfold rank
  split
  · decide
  · decide
  · decide
  · decide
  · split <;> decide

theorem rank_recoverProtocol_le (s : CMux size) (frame : CMuxFrame) :
    rank s.recoverProtocol frame ≤ 2 := by
  change (if frame.isSof 0 then 2 else 0) ≤ 2
  split <;> decide

theorem Step.turnsLeft_lt (h : SoundAt s frame) (hst : Step s frame true s' frame') :
    turnsLeft (s', frame') < turnsLeft (s, frame) := by
  unfold turnsLeft
  dsimp only
  cases hst with
  | lostLead hs h0 => simp [rank, hs, recoverProtocol, h0]
  | emptyFrame hs h0 =>
    have := CMuxFrame.isSof_lt h0
    rw [CMuxFrame.len_advance]
    simp only [rank, hs]
    omega
  | lead hs h0 =>
    have := CMuxFrame.isSof_lt h0
    rw [CMuxFrame.len_advance]
    simp only [rank, hs]
    omega
  | foundHere hs h0 => simp [rank, hs, h0]
  | found hs hi hlt =>
    rw [CMuxFrame.len_advance]
    have : rank s frame ≥ 0 := Nat.zero_le _
    simp only [rank]
    omega
  | foundEmpty hs hlt =>
    rw [CMuxFrame.len_advance, CMuxFrame.len_advance]
    simp only [rank]
    omega
  | headerSkip hs _ h0 =>
    have := CMuxFrame.isSof_lt h0
    rw [CMuxFrame.len_advance]
    simp only [rank, hs]
    omega
  | headerDone hs _ hn hle =>
    rw [CMuxFrame.len_advance]
    simp only [rank, hs]
    omega
  | @headerLost _ _ _ _ _ _ hs =>
    apply Nat.add_lt_add_left
    have hr : rank s frame = 3 := by simp [rank, hs]
    rw [hr]
    exact Nat.lt_succ_of_le (rank_recoverProtocol_le _ _)
  | payloadLost hs =>
    apply Nat.add_lt_add_left
    have hr : rank s frame = 4 := by simp [rank, hs]
    rw [hr]
    exact lt_of_le_of_lt (rank_recoverProtocol_le _ _) (by decide)
  | payloadDone hs =>
    rw [CMuxFrame.len_advance]
    simp only [rank, hs]
    omega
  | payloadNone hs => simp [rank, hs]
  | footerLost hs =>
    apply Nat.add_lt_add_left
    have hr : rank s frame = 3 := by simp [rank, hs]
    rw [hr]
    exact Nat.lt_succ_of_le (rank_recoverProtocol_le _ _)
  | footerDone hs ho hle =>
    have ho5 := (h.footer hs).2.1
    rw [CMuxFrame.len_advance]
    simp only [rank, hs]
    omega

theorem loop_turns {G : CMux size → CMuxFrame → Prop} {Q : CMux size → Prop}
    (hat : SoundAt s frame) (hG : G s frame)
    (hgo : ∀ s f s' f', SoundAt s f → 0 < f.len → G s f → Step s f true s' f' → G s' f')
    (hstop : ∀ s f s' f', SoundAt s f → 0 < f.len → G s f → Step s f false s' f' → Q s')
    (hend : ∀ s f, f.data = [] → SoundAt s f → G s f → Q s) :
    ∃ b s' f', Loop.loop (fun t => 0 < t.2.len) turn (maxTurns frame.len) (s, frame) =
      some (b, s', f') ∧ s'.Sound ∧ Q s' := by
  have hturn : ∀ t : CMux size × CMuxFrame, SoundAt t.1 t.2 ∧ G t.1 t.2 →
      decide (0 < t.2.len) = true →
      Loop.Turn turn (fun t => SoundAt t.1 t.2 ∧ G t.1 t.2) turnsLeft
        (fun t => t.1.Sound ∧ Q t.1) t := by
    rintro ⟨s, f⟩ ⟨hs, hg⟩ hc
    have hpos : 0 < f.len := of_decide_eq_true hc
    obtain ⟨b, s', f', ht, hst⟩ := turn_cases hs.toSound hpos
    cases b with
    | true =>
      exact .inl ⟨(s', f'), ht, ⟨hst.soundAt hs hpos, hgo _ _ _ _ hs hpos hg hst⟩,
        hst.turnsLeft_lt hs⟩
    | false => exact .inr ⟨(s', f'), ht, hst.sound hs hpos, hstop _ _ _ _ hs hpos hg hst⟩
  have hexit : ∀ t : CMux size × CMuxFrame, SoundAt t.1 t.2 ∧ G t.1 t.2 →
      decide (0 < t.2.len) = false → t.1.Sound ∧ Q t.1 := by
    rintro ⟨s, f⟩ ⟨hs, hg⟩ hc
    refine ⟨hs.toSound, hend _ _ ?_ hs hg⟩
    apply List.length_eq_zero_iff.mp
    have hn : ¬0 < f.data.length := of_decide_eq_false hc
    exact Nat.eq_zero_of_not_pos hn
  have henough : turnsLeft (s, frame) < maxTurns frame.len := by
    have := rank_le s frame
    unfold turnsLeft maxTurns
    dsimp only
    omega
  obtain ⟨b, ⟨s', f'⟩, hr, hs', hq⟩ :=
    Loop.loop_spec hturn hexit (maxTurns frame.len) (s, frame) ⟨hat, hG⟩ henough
  exact ⟨b, s', f', hr, hs', hq⟩

/-- All that the callbacks were given, in the order of the calls. -/
def given (s : CMux size) : Bytes := s.log.flatMap Notice.bytes

/-- What was given and what is held are drawn from `c`: in its order, each byte at most once. -/
def Drawn (s : CMux size) (c : Bytes) : Prop := (s.given ++ s.held.getD []).Sublist c

theorem Drawn.mono {c : Bytes} (h : s.Drawn c) (d : Bytes) : s.Drawn (c ++ d) :=
  h.trans (List.sublist_append_left c d)

theorem Drawn.drop {c : Bytes} (h : s.Drawn c) (hg : s'.given = s.given)
    (hp : s'.payloadStart = none) : s'.Drawn c := by
  have hh : s'.held = none := by simp [held, hp]
  unfold Drawn
  rw [hg, hh, Option.getD_none, List.append_nil]
  exact (List.sublist_append_left _ _).trans h

theorem Drawn.keep {c : Bytes} (h : s.Drawn c) (hg : s'.given = s.given)
    (hh : s'.held = s.held) : s'.Drawn c := by
  unfold Drawn
  rw [hg, hh]
  exact h

theorem given_taken : (s.taken view).given = s.given := by
  unfold taken accumulate
  split
  · split <;> rfl
  · split
    · simp [given, Notice.bytes]
    · rfl

theorem held_accumulate (hview : s.buffer.slice view.ptr view.len = some view.data)
    (hnext : ∀ p, s.payloadStart = some p → p + s.totalPayloadSize = view.ptr) :
    (s.accumulate view).held = some (s.held.getD [] ++ view.data) := by
  unfold accumulate held
  cases hp : s.payloadStart with
  | none => simp [hview]
  | some p =>
    have hle := slice_le hview
    have hn := hnext p hp
    obtain ⟨bs, hbs⟩ := s.buffer.exists_slice (show p + s.totalPayloadSize ≤ size by omega)
    have hview' : s.buffer.slice (p + s.totalPayloadSize) view.len = some view.data :=
      hn ▸ hview
    simp [hbs, Region.slice_append hbs hview']

theorem Drawn.taken {c : Bytes} (h : s.Drawn c)
    (hview : s.buffer.slice view.ptr view.len = some view.data)
    (hnext : ∀ p, s.payloadStart = some p → p + s.totalPayloadSize = view.ptr) :
    (s.taken view).Drawn (c ++ view.data) := by
  have hkeep : (s.taken view).held = s.held → (s.taken view).Drawn (c ++ view.data) :=
    fun hh => (h.mono _).keep given_taken hh
  unfold CMux.taken at *
  split
  · have hgiven : (s.accumulate view).given = s.given := by
      unfold accumulate
      split <;> rfl
    unfold Drawn
    rw [hgiven, held_accumulate hview hnext, Option.getD_some, ← List.append_assoc]
    exact h.append_right _
  · rename_i hl
    simp only [hl] at hkeep
    apply hkeep
    split <;> rfl

theorem given_closed : s.closed.given = s.given ∨ s.closed.given = s.given ++ s.held.getD [] := by
  unfold closed
  split
  · left
    simp [given, Notice.bytes]
  · split
    · right
      simp [given, Notice.bytes]
    · left
      rfl

theorem Drawn.closed {c : Bytes} (h : s.Drawn c) (hg : s'.given = s.closed.given)
    (hp : s'.payloadStart = none) : s'.Drawn c := by
  have hh : s'.held = none := by simp [held, hp]
  unfold Drawn
  rw [hg, hh, Option.getD_none, List.append_nil]
  rcases given_closed (s := s) with he | he
  · rw [he]
    exact (List.sublist_append_left _ _).trans h
  · rw [he]
    exact h

theorem Step.drawn {c : Bytes} (h : SoundAt s frame) (hst : Step s frame b s' frame')
    (hc : s.Drawn c) :
    (b = true → ∃ d, frame.data = d ++ frame'.data ∧ s'.Drawn (c ++ d)) ∧
      (b = false → s'.Drawn (c ++ frame.data)) := by
  have hcut : ∀ n, frame.data = frame.data.take n ++ (frame.advance n).data := fun n =>
    (List.take_append_drop n frame.data).symm
  have hstay : s'.Drawn c → frame' = frame → b = true →
      (b = true → ∃ d, frame.data = d ++ frame'.data ∧ s'.Drawn (c ++ d)) ∧
        (b = false → s'.Drawn (c ++ frame.data)) := by
    rintro hd rfl rfl
    exact ⟨fun _ => ⟨[], rfl, by rwa [List.append_nil]⟩, by rintro ⟨⟩⟩
  have hread : ∀ n, s'.Drawn (c ++ frame.data.take n) → frame' = frame.advance n → b = true →
      (b = true → ∃ d, frame.data = d ++ frame'.data ∧ s'.Drawn (c ++ d)) ∧
        (b = false → s'.Drawn (c ++ frame.data)) := by
    rintro n hd rfl rfl
    exact ⟨fun _ => ⟨_, hcut n, hd⟩, by rintro ⟨⟩⟩
  cases hst with
  | lostLead => exact hstay (hc.drop rfl rfl) rfl rfl
  | emptyFrame => exact hread 1 (hc.mono _) rfl rfl
  | lead => exact hread 1 ((hc.mono _).keep rfl rfl) rfl rfl
  | foundHere => exact hstay (hc.keep rfl rfl) rfl rfl
  | foundNowhere => exact ⟨by rintro ⟨⟩, fun _ => hc.mono _⟩
  | @found i => exact hread i ((hc.mono _).keep rfl rfl) rfl rfl
  | @foundEmpty i =>
    exact hread (i + 1) ((hc.mono _).keep rfl rfl) CMuxFrame.advance_advance rfl
  | headerSkip => exact hread 1 (hc.mono _) rfl rfl
  | headerMore => exact ⟨by rintro ⟨⟩, fun _ => (hc.mono _).keep rfl rfl⟩
  | @headerDone _ n => exact hread n ((hc.mono _).keep rfl rfl) rfl rfl
  | headerLost => exact hstay (hc.drop rfl rfl) rfl rfl
  | payloadPart hs =>
    exact ⟨by rintro ⟨⟩, fun _ => (hc.taken h.view fun p hp => h.next p hp hs).keep rfl rfl⟩
  | payloadLost => exact hstay (hc.drop rfl rfl) rfl rfl
  | payloadDone hs hp0 hle =>
    have hv : (frame.first s.payloadLen).len = s.payloadLen := by
      unfold CMuxFrame.len at *
      rw [CMuxFrame.first, List.length_take]
      omega
    have hview : s.buffer.slice (frame.first s.payloadLen).ptr (frame.first s.payloadLen).len =
        some (frame.first s.payloadLen).data := by
      rw [hv]
      exact Region.slice_take h.view hle
    exact hread _ ((hc.taken hview fun p hp => h.next p hp hs).keep rfl rfl) rfl rfl
  | payloadNone => exact hstay (hc.keep rfl rfl) rfl rfl
  | footerMore => exact ⟨by rintro ⟨⟩, fun _ => (hc.mono _).keep rfl rfl⟩
  | footerLost => exact hstay (hc.drop rfl rfl) rfl rfl
  | @footerDone _ n => exact hread n ((hc.mono _).closed rfl rfl) rfl rfl

/-- How `on_cmux_data` chooses where to read and how much. -/
inductive Request (s : CMux size) : CMux size → ℕ → ℕ → Prop

  | fresh : s.payloadStart = none → Request s s 0 (firstRead size)

  | onward {p : ℕ} : s.payloadStart = some p →
      p + s.totalPayloadSize + (s.payloadLen + 2) < size →
      Request s s (p + s.totalPayloadSize) (s.payloadLen + 2)

  | spill {p : ℕ} : s.payloadStart = some p →
      size ≤ p + s.totalPayloadSize + (s.payloadLen + 2) → s.totalPayloadSize < s.payloadLen →
      Request s { s.closed with payloadStart := none, totalPayloadSize := 0 } 0 size

  | giveUp {p : ℕ} : s.payloadStart = some p →
      size ≤ p + s.totalPayloadSize + (s.payloadLen + 2) → s.payloadLen ≤ s.totalPayloadSize →
      Request s s.closed.recoverProtocol 0 size

theorem readRequest_cases (h : s.Sound) :
    ∃ s₁ o n, s.readRequest = some (s₁, o, n) ∧ Request s s₁ o n := by
  unfold readRequest
  split
  · rename_i hp
    exact ⟨_, _, _, rfl, .fresh hp⟩
  · rename_i p hp
    dsimp only
    split
    · rename_i hfull
      obtain ⟨hst, -, -, -⟩ := h.start p hp
      rw [dataAvailable_none (h.accepted hst) fun q hq => (h.start q hq).2.2.2]
      obtain ⟨a, l, hc⟩ := closed_eq s
      have ht : s.closed.totalPayloadSize = s.totalPayloadSize := by rw [hc]
      have hl : s.closed.payloadLen = s.payloadLen := by rw [hc]
      rw [Option.map_some]
      rcases Decidable.em (s.closed.totalPayloadSize < s.closed.payloadLen) with hlt | hge
      · refine ⟨_, _, _, rfl, ?_⟩
        dsimp only
        rw [if_pos hlt]
        exact .spill hp hfull (ht ▸ hl ▸ hlt)
      · refine ⟨_, _, _, rfl, ?_⟩
        dsimp only
        rw [if_neg hge]
        exact .giveUp hp hfull (by omega)
    · rename_i hroom
      exact ⟨_, _, _, rfl, .onward hp (by omega)⟩

theorem firstRead_eq (h : 128 ≤ size) (h' : size < 2 ^ 32) : firstRead size = size - 128 := by
  unfold firstRead
  omega

variable {s₁ : CMux size} {o n : ℕ} {avail : Bytes}

theorem Request.fits (h : Request s s₁ o n) (hsize : 128 ≤ size) (hsize' : size < 2 ^ 32) :
    o + n ≤ size := by
  cases h with
  | fresh => rw [firstRead_eq hsize hsize']; omega
  | onward _ hroom => omega
  | spill => omega
  | giveUp => omega

theorem Request.pos (h : Request s s₁ o n) (hsize : 128 < size) (hsize' : size < 2 ^ 32) :
    0 < n := by
  cases h with
  | fresh => rw [firstRead_eq hsize.le hsize']; omega
  | onward => omega
  | spill => omega
  | giveUp => omega

theorem Request.sound (hr : Request s s₁ o n) (h : s.Sound) : s₁.Sound := by
  obtain ⟨_, _, hc⟩ := closed_eq s
  cases hr with
  | fresh => exact h
  | onward => exact h
  | spill => rw [hc]; exact ⟨h.header, h.payload, h.footer, h.accepted, by rintro p ⟨⟩⟩
  | giveUp => exact recoverProtocol_sound _

theorem Request.drawn {c : Bytes} (hr : Request s s₁ o n) (hc : s.Drawn c) : s₁.Drawn c := by
  cases hr with
  | fresh => exact hc
  | onward => exact hc
  | spill => exact hc.closed rfl rfl
  | giveUp => exact hc.closed rfl rfl

theorem Request.next (hr : Request s s₁ o n) :
    ∀ p, s₁.payloadStart = some p → p + s₁.totalPayloadSize = o := by
  cases hr with
  | fresh hp => intro p hp'; rw [hp] at hp'; cases hp'
  | onward hp => intro p hp'; rw [hp] at hp'; cases hp'; rfl
  | spill => rintro p ⟨⟩
  | giveUp => rintro p ⟨⟩

variable {buffer : Region UInt8 size} {got : Bytes}

theorem held_copy (hc : s₁.buffer.memcpy o got = some buffer)
    (hnext : ∀ p, s₁.payloadStart = some p → p + s₁.totalPayloadSize = o) :
    { s₁ with buffer := buffer }.held = s₁.held := by
  unfold held
  cases hp : s₁.payloadStart with
  | none => rfl
  | some p => exact Region.slice_memcpy_of_le hc (hnext p hp).le

theorem Request.soundAt (hr : Request s s₁ o n) (h : s.Sound)
    (hc : s₁.buffer.memcpy o got = some buffer) :
    SoundAt { s₁ with buffer := buffer } ⟨o, got⟩ := by
  have hs := hr.sound h
  refine ⟨⟨hs.header, hs.payload, hs.footer, hs.accepted, hs.start⟩, ?_, ?_⟩
  · exact Region.slice_memcpy hc
  · exact fun p hp _ => hr.next p hp

theorem onCmuxData_eq (hreq : s.readRequest = some (s₁, o, n)) :
    s.onCmuxData avail = (s₁.buffer.memcpy o (avail.take n)).bind fun buffer =>
      (Loop.loop (fun t => 0 < t.2.len) turn (maxTurns (avail.take n).length)
        ({ s₁ with buffer := buffer }, ⟨o, avail.take n⟩)).map fun r => (r.2.1, avail.drop n) := by
  unfold onCmuxData
  rw [hreq]
  simp only [Option.bind_eq_bind, Option.bind_some]
  congr 1
  funext buffer
  generalize Loop.loop _ _ _ _ = r
  cases r with
  | none => rfl
  | some r => rfl

theorem onCmuxData_turns (h : s.Sound) (hsize : 128 ≤ size) (hsize' : size < 2 ^ 32)
    (avail : Bytes) :
    ∃ s₁ o n buffer, Request s s₁ o n ∧ s₁.buffer.memcpy o (avail.take n) = some buffer ∧
      ∀ (G : CMux size → CMuxFrame → Prop) (Q : CMux size → Prop),
        G { s₁ with buffer := buffer } ⟨o, avail.take n⟩ →
        (∀ s f s' f', SoundAt s f → 0 < f.len → G s f → Step s f true s' f' → G s' f') →
        (∀ s f s' f', SoundAt s f → 0 < f.len → G s f → Step s f false s' f' → Q s') →
        (∀ s f, f.data = [] → SoundAt s f → G s f → Q s) →
        ∃ s', s.onCmuxData avail = some (s', avail.drop n) ∧ s'.Sound ∧ Q s' := by
  obtain ⟨s₁, o, n, hreq, hr⟩ := readRequest_cases h
  have hfits := hr.fits hsize hsize'
  obtain ⟨buffer, hc⟩ := s₁.buffer.exists_memcpy o (avail.take n) (by
    have := List.length_take_le n avail
    omega)
  refine ⟨s₁, o, n, buffer, hr, hc, ?_⟩
  intro G Q hG hgo hstop hend
  obtain ⟨b, s', f', hl, hs', hq⟩ := loop_turns (hr.soundAt h hc) hG hgo hstop hend
  have hl' : Loop.loop (fun t => decide (0 < t.2.len)) turn (maxTurns (avail.take n).length)
      ({ s₁ with buffer := buffer }, ⟨o, avail.take n⟩) = some (b, s', f') := hl
  refine ⟨s', ?_, hs', hq⟩
  rw [onCmuxData_eq hreq, hc, Option.bind_some, hl', Option.map_some]

def ReadOn (s : CMux size) (got : Bytes) (t : CMux size) (f : CMuxFrame) : Prop :=
  ∃ d, got = d ++ f.data ∧ ∀ c, s.Drawn c → t.Drawn (c ++ d)

variable {t t' : CMux size} {f f' : CMuxFrame}

theorem ReadOn.go (h : ReadOn s got t f) (hat : SoundAt t f) (hst : Step t f true t' f') :
    ReadOn s got t' f' := by
  obtain ⟨d, hd, hG⟩ := h
  obtain ⟨-, -, m, -, rfl⟩ := hst.advances
  have he : f.data = f.data.take m ++ (f.advance m).data :=
    (List.take_append_drop m f.data).symm
  refine ⟨d ++ f.data.take m, by rw [List.append_assoc, ← he, hd], fun c hc => ?_⟩
  obtain ⟨e, he', hdr⟩ := (hst.drawn hat (hG c hc)).1 rfl
  obtain rfl : e = f.data.take m := List.append_cancel_right (he'.symm.trans he)
  rwa [← List.append_assoc]

theorem ReadOn.stop {c : Bytes} (h : ReadOn s got t f) (hat : SoundAt t f)
    (hst : Step t f false t' f') (hc : s.Drawn c) : t'.Drawn (c ++ got) := by
  obtain ⟨d, hd, hG⟩ := h
  have := (hst.drawn hat (hG c hc)).2 rfl
  rwa [List.append_assoc, ← hd] at this

theorem ReadOn.done {c : Bytes} (h : ReadOn s got t f) (hf : f.data = []) (hc : s.Drawn c) :
    t.Drawn (c ++ got) := by
  obtain ⟨d, hd, hG⟩ := h
  rw [hf, List.append_nil] at hd
  rw [hd]
  exact hG c hc

theorem onCmuxData_spec (h : s.Sound) (hsize : 128 ≤ size) (hsize' : size < 2 ^ 32)
    (avail : Bytes) : ∃ s' n, s.onCmuxData avail = some (s', avail.drop n) ∧ s'.Sound ∧
      (128 < size → 0 < n) ∧ ∀ c, s.Drawn c → s'.Drawn (c ++ avail.take n) := by
  obtain ⟨s₁, o, n, buffer, hr, hc, hrun⟩ := onCmuxData_turns h hsize hsize' avail
  have hstart : ReadOn s (avail.take n) { s₁ with buffer := buffer } ⟨o, avail.take n⟩ := by
    refine ⟨[], rfl, fun c hd => ?_⟩
    rw [List.append_nil]
    exact (hr.drawn hd).keep rfl (held_copy hc hr.next)
  obtain ⟨s', ho, hs', hq⟩ := hrun (ReadOn s (avail.take n))
    (fun t => ∀ c, s.Drawn c → t.Drawn (c ++ avail.take n)) hstart
    (fun _ _ _ _ hat _ hG hst => hG.go hat hst)
    (fun _ _ _ _ hat _ hG hst _ hd => hG.stop hat hst hd)
    (fun _ _ hf _ hG _ hd => hG.done hf hd)
  exact ⟨s', n, ho, hs', fun hlt => hr.pos hlt hsize', hq⟩

/-- More bytes at once than a buffer holds that is too small for the bytes set aside: they are
all read into it. -/
theorem onCmuxData_eq_none_of_lt (hp : s.payloadStart = none) (hsize : size < 2 ^ 32)
    (hlt : size < 128) : s.onCmuxData (List.replicate (size + 1) 0) = none := by
  have hreq : s.readRequest = some (s, 0, firstRead size) := by rw [readRequest, hp]
  have hall : (List.replicate (size + 1) (0 : UInt8)).take (firstRead size) =
      List.replicate (size + 1) 0 := by
    apply List.take_of_length_le
    rw [List.length_replicate]
    unfold firstRead
    omega
  have hc : s.buffer.memcpy 0 (List.replicate (size + 1) (0 : UInt8)) = none := by
    rw [Region.memcpy_eq_none_iff, List.length_replicate]
    omega
  rw [onCmuxData_eq hreq, hall, hc, Option.bind_none]

theorem onCmuxData_of_eq (hp : s.payloadStart = none) (hsize : size = 128) (avail : Bytes) :
    ∃ s', s.onCmuxData avail = some (s', avail) ∧ s'.payloadStart = none := by
  have hreq : s.readRequest = some (s, 0, firstRead size) := by rw [readRequest, hp]
  have h0 : firstRead size = 0 := by rw [hsize]; decide
  obtain ⟨buffer, hc⟩ := s.buffer.exists_memcpy 0 [] (Nat.zero_le _)
  rw [h0] at hreq
  refine ⟨{ s with buffer := buffer }, ?_, hp⟩
  rw [onCmuxData_eq hreq, List.take_zero, hc]
  rfl

/-- The receiver as the constructor and `init` leave it. -/
structure Fresh (s : CMux size) : Prop where
  state : s.state = .init
  offset : s.frameHeaderOffset = 0
  start : s.payloadStart = none
  log : s.log = []

def blank (size : ℕ) (readCb : Fin maxTerminalsNum → Bool) : CMux size where
  readCb := readCb
  state := .init
  dlci := 0
  type := 0
  payloadLen := 0
  frameHeader := .fill 6 0
  frameHeaderOffset := 0
  payloadStart := none
  totalPayloadSize := 0
  sabmAck := -1
  buffer := .fill size 0
  log := []

theorem blank_fresh (size : ℕ) (readCb : Fin maxTerminalsNum → Bool) : (blank size readCb).Fresh :=
  ⟨rfl, rfl, rfl, rfl⟩

theorem sound_of_init (hs : s.state = .init) (hp : s.payloadStart = none) : s.Sound := by
  refine ⟨?_, ?_, ?_, ?_, ?_⟩
  · intro h; rw [hs] at h; cases h
  · intro h; rw [hs] at h; cases h
  · intro h; rw [hs] at h; cases h
  · intro h; rw [hs] at h; simp at h
  · intro p h; rw [hp] at h; cases h

theorem Fresh.sound (h : s.Fresh) : s.Sound := sound_of_init h.state h.start

theorem Fresh.drawn (h : s.Fresh) : s.Drawn [] := by
  simp [Drawn, given, held, h.log, h.start]

end CMux

def MuxOp.received : MuxOp → Bytes
  | .arrive bytes => bytes
  | _ => []

namespace MuxLine

variable {size : ℕ} {l : MuxLine size}

/-- The line keeps what it owes: given, held and unread bytes are drawn from `c`. -/
structure Keeps (l : MuxLine size) (c : Bytes) : Prop where
  sound : l.cmux.Sound
  drawn : ∃ d, l.cmux.Drawn d ∧ (d ++ l.pending).Sublist c

theorem Keeps.apply {c : Bytes} (h : l.Keeps c) (hsize : 128 ≤ size) (hsize' : size < 2 ^ 32)
    (op : MuxOp) : ∃ l', l.apply op = some l' ∧ l'.Keeps (c ++ op.received) := by
  obtain ⟨d, hd, hsub⟩ := h.drawn
  cases op with
  | arrive bytes =>
    rcases Decidable.em (l.pending ++ bytes = []) with hn | hn
    · refine ⟨l, if_pos hn, h.sound, d, hd, ?_⟩
      exact hsub.trans (List.sublist_append_left _ _)
    · obtain ⟨s', n, ho, hs', -, hq⟩ :=
        CMux.onCmuxData_spec h.sound hsize hsize' (l.pending ++ bytes)
      refine ⟨⟨s', (l.pending ++ bytes).drop n⟩, ?_, hs', _, hq d hd, ?_⟩
      · rw [MuxLine.apply, if_neg hn, ho]
        rfl
      · rw [List.append_assoc, List.take_append_drop, ← List.append_assoc]
        exact hsub.append_right _
  | recover =>
    refine ⟨_, rfl, CMux.recoverProtocol_sound _, d, hd.drop rfl rfl, ?_⟩
    exact hsub.trans (List.sublist_append_left _ _)
  | flush =>
    refine ⟨_, rfl, h.sound, d, hd, ?_⟩
    rw [List.append_nil]
    exact ((List.sublist_append_left _ _).trans hsub).trans (List.sublist_append_left _ _)
  | setReadCb inst f =>
    have hs := h.sound
    refine ⟨_, rfl, ⟨hs.header, hs.payload, hs.footer, hs.accepted, hs.start⟩, d,
      hd.keep rfl rfl, ?_⟩
    exact hsub.trans (List.sublist_append_left _ _)

theorem Keeps.run {c : Bytes} (h : l.Keeps c) (hsize : 128 ≤ size) (hsize' : size < 2 ^ 32)
    (ops : List MuxOp) :
    ∃ l', l.run ops = some l' ∧ l'.Keeps (c ++ ops.flatMap MuxOp.received) := by
  induction ops generalizing l c with
  | nil => exact ⟨l, rfl, by rwa [List.flatMap_nil, List.append_nil]⟩
  | cons op ops ih =>
    obtain ⟨l₁, ha, h₁⟩ := h.apply hsize hsize' op
    obtain ⟨l', hr, h'⟩ := ih h₁
    refine ⟨l', by rw [MuxLine.run, ha]; exact hr, ?_⟩
    rwa [List.flatMap_cons, ← List.append_assoc]

theorem run_append (ops ops' : List MuxOp) :
    l.run (ops ++ ops') = (l.run ops).bind fun l' => l'.run ops' := by
  induction ops generalizing l with
  | nil => rfl
  | cons op ops ih =>
    rw [List.cons_append, run, run]
    cases l.apply op with
    | none => rfl
    | some l' => exact ih

/-- Nothing that can come in makes the receiver leave its memory or loop for ever, exactly when
the buffer holds the 128 bytes that the receiver sets aside. -/
theorem run_defined_iff (hf : l.cmux.Fresh) (hp : l.pending = []) (hsize : size < 2 ^ 32) :
    (∀ ops, ∃ l', l.run ops = some l') ↔ 128 ≤ size := by
  constructor
  · intro h
    by_contra hlt
    obtain ⟨l', hr⟩ := h [.arrive (List.replicate (size + 1) 0)]
    have hn := CMux.onCmuxData_eq_none_of_lt hf.start hsize (by omega)
    have ha : l.apply (.arrive (List.replicate (size + 1) 0)) = none := by
      simp [MuxLine.apply, hp, hn]
    rw [MuxLine.run, ha] at hr
    cases hr
  · intro h ops
    obtain ⟨l', hr, -⟩ := Keeps.run (c := []) ⟨hf.sound, [], hf.drawn, by simp [hp]⟩ h hsize ops
    exact ⟨l', hr⟩

theorem run_defined_default :
    (∀ ops, ∃ l', (⟨CMux.blank 512 fun _ => true, []⟩ : MuxLine 512).run ops = some l') ↔
      128 ≤ 512 :=
  run_defined_iff (CMux.blank_fresh _ _) rfl (by decide)

theorem run_idle_of_eq (hp : l.cmux.payloadStart = none) (hsize : size = 128)
    (hne : l.pending ≠ []) (k : ℕ) :
    ∃ l', l.run (List.replicate k (.arrive [])) = some l' ∧ l'.pending = l.pending := by
  induction k generalizing l with
  | zero => exact ⟨l, rfl, rfl⟩
  | succ k ih =>
    obtain ⟨s', ho, hp'⟩ := CMux.onCmuxData_of_eq hp hsize l.pending
    obtain ⟨l', hr, hl'⟩ := ih (l := ⟨s', l.pending⟩) hp' hne
    refine ⟨l', ?_, hl'⟩
    rw [List.replicate_succ, MuxLine.run, MuxLine.apply, List.append_nil, if_neg hne, ho]
    exact hr

theorem exists_run_idle (h : l.cmux.Sound) (hsize : 128 < size) (hsize' : size < 2 ^ 32) :
    ∃ k l', l.run (List.replicate k (.arrive [])) = some l' ∧ l'.pending = [] := by
  induction hn : l.pending.length using Nat.strong_induction_on generalizing l with
  | _ n ih =>
    rcases Decidable.em (l.pending = []) with hp | hp
    · exact ⟨0, l, rfl, hp⟩
    · obtain ⟨s', m, ho, hs', hm, -⟩ := CMux.onCmuxData_spec h hsize.le hsize' l.pending
      have hpos := hm hsize
      have hlen := List.length_pos_iff.mpr hp
      have hlt : (l.pending.drop m).length < n := by
        rw [List.length_drop]
        omega
      obtain ⟨k, l', hr, hl'⟩ := ih _ hlt (l := ⟨s', l.pending.drop m⟩) hs' rfl
      refine ⟨k + 1, l', ?_, hl'⟩
      rw [List.replicate_succ, MuxLine.run, MuxLine.apply, List.append_nil, if_neg hp, ho]
      exact hr

/-- Whatever came in, what waits in the UART is read sooner or later, exactly when the buffer
holds more than the bytes set aside. -/
theorem run_drains_iff (hf : l.cmux.Fresh) (hp : l.pending = []) (hsize : size < 2 ^ 32) :
    (∀ ops, ∃ k l', l.run (ops ++ List.replicate k (.arrive [])) = some l' ∧ l'.pending = []) ↔
      128 < size := by
  constructor
  · intro h
    by_contra hle
    rcases Nat.lt_or_ge size 128 with hlt | hge
    · obtain ⟨k, l', hr, -⟩ := h [.arrive (List.replicate (size + 1) 0)]
      have hn := CMux.onCmuxData_eq_none_of_lt hf.start hsize hlt
      have ha : l.apply (.arrive (List.replicate (size + 1) 0)) = none := by
        simp [MuxLine.apply, hp, hn]
      rw [List.singleton_append, MuxLine.run, ha] at hr
      cases hr
    · have heq : size = 128 := by omega
      obtain ⟨k, l', hr, hl'⟩ := h [.arrive [0]]
      obtain ⟨s', ho, hp'⟩ := CMux.onCmuxData_of_eq hf.start heq [0]
      obtain ⟨l₂, hr₂, hl₂⟩ := run_idle_of_eq (l := ⟨s', [0]⟩) hp' heq (List.cons_ne_nil _ _) k
      have ha : l.apply (.arrive [0]) = some ⟨s', [0]⟩ := by
        simp [MuxLine.apply, hp, ho]
      rw [List.singleton_append, MuxLine.run, ha] at hr
      obtain rfl := Option.some.inj (hr₂.symm.trans hr)
      rw [hl₂] at hl'
      cases hl'
  · intro h ops
    obtain ⟨l₁, hr, hk⟩ :=
      Keeps.run (c := []) ⟨hf.sound, [], hf.drawn, by simp [hp]⟩ h.le hsize ops
    obtain ⟨k, l', hr', hl'⟩ := exists_run_idle hk.sound h hsize
    exact ⟨k, l', by rw [run_append, hr]; exact hr', hl'⟩

theorem run_drains_default :
    (∀ ops, ∃ k l', (⟨CMux.blank 512 fun _ => true, []⟩ : MuxLine 512).run
      (ops ++ List.replicate k (.arrive [])) = some l' ∧ l'.pending = []) ↔ 128 < 512 :=
  run_drains_iff (CMux.blank_fresh _ _) rfl (by decide)

/-- **No invention.** What the terminals are given, in the order in which it is given, is drawn
from the bytes received: no byte is made up, given twice or given out of order. -/
theorem run_given_sublist (hf : l.cmux.Fresh) (hp : l.pending = []) (hsize : 128 ≤ size)
    (hsize' : size < 2 ^ 32) (ops : List MuxOp) :
    ∃ l', l.run ops = some l' ∧
      (l'.cmux.given ++ l'.cmux.held.getD [] ++ l'.pending).Sublist
        (ops.flatMap MuxOp.received) := by
  obtain ⟨l', hr, h'⟩ := Keeps.run (c := []) ⟨hf.sound, [], hf.drawn, by simp [hp]⟩ hsize hsize' ops
  obtain ⟨d, hd, hsub⟩ := h'.drawn
  rw [List.nil_append] at hsub
  exact ⟨l', hr, (List.Sublist.append_right hd _).trans hsub⟩

theorem run_given_sublist_noise :
    ∃ l', (⟨CMux.blank 512 fun _ => true, []⟩ : MuxLine 512).run
        [.arrive [sofMarker, 0x05, ftUih], .recover, .arrive [0x05, sofMarker]] = some l' ∧
      (l'.cmux.given ++ l'.cmux.held.getD [] ++ l'.pending).Sublist
        ([.arrive [sofMarker, 0x05, ftUih], .recover, .arrive [0x05, sofMarker]].flatMap
          MuxOp.received) :=
  run_given_sublist (CMux.blank_fresh _ _) rfl (by decide) (by decide) _

end MuxLine

end EspLtePpp
