import EspLtePpp.Cmux.Decoder

/-! # What one turn of the receiver can do

`Sound` holds of the receiver between two chunks and `SoundAt` inside one. From a
sound state every turn is one of the steps listed in `Step`: nothing is copied or
read outside the memory it belongs to.
-/

namespace EspLtePpp

def Heading.term? (h : Heading) : Option (Fin maxTerminalsNum) :=
  if ht : 0 < h.dlci ∧ h.dlci.toNat - 1 < maxTerminalsNum then some ⟨h.dlci.toNat - 1, ht.2⟩
  else none

def Heading.listener (h : Heading) (readCb : Fin maxTerminalsNum → Bool) :
    Option (Fin maxTerminalsNum) := h.term?.filter readCb

theorem Heading.Accepted.term?_eq {h : Heading} (ha : h.Accepted) (hd : 0 < h.dlci) :
    ∃ hlt : h.dlci.toNat - 1 < maxTerminalsNum, h.term? = some ⟨h.dlci.toNat - 1, hlt⟩ := by
  have hle := ha.1
  have hlt : h.dlci.toNat - 1 < maxTerminalsNum := by unfold maxTerminalsNum at *; omega
  exact ⟨hlt, dif_pos ⟨hd, hlt⟩⟩

theorem Heading.term?_eq_none {h : Heading} (hd : ¬0 < h.dlci) : h.term? = none :=
  dif_neg fun hc => hd hc.1

theorem eq_zero_of_not_pos {b : UInt8} (h : ¬0 < b) : b = 0 := by
  have h' : ¬0 < b.toNat := h
  exact UInt8.toNat_inj.mp (by simpa using h')

namespace CMux

variable {size : ℕ} {s : CMux size} {frame view : CMuxFrame}

def heading (s : CMux size) : Heading := ⟨s.dlci, s.type⟩

/-- The part of the payload at hand that waits in the buffer. -/
def held (s : CMux size) : Option Bytes :=
  s.payloadStart.bind fun p => s.buffer.slice p s.totalPayloadSize

def got (s : CMux size) : Bytes := (s.frameHeader.slice 1 (s.frameHeaderOffset - 1)).getD []

/-- What `data_available` makes of a part of a payload. -/
def taken (s : CMux size) (view : CMuxFrame) : CMux size :=
  match s.heading.listener s.readCb with
  | some _ => s.accumulate view
  | none =>
    if s.dlci = 0 ∧ ¬view.data.head?.any (· &&& 0xE1 == 0xE1) then
      { s with sabmAck := s.dlci.toNat, log := s.log ++ [.disc] }
    else s

/-- What `data_available` makes of the end of a frame. -/
def closed (s : CMux size) : CMux size :=
  if isUa s.type then { s with sabmAck := s.dlci.toNat, log := s.log ++ [.ack s.dlci] }
  else
    match s.heading.listener s.readCb with
    | some t => { s with log := s.log ++ [.post t s.held] }
    | none => s

theorem taken_eq (s : CMux size) (view : CMuxFrame) : ∃ p t a l, s.taken view =
    { s with payloadStart := p, totalPayloadSize := t, sabmAck := a, log := l } := by
  unfold taken accumulate
  split
  · split
    · exact ⟨_, _, _, _, rfl⟩
    · exact ⟨_, _, _, _, rfl⟩
  · split
    · exact ⟨_, _, _, _, rfl⟩
    · exact ⟨_, _, _, _, rfl⟩

@[simp] theorem payloadLen_taken : (s.taken view).payloadLen = s.payloadLen := by
  obtain ⟨_, _, _, _, h⟩ := taken_eq s view; rw [h]

theorem closed_eq (s : CMux size) : ∃ a l, s.closed = { s with sabmAck := a, log := l } := by
  unfold closed
  split
  · exact ⟨_, _, rfl⟩
  · split
    · exact ⟨_, _, rfl⟩
    · exact ⟨_, _, rfl⟩

theorem closed_with (s : CMux size) (hdr : Region UInt8 6) (st : CMuxState) (o : ℕ) :
    { s with frameHeader := hdr, state := st, frameHeaderOffset := o }.closed =
      { s.closed with frameHeader := hdr, state := st, frameHeaderOffset := o } := by
  have hh : { s with frameHeader := hdr, state := st, frameHeaderOffset := o }.heading =
    s.heading := rfl
  unfold closed
  rw [hh]
  cases isUa s.type with
  | true => rfl
  | false => cases s.heading.listener s.readCb <;> rfl

theorem dataAvailable_view (ha : s.heading.Accepted) (hu : isUih s.type = true)
    (hv : 0 < view.len) : s.dataAvailable (some view) = some (true, s.taken view) := by
  unfold dataAvailable taken
  rcases Decidable.em (0 < s.dlci) with hd | hd
  · obtain ⟨hlt, ht⟩ := ha.term?_eq hd
    have hne : s.dlci ≠ 0 := by
      rintro h0
      rw [h0] at hd
      exact absurd hd (by decide)
    have hlt' : s.dlci.toNat - 1 < maxTerminalsNum := hlt
    simp only [hu, hv, hd, and_self, if_true, dif_pos hlt', Heading.listener, ht]
    cases hc : s.readCb ⟨s.dlci.toNat - 1, hlt'⟩ with
    | true => simp [Option.filter, heading, hc]
    | false => simp [Option.filter, heading, hc, hne]
  · have h0 := eq_zero_of_not_pos hd
    have ht : s.heading.term? = none := Heading.term?_eq_none hd
    simp only [hu, h0, and_self, if_true, Heading.listener, ht, true_and, Option.filter_none]
    cases view.data.head?.any (· &&& 0xE1 == 0xE1) <;> simp

theorem dataAvailable_view_ua (hu : isUih s.type = false) :
    s.dataAvailable (some view) = some (false, s) := by
  simp [dataAvailable, hu]

theorem post_eq (h : ∀ p, s.payloadStart = some p → p + s.totalPayloadSize ≤ size)
    (t : Fin maxTerminalsNum) :
    s.post t = some { s with log := s.log ++ [.post t s.held] } := by
  unfold post held
  cases hp : s.payloadStart with
  | none => rfl
  | some p =>
    obtain ⟨bs, hbs⟩ := s.buffer.exists_slice (h p hp)
    simp [hbs]

theorem dataAvailable_none (ha : s.heading.Accepted)
    (h : ∀ p, s.payloadStart = some p → p + s.totalPayloadSize ≤ size) :
    s.dataAvailable none = some (true, s.closed) := by
  unfold dataAvailable closed
  cases hua : isUa s.type with
  | true => simp
  | false =>
    have hu : isUih s.type = true := by
      rcases ha.2 with hu | hu
      · exact hu
      · exact absurd (hua.symm.trans hu) (by decide)
    rcases Decidable.em (0 < s.dlci) with hd | hd
    · obtain ⟨hlt, ht⟩ := ha.term?_eq hd
      have hlt' : s.dlci.toNat - 1 < maxTerminalsNum := hlt
      simp only [hd, if_true, dif_pos hlt', Heading.listener, ht, Bool.false_eq_true, if_false]
      cases hc : s.readCb ⟨s.dlci.toNat - 1, hlt'⟩ with
      | true => simp [Option.filter, heading, hc, post_eq h]
      | false => simp [Option.filter, heading, hc]
    · have h0 := eq_zero_of_not_pos hd
      have ht : s.heading.term? = none := Heading.term?_eq_none hd
      simp [h0, hu, Heading.listener, ht]

/-- What holds of the receiver between two chunks, whatever came before. -/
structure Sound (s : CMux size) : Prop where
  header : s.state = .header → 1 ≤ s.frameHeaderOffset ∧ s.frameHeaderOffset ≤ 4 ∧
    (s.frameHeaderOffset = 4 → s.frameHeader.get 3 &&& 1 = 0)
  payload : s.state = .payload → s.frameHeaderOffset = 4
  footer : s.state = .footer →
    4 ≤ s.frameHeaderOffset ∧ s.frameHeaderOffset ≤ 5 ∧ s.payloadLen = 0
  accepted : s.state = .payload ∨ s.state = .footer → s.heading.Accepted
  start : ∀ p, s.payloadStart = some p → (s.state = .payload ∨ s.state = .footer) ∧
    isUih s.type = true ∧ 0 < s.totalPayloadSize ∧ p + s.totalPayloadSize ≤ size

/-- What holds inside a chunk: the unread bytes are in the buffer, and while a payload is being
read they follow the part of it that is held. -/
structure SoundAt (s : CMux size) (frame : CMuxFrame) : Prop extends s.Sound where
  view : s.buffer.slice frame.ptr frame.len = some frame.data
  next : ∀ p, s.payloadStart = some p → s.state = .payload →
    p + s.totalPayloadSize = frame.ptr

/-- The turns of the receiver. The flag says whether the loop goes on. -/
inductive Step (s : CMux size) (frame : CMuxFrame) : Bool → CMux size → CMuxFrame → Prop

  | lostLead : s.state = .init → frame.isSof 0 = false → Step s frame true s.recoverProtocol frame

  | emptyFrame : s.state = .init → frame.isSof 0 = true → frame.isSof 1 = true →
      Step s frame true s (frame.advance 1)

  | lead : s.state = .init → frame.isSof 0 = true → frame.isSof 1 = false →
      Step s frame true { s with state := .header, frameHeaderOffset := 1 } (frame.advance 1)

  | foundHere : s.state = .recover → frame.isSof 0 = true →
      Step s frame true { s with state := .init } frame

  | foundNowhere : s.state = .recover → sofMarker ∉ frame.data → Step s frame false s frame

  | found {i : ℕ} : s.state = .recover → 0 < i → i < frame.len →
      sofMarker ∉ frame.data.take i → (frame.advance i).isSof 0 = true →
      (frame.advance i).isSof 1 = false →
      Step s frame true { s with state := .init } (frame.advance i)

  | foundEmpty {i : ℕ} : s.state = .recover → i < frame.len →
      sofMarker ∉ frame.data.take i → (frame.advance i).isSof 0 = true →
      (frame.advance i).isSof 1 = true →
      Step s frame true { s with state := .init } ((frame.advance i).advance 1)

  | headerSkip : s.state = .header → s.frameHeaderOffset = 1 → frame.isSof 0 = true →
      Step s frame true s (frame.advance 1)

  | headerMore {hdr : Region UInt8 6} : s.state = .header →
      ¬(s.frameHeaderOffset = 1 ∧ frame.isSof 0 = true) → s.frameHeaderOffset + frame.len ≤ 4 →
      hdr.slice 1 (s.frameHeaderOffset - 1 + frame.len) = some (s.got ++ frame.data) →
      headerOf (s.got ++ frame.data) = none →
      Step s frame false
        { s with frameHeader := hdr, frameHeaderOffset := s.frameHeaderOffset + frame.len } frame

  | headerDone {hdr : Region UInt8 6} {n k : ℕ} {addr type : UInt8} : s.state = .header →
      ¬(s.frameHeaderOffset = 1 ∧ frame.isSof 0 = true) → 0 < n → n ≤ frame.len →
      headerOf (s.got ++ frame.data.take n) = some (addr, type, k) → HeaderOk addr type →
      Step s frame true
        { s with
          frameHeader := hdr, dlci := addr >>> 2, type := type, payloadLen := k
          frameHeaderOffset := 4, state := .payload } (frame.advance n)

  | headerLost {hdr : Region UInt8 6} {n k p : ℕ} {addr type : UInt8} : s.state = .header →
      ¬(s.frameHeaderOffset = 1 ∧ frame.isSof 0 = true) → 0 < n → n ≤ frame.len →
      headerOf (s.got ++ frame.data.take n) = some (addr, type, k) → ¬HeaderOk addr type →
      Step s frame true
        ({ s with
          frameHeader := hdr, dlci := addr >>> 2, type := type, payloadLen := p }).recoverProtocol
        frame

  | payloadPart : s.state = .payload → frame.len < s.payloadLen → isUih s.type = true →
      Step s frame false { s.taken frame with payloadLen := s.payloadLen - frame.len } frame

  | payloadLost : s.state = .payload → 0 < s.payloadLen → isUih s.type = false →
      Step s frame true s.recoverProtocol frame

  | payloadDone : s.state = .payload → 0 < s.payloadLen → s.payloadLen ≤ frame.len →
      isUih s.type = true →
      Step s frame true
        { s.taken (frame.first s.payloadLen) with state := .footer, payloadLen := 0 }
        (frame.advance s.payloadLen)

  | payloadNone : s.state = .payload → s.payloadLen = 0 →
      Step s frame true { s with state := .footer, payloadLen := 0 } frame

  | footerMore {hdr : Region UInt8 6} : s.state = .footer → s.frameHeaderOffset = 4 →
      frame.len = 1 → Step s frame false { s with frameHeader := hdr, frameHeaderOffset := 5 } frame

  | footerLost {hdr : Region UInt8 6} {n : ℕ} : s.state = .footer →
      s.frameHeaderOffset + n = 6 → n ≤ frame.len → frame.isSof (n - 1) = false →
      Step s frame true ({ s with frameHeader := hdr }).recoverProtocol frame

  | footerDone {hdr : Region UInt8 6} {n : ℕ} : s.state = .footer →
      s.frameHeaderOffset + n = 6 → n ≤ frame.len → frame.isSof (n - 1) = true →
      Step s frame true
        { s.closed with
          frameHeader := hdr, state := .init, frameHeaderOffset := 0, payloadStart := none
          totalPayloadSize := 0 } (frame.advance n)

def Turns (s : CMux size) (frame : CMuxFrame) (r : Option (Bool × CMux size × CMuxFrame)) : Prop :=
  ∃ b s' frame', r = some (b, s', frame') ∧ Step s frame b s' frame'

theorem Step.turns {b : Bool} {s' : CMux size} {frame' : CMuxFrame} (h : Step s frame b s' frame') :
    Turns s frame (some (b, s', frame')) := ⟨b, s', frame', rfl, h⟩

theorem onInit_turns (hs : s.state = .init) : Turns s frame (s.onInit frame) := by
  unfold onInit
  split
  · rename_i h
    exact (Step.lostLead hs (by simpa using h)).turns
  · rename_i h
    have h0 : frame.isSof 0 = true := by simpa using h
    split
    · rename_i h1
      exact (Step.emptyFrame hs h0 h1).turns
    · rename_i h1
      exact (Step.lead hs h0 (by simpa using h1)).turns

theorem onRecovery_turns (hs : s.state = .recover) : Turns s frame (s.onRecovery frame) := by
  unfold onRecovery
  split
  · rename_i h0
    exact (Step.foundHere hs h0).turns
  · rename_i h0
    split
    · rename_i hn
      exact (Step.foundNowhere hs (List.idxOf?_eq_none_iff.mp hn)).turns
    · rename_i i hi
      obtain ⟨hlt, hat, hbefore⟩ := List.idxOf?_eq_some_iff.mp hi
      have hmem : sofMarker ∉ frame.data.take i := by
        intro hm
        obtain ⟨j, hj, he⟩ := List.getElem_of_mem hm
        rw [List.length_take] at hj
        rw [List.getElem_take] at he
        exact hbefore j (by omega) he
      have hsof : (frame.advance i).isSof 0 = true := by
        simp [CMuxFrame.isSof, CMuxFrame.advance, List.getElem?_eq_getElem hlt, hat]
      have hpos : 0 < i := by
        rcases Nat.eq_zero_or_pos i with rfl | hpos
        · exact absurd hsof (by simpa [CMuxFrame.advance] using h0)
        · exact hpos
      dsimp only
      split
      · rename_i h1
        exact (Step.foundEmpty hs hlt hmem hsof h1).turns
      · rename_i h1
        exact (Step.found hs hpos hlt hmem hsof (by simpa using h1)).turns

theorem header_three {hdr : Region UInt8 6} {bs : Bytes} (h : hdr.slice 1 3 = some bs) :
    bs = [hdr.get 1, hdr.get 2, hdr.get 3] := by
  obtain ⟨a, b, c, rfl⟩ := List.length_eq_three.mp (Region.length_slice h)
  have h₁ := Region.getElem?_slice h (j := 0) (by decide) (i := 1) rfl
  have h₂ := Region.getElem?_slice h (j := 1) (by decide) (i := 2) rfl
  have h₃ := Region.getElem?_slice h (j := 2) (by decide) (i := 3) rfl
  simp_all

theorem header_four {hdr : Region UInt8 6} {bs : Bytes} (h : hdr.slice 1 4 = some bs) :
    bs = [hdr.get 1, hdr.get 2, hdr.get 3, hdr.get 4] := by
  have h₃ := header_three (Region.slice_take h (m := 3) (by decide))
  have h₄ := Region.getElem?_slice h (j := 3) (by decide) (i := 4) rfl
  have hl := Region.length_slice h
  obtain ⟨d, hd⟩ : ∃ d, bs.drop 3 = [d] := by
    apply List.length_eq_one_iff.mp
    rw [List.length_drop, hl]
  have hb := List.take_append_drop 3 bs
  rw [h₃, hd] at hb
  rw [← hb] at h₄ ⊢
  simpa using h₄

theorem headerDone_turns {hdr : Region UInt8 6} {n k o : ℕ} (hs : s.state = .header)
    (hskip : ¬(s.frameHeaderOffset = 1 ∧ frame.isSof 0 = true)) (hn : 0 < n) (hle : n ≤ frame.len)
    (ho : o = 4)
    (hh : headerOf (s.got ++ frame.data.take n) =
      some (hdr.get 1, hdr.get 2, k + (hdr.get 3 >>> 1).toNat)) :
    Turns s frame (headerDone
      { s with frameHeader := hdr, payloadLen := k, frameHeaderOffset := o } frame n) := by
  subst ho
  unfold headerDone
  dsimp only
  split
  · rename_i hbad
    apply Step.turns
    apply Step.headerLost hs hskip hn hle hh
    rintro ⟨hea, hd, hty⟩
    rcases hbad with hb | hb | ⟨hb, hb'⟩
    · exact absurd hd (by simpa using hb)
    · exact hea hb
    · simp [hb, hb'] at hty
  · rename_i hgood
    apply Step.turns
    apply Step.headerDone hs hskip hn hle hh
    simp only [not_or, not_and, Bool.not_eq_false] at hgood
    obtain ⟨hd, hea, hty⟩ := hgood
    refine ⟨hea, by simpa using hd, ?_⟩
    rcases Bool.eq_false_or_eq_true (isUih (hdr.get 2)) with hu | hu
    · exact .inl hu
    · exact .inr (hty hu)

theorem onHeader_turns (h : s.Sound) (hs : s.state = .header) (hpos : 0 < frame.len) :
    Turns s frame (s.onHeader frame) := by
  obtain ⟨ho1, ho4, hlong⟩ := h.header hs
  obtain ⟨bs, hgot⟩ := s.frameHeader.exists_slice
    (show 1 + (s.frameHeaderOffset - 1) ≤ 6 by omega)
  have hg : s.got = bs := by rw [got, hgot, Option.getD_some]
  have hgl : s.got.length = s.frameHeaderOffset - 1 := hg ▸ Region.length_slice hgot
  rw [← hg] at hgot
  unfold onHeader
  dsimp only
  split
  · rename_i hskip
    exact (Step.headerSkip hs hskip.2.1 hskip.2.2).turns
  rename_i hskip'
  have hskip : ¬(s.frameHeaderOffset = 1 ∧ frame.isSof 0 = true) := fun hc => hskip' ⟨hpos, hc⟩
  split
  · rename_i hlt
    obtain ⟨hdr, hc⟩ := s.frameHeader.exists_memcpy s.frameHeaderOffset frame.data
      (by unfold CMuxFrame.len at hlt; omega)
    rw [hc]
    apply Step.turns
    apply Step.headerMore hs hskip (by omega)
    · exact Region.slice_grow hc hgot (by omega)
    · apply headerOf_of_length_lt
      rw [List.length_append, hgl]
      unfold CMuxFrame.len at hlt
      omega
  rename_i hge
  set m := min frame.len (4 - s.frameHeaderOffset) with hm
  have hml : (frame.data.take m).length = m := by
    rw [List.length_take]
    unfold CMuxFrame.len at hm
    omega
  obtain ⟨hdr, hc⟩ := s.frameHeader.exists_memcpy s.frameHeaderOffset (frame.data.take m)
    (by omega)
  have h3 : hdr.slice 1 3 = some (s.got ++ frame.data.take m) := by
    have := Region.slice_grow hc hgot (by omega)
    rwa [hml, show s.frameHeaderOffset - 1 + m = 3 by omega] at this
  have hbs := header_three h3
  rw [hc]
  simp only [Option.bind_eq_bind, Option.bind_some]
  split
  · rename_i hea
    split
    · rename_i hle
      have hmd : frame.data.take m = frame.data := by
        apply List.take_of_length_le
        change frame.len ≤ m
        omega
      apply Step.turns
      apply Step.headerMore hs hskip (by omega)
      · rw [show s.frameHeaderOffset - 1 + frame.len = 3 by omega, h3, hmd]
      · rw [← hmd, hbs]
        exact headerOf_three_eq_none_iff.mpr hea
    · rename_i hlt
      set n := min frame.len (5 - s.frameHeaderOffset) with hn
      have hnl : (frame.data.take n).length = n := by
        rw [List.length_take]
        unfold CMuxFrame.len at hn
        omega
      obtain ⟨hdr', hc'⟩ := hdr.exists_memcpy s.frameHeaderOffset (frame.data.take n)
        (by omega)
      have hgot' : hdr.slice 1 (s.frameHeaderOffset - 1) = some s.got := by
        rw [Region.slice_memcpy_of_le hc (by omega)]
        exact hgot
      have h4 : hdr'.slice 1 4 = some (s.got ++ frame.data.take n) := by
        have := Region.slice_grow hc' hgot' (by omega)
        rwa [hnl, show s.frameHeaderOffset - 1 + n = 4 by omega] at this
      have hbs' := header_four h4
      -- the longer text continues the shorter one
      have hpre : (s.got ++ frame.data.take n).take 3 = s.got ++ frame.data.take m := by
        rw [show 3 = s.got.length + m by omega, List.take_length_add_append, List.take_take,
          Nat.min_eq_left (by omega)]
      have hea' : hdr'.get 3 &&& EA = 0 := by
        rw [hbs', hbs] at hpre
        have : hdr'.get 3 = hdr.get 3 := by simpa using (List.cons.inj (List.cons.inj
          (List.cons.inj hpre).2).2).1
        rw [this]
        exact hea
      rw [hc']
      apply headerDone_turns hs hskip (by omega) (by omega) (by omega)
      rw [hbs', headerOf, if_pos hea']
  · rename_i hea
    have hea' : ¬hdr.get 3 &&& EA = 0 := hea
    -- only a header without the extension bit waits for a fourth byte
    have ho : s.frameHeaderOffset ≠ 4 := by
      intro ho
      have hsame : hdr.get 3 = s.frameHeader.get 3 := by
        have hm0 : m = 0 := by omega
        have hg3 : s.frameHeader.slice 1 3 = some s.got := by
          rw [show 3 = s.frameHeaderOffset - 1 by omega]
          exact hgot
        have := header_three hg3
        rw [hm0, List.take_zero, List.append_nil, this] at hbs
        simpa using (List.cons.inj (List.cons.inj (List.cons.inj hbs).2).2).1.symm
      exact hea (hsame ▸ hlong ho)
    apply headerDone_turns hs hskip (by omega) (by omega) (by omega)
    rw [hbs, headerOf, if_neg hea', Nat.zero_add]

theorem onPayload_turns (h : s.Sound) (hs : s.state = .payload) (hpos : 0 < frame.len) :
    Turns s frame (s.onPayload frame) := by
  have ha := h.accepted (.inl hs)
  have hs' : { s with state := .payload } = s := by rw [← hs]
  unfold onPayload
  rw [hs']
  split
  · rename_i hlt
    cases hu : isUih s.type with
    | true =>
      rw [dataAvailable_view ha hu hpos]
      simp only [Option.bind_eq_bind, Option.bind_some, if_true, payloadLen_taken]
      exact (Step.payloadPart hs hlt hu).turns
    | false =>
      rw [dataAvailable_view_ua hu]
      exact (Step.payloadLost hs (by omega) hu).turns
  · rename_i hge
    split
    · rename_i hp
      cases hu : isUih s.type with
      | true =>
        have hv : 0 < (frame.first s.payloadLen).len := by
          unfold CMuxFrame.len at *
          rw [CMuxFrame.first, List.length_take]
          omega
        rw [dataAvailable_view ha hu hv]
        simp only [Option.bind_eq_bind, Option.bind_some, if_true, payloadLen_taken]
        exact (Step.payloadDone hs hp (by omega) hu).turns
      | false =>
        rw [dataAvailable_view_ua hu]
        exact (Step.payloadLost hs hp hu).turns
    · rename_i hp
      have h0 : s.payloadLen = 0 := by omega
      have hf : frame.advance s.payloadLen = frame := by simp [h0, CMuxFrame.advance]
      simp only [Option.bind_eq_bind, Option.bind_some, if_true, hf]
      exact (Step.payloadNone hs h0).turns

theorem onFooter_turns (h : s.Sound) (hs : s.state = .footer) (hpos : 0 < frame.len) :
    Turns s frame (s.onFooter frame) := by
  obtain ⟨ho4, ho5, hp0⟩ := h.footer hs
  unfold onFooter
  dsimp only
  split
  · rename_i hlt
    obtain ⟨hdr, hc⟩ := s.frameHeader.exists_memcpy s.frameHeaderOffset frame.data
      (by unfold CMuxFrame.len at hlt; omega)
    rw [hc]
    have ho : s.frameHeaderOffset + frame.len = 5 := by omega
    simp only [Option.bind_eq_bind, Option.bind_some, ho]
    exact (Step.footerMore hs (by omega) (by omega)).turns
  · rename_i hge
    set n := min frame.len (6 - s.frameHeaderOffset) with hn
    have hnl : (frame.data.take n).length = n := by
      rw [List.length_take]
      unfold CMuxFrame.len at hn
      omega
    obtain ⟨hdr, hc⟩ := s.frameHeader.exists_memcpy s.frameHeaderOffset (frame.data.take n)
      (by omega)
    have hlast : frame.data[n - 1]? = some (hdr.get 5) := by
      have h5 : (5 : Fin 6).val = s.frameHeaderOffset + (n - 1) := by
        change 5 = _
        omega
      have := Region.getElem?_slice (Region.slice_memcpy hc) (by omega) h5
      rwa [List.getElem?_take_of_lt (by omega)] at this
    rw [hc]
    simp only [Option.bind_eq_bind, Option.bind_some]
    split
    · rename_i hne
      apply Step.turns
      apply Step.footerLost (n := n) hs (by omega) (by omega)
      simpa [CMuxFrame.isSof, hlast] using hne
    · rename_i heq
      have hsof : frame.isSof (n - 1) = true := by simpa [CMuxFrame.isSof, hlast] using heq
      rw [dataAvailable_none]
      · simp only [Option.bind_some, if_true, closed_with]
        exact (Step.footerDone hs (by omega) (by omega) hsof).turns
      · exact h.accepted (.inr hs)
      · exact fun p hp => (h.start p hp).2.2.2

theorem turn_cases (h : s.Sound) (hpos : 0 < frame.len) : Turns s frame (turn (s, frame)) := by
  unfold turn
  dsimp only
  split
  · exact onRecovery_turns ‹_›
  · exact onInit_turns ‹_›
  · exact onHeader_turns h ‹_› hpos
  · exact onPayload_turns h ‹_› hpos
  · exact onFooter_turns h ‹_› hpos

end CMux

end EspLtePpp
