import EspLtePpp.Cmux.Simulation

/-! # Payloads that fit the buffer

The receiver reads on behind the payload it holds. As long as no read from the start
of the buffer leaves too little room behind it for the longest payload, it never has
to give a payload away in parts, and it reads as the format machine reads.
-/

namespace EspLtePpp

namespace CMux

variable {size limit : ℕ} {s s' t t' : CMux size} {frame frame' f f' : CMuxFrame} {b : Bool}

def Roomy (s : CMux size) : Prop :=
  ∀ p, s.payloadStart = some p → p + s.totalPayloadSize + (s.payloadLen + 2) < size

def Scarce (s : CMux size) (frame : CMuxFrame) : Prop :=
  match s.state with
  | .payload => frame.len ≤ s.payloadLen + 2 ∧ s.payloadStart ≠ none
  | .header => s.frameHeaderOffset + frame.len ≤ 2
  | _ => frame.len ≤ 2

structure Room (s : CMux size) (limit : ℕ) (frame : CMuxFrame) : Prop where
  roomy : s.Roomy
  ahead : frame.ptr + frame.len + limit + 1 < size ∨ s.Scarce frame

theorem roomy_of_none (h : s.payloadStart = none) : s.Roomy := by
  intro p hp
  rw [h] at hp
  cases hp

theorem Room.taken (h : Room s limit frame) (view : CMuxFrame) (hat : SoundAt s frame)
    (hs : s.state = .payload) (hlim : s.payloadLen ≤ limit) (hptr : view.ptr = frame.ptr)
    (hv : 0 < view.len) (hvl : view.len ≤ frame.len) (hvp : view.len ≤ s.payloadLen)
    {p : ℕ} (hp : (s.taken view).payloadStart = some p) :
    p + (s.taken view).totalPayloadSize + (s.payloadLen - view.len + 2) < size := by
  rcases taken_start view hv (fun q hq => (hat.next q hq hs).trans hptr.symm) with
    ⟨hp', ht⟩ | ⟨q, hq, -, hsum⟩
  · rw [hp'] at hp
    have := h.roomy p hp
    omega
  · obtain rfl : q = p := Option.some.inj (hq.symm.trans hp)
    cases hst : s.payloadStart with
    | some r =>
      have := h.roomy r hst
      have := hat.next r hst hs
      omega
    | none =>
      rcases h.ahead with ha | ha
      · omega
      · rw [Scarce, hs] at ha
        exact absurd hst ha.2

theorem Step.roomy (hat : SoundAt s frame) (hpos : 0 < frame.len) (hst : Step s frame b s' frame')
    (h : Room s limit frame) (hlim : s.state = .payload → s.payloadLen ≤ limit) : s'.Roomy := by
  have hnone : s.state ≠ .payload → s.state ≠ .footer → s.Roomy := fun hp hf =>
    roomy_of_none (held_eq_none hat.toSound hp hf)
  cases hst with
  | lostLead => exact roomy_of_none rfl
  | emptyFrame => exact h.roomy
  | lead hs => exact hnone (by simp [hs]) (by simp [hs])
  | foundHere hs => exact hnone (by simp [hs]) (by simp [hs])
  | foundNowhere => exact h.roomy
  | found hs => exact hnone (by simp [hs]) (by simp [hs])
  | foundEmpty hs => exact hnone (by simp [hs]) (by simp [hs])
  | headerSkip => exact h.roomy
  | headerMore hs => exact hnone (by simp [hs]) (by simp [hs])
  | headerDone hs =>
    exact roomy_of_none
      (show s.payloadStart = none from held_eq_none hat.toSound (by simp [hs]) (by simp [hs]))
  | headerLost => exact roomy_of_none rfl
  | payloadPart hs hlt =>
    intro p hp
    exact h.taken frame hat hs (hlim hs) rfl hpos le_rfl hlt.le hp
  | payloadLost => exact roomy_of_none rfl
  | payloadDone hs hp0 hle =>
    have hv : (frame.first s.payloadLen).len = s.payloadLen := by
      unfold CMuxFrame.len at *
      rw [CMuxFrame.first, List.length_take]
      omega
    intro p hp
    have := h.taken (frame.first s.payloadLen) hat hs (hlim hs) rfl (by omega) (by omega)
      hv.le hp
    rw [hv, Nat.sub_self] at this
    exact this
  | payloadNone hs h0 =>
    intro p hp
    have := h.roomy p hp
    rwa [h0] at this
  | footerMore => exact h.roomy
  | footerLost => exact roomy_of_none rfl
  | footerDone => exact roomy_of_none rfl

theorem Step.room (hat : SoundAt s frame) (hpos : 0 < frame.len)
    (hst : Step s frame true s' frame') (h : Room s limit frame)
    (hlim : s.state = .payload → s.payloadLen ≤ limit) : Room s' limit frame' := by
  refine ⟨hst.roomy hat hpos h hlim, ?_⟩
  rcases h.ahead with ha | ha
  · left
    obtain ⟨-, -, n, hn, rfl⟩ := hst.advances
    rw [CMuxFrame.len_advance]
    change frame.ptr + n + _ + _ + _ < _
    omega
  right
  cases hst with
  | lostLead hs => rwa [Scarce, hs] at ha
  | emptyFrame hs h0 =>
    rw [Scarce, hs] at ha ⊢
    rw [CMuxFrame.len_advance]
    exact (Nat.sub_le _ _).trans ha
  | lead hs h0 =>
    rw [Scarce, hs] at ha
    rw [Scarce, CMuxFrame.len_advance]
    dsimp only at ha ⊢
    omega
  | foundHere hs => rwa [Scarce, hs] at ha
  | found hs =>
    rw [Scarce, hs] at ha
    rw [Scarce, CMuxFrame.len_advance]
    exact (Nat.sub_le _ _).trans ha
  | foundEmpty hs =>
    rw [Scarce, hs] at ha
    rw [Scarce, CMuxFrame.len_advance, CMuxFrame.len_advance]
    exact ((Nat.sub_le _ _).trans (Nat.sub_le _ _)).trans ha
  | headerSkip hs =>
    rw [Scarce, hs] at ha ⊢
    rw [CMuxFrame.len_advance]
    dsimp only at ha ⊢
    omega
  | headerDone hs _ hn hle hh =>
    rw [Scarce, hs] at ha
    have hl := length_of_headerOf hh
    have hg := length_got hat.toSound hs
    rw [List.length_append, hg, List.length_take] at hl
    have hlen : frame.len = frame.data.length := rfl
    dsimp only at ha
    omega
  | headerLost hs _ hn hle hh =>
    rw [Scarce, hs] at ha
    have hl := length_of_headerOf hh
    have hg := length_got hat.toSound hs
    rw [List.length_append, hg, List.length_take] at hl
    have hlen : frame.len = frame.data.length := rfl
    dsimp only at ha
    omega
  | payloadLost hs _ hu =>
    rw [Scarce, hs] at ha
    obtain ⟨p, hp⟩ := Option.ne_none_iff_exists'.mp ha.2
    rw [(hat.start p hp).2.1] at hu
    cases hu
  | payloadDone hs _ hle =>
    rw [Scarce, hs] at ha
    rw [Scarce, CMuxFrame.len_advance]
    dsimp only at ha ⊢
    omega
  | payloadNone hs h0 =>
    rw [Scarce, hs] at ha
    rw [Scarce]
    dsimp only at ha ⊢
    omega
  | footerLost hs => rwa [Scarce, hs] at ha
  | footerDone hs =>
    rw [Scarce, hs] at ha
    rw [Scarce, CMuxFrame.len_advance]
    exact (Nat.sub_le _ _).trans ha

variable {m' : Scan} {out : List Notice} {avail : Bytes} {o n : ℕ}

theorem onCmuxData_reads (h : s.Sound) (hroom : s.Roomy) (hsize : 128 < size)
    (hsize' : size < 2 ^ 32) (hlim : s.state = .payload → s.payloadLen ≤ limit)
    (hpace : min avail.length (size - 128) + limit + 1 < size) :
    ∃ n, 0 < n ∧ ∀ m' out, Scan.read s.readCb limit s.scan (avail.take n) = some (m', out) →
      ∃ s', s.onCmuxData avail = some (s', avail.drop n) ∧ s'.Sound ∧ s'.Roomy ∧
        ReadAs s limit m' out s' := by
  obtain ⟨s₁, o, n, buffer, hr, hc, hrun⟩ := onCmuxData_turns h hsize.le hsize' avail
  have hkey : s₁ = s ∧ 0 < n ∧ Room { s₁ with buffer := buffer } limit ⟨o, avail.take n⟩ := by
    cases hr with
    | fresh hp =>
      have hfirst := firstRead_eq hsize.le hsize'
      refine ⟨rfl, by omega, roomy_of_none hp, .inl ?_⟩
      have hl : (avail.take (firstRead size)).length = min (firstRead size) avail.length :=
        List.length_take
      unfold CMuxFrame.len
      dsimp only
      omega
    | @onward p hp hfit =>
      refine ⟨rfl, by omega, hroom, .inr ?_⟩
      obtain ⟨hst, -⟩ := h.start p hp
      have hl : (avail.take (s.payloadLen + 2)).length ≤ s.payloadLen + 2 :=
        List.length_take_le _ _
      rcases hst with hst | hst
      · rw [Scarce, show ({ s with buffer := buffer } : CMux size).state = .payload from hst]
        exact ⟨hl, by simp [hp]⟩
      · rw [Scarce, show ({ s with buffer := buffer } : CMux size).state = .footer from hst]
        have h0 := (h.footer hst).2.2
        change (avail.take (s.payloadLen + 2)).length ≤ 2
        omega
    | spill hp hfull =>
      have := hroom _ hp
      omega
    | giveUp hp hfull =>
      have := hroom _ hp
      omega
  obtain ⟨rfl, hn, hroom₁⟩ := hkey
  refine ⟨n, hn, fun m' out hread => ?_⟩
  have hscan : ({ s₁ with buffer := buffer } : CMux size).scan = s₁.scan := by
    have hheld := held_copy hc hr.next
    unfold scan
    rw [hheld]
    rfl
  have hfollows : Follows { s₁ with buffer := buffer } limit ⟨o, avail.take n⟩ s₁.scan :=
    ⟨.inl hscan, hlim⟩
  have hstart : ReadsAs s₁ limit m' out { s₁ with buffer := buffer } ⟨o, avail.take n⟩ :=
    ⟨s₁.scan, [], out, [], hread, hfollows, rfl, (List.append_nil _).symm, .refl _, rfl⟩
  obtain ⟨s', hs', hsound, hq⟩ := hrun
    (fun t f => ReadsAs s₁ limit m' out t f ∧ Room t limit f)
    (fun t => ReadAs s₁ limit m' out t ∧ t.Roomy) ⟨hstart, hroom₁⟩
    (fun t f t' f' hat hpos hG hst => by
      obtain ⟨_, _, _, _, _, hf, _⟩ := hG.1
      exact ⟨hG.1.go hat hpos hst, hst.room hat hpos hG.2 hf.limited⟩)
    (fun t f t' f' hat hpos hG hst => by
      obtain ⟨_, _, _, _, _, hf, _⟩ := hG.1
      exact ⟨hG.1.stop hat hpos hst, hst.roomy hat hpos hG.2 hf.limited⟩)
    (fun t f hd _ hG => ⟨hG.1.done hd, hG.2.roomy⟩)
  exact ⟨s', hs', hsound, hq.2, hq.1⟩

end CMux

namespace MuxLine

variable {size limit : ℕ} {l l' : MuxLine size} {chunks : List Bytes} {m' : Scan}
  {out : List Notice}

/-- A line on which the receiver reads as the format machine does. -/
structure Tidy (l : MuxLine size) (limit : ℕ) : Prop where
  sound : l.cmux.Sound
  roomy : l.cmux.Roomy
  limited : l.cmux.state = .payload → l.cmux.payloadLen ≤ limit

/-- No read from the start of the buffer brings more bytes than leave room for a payload of
`limit` bytes behind them. -/
def Paced (limit : ℕ) : MuxLine size → List Bytes → Prop
  | _, [] => True
  | l, c :: cs => min (l.pending ++ c).length (size - 128) + limit + 1 < size ∧
      ∀ l', l.apply (.arrive c) = some l' → Paced limit l' cs

theorem paced_of_limit_le (hsize : 128 ≤ size) (hl : limit ≤ 126) (l : MuxLine size)
    (chunks : List Bytes) : Paced limit l chunks := by
  induction chunks generalizing l with
  | nil => trivial
  | cons c cs ih =>
    refine ⟨?_, fun l' _ => ih l'⟩
    have := Nat.min_le_right (l.pending ++ c).length (size - 128)
    omega

/-- What was read so far is what the machine reads; the rest is still to be read. -/
structure Delivered (l l' : MuxLine size) (limit : ℕ) (m' : Scan) (out : List Notice) : Prop where
  tidy : l'.Tidy limit
  readCb : l'.cmux.readCb = l.cmux.readCb
  told : ∃ o₁ o₂ log, out = o₁ ++ o₂ ∧ l'.cmux.log = l.cmux.log ++ log ∧ Agrees o₁ log ∧
    Scan.read l'.cmux.readCb limit l'.cmux.scan l'.pending = some (m', o₂)

theorem Tidy.apply (h : l.Tidy limit) (hsize : 128 < size) (hsize' : size < 2 ^ 32) {c : Bytes}
    (hpace : min (l.pending ++ c).length (size - 128) + limit + 1 < size)
    (hread : Scan.read l.cmux.readCb limit l.cmux.scan (l.pending ++ c) = some (m', out)) :
    ∃ l', l.apply (.arrive c) = some l' ∧ Delivered l l' limit m' out := by
  rcases Decidable.em (l.pending ++ c = []) with hn | hn
  · obtain ⟨hp, -⟩ := List.append_eq_nil_iff.mp hn
    refine ⟨l, if_pos hn, h, rfl, [], out, [], rfl, by simp, .refl _, ?_⟩
    rwa [hn, ← hp] at hread
  · obtain ⟨n, -, hcall⟩ := CMux.onCmuxData_reads h.sound h.roomy hsize hsize' h.limited hpace
    rw [← List.take_append_drop n (l.pending ++ c)] at hread
    obtain ⟨m₁, o₁, o₂, h₁, h₂, rfl⟩ := Transducer.run_append_eq_some_iff.mp hread
    obtain ⟨s', hs', hsound, hroomy, hra⟩ := hcall m₁ o₁ h₁
    obtain ⟨log, hlog, hag⟩ := hra.told
    refine ⟨⟨s', (l.pending ++ c).drop n⟩, ?_, ⟨hsound, hroomy, hra.limited⟩, hra.readCb,
      o₁, o₂, log, rfl, hlog, hag, ?_⟩
    · rw [MuxLine.apply, if_neg hn, hs']
      rfl
    · dsimp only
      rw [hra.scan, hra.readCb]
      exact h₂

/-- However a text is cut into chunks, the receiver reads it as the machine does. -/
theorem Tidy.run (h : l.Tidy limit) (hsize : 128 < size) (hsize' : size < 2 ^ 32)
    (hpaced : Paced limit l chunks)
    (hread : Scan.read l.cmux.readCb limit l.cmux.scan (l.pending ++ chunks.flatten) =
      some (m', out)) :
    ∃ l', l.run (chunks.map .arrive) = some l' ∧ Delivered l l' limit m' out := by
  induction chunks generalizing l out with
  | nil =>
    rw [List.flatten_nil, List.append_nil] at hread
    exact ⟨l, rfl, h, rfl, [], out, [], rfl, by simp, .refl _, hread⟩
  | cons c cs ih =>
    rw [List.flatten_cons, ← List.append_assoc] at hread
    obtain ⟨m₁, o₁, o₂, h₁, h₂, rfl⟩ := Transducer.run_append_eq_some_iff.mp hread
    obtain ⟨l₁, ha, hd⟩ := h.apply hsize hsize' hpaced.1 h₁
    obtain ⟨p₁, p₂, log, rfl, hlog, hag, hrest⟩ := hd.told
    rw [← hd.readCb] at h₂
    obtain ⟨l', hr, hd'⟩ := ih hd.tidy (hpaced.2 l₁ ha) (Transducer.run_append hrest h₂)
    obtain ⟨q₁, q₂, log', hq, hlog', hag', hrest'⟩ := hd'.told
    refine ⟨l', ?_, hd'.tidy, hd'.readCb.trans hd.readCb, p₁ ++ q₁, q₂, log ++ log', ?_, ?_,
      hag.append hag', hrest'⟩
    · rw [List.map_cons, MuxLine.run, ha]
      exact hr
    · rw [List.append_assoc, hq, List.append_assoc]
    · rw [hlog', hlog, List.append_assoc]

end MuxLine

end EspLtePpp
