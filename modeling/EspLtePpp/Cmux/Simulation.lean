import EspLtePpp.Cmux.Deframer
import EspLtePpp.Cmux.Safety

/-! # The receiver reads what the text says

On a text that the format machine accepts, and as long as no payload outgrows the
buffer, the receiver tells what the machine tells, whatever the chunks were.
-/

namespace EspLtePpp

/-- A log tells what a reading says: the same calls and acknowledgements, and a control message
is only reported where there is one. -/
structure Agrees (said log : List Notice) : Prop where
  filter_eq : log.filter (· ≠ .disc) = said.filter (· ≠ .disc)
  disc_mem : .disc ∈ log → .disc ∈ said

theorem Agrees.refl (log : List Notice) : Agrees log log := ⟨rfl, id⟩

theorem Agrees.append {o₁ o₂ l₁ l₂ : List Notice} (h₁ : Agrees o₁ l₁) (h₂ : Agrees o₂ l₂) :
    Agrees (o₁ ++ o₂) (l₁ ++ l₂) where
  filter_eq := by rw [List.filter_append, List.filter_append, h₁.filter_eq, h₂.filter_eq]
  disc_mem h := by
    rcases List.mem_append.mp h with h | h
    · exact List.mem_append_left _ (h₁.disc_mem h)
    · exact List.mem_append_right _ (h₂.disc_mem h)

namespace CMux

variable {size limit : ℕ} {s s' t t' : CMux size} {frame frame' view : CMuxFrame} {b : Bool}
  {m m' : Scan} {out : List Notice}

/-- Where in the format the receiver is. -/
def scan (s : CMux size) : Scan :=
  match s.state with
  | .init => .seeking
  | .recover => .seeking
  | .header => .header s.got
  | .payload => .payload s.heading s.payloadLen s.held
  | .footer =>
    if s.frameHeaderOffset = 4 then .payload s.heading 0 s.held else .closing s.heading s.held

/-- The receiver and the machine are at the same place. Before the second of two flags the
receiver is still looking for the first. -/
structure Follows (s : CMux size) (limit : ℕ) (frame : CMuxFrame) (m : Scan) : Prop where
  at_scan : s.scan = m ∨ s.state = .init ∧ frame.isSof 0 = true ∧ m = .header []
  limited : s.state = .payload → s.payloadLen ≤ limit

theorem held_eq_none (h : s.Sound) (hp : s.state ≠ .payload) (hf : s.state ≠ .footer) :
    s.payloadStart = none := by
  cases hs : s.payloadStart with
  | none => rfl
  | some p =>
    rcases (h.start p hs).1 with hc | hc
    · exact absurd hc hp
    · exact absurd hc hf

theorem scan_of_init (hs : s.state = .init) : s.scan = .seeking := by rw [scan, hs]

theorem scan_of_recover (hs : s.state = .recover) : s.scan = .seeking := by rw [scan, hs]

theorem scan_of_header (hs : s.state = .header) : s.scan = .header s.got := by rw [scan, hs]

theorem scan_of_payload (hs : s.state = .payload) :
    s.scan = .payload s.heading s.payloadLen s.held := by rw [scan, hs]

theorem length_got (h : s.Sound) (hs : s.state = .header) :
    s.got.length = s.frameHeaderOffset - 1 := by
  have ho := h.header hs
  obtain ⟨bs, hbs⟩ := s.frameHeader.exists_slice (show 1 + (s.frameHeaderOffset - 1) ≤ 6 by omega)
  rw [got, hbs, Option.getD_some]
  exact Region.length_slice hbs

theorem log_accumulate : (s.accumulate view).log = s.log := by
  unfold accumulate
  split <;> rfl

theorem held_taken (view : CMuxFrame) (hv : 0 < view.len)
    (hview : s.buffer.slice view.ptr view.len = some view.data)
    (hnext : ∀ p, s.payloadStart = some p → p + s.totalPayloadSize = view.ptr) :
    (s.taken view).held = Scan.hold s.readCb s.heading s.held view.data ∧
      ∃ l, (s.taken view).log = s.log ++ l ∧
        Agrees (if s.dlci = 0 then List.replicate view.len .disc else []) l := by
  unfold taken Scan.hold
  cases hl : s.heading.listener s.readCb with
  | some t =>
    refine ⟨held_accumulate hview hnext, [], ?_, ?_⟩
    · rw [List.append_nil]
      exact log_accumulate
    · have hne : s.dlci ≠ 0 := by
        intro h0
        have ht : s.heading.term? = none := Heading.term?_eq_none (by simp [heading, h0])
        simp [Heading.listener, ht] at hl
      rw [if_neg hne]
      exact .refl _
  | none =>
    dsimp only
    split
    · rename_i hd
      refine ⟨rfl, [.disc], rfl, ?_⟩
      rw [if_pos hd.1]
      refine ⟨by simp, fun _ => ?_⟩
      exact List.mem_replicate.mpr ⟨hv.ne', rfl⟩
    · refine ⟨rfl, [], by simp, ?_⟩
      split
      · exact ⟨by simp, by simp⟩
      · exact .refl _

theorem log_closed : s.closed.log = s.log ++ Scan.told s.readCb s.heading s.held := by
  unfold closed Scan.told
  cases hu : isUa s.type with
  | true => simp [heading, hu]
  | false =>
    cases hl : s.heading.listener s.readCb with
    | none => simp [heading, hu]
    | some t => simp [heading, hu]

theorem data_eq_of_isSof (h : frame.isSof 0 = true) :
    frame.data = sofMarker :: (frame.advance 1).data := by
  cases hd : frame.data with
  | nil => simp [CMuxFrame.isSof, hd] at h
  | cons b bs =>
    have hb : b = sofMarker := by simpa [CMuxFrame.isSof, hd] using h
    simp [CMuxFrame.advance, hd, hb]

theorem head?_eq_of_isSof : frame.isSof 0 = true ↔ frame.data.head? = some sofMarker := by
  simp [CMuxFrame.isSof, List.head?_eq_getElem?]

theorem scan_taken_of_footer (ho : s.frameHeaderOffset = 4) :
    { s.taken view with state := .footer, payloadLen := 0 }.scan =
      .payload s.heading 0 (s.taken view).held := by
  obtain ⟨_, _, _, _, he⟩ := taken_eq s view
  rw [he]
  exact if_pos ho

theorem scan_taken_of_payload (hs : s.state = .payload) (n : ℕ) :
    { s.taken view with payloadLen := n }.scan = .payload s.heading n (s.taken view).held := by
  obtain ⟨_, _, _, _, he⟩ := taken_eq s view
  rw [he]
  exact scan_of_payload hs

structure Onward (s s' : CMux size) (limit : ℕ) (frame' : CMuxFrame) (m' : Scan)
    (out : List Notice) : Prop where
  intro ::
  onward : ∃ m₁ o₁ o₂ l, Scan.read s.readCb limit m₁ frame'.data = some (m', o₂) ∧
    Follows s' limit frame' m₁ ∧ out = o₁ ++ o₂ ∧ s'.log = s.log ++ l ∧ Agrees o₁ l

theorem Onward.stay (hrun : Scan.read s.readCb limit m frame.data = some (m', out))
    (hf : Follows s' limit frame m) (hlog : s'.log = s.log) :
    Onward s s' limit frame m' out :=
  ⟨m, [], out, [], hrun, hf, rfl, by simp [hlog], .refl _⟩

theorem Onward.read {n : ℕ} {m₁ : Scan} {o₁ l : List Notice}
    (hrun : Scan.read s.readCb limit m frame.data = some (m', out))
    (hpart : Scan.read s.readCb limit m (frame.data.take n) = some (m₁, o₁))
    (hf : Follows s' limit (frame.advance n) m₁) (hlog : s'.log = s.log ++ l) (ha : Agrees o₁ l) :
    Onward s s' limit (frame.advance n) m' out := by
  rw [← List.take_append_drop n frame.data] at hrun
  obtain ⟨m₂, p₁, p₂, h₁, h₂, rfl⟩ := Transducer.run_append_eq_some_iff.mp hrun
  obtain ⟨rfl, rfl⟩ := Prod.mk.inj (Option.some.inj (hpart.symm.trans h₁))
  exact ⟨m₁, o₁, p₂, l, h₂, hf, rfl, hlog, ha⟩

theorem not_read {n : ℕ} (hrun : Scan.read s.readCb limit m frame.data = some (m', out)) :
    Scan.read s.readCb limit m (frame.data.take n) ≠ none := by
  intro hnone
  rw [← List.take_append_drop n frame.data] at hrun
  obtain ⟨m₂, p₁, p₂, h₁, -⟩ := Transducer.run_append_eq_some_iff.mp hrun
  cases hnone.symm.trans h₁

theorem Follows.scan_eq (hf : Follows s limit frame m) (hs : s.state ≠ .init) : s.scan = m := by
  rcases hf.at_scan with h | ⟨h, -⟩
  · exact h
  · exact absurd h hs

theorem Follows.seeking_or (hf : Follows s limit frame m) (hs : s.state = .init) :
    m = .seeking ∨ m = .header [] := by
  rcases hf.at_scan with h | ⟨-, -, h⟩
  · left
    rw [← h, scan, hs]
  · exact .inr h

theorem head?_take_of_pos {n : ℕ} (hn : 0 < n) (bs : Bytes) : (bs.take n).head? = bs.head? := by
  rw [List.head?_take, if_neg hn.ne']

theorem read_footer (limit : ℕ) {n : ℕ} (h : s.Sound) (hs : s.state = .footer)
    (ho : s.frameHeaderOffset + n = 6) (hle : n ≤ frame.len) :
    Scan.read s.readCb limit s.scan (frame.data.take n) =
      if frame.isSof (n - 1) then some (.seeking, Scan.told s.readCb s.heading s.held)
      else none := by
  obtain ⟨h4, h5, -⟩ := h.footer hs
  unfold CMuxFrame.len at hle
  rcases (show s.frameHeaderOffset = 4 ∨ s.frameHeaderOffset = 5 by omega) with h4 | h5
  · obtain rfl : n = 2 := by omega
    have hm : s.scan = .payload s.heading 0 s.held := by rw [scan, hs]; exact if_pos h4
    obtain ⟨a, c, rest, hd⟩ : ∃ a c rest, frame.data = a :: c :: rest := by
      rcases hd : frame.data with _ | ⟨a, _ | ⟨c, rest⟩⟩
      · simp [hd] at hle
      · simp [hd] at hle
      · exact ⟨a, c, rest, rfl⟩
    rw [hm]
    simp only [hd, CMuxFrame.isSof, Scan.read, Transducer.run, Scan.step, List.take_succ_cons,
      List.take_zero]
    by_cases hc : c = sofMarker <;> simp [hc]
  · obtain rfl : n = 1 := by omega
    have hm : s.scan = .closing s.heading s.held := by
      rw [scan, hs]
      exact if_neg (by omega)
    obtain ⟨c, rest, hd⟩ : ∃ c rest, frame.data = c :: rest := by
      rcases hd : frame.data with _ | ⟨c, rest⟩
      · simp [hd] at hle
      · exact ⟨c, rest, rfl⟩
    rw [hm]
    simp only [hd, CMuxFrame.isSof, Scan.read, Transducer.run, Scan.step, List.take_succ_cons,
      List.take_zero]
    by_cases hc : c = sofMarker <;> simp [hc]

/-- A turn that goes on reads what the machine reads. -/
theorem Step.onward (hat : SoundAt s frame) (hpos : 0 < frame.len)
    (hst : Step s frame true s' frame') (hf : Follows s limit frame m)
    (hrun : Scan.read s.readCb limit m frame.data = some (m', out)) :
    Onward s s' limit frame' m' out := by
  have hempty : s.state ≠ .payload → s.state ≠ .footer → s.held = none := fun hp hf => by
    rw [held, held_eq_none hat.toSound hp hf, Option.bind_none]
  have hflag : frame.isSof 0 = true → frame.data.take 1 = [sofMarker] := fun h0 => by
    rw [data_eq_of_isSof h0]
    rfl
  have hlog : s.log = s.log ++ [] := (List.append_nil _).symm
  have hstart : s.state = .header → ¬(s.frameHeaderOffset = 1 ∧ frame.isSof 0 = true) →
      ∀ n, 0 < n → s.got = [] → (frame.data.take n).head? ≠ some sofMarker := by
    intro hs hskip n hn hg hsof
    rw [head?_take_of_pos hn, ← head?_eq_of_isSof] at hsof
    have hl := length_got hat.toSound hs
    rw [hg, List.length_nil] at hl
    exact hskip ⟨by have := (hat.header hs).1; omega, hsof⟩
  cases hst with
  | lostLead hs h0 =>
    refine .stay hrun ⟨.inl ?_, by rintro ⟨⟩⟩ rfl
    rcases hf.at_scan with h | ⟨-, h, -⟩
    · rw [← h, scan_of_init hs]
      exact scan_of_recover rfl
    · rw [h0] at h
      cases h
  | emptyFrame hs h0 h1 =>
    refine .read hrun (hflag h0 ▸ Scan.read_flag (hf.seeking_or hs)) ?_ hlog (.refl _)
    refine ⟨.inr ⟨hs, ?_, rfl⟩, fun hp => by rw [hs] at hp; cases hp⟩
    simpa [CMuxFrame.isSof, CMuxFrame.advance] using h1
  | lead hs h0 h1 =>
    refine .read hrun (hflag h0 ▸ Scan.read_flag (hf.seeking_or hs)) ?_ hlog (.refl _)
    refine ⟨.inl ?_, by rintro ⟨⟩⟩
    rw [scan_of_header rfl]
    simp [got]
  | foundHere hs h0 =>
    refine .stay hrun ⟨.inl ?_, by rintro ⟨⟩⟩ rfl
    rw [← hf.scan_eq (by simp [hs]), scan_of_recover hs]
    exact scan_of_init rfl
  | @found i hs hi hlt hmem h0 h1 =>
    obtain rfl := (scan_of_recover hs).symm.trans (hf.scan_eq (by simp [hs]))
    refine .read hrun (Scan.read_seeking hmem) ?_ hlog (.refl _)
    exact ⟨.inl (scan_of_init rfl), by rintro ⟨⟩⟩
  | @foundEmpty i hs hlt hmem h0 h1 =>
    obtain rfl := (scan_of_recover hs).symm.trans (hf.scan_eq (by simp [hs]))
    have htake : frame.data.take (i + 1) = frame.data.take i ++ [sofMarker] := by
      have hd : frame.data.drop i = _ := data_eq_of_isSof h0
      rw [List.take_add, hd]
      rfl
    have hpart : Scan.read s.readCb limit .seeking (frame.data.take (i + 1)) =
        some (.header [], []) := by
      rw [htake]
      exact Transducer.run_append (Scan.read_seeking hmem) (Scan.read_flag (.inl rfl))
    rw [CMuxFrame.advance_advance]
    refine .read hrun hpart ?_ hlog (.refl _)
    refine ⟨.inr ⟨rfl, ?_, rfl⟩, by rintro ⟨⟩⟩
    rw [← CMuxFrame.advance_advance]
    simpa [CMuxFrame.isSof, CMuxFrame.advance] using h1
  | headerSkip hs ho h0 =>
    have hg : s.got = [] := by simp [got, ho]
    have hm := (scan_of_header hs).symm.trans (hf.scan_eq (by simp [hs]))
    rw [hg] at hm
    refine .read hrun (hflag h0 ▸ Scan.read_flag (.inr hm.symm)) ?_ hlog (.refl _)
    refine ⟨.inl ?_, fun hp => by rw [hs] at hp; cases hp⟩
    rw [scan_of_header hs, hg]
  | @headerDone hdr n k addr type hs hskip hn hle hh hok =>
    obtain rfl := (scan_of_header hs).symm.trans (hf.scan_eq (by simp [hs]))
    have hne : frame.data.take n ≠ [] := by
      apply List.ne_nil_of_length_pos
      rw [List.length_take]
      unfold CMuxFrame.len at hle
      omega
    have hpart := Scan.read_header s.readCb limit
      (hstart hs hskip n hn) hne hh
    have hk : k ≤ limit := by
      by_contra hk
      rw [if_neg (fun hc => hk hc.2)] at hpart
      exact not_read hrun hpart
    rw [if_pos ⟨hok, hk⟩] at hpart
    refine .read hrun hpart ⟨.inl ?_, fun _ => hk⟩ hlog (.refl _)
    rw [scan_of_payload rfl]
    congr 1
    exact hempty (by simp [hs]) (by simp [hs])
  | @headerLost hdr n k p addr type hs hskip hn hle hh hbad =>
    obtain rfl := (scan_of_header hs).symm.trans (hf.scan_eq (by simp [hs]))
    have hne : frame.data.take n ≠ [] := by
      apply List.ne_nil_of_length_pos
      rw [List.length_take]
      unfold CMuxFrame.len at hle
      omega
    have hpart := Scan.read_header s.readCb limit
      (hstart hs hskip n hn) hne hh
    rw [if_neg (fun hc => hbad hc.1)] at hpart
    exact absurd hpart (not_read hrun)
  | payloadLost hs hp0 hu =>
    obtain rfl := (scan_of_payload hs).symm.trans (hf.scan_eq (by simp [hs]))
    obtain ⟨q, hq⟩ : ∃ q, s.payloadLen = q + 1 := ⟨s.payloadLen - 1, by omega⟩
    cases hd : frame.data with
    | nil => simp [CMuxFrame.len, hd] at hpos
    | cons a rest =>
      rw [hd, hq] at hrun
      obtain ⟨t, o₁, o₂, hstep, -⟩ := Transducer.run_cons_eq_some_iff.mp hrun
      simp [Scan.step, heading, hu] at hstep
  | payloadDone hs hp0 hle hu =>
    obtain rfl := (scan_of_payload hs).symm.trans (hf.scan_eq (by simp [hs]))
    have hv : (frame.data.take s.payloadLen).length = s.payloadLen := by
      rw [List.length_take]
      unfold CMuxFrame.len at hle
      omega
    have hview : s.buffer.slice (frame.first s.payloadLen).ptr (frame.first s.payloadLen).len =
        some (frame.first s.payloadLen).data := by
      change s.buffer.slice frame.ptr (frame.data.take s.payloadLen).length = _
      rw [hv]
      exact Region.slice_take hat.view hle
    obtain ⟨hheld, l, hlog', ha⟩ := held_taken (frame.first s.payloadLen)
      (by change 0 < (frame.data.take s.payloadLen).length; omega) hview
      (fun p hp => hat.next p hp hs)
    have hne : frame.data.take s.payloadLen ≠ [] := by
      apply List.ne_nil_of_length_pos
      omega
    have hpart := Scan.read_payload s.readCb limit s.held
      (h := s.heading) hu hne hv.le
    refine .read hrun hpart ⟨.inl ?_, by rintro ⟨⟩⟩ hlog' ha
    rw [hv, Nat.sub_self]
    exact (scan_taken_of_footer (hat.payload hs)).trans (congrArg _ hheld)
  | payloadNone hs h0 =>
    obtain rfl := (scan_of_payload hs).symm.trans (hf.scan_eq (by simp [hs]))
    refine .stay hrun ⟨.inl ?_, by rintro ⟨⟩⟩ rfl
    rw [h0]
    exact if_pos (hat.payload hs)
  | footerLost hs ho hle h0 =>
    obtain rfl := hf.scan_eq (by simp [hs])
    have hpart := read_footer limit hat.toSound hs ho hle
    rw [h0] at hpart
    exact absurd hpart (not_read hrun)
  | footerDone hs ho hle h0 =>
    obtain rfl := hf.scan_eq (by simp [hs])
    have hpart := read_footer limit hat.toSound hs ho hle
    rw [h0] at hpart
    refine .read hrun hpart ⟨.inl (scan_of_init rfl), by rintro ⟨⟩⟩ log_closed (.refl _)

theorem Step.stops (hat : SoundAt s frame) (hpos : 0 < frame.len)
    (hst : Step s frame false s' frame') (hf : Follows s limit frame m)
    (hrun : Scan.read s.readCb limit m frame.data = some (m', out)) :
    s'.scan = m' ∧ (s'.state = .payload → s'.payloadLen ≤ limit) ∧
      ∃ l, s'.log = s.log ++ l ∧ Agrees out l := by
  have hlog : s.log = s.log ++ [] := (List.append_nil _).symm
  cases hst with
  | foundNowhere hs hmem =>
    obtain rfl := (scan_of_recover hs).symm.trans (hf.scan_eq (by simp [hs]))
    obtain ⟨rfl, rfl⟩ := Prod.mk.inj (Option.some.inj ((Scan.read_seeking hmem).symm.trans hrun))
    refine ⟨scan_of_recover hs, fun hp => ?_, [], hlog, .refl _⟩
    rw [hs] at hp
    cases hp
  | @headerMore hdr hs hskip hle hgot hmore =>
    obtain rfl := (scan_of_header hs).symm.trans (hf.scan_eq (by simp [hs]))
    have hl := length_got hat.toSound hs
    have ho := (hat.header hs).1
    have hstart : s.got = [] → frame.data.head? ≠ some sofMarker := by
      intro hg hsof
      rw [← head?_eq_of_isSof] at hsof
      rw [hg, List.length_nil] at hl
      exact hskip ⟨by omega, hsof⟩
    have hshort : (s.got ++ frame.data).length ≤ 3 := by
      rw [List.length_append, hl]
      unfold CMuxFrame.len at hle
      omega
    obtain ⟨rfl, rfl⟩ := Prod.mk.inj (Option.some.inj
      ((Scan.read_header_more hstart hshort hmore).symm.trans hrun))
    refine ⟨?_, fun hp => ?_, [], hlog, .refl _⟩
    · refine (scan_of_header (by exact hs)).trans (congrArg _ ?_)
      rw [got]
      dsimp only
      rw [Nat.sub_add_comm ho, hgot, Option.getD_some]
    · rw [show s.state = .payload from hp] at hs
      cases hs
  | payloadPart hs hlt hu =>
    obtain rfl := (scan_of_payload hs).symm.trans (hf.scan_eq (by simp [hs]))
    obtain ⟨hheld, l, hlog', ha⟩ := held_taken frame hpos hat.view (fun p hp => hat.next p hp hs)
    have hne : frame.data ≠ [] := List.ne_nil_of_length_pos hpos
    have hall := Scan.read_payload s.readCb limit s.held
      (h := s.heading) hu hne hlt.le
    obtain ⟨rfl, rfl⟩ := Prod.mk.inj (Option.some.inj (hall.symm.trans hrun))
    refine ⟨?_, fun _ => ?_, l, hlog', ha⟩
    · rw [← hheld]
      exact scan_taken_of_payload hs _
    · have := hf.limited hs
      dsimp only
      omega
  | @footerMore hdr hs ho hlen =>
    obtain rfl := hf.scan_eq (by simp [hs])
    have hm : s.scan = .payload s.heading 0 s.held := by rw [scan, hs]; exact if_pos ho
    obtain ⟨c, hd⟩ := List.length_eq_one_iff.mp hlen
    rw [hm, hd, Scan.read, Transducer.run_singleton, Scan.step] at hrun
    obtain ⟨rfl, rfl⟩ := Prod.mk.inj (Option.some.inj hrun)
    refine ⟨?_, fun hp => ?_, [], hlog, .refl _⟩
    · rw [scan, show ({ s with frameHeader := hdr, frameHeaderOffset := 5 } : CMux size).state =
        .footer from hs]
      exact if_neg (show ¬(5 : ℕ) = 4 by decide)
    · rw [show s.state = .payload from hp] at hs
      cases hs

/-- The chunk is being read as the machine reads it. -/
def ReadsAs (s : CMux size) (limit : ℕ) (m' : Scan) (out : List Notice) (t : CMux size)
    (f : CMuxFrame) : Prop :=
  ∃ m₁ o₁ o₂ l, Scan.read s.readCb limit m₁ f.data = some (m', o₂) ∧ Follows t limit f m₁ ∧
    out = o₁ ++ o₂ ∧ t.log = s.log ++ l ∧ Agrees o₁ l ∧ t.readCb = s.readCb

structure ReadAs (s : CMux size) (limit : ℕ) (m' : Scan) (out : List Notice) (t : CMux size) :
    Prop where
  scan : t.scan = m'
  limited : t.state = .payload → t.payloadLen ≤ limit
  told : ∃ l, t.log = s.log ++ l ∧ Agrees out l
  readCb : t.readCb = s.readCb

variable {f f' : CMuxFrame}

theorem ReadsAs.go (h : ReadsAs s limit m' out t f) (hat : SoundAt t f) (hpos : 0 < f.len)
    (hst : Step t f true t' f') : ReadsAs s limit m' out t' f' := by
  obtain ⟨m₁, o₁, o₂, l, hr, hf, rfl, hl, ha, hcb⟩ := h
  rw [← hcb] at hr
  obtain ⟨m₂, p₁, p₂, l', hr', hf', rfl, hl', ha'⟩ := hst.onward hat hpos hf hr
  rw [hcb] at hr'
  refine ⟨m₂, o₁ ++ p₁, p₂, l ++ l', hr', hf', (List.append_assoc ..).symm, ?_, ha.append ha', ?_⟩
  · rw [hl', hl, List.append_assoc]
  · rw [hst.advances.2.1, hcb]

theorem ReadsAs.stop (h : ReadsAs s limit m' out t f) (hat : SoundAt t f) (hpos : 0 < f.len)
    (hst : Step t f false t' f') : ReadAs s limit m' out t' := by
  obtain ⟨m₁, o₁, o₂, l, hr, hf, rfl, hl, ha, hcb⟩ := h
  rw [← hcb] at hr
  obtain ⟨hsc, hlim, l', hl', ha'⟩ := hst.stops hat hpos hf hr
  refine ⟨hsc, hlim, ⟨l ++ l', ?_, ha.append ha'⟩, ?_⟩
  · rw [hl', hl, List.append_assoc]
  · rw [hst.advances.2.1, hcb]

theorem ReadsAs.done (h : ReadsAs s limit m' out t f) (hd : f.data = []) :
    ReadAs s limit m' out t := by
  obtain ⟨m₁, o₁, o₂, l, hr, hf, rfl, hl, ha, hcb⟩ := h
  rw [hd, Scan.read, Transducer.run_nil] at hr
  obtain ⟨rfl, rfl⟩ := Prod.mk.inj (Option.some.inj hr)
  refine ⟨?_, hf.limited, ⟨l, hl, by rwa [List.append_nil]⟩, hcb⟩
  rcases hf.at_scan with h | ⟨-, h, -⟩
  · exact h
  · simp [CMuxFrame.isSof, hd] at h

end CMux

end EspLtePpp
