import EspLtePpp.Cmux.Delivery

/-! # What is sent over the multiplexed line arrives

A frame is read as what it carries, so a stream of frames is delivered frame by
frame, and what `write` makes of some data comes out as that data. After an error the
receiver finds its way back with the next frame.
-/

namespace EspLtePpp

variable {size limit : ℕ} {readCb : Fin maxTerminalsNum → Bool}

theorem lengthOctet_short {n : ℕ} (h : n < 128) :
    UInt8.ofNat (n <<< 1 + 1) &&& EA ≠ 0 ∧ (UInt8.ofNat (n <<< 1 + 1) >>> 1).toNat = n := by
  have hall : ∀ i : Fin 128, UInt8.ofNat (i.val <<< 1 + 1) &&& EA ≠ 0 ∧
      (UInt8.ofNat (i.val <<< 1 + 1) >>> 1).toNat = i.val := by decide +kernel
  exact hall ⟨n, h⟩

theorem lengthOctet_long {n : ℕ} (h : n < 128) :
    UInt8.ofNat (n <<< 1) &&& EA = 0 ∧ (UInt8.ofNat (n <<< 1) >>> 1).toNat = n := by
  have hall : ∀ i : Fin 128, UInt8.ofNat (i.val <<< 1) &&& EA = 0 ∧
      (UInt8.ofNat (i.val <<< 1) >>> 1).toNat = i.val := by decide +kernel
  exact hall ⟨n, h⟩

namespace Frame

variable (f : Frame)

theorem address_spec : f.address &&& EA ≠ 0 ∧ f.address >>> 2 = f.heading.dlci := by
  have hall : ∀ i : Fin 3, ∀ c : Bool,
      (UInt8.ofNat i.val <<< 2 ||| (if c then 0x02 else 0) ||| EA) &&& EA ≠ 0 ∧
      (UInt8.ofNat i.val <<< 2 ||| (if c then 0x02 else 0) ||| EA) >>> 2 = UInt8.ofNat i.val := by
    decide +kernel
  have hd : f.heading.dlci.toNat < 3 := Nat.lt_succ_of_le f.accepted.1
  have := hall ⟨f.heading.dlci.toNat, hd⟩ f.cr
  rwa [UInt8.ofNat_toNat] at this

theorem headerOf_bytes :
    headerOf ([f.address, f.heading.type] ++ f.lengthField) =
      some (f.address, f.heading.type, f.payload.length) := by
  have hlen := f.length_payload
  unfold lengthField
  cases hlong : f.long with
  | true =>
    rw [hlong, if_pos rfl] at hlen
    obtain ⟨hea, hlow⟩ := lengthOctet_long (Nat.mod_lt f.payload.length (by decide : 128 > 0))
    have hmore : (UInt8.ofNat (f.payload.length / 128)).toNat = f.payload.length / 128 := by
      rw [UInt8.toNat_ofNat']
      omega
    simp only [if_true, List.cons_append, List.nil_append, headerOf, hea, hlow, hmore]
    rw [Nat.shiftLeft_eq]
    congr 3
    omega
  | false =>
    rw [hlong, if_neg Bool.false_ne_true] at hlen
    obtain ⟨hea, hlow⟩ := lengthOctet_short hlen
    simp only [Bool.false_eq_true, if_false, List.cons_append, List.nil_append, headerOf, hea, hlow]

/-- What a receiver with these callbacks tells of a frame. -/
def told (readCb : Fin maxTerminalsNum → Bool) (f : Frame) : List Notice :=
  (if f.heading.dlci = 0 then List.replicate f.payload.length .disc else []) ++
    Scan.told readCb f.heading
      (if f.payload = [] then none else Scan.hold readCb f.heading none f.payload)

theorem read_head (readCb : Fin maxTerminalsNum → Bool) (hl : f.payload.length ≤ limit) :
    Scan.read readCb limit (.header []) ([f.address, f.heading.type] ++ f.lengthField) =
      some (.payload f.heading f.payload.length none, []) := by
  have hok : HeaderOk f.address f.heading.type := by
    refine ⟨f.address_spec.1, ?_⟩
    rw [f.address_spec.2]
    exact f.accepted
  have hstart : ([] : Bytes) = [] →
      ([f.address, f.heading.type] ++ f.lengthField).head? ≠ some sofMarker := by
    intro _ hs
    have ha : f.address = sofMarker := by simpa using hs
    have hd := f.address_spec.2
    rw [ha] at hd
    have := f.accepted.1
    rw [← hd] at this
    exact absurd this (by decide)
  rw [Scan.read_header readCb limit hstart (by simp) f.headerOf_bytes, if_pos ⟨hok, hl⟩,
    f.address_spec.2]

theorem read_body (hl : f.payload.length ≤ limit) :
    Scan.read readCb limit (.header [])
      ([f.address, f.heading.type] ++ f.lengthField ++ f.payload ++ [f.fcs, sofMarker]) =
      some (.seeking, f.told readCb) := by
  have hfoot : ∀ held, Scan.read readCb limit (.payload f.heading 0 held) [f.fcs, sofMarker] =
      some (.seeking, Scan.told readCb f.heading held) := by
    intro held
    simp [Scan.read, Transducer.run, Scan.step]
  rw [List.append_assoc, Scan.read, Transducer.run_append_of_nil (f.read_head readCb hl)]
  rcases Decidable.em (f.payload = []) with hp | hp
  · have h0 : f.payload.length = 0 := by rw [hp]; rfl
    rw [h0, hp, List.nil_append]
    refine (hfoot none).trans ?_
    rw [told, hp]
    simp
  · have hu : isUih f.heading.type = true := by
      rcases f.accepted.2 with hu | hu
      · exact hu
      · exact absurd (f.ua_empty hu) hp
    have hpay := Scan.read_payload readCb limit none
      (h := f.heading) hu hp le_rfl
    rw [Nat.sub_self] at hpay
    have := Transducer.run_append hpay (hfoot _)
    rw [this, told, if_neg hp]

/-- A frame, after any number of flags that fill the time before it. -/
def filled (x : ℕ × Frame) : Bytes := List.replicate x.1 sofMarker ++ x.2.bytes

theorem read_flags (k : ℕ) {m : Scan} (hm : m = .seeking ∨ m = .header []) :
    Scan.read readCb limit m (List.replicate (k + 1) sofMarker) = some (.header [], []) := by
  induction k generalizing m with
  | zero => exact Scan.read_flag hm
  | succ k ih =>
    rw [List.replicate_succ, ← List.singleton_append]
    exact (Transducer.run_append_of_nil (Scan.read_flag hm)).trans (ih (.inr rfl))

theorem read_filled {x : ℕ × Frame} (hl : x.2.payload.length ≤ limit) :
    Scan.read readCb limit .seeking (filled x) = some (.seeking, x.2.told readCb) := by
  obtain ⟨k, f⟩ := x
  have hbytes : filled (k, f) = List.replicate (k + 1) sofMarker ++
      ([f.address, f.heading.type] ++ f.lengthField ++ f.payload ++ [f.fcs, sofMarker]) := by
    simp [filled, bytes, List.replicate_succ']
  rw [hbytes, Scan.read, Transducer.run_append_of_nil (read_flags k (.inl rfl))]
  exact f.read_body hl

theorem read_stream {xs : List (ℕ × Frame)} (hl : ∀ x ∈ xs, x.2.payload.length ≤ limit) :
    Scan.read readCb limit .seeking (xs.flatMap filled) =
      some (.seeking, xs.flatMap fun x => x.2.told readCb) :=
  Transducer.run_flatMap fun x hx => read_filled (hl x hx)

end Frame

namespace CMux

/-- The batches that `write` sends, each in a frame of its own. -/
def batches (data : Bytes) : List Bytes :=
  if data = [] then [] else data.take cmuxMaxLen :: batches (data.drop cmuxMaxLen)
termination_by data.length
decreasing_by
  have : data.length ≠ 0 := by simpa using ‹¬data = []›
  simp only [List.length_drop, cmuxMaxLen]
  omega

theorem batches_flatten (data : Bytes) : (batches data).flatten = data := by
  fun_induction batches data with
  | case1 => rfl
  | case2 data hne ih => rw [List.flatten_cons, ih, List.take_append_drop]

theorem mem_batches {data batch : Bytes} (h : batch ∈ batches data) :
    batch ≠ [] ∧ batch.length ≤ cmuxMaxLen := by
  fun_induction batches data with
  | case1 => cases h
  | case2 data hne ih =>
    rcases List.mem_cons.mp h with rfl | h
    · refine ⟨?_, List.length_take_le _ _⟩
      have hpos := List.length_pos_iff.mpr hne
      apply List.ne_nil_of_length_pos
      rw [List.length_take, cmuxMaxLen]
      omega
    · exact ih h

theorem length_le_of_mem_batches {data batch : Bytes} (h : batch ∈ batches data) :
    batch.length ≤ data.length := by
  have hsub := List.sublist_flatten_of_mem h
  rw [batches_flatten] at hsub
  exact hsub.length_le

theorem write_eq (virtualTerm : ℕ) (data : Bytes) :
    write virtualTerm data = (batches data).flatMap (writeBatch (virtualTerm + 1)) := by
  fun_induction batches data with
  | case1 => rw [write, if_pos rfl]; rfl
  | case2 data hne ih =>
    have htake : data.take (min data.length cmuxMaxLen) = data.take cmuxMaxLen := by
      rw [Nat.min_comm, ← List.take_eq_take_min]
    have hdrop : data.drop (min data.length cmuxMaxLen) = data.drop cmuxMaxLen := by
      rw [Nat.min_comm, ← List.drop_eq_drop_min]
    rw [write, if_neg hne, List.flatMap_cons]
    dsimp only
    rw [htake, hdrop, ih]

def batchFrame (t : Fin maxTerminalsNum) (batch : Bytes) (h : batch.length ≤ cmuxMaxLen) :
    Frame where
  heading := ⟨.ofNat (t + 1), ftUih⟩
  cr := false
  long := false
  payload := batch
  fcs := (0xFF : UInt8) - fcsCrc [sofMarker, .ofNat ((t.val + 1) <<< 2 + 1), ftUih,
    .ofNat (batch.length <<< 1 + 1)]
  accepted := by
    refine ⟨?_, .inl (show isUih ftUih = true by decide)⟩
    have := t.isLt
    unfold maxTerminalsNum at *
    rw [UInt8.toNat_ofNat']
    omega
  length_payload := Nat.lt_succ_of_le h
  ua_empty := fun hu => absurd hu (show ¬isUa ftUih = true by decide)

theorem writeBatch_eq {t : Fin maxTerminalsNum} {batch : Bytes} (h : batch.length ≤ cmuxMaxLen) :
    (writeBatch (t + 1) batch).flatten = (batchFrame t batch h).bytes := by
  have haddr : ∀ t : Fin 2, (UInt8.ofNat ((t.val + 1) <<< 2 + 1)) =
      UInt8.ofNat (t.val + 1) <<< 2 ||| 0 ||| EA := by decide
  have ha : (batchFrame t batch h).address = UInt8.ofNat ((t.val + 1) <<< 2 + 1) := (haddr t).symm
  rw [Frame.bytes, ha]
  rfl

def givenTo (s : CMux size) (t : Fin maxTerminalsNum) : Bytes :=
  s.log.flatMap fun
    | .post t' data => if t' = t then data.getD [] else []
    | _ => []

/-- What the receiver tells of the writes to the virtual terminals: every batch, to the terminal
that it was written on. -/
def posts (writes : List (Fin maxTerminalsNum × Bytes)) : List Notice :=
  writes.flatMap fun w => (batches w.2).map fun batch => .post w.1 (some batch)

theorem told_batchFrame {t : Fin maxTerminalsNum} {batch : Bytes} (hcb : readCb t = true)
    (hb : batch ≠ []) (h : batch.length ≤ cmuxMaxLen) :
    (batchFrame t batch h).told readCb = [.post t (some batch)] := by
  have ht : ∀ t : Fin maxTerminalsNum, (Heading.mk (.ofNat (t.val + 1)) ftUih).term? = some t := by
    decide
  have hd : ∀ t : Fin maxTerminalsNum, UInt8.ofNat (t.val + 1) ≠ 0 := by decide
  have hl : (batchFrame t batch h).heading.listener readCb = some t := by
    rw [Heading.listener, show (batchFrame t batch h).heading.term? = some t from ht t,
      Option.filter_some, if_pos hcb]
  have hua : isUa (batchFrame t batch h).heading.type = false := by
    change isUa ftUih = false
    decide
  unfold Frame.told
  rw [if_neg (show (batchFrame t batch h).heading.dlci ≠ 0 from hd t),
    if_neg (show (batchFrame t batch h).payload ≠ [] from hb), Scan.told, hua, Scan.hold, hl]
  rfl

theorem exists_frames (hcb : ∀ t, readCb t = true) (writes : List (Fin maxTerminalsNum × Bytes))
    (hlimit : ∀ w ∈ writes, ∀ batch ∈ batches w.2, batch.length ≤ limit) :
    ∃ xs : List (ℕ × Frame), (∀ x ∈ xs, x.2.payload.length ≤ limit) ∧
      (writes.flatMap fun w => (write w.1 w.2).flatten) = xs.flatMap Frame.filled ∧
      posts writes = xs.flatMap fun x => x.2.told readCb := by
  have hone : ∀ (t : Fin maxTerminalsNum) (bs : List Bytes),
      (∀ b ∈ bs, b ≠ [] ∧ b.length ≤ cmuxMaxLen) → (∀ b ∈ bs, b.length ≤ limit) →
      ∃ xs : List (ℕ × Frame), (∀ x ∈ xs, x.2.payload.length ≤ limit) ∧
        (bs.flatMap (writeBatch (t + 1))).flatten = xs.flatMap Frame.filled ∧
        (bs.map fun batch => Notice.post t (some batch)) =
          xs.flatMap fun x => x.2.told readCb := by
    intro t bs hbs hlim
    induction bs with
    | nil => exact ⟨[], by simp, rfl, rfl⟩
    | cons b bs ih =>
      obtain ⟨hne, hle⟩ := hbs b (List.mem_cons_self ..)
      obtain ⟨hb, hlim⟩ := List.forall_mem_cons.mp hlim
      obtain ⟨xs, hxs, hw, hp⟩ := ih (fun c hc => hbs c (List.mem_cons_of_mem b hc)) hlim
      refine ⟨(0, batchFrame t b hle) :: xs, ?_, ?_, ?_⟩
      · intro x hx
        rcases List.mem_cons.mp hx with rfl | hx
        · exact hb
        · exact hxs x hx
      · rw [List.flatMap_cons, List.flatten_append, writeBatch_eq hle, hw, List.flatMap_cons]
        rfl
      · rw [List.map_cons, List.flatMap_cons, told_batchFrame (hcb t) hne hle, hp]
        rfl
  induction writes with
  | nil => exact ⟨[], by simp, rfl, rfl⟩
  | cons w writes ih =>
    obtain ⟨hlim, hlimit⟩ := List.forall_mem_cons.mp hlimit
    obtain ⟨xs, hxs, hw, hp⟩ := hone w.1 (batches w.2) (fun b hb => mem_batches hb) hlim
    obtain ⟨ys, hys, hw', hp'⟩ := ih hlimit
    refine ⟨xs ++ ys, ?_, ?_, ?_⟩
    · intro x hx
      rcases List.mem_append.mp hx with hx | hx
      · exact hxs x hx
      · exact hys x hx
    · rw [List.flatMap_cons, write_eq, hw, hw', List.flatMap_append]
    · rw [posts, List.flatMap_cons, hp, List.flatMap_append, ← hp']
      rfl

theorem givenTo_of_log {s : CMux size} {writes : List (Fin maxTerminalsNum × Bytes)}
    (h : s.log = posts writes) (t : Fin maxTerminalsNum) :
    s.givenTo t = (writes.filter (·.1 = t)).flatMap Prod.snd := by
  rw [givenTo, h, posts, List.flatMap_assoc]
  clear h
  induction writes with
  | nil => rfl
  | cons w writes ih =>
    rw [List.flatMap_cons, ih, List.filter_cons]
    rcases Decidable.em (w.1 = t) with ht | ht
    · have hb : ((batches w.2).map fun b => Notice.post w.1 (some b)).flatMap (fun
          | .post t' data => if t' = t then data.getD [] else []
          | _ => []) = w.2 := by
        rw [List.flatMap_map]
        simp only [ht, if_true, Option.getD_some]
        rw [List.flatMap_id', batches_flatten]
      rw [hb, if_pos (by simpa using ht), List.flatMap_cons]
    · have hb : ((batches w.2).map fun b => Notice.post w.1 (some b)).flatMap (fun
          | .post t' data => if t' = t then data.getD [] else []
          | _ => []) = [] := by
        rw [List.flatMap_map]
        simp [ht]
      rw [hb, if_neg (by simpa using ht), List.nil_append]

end CMux

theorem Agrees.eq_of_not_mem {said log : List Notice} (h : Agrees said log) (hd : .disc ∉ said) :
    log = said := by
  have hkeep : ∀ {o : List Notice}, .disc ∉ o → o.filter (· ≠ .disc) = o := by
    intro o ho
    apply List.filter_eq_self.mpr
    intro n hn
    rw [decide_eq_true_eq]
    rintro rfl
    exact ho hn
  have hfe := h.filter_eq
  rwa [hkeep hd, hkeep fun hm => hd (h.disc_mem hm)] at hfe

namespace MuxLine

variable {l : MuxLine size} {chunks : List Bytes} {xs : List (ℕ × Frame)}

theorem tidy_of_fresh (hf : l.cmux.Fresh) : l.Tidy limit where
  sound := hf.sound
  roomy := CMux.roomy_of_none hf.start
  limited h := by rw [hf.state] at h; cases h

theorem scan_of_fresh (hf : l.cmux.Fresh) : l.cmux.scan = .seeking := CMux.scan_of_init hf.state

/-- A stream of frames, with any flags in between, is told frame by frame, however it is cut. -/
theorem frames_delivered (hf : l.cmux.Fresh) (hp : l.pending = []) (hsize : 128 < size)
    (hsize' : size < 2 ^ 32) (hl : ∀ x ∈ xs, x.2.payload.length ≤ limit)
    (hc : chunks.flatten = xs.flatMap Frame.filled) (hpaced : Paced limit l chunks) :
    ∃ l' said left, l.run (chunks.map .arrive) = some l' ∧
      (xs.flatMap fun x => x.2.told l.cmux.readCb) = said ++ left ∧ Agrees said l'.cmux.log ∧
      (l'.pending = [] → left = [] ∧ l'.cmux.scan = .seeking) := by
  have hread : Scan.read l.cmux.readCb limit l.cmux.scan (l.pending ++ chunks.flatten) =
      some (.seeking, xs.flatMap fun x => x.2.told l.cmux.readCb) := by
    rw [scan_of_fresh hf, hp, List.nil_append, hc]
    exact Frame.read_stream hl
  obtain ⟨l', hr, hd⟩ := (tidy_of_fresh hf).run hsize hsize' hpaced hread
  obtain ⟨said, left, log, hsplit, hlog, hag, hrest⟩ := hd.told
  rw [hf.log, List.nil_append] at hlog
  refine ⟨l', said, left, hr, hsplit, hlog ▸ hag, fun hp' => ?_⟩
  rw [hp'] at hrest
  obtain ⟨hscan, hleft⟩ := Prod.mk.inj (Option.some.inj hrest)
  exact ⟨hleft.symm, hscan⟩

theorem batches_delivered (hf : l.cmux.Fresh) (hp : l.pending = []) (hsize : 128 < size)
    (hsize' : size < 2 ^ 32) (hcb : ∀ t, l.cmux.readCb t = true)
    {writes : List (Fin maxTerminalsNum × Bytes)}
    (hlimit : ∀ w ∈ writes, ∀ batch ∈ CMux.batches w.2, batch.length ≤ limit)
    (hc : chunks.flatten = writes.flatMap fun w => (CMux.write w.1 w.2).flatten)
    (hpaced : Paced limit l chunks) :
    ∃ l', l.run (chunks.map .arrive) = some l' ∧ l'.cmux.log <+: CMux.posts writes ∧
      (l'.pending = [] → l'.cmux.log = CMux.posts writes) := by
  obtain ⟨xs, hl, hw, hposts⟩ := CMux.exists_frames hcb writes hlimit
  obtain ⟨l', said, left, hr, hsplit, hag, hend⟩ :=
    frames_delivered hf hp hsize hsize' hl (hc.trans hw) hpaced
  rw [← hposts] at hsplit
  have hdisc : .disc ∉ said := by
    intro hm
    have hm' : .disc ∈ CMux.posts writes := hsplit ▸ List.mem_append_left _ hm
    simp [CMux.posts] at hm'
  have hlog := hag.eq_of_not_mem hdisc
  refine ⟨l', hr, ⟨left, by rw [hlog, hsplit]⟩, fun hp' => ?_⟩
  rw [hlog, hsplit, (hend hp').1, List.append_nil]

/-- **Round trip.** What was written on the virtual terminals, one after the other or by turns,
is given to the same terminals in the same order, batch by batch: however it is cut if no write
has more than 126 bytes, and else if no read takes the room for a full batch. -/
theorem write_delivered (hf : l.cmux.Fresh) (hp : l.pending = []) (hsize : 128 < size)
    (hsize' : size < 2 ^ 32) (hcb : ∀ t, l.cmux.readCb t = true)
    (writes : List (Fin maxTerminalsNum × Bytes))
    (hc : chunks.flatten = writes.flatMap fun w => (CMux.write w.1 w.2).flatten)
    (hpace : (∀ w ∈ writes, w.2.length ≤ 126) ∨ Paced CMux.cmuxMaxLen l chunks) :
    ∃ l', l.run (chunks.map .arrive) = some l' ∧ l'.cmux.log <+: CMux.posts writes ∧
      (l'.pending = [] → l'.cmux.log = CMux.posts writes ∧
        ∀ t, l'.cmux.givenTo t = (writes.filter (·.1 = t)).flatMap Prod.snd) := by
  have hall : ∃ l', l.run (chunks.map .arrive) = some l' ∧ l'.cmux.log <+: CMux.posts writes ∧
      (l'.pending = [] → l'.cmux.log = CMux.posts writes) := by
    rcases hpace with hshort | hpaced
    · apply batches_delivered hf hp hsize hsize' hcb ?_ hc
        (paced_of_limit_le hsize.le (Nat.le_refl 126) l chunks)
      intro w hw batch hb
      exact (CMux.length_le_of_mem_batches hb).trans (hshort w hw)
    · exact batches_delivered hf hp hsize hsize' hcb
        (fun w _ batch hb => (CMux.mem_batches hb).2) hc hpaced
  obtain ⟨l', hr, hlog, hend⟩ := hall
  exact ⟨l', hr, hlog, fun hp' => ⟨hend hp', CMux.givenTo_of_log (hend hp')⟩⟩

theorem write_delivered_hello :
    ∃ l', (⟨CMux.blank 512 fun _ => true, []⟩ : MuxLine 512).run
        ([(CMux.write 1 (ascii "AT")).flatten].map .arrive) = some l' ∧
      l'.cmux.log <+: CMux.posts [(1, ascii "AT")] ∧
      (l'.pending = [] → l'.cmux.log = CMux.posts [(1, ascii "AT")] ∧
        ∀ t, l'.cmux.givenTo t = ([(1, ascii "AT")].filter (·.1 = t)).flatMap Prod.snd) :=
  write_delivered (CMux.blank_fresh _ _) rfl (by decide) (by decide) (fun _ => rfl)
    [(1, ascii "AT")] (by simp) (.inl (by decide))

end MuxLine

end EspLtePpp
