import EspLtePpp.App.Run
import EspLtePpp.Modem.Answer

/-! # Stores into the arrays of `app_main`

The size given to `strlcpy` is 128 for every array. The arrays for replies have that
size; the array for the IMEI has 32 bytes, so what is stored there decides.
-/

namespace EspLtePpp

open Reply Segments

variable {turns : ℕ → Turn} {x : Exchange} {t : List Event}

/-- Every index written lies in the array. -/
def StoresInBounds (t : List Event) : Prop :=
  ∀ size indices, .stored size indices ∈ t → ∀ i ∈ indices, i < size

/--
Of the bytes handed to the callback: if the first line with `OK` or `ERROR` holds `OK`,
the last line of more than two characters before it has at most 31 up to its first NUL.
-/
def FitsImei (handed : Bytes) : Prop :=
  verdict (segments LF handed) = .ok →
    (cStr ((lastLong (segments LF handed)).getD [])).length ≤ 31

instance : DecidablePred FitsImei := fun handed => by unfold FitsImei; infer_instance

theorem storedInBounds_iff {size : ℕ} {out : Bytes} :
    (∀ i ∈ strlcpyIndices out cApiStrMax, i < size) ↔ min (cStr out).length 127 < size :=
  strlcpyIndices_lt_iff

theorem Got.imei_inBounds_iff (h : Got turns (ascii "AT+CGSN\r") x) :
    StoresInBounds (imeiEvents x) ↔ FitsImei x.handed := by
  have hv : x.result = .ok ↔ verdict (segments LF x.handed) = .ok := h.result_ok_iff
  have hlen : min (cStr x.captured).length 127 < 32 ↔ (cStr x.captured).length ≤ 31 := by omega
  constructor
  · intro hb hok
    by_cases hc : x.captured = []
    · have hnil : (lastLong (segments LF x.handed)).getD [] = [] := hc
      rw [hnil]
      exact Nat.zero_le 31
    · refine hlen.mp (storedInBounds_iff.mp (hb 32 _ ?_))
      rw [mem_imeiEvents, mem_storeEvents]
      exact Or.inr ⟨hv.mpr hok, Or.inl ⟨hc, rfl⟩⟩
  · intro hf size indices he
    rw [mem_imeiEvents, mem_storeEvents] at he
    rcases he with he | ⟨hr, ⟨-, he⟩ | he⟩
    · cases he
    · cases he
      exact storedInBounds_iff.mpr (hlen.mpr (hf (hv.mp hr)))
    · cases he

theorem storesInBounds_append {t u : List Event} :
    StoresInBounds (t ++ u) ↔ StoresInBounds t ∧ StoresInBounds u := by
  unfold StoresInBounds
  simp only [List.mem_append, or_imp, forall_and]

theorem storesInBounds_of_forall (h : ∀ size indices, .stored size indices ∉ t) :
    StoresInBounds t := fun size indices hs => absurd hs (h size indices)

theorem storesInBounds_askEvents (buf : CharArray 128) (x : Exchange) :
    StoresInBounds (askEvents buf x) := by
  intro size indices he
  rcases mem_askEvents he with he | he | ⟨-, he⟩
  · cases he
  · obtain ⟨-, he⟩ := mem_storeEvents.mp he
    cases he
    exact storedInBounds_iff.mpr (by omega)
  · cases he

theorem storesInBounds_searchEvents (n : ℕ) (xs : List Exchange) :
    StoresInBounds (searchEvents n xs) := by
  apply storesInBounds_of_forall
  intro size indices he
  rcases mem_searchEvents he with ⟨x, -, he⟩ | ⟨k, he⟩
  · simp [pollEvents] at he
  · cases he

theorem Questions.inBounds_iff (q : Questions) :
    StoresInBounds q.events ↔ StoresInBounds (imeiEvents q.cgsn) := by
  have hcsq : StoresInBounds (signalEvents q.csq) := by
    apply storesInBounds_of_forall
    intro size indices he
    rcases mem_signalEvents he with he | ⟨n, he⟩
    · cases he
    · cases he
  unfold Questions.events
  simp only [storesInBounds_append, storesInBounds_askEvents, hcsq, true_and, and_true]

theorem inBounds_dialled {apn : Bytes} {es : List Event} {end_ : Except Stop Unit}
    (h : Dialled turns apn es end_) : StoresInBounds es := by
  apply storesInBounds_of_forall
  intro size indices he
  rcases h.mem he with ⟨x, he, -⟩ | he
  · cases he
  · cases he

theorem Run.inBounds_iff {modemApn : Bytes} {end_ : Except Stop Unit}
    (h : Run turns modemApn t end_) :
    StoresInBounds t ↔
      ∀ y ∈ exchanges t, y.cmd = ascii "AT+CGSN\r" → FitsImei y.handed := by
  cases h with
  | @searching xs hxs =>
    apply iff_of_true (storesInBounds_searchEvents 0 xs)
    intro y hy hc
    rw [exchanges_searchEvents] at hy
    rw [(hxs y hy).1.cmd_eq] at hc
    exact absurd hc (by decide)
  | @dialled xs x q es end_ hxs hx hs hq hd =>
    have hpoll : StoresInBounds (pollEvents x ++ [.simReady]) := by
      apply storesInBounds_of_forall
      simp [pollEvents]
    have htest : StoresInBounds (.operatorTest q.copsResponse.text
        (apnToUse modemApn q.copsResponse) :: es) := by
      rw [← List.singleton_append, storesInBounds_append]
      refine ⟨storesInBounds_of_forall (by simp), inBounds_dialled hd⟩
    rw [storesInBounds_append, storesInBounds_append, storesInBounds_append,
      q.inBounds_iff, hq.cgsn.imei_inBounds_iff]
    constructor
    · rintro ⟨⟨-, hf⟩, -⟩ y hy hc
      have hpin : y.cmd ≠ ascii "AT+CPIN?\r" := by
        rw [hc]
        decide
      have hask : y.cmd ∈ askCommands := by
        rw [hc]
        simp [askCommands]
      have hm := hd.mem_questions hxs hx hy rfl hask hpin
      rwa [hq.eq_of_cmd hm (by simp) (hc.trans hq.cgsn.cmd_eq.symm)]
    · intro hf
      have hm := q.mem_exchanges_run (x := q.cgsn) (by simp)
        (searchEvents 0 xs ++ (pollEvents x ++ [.simReady]))
        (.operatorTest q.copsResponse.text (apnToUse modemApn q.copsResponse) :: es)
      exact ⟨⟨⟨storesInBounds_searchEvents 0 xs, hpoll⟩, hf q.cgsn hm hq.cgsn.cmd_eq⟩, htest⟩

/--
The arrays of `app_main` are large enough in a run exactly when the reply to `AT+CGSN`
fits the array for the IMEI, whatever the modem sends and however it is cut.
-/
theorem history_inBounds_iff (modemApn : CString) (sentAlready : Bytes) (turns : ℕ → Turn)
    (polls : ℕ) :
    StoresInBounds (history modemApn sentAlready turns polls) ↔
      ∀ x ∈ exchanges (history modemApn sentAlready turns polls),
        x.cmd = ascii "AT+CGSN\r" → FitsImei x.handed :=
  (run_appMain modemApn sentAlready turns polls).inBounds_iff

def longImeiAnswers : ℕ → Answer
  | 0 => .ok ["+CPIN: READY"]
  | 1 => .ok ["A7677S"]
  | 2 => .ok ["+CGSN: IMEI 867000000000000, SV 01"]
  | _ => .ok []

theorem longImei_not_inBounds : ¬ StoresInBounds
    (history ⟨ascii "internet", by decide⟩ [] (fun n => (longImeiAnswers n).prompt) 1) := by
  intro h
  have hs : Event.stored 32 (List.range 35) ∈
      history ⟨ascii "internet", by decide⟩ [] (fun n => (longImeiAnswers n).prompt) 1 := by
    decide +kernel
  exact absurd (h 32 _ hs 32 (by decide)) (by decide)

end EspLtePpp
