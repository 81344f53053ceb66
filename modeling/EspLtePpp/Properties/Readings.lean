import EspLtePpp.App.Run
import EspLtePpp.Library.Decimal
import EspLtePpp.Library.Infix
import EspLtePpp.Modem.Reading

/-! # What the ordinary answers are read as

An answer of one line that comes in time on an empty line is read as that line. So the
IMEI is stored as the modem wrote it, and the two numbers of the signal quality are the
numbers that the modem wrote in decimal.
-/

namespace EspLtePpp

open Decimal Reply

variable {turns : ℕ → Turn} {cmd : Bytes} {x : Exchange} {l : AtLine} {t : List Event} {n : ℕ}

theorem isDigit_iff {b : UInt8} : isDigit b = true ↔ 48 ≤ b.toNat ∧ b.toNat ≤ 57 := by
  simp [isDigit, UInt8.le_iff_toNat_le]

theorem foldl_toNat_eq {ds : Bytes} (h : ∀ b ∈ ds, 48 ≤ b.toNat) (v : ℕ) :
    ds.foldl (fun (v : ℤ) d => v * 10 + (d.toNat - 48)) (v : ℤ) =
      (ds.foldl (fun v d => v * 10 + (d.toNat - 48)) v : ℕ) := by
  induction ds generalizing v with
  | nil => rfl
  | cons d ds ih =>
    have hd := h d List.mem_cons_self
    have hv : (v : ℤ) * 10 + (d.toNat - 48) = ((v * 10 + (d.toNat - 48) : ℕ) : ℤ) := by
      omega
    rw [List.foldl_cons, List.foldl_cons, hv, ih fun b hb => h b (List.mem_cons_of_mem _ hb)]

theorem fromChars_decimal (h : n ≤ 2147483647) : fromChars (decimal n) = some (some (n : ℤ)) := by
  have hdigits : ∀ b ∈ decimal n, isDigit b = true := fun b hb =>
    isDigit_iff.mpr (toNat_of_mem_decimal hb)
  have htake : (decimal n).takeWhile isDigit = decimal n :=
    List.takeWhile_eq_self_iff.mpr hdigits
  have hvalue : (decimal n).foldl (fun (v : ℤ) d => v * 10 + (d.toNat - 48)) 0 = n := by
    have hf := foldl_toNat_eq (fun b (hb : b ∈ decimal n) => (toNat_of_mem_decimal hb).1) 0
    rw [Nat.cast_zero] at hf
    rw [hf]
    exact congrArg _ (value_decimal n)
  cases hd : decimal n with
  | nil => exact absurd hd (decimal_ne_nil n)
  | cons d ds =>
    have hne : d ≠ 45 := by
      rintro rfl
      have hb := hdigits 45 (by simp [hd])
      exact absurd hb (by decide)
    rw [hd] at htake hvalue
    unfold fromChars
    split
    next neg rest hm =>
    split at hm
    · next heq => exact absurd (List.cons.inj heq).1 hne
    · obtain ⟨rfl, rfl⟩ := Prod.mk.inj hm
      have hbound : -2147483648 ≤ (n : ℤ) ∧ (n : ℤ) ≤ 2147483647 := by omega
      rw [htake]
      simp only [hvalue, Bool.false_eq_true, if_false, if_pos hbound]

theorem not_mem_decimal {b : UInt8} (h : b.toNat < 48) : b ∉ decimal n := by
  intro hm
  have hb := (toNat_of_mem_decimal hm).1
  omega

def csqLine (rssi ber : ℕ) : AtLine where
  body := ascii "+CSQ: " ++ decimal rssi ++ 44 :: decimal ber
  lf_not_mem := by
    simp only [List.mem_append, List.mem_cons, not_or]
    exact ⟨⟨by decide, not_mem_decimal (by decide)⟩, by decide, not_mem_decimal (by decide)⟩

variable {rssi ber : ℕ}

theorem parseCsq_csqLine (hr : rssi ≤ 2147483647) (hb : ber ≤ 2147483647) :
    parseCsq .ok (csqLine rssi ber).body = (.ok, some (rssi : ℤ), some (ber : ℤ)) := by
  set pre := ascii "+CSQ: " ++ decimal rssi with hpre
  have hbody : (csqLine rssi ber).body = pre ++ 44 :: decimal ber := rfl
  have hfind : find (csqLine rssi ber).body (ascii "+CSQ: ") = true := by
    rw [find_eq_true, hbody, hpre, List.append_assoc]
    exact (List.prefix_append _ _).isInfix
  have hcomma : 44 ∉ pre := by
    rw [hpre, List.mem_append, not_or]
    exact ⟨by decide, not_mem_decimal (by decide)⟩
  have hidx : (csqLine rssi ber).body.findIdx? (· = 44) = some pre.length := by
    have hnone : pre.findIdx? (· = 44) = none := by
      rw [List.findIdx?_eq_none_iff]
      intro b hb
      simpa using fun he : b = 44 => hcomma (he ▸ hb)
    rw [hbody, List.findIdx?_append, hnone]
    simp [List.findIdx?_cons]
  have hrssi : ((csqLine rssi ber).body.take pre.length).drop 6 = decimal rssi := by
    have hlen : (ascii "+CSQ: ").length = 6 := by decide
    rw [hbody, List.take_left, hpre, ← hlen, List.drop_left]
  have hber : (csqLine rssi ber).body.drop (pre.length + 1) = decimal ber := by
    rw [hbody, ← List.drop_drop, List.drop_left]
    rfl
  unfold parseCsq
  simp only [hfind, hidx, hrssi, hber, fromChars_decimal hr, fromChars_decimal hb, ne_eq,
    not_true_eq_false, if_false, Bool.not_true, Bool.false_eq_true]

theorem AtLine.not_final (hO : 79 ∉ l.body) (hE : 69 ∉ l.body) : ¬ Final l.token := by
  have hmem {b : UInt8} (h : b ∈ stripToken l.token) (hb : b ≠ CR) : b ∈ l.body := by
    have ht : b ∈ l.body ++ [CR] := (stripToken_isPrefix l.token).subset h
    rcases List.mem_append.mp ht with ht | ht
    · exact ht
    · exact absurd (List.mem_singleton.mp ht) hb
  rintro (h | h)
  · exact hO (hmem (h.subset (by decide : (79 : UInt8) ∈ ascii "OK")) (by decide))
  · exact hE (hmem (h.subset (by decide : (69 : UInt8) ∈ ascii "ERROR")) (by decide))

theorem plain_csqLine (rssi ber : ℕ) : (csqLine rssi ber).Plain := by
  have hmem {b : UInt8} (ha : b ∉ ascii "+CSQ: ,") (hd : b.toNat < 48 ∨ 57 < b.toNat) :
      b ∉ (csqLine rssi ber).body := by
    have hn (n : ℕ) : b ∉ decimal n := by
      intro h
      have hb := toNat_of_mem_decimal h
      omega
    have hsplit : ascii "+CSQ: ," = ascii "+CSQ: " ++ [44] := by decide
    rw [hsplit, List.mem_append, not_or, List.mem_singleton] at ha
    simp only [csqLine, List.mem_append, List.mem_cons, not_or]
    exact ⟨⟨ha.1, hn rssi⟩, ha.2, hn ber⟩
  constructor
  · exact hmem (by decide) (by decide)
  · have hlen : (ascii "+CSQ: ").length = 6 := by decide
    simp only [csqLine, List.length_append, List.length_cons]
    omega
  · exact AtLine.not_final (hmem (by decide) (by decide)) (hmem (by decide) (by decide))

theorem Got.signalQuality_mem (h : Got turns cmd x) (hx : x.Receives (.closed [csqLine rssi ber]))
    (hr : rssi ≤ 2147483647) (hb : ber ≤ 2147483647) :
    .signalQuality (rssi : ℤ) ∈ signalEvents x := by
  obtain ⟨hok, hcap⟩ := h.read_line hx (plain_csqLine rssi ber)
  simp [signalEvents, hok, hcap, parseCsq_csqLine hr hb]

theorem Got.imei_mem (h : Got turns cmd x) (hx : x.Receives (.closed [l])) (hl : l.Plain)
    (h0 : 0 ∉ l.body) (hfit : l.body.length < 32) : .imei l.body ∈ imeiEvents x := by
  obtain ⟨hok, hcap⟩ := h.read_line hx hl
  have hne : l.body ≠ [] := by
    intro he
    have hlong := hl.long
    simp [he] at hlong
  have htake : strlcpyText l.body cApiStrMax = l.body := by
    rw [strlcpyText_of_not_mem h0, cApiStrMax]
    exact List.take_of_length_le (by omega)
  have htext : (copied (.zero 32) l.body).text = l.body := by
    rw [copied_of_ne hne, text_strlcpy _ (by rwa [htake]), htake]
  rw [mem_imeiEvents]
  exact Or.inr ⟨hok, Or.inr (by rw [hcap, htext])⟩

theorem Questions.imeiEvents_subset (q : Questions) {e : Event} (h : e ∈ imeiEvents q.cgsn) :
    e ∈ q.events := by
  simp [Questions.events, h]

theorem Questions.signalEvents_subset (q : Questions) {e : Event} (h : e ∈ signalEvents q.csq) :
    e ∈ q.events := by
  simp [Questions.events, h]

section Runs

variable (modemApn : CString) (sentAlready : Bytes) (turns : ℕ → Turn) (polls : ℕ)

/-- In every run, an IMEI that fits its array is stored as the modem wrote it. -/
theorem history_imei (hx : x ∈ exchanges (history modemApn sentAlready turns polls))
    (hc : x.cmd = ascii "AT+CGSN\r") (hr : x.Receives (.closed [l])) (hl : l.Plain)
    (h0 : 0 ∉ l.body) (hfit : l.body.length < 32) :
    .imei l.body ∈ history modemApn sentAlready turns polls := by
  have hask : x.cmd ∈ askCommands := by
    rw [hc]
    simp [askCommands]
  obtain ⟨q, hq, hm, hsub⟩ := (run_appMain modemApn sentAlready turns polls).asked hx hask
    (by rw [hc]; decide)
  obtain rfl := hq.eq_of_cmd hm (y := q.cgsn) (by simp) (hc.trans hq.cgsn.cmd_eq.symm)
  exact hsub _ (q.imeiEvents_subset (hq.cgsn.imei_mem hr hl h0 hfit))

/-- In every run, the signal strength that the modem wrote is the one reported. -/
theorem history_signalQuality {rssi ber : ℕ}
    (hx : x ∈ exchanges (history modemApn sentAlready turns polls))
    (hc : x.cmd = ascii "AT+CSQ\r") (hr : x.Receives (.closed [csqLine rssi ber]))
    (h₁ : rssi ≤ 2147483647) (h₂ : ber ≤ 2147483647) :
    .signalQuality (rssi : ℤ) ∈ history modemApn sentAlready turns polls := by
  have hask : x.cmd ∈ askCommands := by
    rw [hc]
    simp [askCommands]
  obtain ⟨q, hq, hm, hsub⟩ := (run_appMain modemApn sentAlready turns polls).asked hx hask
    (by rw [hc]; decide)
  obtain rfl := hq.eq_of_cmd hm (y := q.csq) (by simp) (hc.trans hq.csq.cmd_eq.symm)
  exact hsub _ (q.signalEvents_subset (hq.csq.signalQuality_mem hr h₁ h₂))

end Runs

theorem history_imei_promptAnswers : .imei (ascii "867000000000000") ∈
    history ⟨ascii "internet", by decide⟩ [] (fun n => (Answer.promptAnswers n).prompt) 1 := by
  have hmem : ∃ x ∈ exchanges (history ⟨ascii "internet", by decide⟩ []
      (fun n => (Answer.promptAnswers n).prompt) 1), x.cmd = ascii "AT+CGSN\r" ∧ x.Quiet ∧
      x.Timely ∧ x.reply = (Answer.promptAnswers 2).render ∧
      (x.stale ++ (Answer.promptAnswers 2).render).length ≤ dteBufferSize := by
    decide +kernel
  obtain ⟨x, hx, hc, hr⟩ := hmem
  exact history_imei _ _ _ _ (l := .of "867000000000000") hx hc ⟨hr.1, hr.2.1, hr.2.2.1, hr.2.2.2⟩
    ⟨by decide, by decide, by decide⟩ (by decide) (by decide)

theorem history_signalQuality_promptAnswers : .signalQuality 20 ∈
    history ⟨ascii "internet", by decide⟩ [] (fun n => (Answer.promptAnswers n).prompt) 1 := by
  have hmem : ∃ x ∈ exchanges (history ⟨ascii "internet", by decide⟩ []
      (fun n => (Answer.promptAnswers n).prompt) 1), x.cmd = ascii "AT+CSQ\r" ∧ x.Quiet ∧
      x.Timely ∧ x.reply = (Answer.closed [csqLine 20 99]).render ∧
      (x.stale ++ (Answer.closed [csqLine 20 99]).render).length ≤ dteBufferSize := by
    decide +kernel
  obtain ⟨x, hx, hc, hr⟩ := hmem
  exact history_signalQuality _ _ _ _ hx hc ⟨hr.1, hr.2.1, hr.2.2.1, hr.2.2.2⟩
    (by decide) (by decide)

end EspLtePpp
