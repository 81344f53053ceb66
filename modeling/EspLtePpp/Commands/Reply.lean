import EspLtePpp.Dte.Window

/-! # Reading a reply

`generic_get_string` keeps the last long line before the first line that holds a
verdict; `generic_command` looks for a phrase anywhere. Both are shown the whole
buffer again for each new line, and what they return depends on the bytes alone.
-/

namespace EspLtePpp

open Segments Rescan

/--
Strip trailing CR or LF: from the last character down to the second, each CR or LF
met takes one character off the end.
-/
def stripToken (token : Bytes) : Bytes :=
  token.tail.foldr (fun c tok => if c = CR ∨ c = LF then tok.dropLast else tok) token

/-- The loop of `generic_get_string` over the tokens, with the string captured so far. -/
def getStringLoop (output : Bytes) : List Bytes → CommandResult × Bytes
  | [] => (.timeout, output)
  | t :: ts =>
    let token := stripToken t
    if find token (ascii "OK") then (.ok, output)
    else if find token (ascii "ERROR") then (.fail, output)
    else if token.length > 2 then getStringLoop token ts
    else getStringLoop output ts

def getStringCb (output data : Bytes) : CommandResult × Bytes :=
  getStringLoop output (segments LF data)

def genericCommandCb (pass fail : List Bytes) (output data : Bytes) : CommandResult × Bytes :=
  if data = [] then (.timeout, output)
  else if pass.any (find data) then (.ok, output)
  else if fail.any (find data) then (.fail, output)
  else (.timeout, output)

section Strip

variable {t u : Bytes}

theorem foldr_strip_eq (l t : Bytes) :
    l.foldr (fun c tok => if c = CR ∨ c = LF then tok.dropLast else tok) t =
      t.take (t.length - l.countP fun c => c = CR ∨ c = LF) := by
  induction l with
  | nil => simp
  | cons c l ih =>
    rw [List.foldr_cons, ih]
    by_cases hc : c = CR ∨ c = LF
    · rw [if_pos hc, List.countP_cons_of_pos (by simpa using hc), List.dropLast_eq_take,
        List.take_take, List.length_take]
      congr 1
      omega
    · rw [if_neg hc, List.countP_cons_of_neg (by simpa using hc)]

theorem stripToken_eq (t : Bytes) :
    stripToken t = t.take (t.length - t.tail.countP fun c => c = CR ∨ c = LF) :=
  foldr_strip_eq t.tail t

theorem stripToken_isPrefix (t : Bytes) : stripToken t <+: t := by
  rw [stripToken_eq]
  exact List.take_prefix _ t

theorem stripToken_append_CR_isPrefix (h : t ≠ []) : stripToken (t ++ [CR]) <+: t := by
  have hc : 1 ≤ (t ++ [CR]).tail.countP fun c => c = CR ∨ c = LF := by
    rw [List.tail_append_of_ne_nil h, List.countP_append]
    simp
  have hl : (t ++ [CR]).length - (t ++ [CR]).tail.countP (fun c => c = CR ∨ c = LF) ≤ t.length := by
    rw [List.length_append, List.length_singleton]
    omega
  rw [stripToken_eq, List.take_append_of_le_length hl]
  exact List.take_prefix _ t

theorem stripToken_append_CR (h : t ≠ []) (hc : CR ∉ t) (hf : LF ∉ t) :
    stripToken (t ++ [CR]) = t := by
  have h0 : t.tail.countP (fun c => c = CR ∨ c = LF) = 0 := by
    rw [List.countP_eq_zero]
    intro c hct
    have hmem := List.mem_of_mem_tail hct
    simpa using ⟨fun he => hc (he ▸ hmem), fun he => hf (he ▸ hmem)⟩
  have h1 : (t ++ [CR]).tail.countP (fun c => c = CR ∨ c = LF) = 1 := by
    rw [List.tail_append_of_ne_nil h, List.countP_append, h0]
    rfl
  rw [stripToken_eq, h1, List.length_append, List.length_singleton, Nat.add_sub_cancel,
    List.take_left]

end Strip

namespace Reply

variable {t : Bytes} {ts us : List Bytes}

/-- The line holds a final result, at any place of it. -/
def Final (t : Bytes) : Prop :=
  ascii "OK" <:+: stripToken t ∨ ascii "ERROR" <:+: stripToken t

instance : DecidablePred Final := fun t => by unfold Final; infer_instance

def heading (ts : List Bytes) : List Bytes := ts.takeWhile fun t => ¬ Final t

def verdict (ts : List Bytes) : CommandResult :=
  match ts.find? fun t => Final t with
  | none => .timeout
  | some t => if ascii "OK" <:+: stripToken t then .ok else .fail

/-- The last line of more than two characters before the first final result. -/
def lastLong (ts : List Bytes) : Option Bytes :=
  (((heading ts).map stripToken).filter fun t => 2 < t.length).getLast?

theorem verdict_eq_timeout : verdict ts = .timeout ↔ ∀ t ∈ ts, ¬ Final t := by
  unfold verdict
  cases h : ts.find? fun t => Final t with
  | none => simpa using h
  | some t =>
    have hf : Final t := by simpa using List.find?_some h
    have hm := List.mem_of_find?_eq_some h
    have hne : (if ascii "OK" <:+: stripToken t then CommandResult.ok else .fail) ≠ .timeout := by
      split
      · decide
      · decide
    constructor
    · intro hv
      exact absurd hv hne
    · intro hn
      exact absurd hf (hn t hm)

theorem verdict_append (h : verdict ts = .timeout) : verdict (ts ++ us) = verdict us := by
  have hn : ts.find? (fun t => Final t) = none := by
    simpa using verdict_eq_timeout.mp h
  rw [verdict, verdict, List.find?_append, hn, Option.none_or]

theorem verdict_append_of_ne (h : verdict ts ≠ .timeout) : verdict (ts ++ us) = verdict ts := by
  unfold verdict at *
  cases hf : ts.find? fun t => Final t with
  | none => simp [hf] at h
  | some t => rw [List.find?_append, hf, Option.some_or]

theorem heading_append (h : verdict ts = .timeout) : heading (ts ++ us) = ts ++ heading us :=
  List.takeWhile_append_of_pos fun t ht => by simpa using verdict_eq_timeout.mp h t ht

theorem heading_append_of_ne (h : verdict ts ≠ .timeout) : heading (ts ++ us) = heading ts := by
  obtain ⟨t, ht, hf⟩ : ∃ t ∈ ts, Final t := by
    simpa using fun hn => h (verdict_eq_timeout.mpr hn)
  induction ts with
  | nil => simp at ht
  | cons a ts ih =>
    by_cases ha : Final a
    · simp [heading, ha]
    · have hta : t ∈ ts := (List.mem_cons.mp ht).resolve_left fun he => ha (he ▸ hf)
      have hne : verdict ts ≠ .timeout := fun hv => verdict_eq_timeout.mp hv t hta hf
      have hi := ih hne hta
      simpa [heading, ha] using hi

theorem lastLong_append_of_ne (h : verdict ts ≠ .timeout) : lastLong (ts ++ us) = lastLong ts := by
  rw [lastLong, heading_append_of_ne h, lastLong]

theorem eq_of_isPrefix (h : verdict ts ≠ .timeout) (hp : ts <+: us) :
    verdict us = verdict ts ∧ lastLong us = lastLong ts := by
  obtain ⟨vs, rfl⟩ := hp
  exact ⟨verdict_append_of_ne h, lastLong_append_of_ne h⟩

theorem lastLong_cons (h : ¬ Final t) :
    lastLong (t :: ts) =
      if 2 < (stripToken t).length then some ((lastLong ts).getD (stripToken t))
      else lastLong ts := by
  have hh : heading (t :: ts) = t :: heading ts := by simp [heading, h]
  unfold lastLong
  rw [hh, List.map_cons]
  split
  · next hl =>
    rw [List.filter_cons_of_pos (by simpa using hl), List.getLast?_cons]
  · next hl => rw [List.filter_cons_of_neg (by simpa using hl)]

theorem heading_eq_self (h : verdict ts = .timeout) : heading ts = ts :=
  List.takeWhile_eq_self_iff.mpr fun t ht => by simpa using verdict_eq_timeout.mp h t ht

theorem lastLong_append_cons (hts : verdict ts = .timeout) (ht : ¬ Final t)
    (hl : 2 < (stripToken t).length) (hus : lastLong us = none) :
    lastLong (ts ++ t :: us) = some (stripToken t) := by
  have hh : heading (t :: us) = t :: heading us := by simp [heading, ht]
  unfold lastLong at *
  rw [List.getLast?_eq_none_iff] at hus
  rw [heading_append hts, hh, List.map_append, List.map_cons, List.filter_append,
    List.filter_cons_of_pos (by simpa using hl), hus, List.getLast?_concat]

theorem lastLong_append_final (hts : verdict ts = .timeout) (ht : Final t) :
    lastLong (ts ++ t :: us) = lastLong ts := by
  have hh : heading (t :: us) = [] := by simp [heading, ht]
  unfold lastLong
  rw [heading_append hts, hh, List.append_nil, heading_eq_self hts]

theorem lastLong_kept (hv : verdict ts = .timeout) (hp : ts <+: us) (h : lastLong us = none) :
    lastLong ts = none := by
  obtain ⟨vs, rfl⟩ := hp
  have ht := heading_eq_self hv
  unfold lastLong at *
  rw [heading_append hv, List.map_append, List.filter_append, List.getLast?_eq_none_iff,
    List.append_eq_nil_iff] at h
  rw [ht, List.getLast?_eq_none_iff]
  exact h.1

def Mute (t : Bytes) : Prop := ¬ Final t ∧ (stripToken t).length ≤ 2

instance : DecidablePred Mute := fun t => by unfold Mute; infer_instance

theorem verdict_of_mute (h : ∀ t ∈ ts, Mute t) : verdict ts = .timeout :=
  verdict_eq_timeout.mpr fun t ht => (h t ht).1

theorem lastLong_append_of_mute (h : ∀ t ∈ ts, Mute t) : lastLong (ts ++ us) = lastLong us := by
  induction ts with
  | nil => rfl
  | cons t ts ih =>
    obtain ⟨hf, hl⟩ := h t List.mem_cons_self
    rw [List.cons_append, lastLong_cons hf, if_neg (not_lt.mpr hl)]
    exact ih fun t ht => h t (List.mem_cons_of_mem _ ht)

/-- Mute lines in front are not noticed, however far the text is read. -/
theorem exists_of_mute (h : ∀ t ∈ ts, Mute t) {vs : List Bytes} (hp : vs <+: ts ++ us) :
    ∃ vs', vs' <+: us ∧ verdict vs = verdict vs' ∧ lastLong vs = lastLong vs' := by
  rcases List.prefix_or_prefix_of_prefix hp (List.prefix_append ts us) with hvs | ⟨vs', rfl⟩
  · have hm : ∀ t ∈ vs, Mute t := fun t ht => h t (hvs.subset ht)
    have hl : lastLong (vs ++ []) = lastLong [] := lastLong_append_of_mute hm
    rw [List.append_nil] at hl
    exact ⟨[], List.nil_prefix, verdict_of_mute hm, hl⟩
  · exact ⟨vs', (List.prefix_append_right_inj ts).mp hp, verdict_append (verdict_of_mute h),
      lastLong_append_of_mute h⟩

theorem exists_of_lastLong {s : Bytes} (h : lastLong ts = some s) :
    2 < s.length ∧ ∃ t ∈ heading ts, stripToken t = s := by
  have hm := List.mem_of_getLast? h
  rw [List.mem_filter, List.mem_map] at hm
  exact ⟨by simpa using hm.2, hm.1⟩

end Reply

open Reply

/-- The token loop computes the reading of the lines. -/
theorem getStringLoop_eq (o : Bytes) (ts : List Bytes) :
    getStringLoop o ts = (verdict ts, (lastLong ts).getD o) := by
  induction ts generalizing o with
  | nil => rfl
  | cons t ts ih =>
    by_cases hok : ascii "OK" <:+: stripToken t
    · have hf : Final t := Or.inl hok
      simp [getStringLoop, verdict, lastLong, heading, hf, hok]
    · by_cases her : ascii "ERROR" <:+: stripToken t
      · have hf : Final t := Or.inr her
        simp [getStringLoop, verdict, lastLong, heading, hf, hok, her]
      · have hf : ¬ Final t := fun hf => hf.elim hok her
        have hv : verdict (t :: ts) = verdict ts := by simp [verdict, hf]
        rw [lastLong_cons hf, hv]
        simp only [getStringLoop, find_eq_true, hok, her, if_false, ih, gt_iff_lt]
        split
        · rfl
        · rfl

def getStringReading : Reading LF CommandResult.timeout getStringCb where
  verdict := verdict
  store := lastLong
  call_eq o t := getStringLoop_eq o (segments LF t)
  verdict_nil := rfl
  store_nil := rfl
  kept _ _ := lastLong_kept

theorem outcome_getStringCb {t o : Bytes} {r : CommandResult}
    (h : Port.Outcome ⟨getStringCb, []⟩ t r o) :
    o = (lastLong (segments LF t)).getD [] ∧
      (r = verdict (segments LF t) ∨
        r = .fail ∧ verdict (segments LF t) = .timeout ∧ t.length = dteBufferSize) := by
  rcases h with h | ⟨rfl, hl, h⟩
  · obtain ⟨hv, ho⟩ := getStringReading.reads h
    exact ⟨ho, Or.inl hv⟩
  · obtain ⟨hv, ho⟩ := getStringReading.reads h
    exact ⟨ho, Or.inr ⟨rfl, hv.symm, hl⟩⟩

theorem outcome_genericCommandCb {pass fail : List Bytes} {t o : Bytes}
    (h : Port.Outcome ⟨genericCommandCb pass fail, []⟩ t .ok o) : ∃ w ∈ pass, w <:+: t := by
  rcases h with h | ⟨h, -⟩
  · obtain ⟨-, o', hc⟩ := h.exists_call (by decide)
    change genericCommandCb pass fail o' t = (.ok, o) at hc
    unfold genericCommandCb at hc
    split at hc
    · cases hc
    · split at hc
      · next hp => simpa using hp
      · split at hc
        · cases hc
        · cases hc
  · cases h

end EspLtePpp
