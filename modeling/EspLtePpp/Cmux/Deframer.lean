import EspLtePpp.Cmux.Turns
import EspLtePpp.Library.Transducer

/-! # What a text of the multiplexed line says

The line format read one byte at a time, without buffers: a machine that looks for a
flag, collects a header, counts the payload and waits for the closing flag. It
refuses a text that breaks the format or that declares a payload over a limit.
-/

namespace EspLtePpp

/-- Where in the format a reader is. `held` is the part of the payload that a listening terminal
is still to be given. -/
inductive Scan
  | seeking
  | header (got : Bytes)
  | payload (h : Heading) (left : ℕ) (held : Option Bytes)
  | closing (h : Heading) (held : Option Bytes)
  deriving DecidableEq

namespace Scan

variable {readCb : Fin maxTerminalsNum → Bool} {limit : ℕ} {h : Heading} {got bs cs : Bytes}
  {held : Option Bytes} {b addr type : UInt8} {n k : ℕ}

/-- What a terminal is to be given once `bs` came on top of `held`. -/
def hold (readCb : Fin maxTerminalsNum → Bool) (h : Heading) (held : Option Bytes) (bs : Bytes) :
    Option Bytes :=
  match h.listener readCb with
  | some _ => some (held.getD [] ++ bs)
  | none => held

/-- What the end of a frame tells. -/
def told (readCb : Fin maxTerminalsNum → Bool) (h : Heading) (held : Option Bytes) : List Notice :=
  if isUa h.type then [.ack h.dlci]
  else
    match h.listener readCb with
    | some t => [.post t held]
    | none => []

/-- One byte. The bytes of a control message are told as `disc`, one by one. -/
def step (readCb : Fin maxTerminalsNum → Bool) (limit : ℕ) :
    Scan → UInt8 → Option (Scan × List Notice)
  | seeking, b => some (if b = sofMarker then header [] else seeking, [])
  | header got, b =>
    if got = [] ∧ b = sofMarker then some (header [], [])
    else
      match headerOf (got ++ [b]) with
      | none => some (header (got ++ [b]), [])
      | some (addr, type, n) =>
        if HeaderOk addr type ∧ n ≤ limit then some (payload ⟨addr >>> 2, type⟩ n none, [])
        else none
  | payload h 0 held, _ => some (closing h held, [])
  | payload h (n + 1) held, b =>
    if isUih h.type then
      some (payload h n (hold readCb h held [b]), if h.dlci = 0 then [.disc] else [])
    else none
  | closing h held, b => if b = sofMarker then some (seeking, told readCb h held) else none

abbrev read (readCb : Fin maxTerminalsNum → Bool) (limit : ℕ) (m : Scan) (bs : Bytes) :
    Option (Scan × List Notice) := Transducer.run (step readCb limit) m bs

theorem hold_append :
    hold readCb h (hold readCb h held bs) cs = hold readCb h held (bs ++ cs) := by
  unfold hold
  cases h.listener readCb with
  | none => rfl
  | some t => simp

theorem read_seeking (hb : sofMarker ∉ bs) :
    read readCb limit seeking bs = some (seeking, []) := by
  induction bs with
  | nil => rfl
  | cons b bs ih =>
    have hne : b ≠ sofMarker := fun he => hb (he ▸ List.mem_cons_self ..)
    have hrest : sofMarker ∉ bs := fun hm => hb (List.mem_cons_of_mem b hm)
    have hstep : step readCb limit seeking b = some (seeking, []) := by simp [step, hne]
    exact Transducer.run_cons_eq_some_iff.mpr ⟨_, _, _, hstep, ih hrest, rfl⟩

theorem read_flag {m : Scan} (hm : m = seeking ∨ m = header []) :
    read readCb limit m [sofMarker] = some (header [], []) := by
  rw [read, Transducer.run_singleton]
  rcases hm with rfl | rfl <;> simp [step]

theorem headerOf_of_append {r : UInt8 × UInt8 × ℕ} (hb : bs ≠ [])
    (h : headerOf (got ++ bs) = some r) : headerOf got = none := by
  rcases Nat.lt_or_ge got.length 3 with hlt | hge
  · exact headerOf_of_length_lt hlt
  · have hpos := List.length_pos_iff.mpr hb
    have hl := length_of_headerOf h
    rw [List.length_append] at hl
    obtain ⟨a, t, l, rfl⟩ := List.length_eq_three.mp (show got.length = 3 by omega)
    obtain ⟨m, rfl⟩ := List.length_eq_one_iff.mp
      (show bs.length = 1 by simp only [List.length_cons, List.length_nil] at hl; omega)
    rw [headerOf_three_eq_none_iff]
    change (if l &&& EA = 0 then _ else _) = _ at h
    by_contra hne
    rw [if_neg hne] at h
    cases h

theorem read_header_more (hskip : got = [] → bs.head? ≠ some sofMarker)
    (hl : (got ++ bs).length ≤ 3) (hmore : headerOf (got ++ bs) = none) :
    read readCb limit (header got) bs = some (header (got ++ bs), []) := by
  induction bs generalizing got with
  | nil => simp
  | cons b bs ih =>
    have hnot : ¬(got = [] ∧ b = sofMarker) := by
      rintro ⟨hg, rfl⟩
      exact hskip hg rfl
    have hsplit : got ++ b :: bs = (got ++ [b]) ++ bs := by simp
    have hnone : headerOf (got ++ [b]) = none := by
      rcases Decidable.em (bs = []) with rfl | hne
      · exact hmore
      · have hpos := List.length_pos_iff.mpr hne
        apply headerOf_of_length_lt
        simp only [List.length_append, List.length_cons, List.length_nil] at hl ⊢
        omega
    have hstep : step readCb limit (header got) b = some (header (got ++ [b]), []) := by
      simp only [step, hnot, if_false, hnone]
    rw [hsplit] at hl hmore ⊢
    refine Transducer.run_cons_eq_some_iff.mpr ⟨_, _, _, hstep, ih ?_ hl hmore, rfl⟩
    intro hg
    exact absurd hg (by simp)

theorem read_header (readCb : Fin maxTerminalsNum → Bool) (limit : ℕ)
    (hskip : got = [] → bs.head? ≠ some sofMarker) (hb : bs ≠ [])
    (hdone : headerOf (got ++ bs) = some (addr, type, n)) :
    read readCb limit (header got) bs =
      if HeaderOk addr type ∧ n ≤ limit then some (payload ⟨addr >>> 2, type⟩ n none, [])
      else none := by
  obtain ⟨bs, b, rfl⟩ := (List.eq_nil_or_concat bs).resolve_left hb
  rw [List.concat_eq_append] at *
  rw [← List.append_assoc] at hdone
  have hl := length_of_headerOf hdone
  rw [List.length_append, List.length_singleton] at hl
  have hskip' : got = [] → bs.head? ≠ some sofMarker := by
    intro hg hs
    apply hskip hg
    cases bs with
    | nil => cases hs
    | cons c bs => exact hs
  have hmore : read readCb limit (header got) bs = some (header (got ++ bs), []) :=
    read_header_more hskip' (by omega) (headerOf_of_append (List.cons_ne_nil b []) hdone)
  have hnot : ¬(got ++ bs = [] ∧ b = sofMarker) := by
    rintro ⟨hg, -⟩
    rw [hg] at hl
    simp at hl
  have hstep : step readCb limit (header (got ++ bs)) b =
      if HeaderOk addr type ∧ n ≤ limit then some (payload ⟨addr >>> 2, type⟩ n none, [])
      else none := by
    simp only [step, hnot, if_false, hdone]
  split
  · rename_i hok
    rw [if_pos hok] at hstep
    exact Transducer.run_append hmore (Transducer.run_singleton.trans hstep)
  · rename_i hok
    rw [if_neg hok] at hstep
    by_contra hne
    obtain ⟨⟨m, o⟩, hr⟩ := Option.ne_none_iff_exists'.mp hne
    obtain ⟨m₁, o₁, o₂, h₁, h₂, -⟩ := Transducer.run_append_eq_some_iff.mp hr
    obtain ⟨rfl, rfl⟩ := Prod.mk.inj (Option.some.inj (hmore.symm.trans h₁))
    rw [Transducer.run_singleton, hstep] at h₂
    cases h₂

theorem read_payload (readCb : Fin maxTerminalsNum → Bool) (limit : ℕ) (held : Option Bytes)
    (hu : isUih h.type = true) (hb : bs ≠ []) (hn : bs.length ≤ n) :
    read readCb limit (payload h n held) bs =
      some (payload h (n - bs.length) (hold readCb h held bs),
        if h.dlci = 0 then List.replicate bs.length .disc else []) := by
  induction bs generalizing n held with
  | nil => exact absurd rfl hb
  | cons b bs ih =>
    obtain ⟨n, rfl⟩ : ∃ m, n = m + 1 := by
      cases n with
      | zero => simp at hn
      | succ n => exact ⟨n, rfl⟩
    have hstep : step readCb limit (payload h (n + 1) held) b =
        some (payload h n (hold readCb h held [b]), if h.dlci = 0 then [.disc] else []) := by
      simp [step, hu]
    rcases Decidable.em (bs = []) with rfl | hne
    · rw [read, Transducer.run_singleton, hstep]
      simp
    · have hrest := ih (hold readCb h held [b]) hne
        (Nat.le_of_succ_le_succ (by simpa using hn))
      have hrun := Transducer.run_cons_eq_some_iff.mpr ⟨_, _, _, hstep, hrest, rfl⟩
      rw [hold_append, List.singleton_append] at hrun
      rw [read, hrun, List.length_cons, Nat.add_sub_add_right]
      split <;> simp [List.replicate_succ]

end Scan

end EspLtePpp
