import Mathlib.Algebra.GroupWithZero.Nat
import EspLtePpp.Cmux.Delivery
import EspLtePpp.Cmux.Handshake

/-! # A modem that answers

`responder` puts an answer to each request on the line, at any pace and in any
chunks. While only acknowledgements come in, the receiver holds nothing back: what
arrived is read at once.
-/

namespace EspLtePpp

/-- Chunks of the given sizes, as far as there are bytes. -/
def deal : List ℕ → Bytes → List Bytes
  | [], _ => []
  | n :: ns, bs => bs.take n :: deal ns (bs.drop n)

/-- A modem that answers what it hears; `pace` cuts what it says in each sleep into chunks. -/
def responder (answer : Bytes → Bytes) (pace : ℕ → List ℕ) : Peer where
  State := ℕ × Bytes
  hear s frame := (s.1, s.2 ++ answer frame)
  act s := ((s.1 + 1, s.2.drop (pace s.1).sum), (deal (pace s.1) s.2).map .arrive)

namespace Scan

variable {readCb : Fin maxTerminalsNum → Bool} {m m' : Scan} {out : List Notice} {bs : Bytes}

def Bare : Scan → Prop
  | payload _ left held => left = 0 ∧ held = none
  | closing _ held => held = none
  | _ => True

theorem Bare.step {b : UInt8} (hm : m.Bare) (h : Scan.step readCb 0 m b = some (m', out)) :
    m'.Bare := by
  cases m with
  | seeking =>
    obtain ⟨rfl, -⟩ := Prod.mk.inj (Option.some.inj h)
    split <;> trivial
  | header got =>
    rw [Scan.step] at h
    split at h
    · obtain ⟨rfl, -⟩ := Prod.mk.inj (Option.some.inj h)
      trivial
    · split at h
      · obtain ⟨rfl, -⟩ := Prod.mk.inj (Option.some.inj h)
        trivial
      · split at h
        · rename_i hok
          obtain ⟨rfl, -⟩ := Prod.mk.inj (Option.some.inj h)
          exact ⟨Nat.le_zero.mp hok.2, rfl⟩
        · cases h
  | payload hd left held =>
    obtain ⟨rfl, rfl⟩ := hm
    obtain ⟨rfl, -⟩ := Prod.mk.inj (Option.some.inj h)
    rfl
  | closing hd held =>
    rw [Scan.step] at h
    split at h
    · obtain ⟨rfl, -⟩ := Prod.mk.inj (Option.some.inj h)
      trivial
    · cases h

theorem Bare.read (hm : m.Bare) (h : Scan.read readCb 0 m bs = some (m', out)) : m'.Bare := by
  induction bs generalizing m out with
  | nil =>
    obtain ⟨rfl, -⟩ := Prod.mk.inj (Option.some.inj h)
    exact hm
  | cons b bs ih =>
    obtain ⟨t, o₁, o₂, hs, hr, -⟩ := Transducer.run_cons_eq_some_iff.mp h
    exact ih (hm.step hs) hr

end Scan

namespace CMux

variable {size : ℕ} {s s' : CMux size} {avail rest : Bytes}

theorem payloadStart_eq_none (h : s.Sound) (hb : s.scan.Bare) : s.payloadStart = none := by
  by_contra hne
  obtain ⟨p, hp⟩ := Option.ne_none_iff_exists'.mp hne
  obtain ⟨hst, -, -, hle⟩ := h.start p hp
  obtain ⟨bs, hbs⟩ := s.buffer.exists_slice hle
  have hheld : s.held = some bs := by rw [held, hp]; exact hbs
  rcases hst with hs | hs
  · rw [scan_of_payload hs, hheld] at hb
    cases hb.2
  · rw [scan, hs] at hb
    dsimp only at hb
    split at hb
    · rw [hheld] at hb
      cases hb.2
    · rw [hheld] at hb
      cases hb

theorem onCmuxData_rest (hp : s.payloadStart = none) (h : s.onCmuxData avail = some (s', rest)) :
    rest = avail.drop (firstRead size) := by
  have hreq : s.readRequest = some (s, 0, firstRead size) := by rw [readRequest, hp]
  rw [onCmuxData_eq hreq] at h
  obtain ⟨_, -, h⟩ := Option.bind_eq_some_iff.mp h
  obtain ⟨_, -, h⟩ := Option.map_eq_some_iff.mp h
  exact (Prod.mk.inj h).2.symm

end CMux

namespace MuxLine

variable {size : ℕ} {l l' : MuxLine size} {m' : Scan} {out : List Notice} {chunks : List Bytes}

/-- All that came was read, and no payload is under way. -/
structure Quiet (l : MuxLine size) : Prop extends l.Tidy 0 where
  pending : l.pending = []
  bare : l.cmux.scan.Bare

/-- From one quiet line to another by reading some bytes. -/
structure Reads (l l' : MuxLine size) (bs : Bytes) (m' : Scan) (out : List Notice) : Prop where
  quiet : l'.Quiet
  readCb : l'.cmux.readCb = l.cmux.readCb
  scan : l'.cmux.scan = m'
  told : ∃ log, l'.cmux.log = l.cmux.log ++ log ∧ Agrees out log

theorem Quiet.apply (h : l.Quiet) (hsize : 128 < size) (hsize' : size < 2 ^ 32) {c : Bytes}
    (hfit : c.length ≤ size - 128)
    (hread : Scan.read l.cmux.readCb 0 l.cmux.scan c = some (m', out)) :
    ∃ l', l.apply (.arrive c) = some l' ∧ Reads l l' c m' out := by
  have hpace : min (l.pending ++ c).length (size - 128) + 0 + 1 < size := by
    have := Nat.min_le_right (l.pending ++ c).length (size - 128)
    omega
  obtain ⟨l', ha, hd⟩ := h.toTidy.apply hsize hsize' hpace (by rwa [h.pending, List.nil_append])
  have hpend : l'.pending = [] := by
    rcases Decidable.em (l.pending ++ c = []) with hn | hn
    · rw [MuxLine.apply, if_pos hn] at ha
      exact Option.some.inj ha ▸ h.pending
    · rw [MuxLine.apply, if_neg hn] at ha
      obtain ⟨⟨s', rest⟩, ho, rfl⟩ := Option.map_eq_some_iff.mp ha
      have hrest := CMux.onCmuxData_rest (CMux.payloadStart_eq_none h.sound h.bare) ho
      have hfirst := CMux.firstRead_eq hsize.le hsize'
      have hnil : c.drop (size - 128) = [] := List.drop_eq_nil_of_le hfit
      rw [h.pending, List.nil_append, hfirst, hnil] at hrest
      exact hrest
  obtain ⟨o₁, o₂, log, rfl, hlog, hag, hrest⟩ := hd.told
  rw [hpend] at hrest
  obtain ⟨hscan, rfl⟩ := Prod.mk.inj (Option.some.inj hrest)
  refine ⟨l', ha, ⟨⟨hd.tidy, hpend, ?_⟩, hd.readCb, hscan, log, hlog, ?_⟩⟩
  · exact hscan ▸ h.bare.read hread
  · rwa [List.append_nil]

theorem Quiet.run (h : l.Quiet) (hsize : 128 < size) (hsize' : size < 2 ^ 32)
    (hfit : ∀ c ∈ chunks, c.length ≤ size - 128)
    (hread : Scan.read l.cmux.readCb 0 l.cmux.scan chunks.flatten = some (m', out)) :
    ∃ l', l.run (chunks.map .arrive) = some l' ∧ Reads l l' chunks.flatten m' out := by
  induction chunks generalizing l out with
  | nil =>
    obtain ⟨hm, rfl⟩ := Prod.mk.inj (Option.some.inj hread)
    exact ⟨l, rfl, h, rfl, hm, [], (List.append_nil _).symm, .refl _⟩
  | cons c cs ih =>
    rw [List.flatten_cons] at hread
    obtain ⟨m₁, o₁, o₂, h₁, h₂, rfl⟩ := Transducer.run_append_eq_some_iff.mp hread
    obtain ⟨l₁, ha, hr₁⟩ := h.apply hsize hsize' (hfit c (List.mem_cons_self ..)) h₁
    obtain ⟨log, hlog, hag⟩ := hr₁.told
    obtain ⟨l', hr, hr'⟩ := ih hr₁.quiet (fun d hd => hfit d (List.mem_cons_of_mem c hd))
      (by rw [hr₁.readCb, hr₁.scan]; exact h₂)
    obtain ⟨log', hlog', hag'⟩ := hr'.told
    refine ⟨l', ?_, hr'.quiet, hr'.readCb.trans hr₁.readCb, hr'.scan, log ++ log', ?_,
      hag.append hag'⟩
    · rw [List.map_cons, MuxLine.run, ha]
      exact hr
    · rw [hlog', hlog, List.append_assoc]

end MuxLine

end EspLtePpp
