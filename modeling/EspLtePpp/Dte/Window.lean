import EspLtePpp.Dte.Basic
import EspLtePpp.Library.Rescan

/-! # The window of one command

Between arming and disarming the callback, rounds of the UART task interleave with
arrivals and with the modem sending. Every byte ends up handed to the callback or
still outstanding, and what the callback answers is a reading of the bytes handed.
-/

namespace EspLtePpp

open Rescan

namespace CommandCb

variable {cb : CommandCb} {g : GotLine} {data : Bytes} {n : ℕ} {r : CommandResult} {o : Bytes}

theorem processLine_of_not_mem (h : cb.separator ∉ data.drop n) :
    cb.processLine g data n = (false, cb) := if_neg h

theorem processLine_pending (h : cb.separator ∈ data.drop n)
    (hc : g.call g.output data = (.timeout, o)) :
    cb.processLine g data n =
      (false, { cb with gotLine := some { g with output := o }, result := .timeout }) := by
  rw [processLine, if_pos h, hc]

theorem processLine_verdict (h : cb.separator ∈ data.drop n)
    (hc : g.call g.output data = (r, o)) (hr : r ≠ .timeout) :
    cb.processLine g data n =
      (true, { cb with
        gotLine := some { g with output := o }, result := r, signal := true }) := by
  rw [processLine, if_pos h, hc]
  cases r with
  | timeout => exact absurd rfl hr
  | ok => rfl
  | fail => rfl

end CommandCb

namespace Port

variable {p p' : Port} {g : GotLine} {S : Bytes}

def read (p : Port) : Port :=
  { p with rx := p.rx.drop p.buffer.room, taken := p.taken ++ p.rx.take p.buffer.room }

inductive Round (p : Port) : Port → Prop where

  | quiet : Round p p

  | full {g : GotLine} : p.commandCb.gotLine = some g → p.commandCb.result = .timeout →
      dteBufferSize ≤ p.buffer.data.length →
      Round p { p with commandCb := p.commandCb.giveUp }

  | part {g : GotLine} : p.commandCb.gotLine = some g → p.commandCb.result = .timeout →
      p.commandCb.separator ∉ p.rx.take p.buffer.room →
      Round p { p.read with buffer := p.buffer.fill p.rx }

  | pending {g : GotLine} {o : Bytes} : p.commandCb.gotLine = some g →
      p.commandCb.result = .timeout → p.commandCb.separator ∈ p.rx.take p.buffer.room →
      g.call g.output (p.buffer.fill p.rx).data = (.timeout, o) →
      Round p { p.read with
        buffer := p.buffer.fill p.rx
        commandCb := { p.commandCb with
          gotLine := some { g with output := o }, result := .timeout } }

  | verdict {g : GotLine} {r : CommandResult} {o : Bytes} : p.commandCb.gotLine = some g →
      p.commandCb.result = .timeout → p.commandCb.separator ∈ p.rx.take p.buffer.room →
      g.call g.output (p.buffer.fill p.rx).data = (r, o) → r ≠ .timeout →
      Round p { p.read with
        commandCb := { p.commandCb with
          gotLine := some { g with output := o }, result := r, signal := true } }

theorem onRead_eq (hg : p.commandCb.gotLine = some g) (hr : p.commandCb.result = .timeout)
    (hs : p.buffer.data.length < dteBufferSize) :
    p.onRead =
      match p.commandCb.processLine g (p.buffer.fill p.rx).data p.buffer.data.length with
      | (true, cb) => (true, { p.read with commandCb := cb })
      | (false, cb) => (false, { p.read with commandCb := cb, buffer := p.buffer.fill p.rx }) := by
  rw [onRead, hg]
  simp only [hr, hs, ne_eq, not_true_eq_false, if_false, if_true]
  rcases p.commandCb.processLine g (p.buffer.fill p.rx).data p.buffer.data.length with ⟨_ | _, cb⟩
  · rfl
  · rfl

theorem round_onRead (p : Port) : Round p p.onRead.2 := by
  cases hg : p.commandCb.gotLine with
  | none => simpa [onRead, hg] using Round.quiet (p := p)
  | some g =>
    by_cases hr : p.commandCb.result = .timeout
    · by_cases hs : p.buffer.data.length < dteBufferSize
      · have hd : (p.buffer.fill p.rx).data.drop p.buffer.data.length =
            p.rx.take p.buffer.room := by
          simp
        rw [onRead_eq hg hr hs]
        by_cases hm : p.commandCb.separator ∈ p.rx.take p.buffer.room
        · rcases hc : g.call g.output (p.buffer.fill p.rx).data with ⟨r, o⟩
          by_cases ht : r = .timeout
          · subst ht
            rw [CommandCb.processLine_pending (hd ▸ hm) hc]
            exact .pending hg hr hm hc
          · rw [CommandCb.processLine_verdict (hd ▸ hm) hc ht]
            exact .verdict hg hr hm hc ht
        · rw [CommandCb.processLine_of_not_mem (hd ▸ hm)]
          exact .part hg hr hm
      · have h := Round.full hg hr (not_lt.mp hs)
        simpa [onRead, hg, hr, hs] using h
    · simpa [onRead, hg, hr] using Round.quiet (p := p)

theorem round_uartTask (p : Port) : Round p p.uartTask := by
  unfold uartTask
  split
  · exact .quiet
  · exact round_onRead p

/-- What the callback made of the bytes handed, or the failure of a full buffer. -/
def Outcome (g : GotLine) (t : Bytes) (r : CommandResult) (o : Bytes) : Prop :=
  Reads LF .timeout g.call g.output t r o ∨
    r = .fail ∧ t.length = dteBufferSize ∧ Reads LF .timeout g.call g.output t .timeout o

/-- The callback `g` is armed, and `S` was to be read since. -/
structure Window (g : GotLine) (S : Bytes) (p : Port) : Prop where
  armed : ∃ o, p.commandCb.gotLine = some ⟨g.call, o⟩ ∧
    Outcome g p.taken p.commandCb.result o
  separator : p.commandCb.separator = LF
  conserved : S = p.taken ++ p.outstanding
  signalled : p.commandCb.signal = true ↔ p.commandCb.result ≠ .timeout
  collected : p.commandCb.result = .timeout → p.buffer.data = p.taken
  bounded : p.taken.length ≤ dteBufferSize

theorem Outcome.reads {t : Bytes} {o : Bytes} (h : Outcome g t .timeout o) :
    Reads LF .timeout g.call g.output t .timeout o := by
  rcases h with h | ⟨h, -⟩
  · exact h
  · cases h

theorem window_round (h : Window g S p) (hp : Round p p') : Window g S p' := by
  obtain ⟨o₀, hg₀, hout⟩ := h.armed
  have hcons : S = p.read.taken ++ p.read.outstanding := by
    rw [h.conserved]
    simp only [read, outstanding, List.append_assoc]
    rw [← List.append_assoc (p.rx.take _), List.take_append_drop]
  have hfill (hr : p.commandCb.result = .timeout) :
      (p.buffer.fill p.rx).data = p.taken ++ p.rx.take p.buffer.room := by
    rw [UniqueBuffer.data_fill, h.collected hr]
  have hlen (hr : p.commandCb.result = .timeout) :
      (p.taken ++ p.rx.take p.buffer.room).length ≤ dteBufferSize := by
    rw [← hfill hr]
    exact (p.buffer.fill p.rx).consumed_le
  cases hp with
  | quiet => exact h
  | @full g' hg hr hs =>
    rw [hr] at hout
    have hdata := h.collected hr
    have hlength : p.taken.length = dteBufferSize :=
      le_antisymm h.bounded (hdata ▸ hs)
    exact {
      armed := ⟨o₀, hg₀, Or.inr ⟨rfl, hlength, hout.reads⟩⟩
      separator := h.separator
      conserved := h.conserved
      signalled := by simp [CommandCb.giveUp]
      collected := by simp [CommandCb.giveUp]
      bounded := h.bounded }
  | @part g' hg hr hm =>
    rw [hr] at hout
    rw [h.separator] at hm
    exact {
      armed := ⟨o₀, hg₀, Or.inl (by simpa only [read, hr] using hout.reads.part hm)⟩
      separator := h.separator
      conserved := hcons
      signalled := h.signalled
      collected := fun _ => hfill hr
      bounded := hlen hr }
  | @pending g' o hg hr hm hc =>
    obtain rfl : g' = ⟨g.call, o₀⟩ := Option.some.inj (hg.symm.trans hg₀)
    rw [hr] at hout
    rw [h.separator] at hm
    have hl := hout.reads.line hm
    rw [hfill hr] at hc
    rw [hc] at hl
    exact {
      armed := ⟨o, rfl, Or.inl hl⟩
      separator := h.separator
      conserved := hcons
      signalled := hr ▸ h.signalled
      collected := fun _ => hfill hr
      bounded := hlen hr }
  | @verdict g' r o hg hr hm hc hne =>
    obtain rfl : g' = ⟨g.call, o₀⟩ := Option.some.inj (hg.symm.trans hg₀)
    rw [hr] at hout
    rw [h.separator] at hm
    have hl := hout.reads.line hm
    rw [hfill hr] at hc
    rw [hc] at hl
    exact {
      armed := ⟨o, rfl, Or.inl hl⟩
      separator := h.separator
      conserved := hcons
      signalled := by simpa using hne
      collected := fun he => absurd he hne
      bounded := hlen hr }

theorem outstanding_arrive (p : Port) (n : ℕ) : (p.arrive n).outstanding = p.outstanding := by
  simp [arrive, outstanding]

theorem outstanding_send (p : Port) (b : Bytes) : (p.send b).outstanding = p.outstanding ++ b := by
  simp [send, outstanding]

theorem window_arrive (h : Window g S p) (n : ℕ) : Window g S (p.arrive n) :=
  { h with conserved := h.conserved.trans (by rw [outstanding_arrive]; rfl) }

theorem window_send (h : Window g S p) (b : Bytes) : Window g (S ++ b) (p.send b) :=
  { h with
    conserved := by
      rw [outstanding_send, h.conserved, List.append_assoc]
      rfl }

theorem window_steps (h : Window g S p) (l : List LineStep) : Window g S (p.steps l) := by
  induction l generalizing p with
  | nil => exact h
  | cons a l ih =>
    cases a with
    | arrive n => exact ih (window_arrive h n)
    | task => exact ih (window_round h (round_uartTask p))

theorem arrivals_append (l m : List LineStep) :
    arrivals (l ++ m) = arrivals l + arrivals m := by
  induction l with
  | nil => simp [arrivals]
  | cons a l ih => cases a <;> simp [arrivals, ih, Nat.add_assoc]

theorem inflight_round (hp : Round p p') : p'.inflight = p.inflight := by
  cases hp <;> rfl

theorem inflight_steps (l : List LineStep) (p : Port) :
    (p.steps l).inflight = p.inflight.drop (arrivals l) := by
  induction l generalizing p with
  | nil => rfl
  | cons a l ih =>
    cases a with
    | arrive n =>
      have hl := ih (p.arrive n)
      rwa [arrive, List.drop_drop] at hl
    | task =>
      have hl := ih p.uartTask
      rwa [inflight_round (round_uartTask p)] at hl

theorem steps_append (l m : List LineStep) (p : Port) :
    p.steps (l ++ m) = (p.steps l).steps m := List.foldl_append

theorem Round.eq_of_ne (hp : Round p p') (hr : p.commandCb.result ≠ .timeout) : p' = p := by
  cases hp with
  | quiet => rfl
  | full _ ht => exact absurd ht hr
  | part _ ht => exact absurd ht hr
  | pending _ ht => exact absurd ht hr
  | verdict _ ht => exact absurd ht hr

/-- A round that finds all bytes in the FIFO, with room for them, reads them all. -/
theorem Window.reads_all (h : Window g S p) (hi : p.inflight = [])
    (hfit : S.length ≤ dteBufferSize) (hr : p.uartTask.commandCb.result = .timeout) :
    p.uartTask.taken = S := by
  have hS : S = p.taken ++ p.rx := by
    have hc := h.conserved
    rwa [outstanding, hi, List.append_nil] at hc
  by_cases hx : p.rx = []
  · rw [uartTask, if_pos hx, hS, hx, List.append_nil]
  have hround := round_uartTask p
  have hb : p.commandCb.result = .timeout := by
    by_contra hne
    rw [hround.eq_of_ne hne] at hr
    exact hne hr
  obtain ⟨o, hg, -⟩ := h.armed
  have hdata := h.collected hb
  have hlen : p.taken.length + p.rx.length ≤ dteBufferSize := by
    rwa [hS, List.length_append] at hfit
  have hpos := List.length_pos_iff.mpr hx
  have htake : p.rx.take p.buffer.room = p.rx := by
    apply List.take_of_length_le
    rw [UniqueBuffer.room, hdata]
    omega
  rw [uartTask, if_neg hx, onRead_eq hg hb (by rw [hdata]; omega), hS]
  split <;> exact congrArg (p.taken ++ ·) htake

/-- Once all bytes are read, or the command has its result, later steps change neither. -/
theorem Window.read_steps (h : Window g S p)
    (ht : p.commandCb.result = .timeout → p.taken = S) (l : List LineStep) :
    (p.steps l).commandCb.result = .timeout → (p.steps l).taken = S := by
  induction l generalizing p with
  | nil => exact ht
  | cons a l ih =>
    cases a with
    | arrive n => exact ih (window_arrive h n) ht
    | task =>
      have hsame : p.uartTask = p := by
        by_cases hr : p.commandCb.result = .timeout
        · have hrx : p.rx = [] := by
            have hc := h.conserved
            rw [ht hr, List.self_eq_append_right, outstanding, List.append_eq_nil_iff] at hc
            exact hc.1
          rw [uartTask, if_pos hrx]
        · exact (round_uartTask p).eq_of_ne hr
      apply ih (window_round h (round_uartTask p))
      rwa [hsame]

structure Idle (p : Port) : Prop where
  disarmed : p.commandCb.gotLine = none
  empty : p.buffer = .empty

theorem Idle.round_eq (h : p.Idle) (hp : Round p p') : p' = p := by
  cases hp with
  | quiet => rfl
  | full hg => exact absurd (h.disarmed.symm.trans hg) (by simp)
  | part hg => exact absurd (h.disarmed.symm.trans hg) (by simp)
  | pending hg => exact absurd (h.disarmed.symm.trans hg) (by simp)
  | verdict hg => exact absurd (h.disarmed.symm.trans hg) (by simp)

theorem Idle.steps (h : p.Idle) (l : List LineStep) :
    (p.steps l).Idle ∧ (p.steps l).outstanding = p.outstanding := by
  induction l generalizing p with
  | nil => exact ⟨h, rfl⟩
  | cons a l ih =>
    cases a with
    | arrive n =>
      have hi : (p.arrive n).Idle := ⟨h.disarmed, h.empty⟩
      have hl := ih hi
      rwa [outstanding_arrive] at hl
    | task =>
      have he : p.uartTask = p := h.round_eq (round_uartTask p)
      have hl := ih h
      rw [← he] at hl
      simpa only [Port.steps, List.foldl_cons, LineStep.apply, he] using hl

/--
What one command does, for every interleaving: the callback's failure is never thrown,
every byte is handed to the callback or still outstanding, and the result and the
captured string are what the callback made of the bytes handed. If everything is
delivered and fits the buffer, a timeout means that all of it was handed.
-/
theorem command_spec (h : p.Idle) (t : Turn) (cmd : Bytes) (g : GotLine) (timeMs : ℕ) :
    ∃ x o p', p.command t cmd g timeMs = some (x, o, p') ∧ p'.Idle ∧
      x.cmd = cmd ∧ x.timeMs = timeMs ∧ x.stale = p.outstanding ∧ x.reply = t.reply ∧
      x.stale ++ x.reply = x.handed ++ p'.outstanding ∧ x.handed.length ≤ dteBufferSize ∧
      Outcome g x.handed x.result o ∧ (t.Delivers x.stale.length →
        (x.stale ++ x.reply).length ≤ dteBufferSize → x.result = .timeout →
          x.handed = x.stale ++ x.reply) := by
  obtain ⟨hidle, hout⟩ := h.steps t.idle
  set p₁ := p.steps t.idle
  set p₂ : Port := { p₁ with
    commandCb := { gotLine := some g, separator := LF, result := .timeout, signal := false }
    taken := [] } with hp₂
  have hw₂ : Window g p.outstanding p₂ := {
    armed := ⟨g.output, rfl, Or.inl .start⟩
    separator := rfl
    conserved := hout.symm
    signalled := by simp [hp₂]
    collected := fun _ => by simp [hp₂, hidle.empty]
    bounded := Nat.zero_le _ }
  have hsent := window_send (window_steps hw₂ t.armed) t.reply
  have hw := window_steps hsent t.waiting
  set p₃ := ((p₂.steps t.armed).send t.reply).steps t.waiting with hp₃
  obtain ⟨o, hg₃, ho⟩ := hw.armed
  have hset : p₃.commandCb.set none LF =
      some { p₃.commandCb with gotLine := none, separator := LF } := by
    have hs : ¬ (p₃.commandCb.signal = true ∧ p₃.commandCb.result = .timeout) :=
      fun hs => hw.signalled.mp hs.1 hs.2
    simp only [CommandCb.set, hs, if_false]
  have hall (hd : t.Delivers p.outstanding.length)
      (hfit : (p.outstanding ++ t.reply).length ≤ dteBufferSize) :
      p₃.commandCb.result = .timeout → p₃.taken = p.outstanding ++ t.reply := by
    obtain ⟨pre, post, hwait, hn⟩ := hd
    have harrived : (((p₂.steps t.armed).send t.reply).steps pre).inflight = [] := by
      have hp₁ : p₂.inflight = p.inflight.drop (arrivals t.idle) := inflight_steps t.idle p
      have hle : p.inflight.length ≤ p.outstanding.length := by simp [outstanding]
      rw [arrivals_append] at hn
      rw [inflight_steps, send, inflight_steps, hp₁, List.drop_eq_nil_iff, List.length_append,
        List.length_drop, List.length_drop]
      omega
    have hpre := window_steps hsent pre
    rw [hp₃, hwait, steps_append]
    exact (window_round hpre (round_uartTask _)).read_steps (hpre.reads_all harrived hfit) post
  refine ⟨⟨cmd, timeMs, p.outstanding, t.reply, p₃.taken, p₃.commandCb.result⟩, o,
    { p₃ with
      commandCb := { p₃.commandCb with gotLine := none, separator := LF }, buffer := .empty },
    ?_, ⟨rfl, rfl⟩, rfl, rfl, rfl, rfl, hw.conserved, hw.bounded, ho, hall⟩
  have hcmd : p.command t cmd g timeMs = (do
      let cb ← p₃.commandCb.set none LF
      return (⟨cmd, timeMs, p₁.outstanding, t.reply, p₃.taken, cb.result⟩,
        (p₃.commandCb.gotLine.map GotLine.output).getD [],
        { p₃ with commandCb := cb, buffer := .empty })) := rfl
  rw [hcmd, hset, hg₃, hout]
  rfl

end Port

end EspLtePpp
