import EspLtePpp.Dce.Requests
import EspLtePpp.Properties.ModeRuns
import EspLtePpp.Library.History

/-! # Whether the mode of the DCE is true

As long as nobody forces a mode on it, the multiplexer of a DTE with one terminal is
there exactly where the modes say so, and PPP runs where the modem was dialled.
-/

set_option mvcgen.warning false

namespace EspLtePpp

namespace Modes

open Std.Do

variable {u : Terminal} {w w₀ w₁ : Dce} {d d' : Dte} {m : ModemMode} {ppp ok line : Bool}
  {f : Option OnData}

namespace Dte

@[simp] theorem toData_cmuxTerm : d.toData.cmuxTerm = d.cmuxTerm := by
  simp only [toData]
  split <;> rfl

@[simp] theorem hush_cmuxTerm : d.hush.cmuxTerm = d.cmuxTerm := by simp [hush]
@[simp] theorem hush_mode : d.hush.mode = d.mode := by simp [hush]

theorem settle_cmuxTerm {r : Bool × Dte} : (settle m r).2.cmuxTerm = r.2.cmuxTerm := by
  rcases r with ⟨_ | _, d⟩ <;> rfl

theorem settle_fst {r : Bool × Dte} : (settle m r).1 = r.1 := by
  rcases r with ⟨_ | _, d⟩ <;> rfl

theorem settle_mode {r : Bool × Dte} (h : r.1 = true) : (settle m r).2.mode = m := by
  rcases r with ⟨_ | _, d⟩
  · cases h
  · rfl

theorem swap_cmuxTerm : d.swap.cmuxTerm = d.cmuxTerm := rfl

theorem setMode_free (line : Bool) (hn : d.cmuxTerm = none) (hm : m ≠ .cmuxMode)
    (hm' : m ≠ .cmuxManualMode) :
    (d.setMode m line).2.cmuxTerm = none := by
  have exit (m) : (settle m (d.exitCmux line)).2.cmuxTerm = none := by
    simp [settle_cmuxTerm, exitCmux, hn]
  cases m <;> simp only [setMode] <;> (try split) <;> (try split) <;>
    simp_all [swap_cmuxTerm]

/-- The multiplexer is there only in the mode that the DCE and the DTE share. -/
structure Tidy (m : ModemMode) (d : Dte) : Prop extends d.Sound .first where
  shared : d.cmuxTerm.isSome → d.mode = m ∧ (m = .cmuxMode ∨ m = .cmuxManualMode)

theorem Sound.tidy (h : d.Sound .first) (hm : d.cmuxTerm = none) (m : ModemMode) : d.Tidy m :=
  ⟨h, by simp [hm]⟩

theorem Tidy.free (h : d.Tidy m) (hm : m ≠ .cmuxMode) (hm' : m ≠ .cmuxManualMode) :
    d.cmuxTerm = none := by
  by_contra hn
  rcases (h.shared (Option.isSome_iff_ne_none.mpr hn)).2 with rfl | rfl
  · exact hm rfl
  · exact hm' rfl

theorem Tidy.toData (h : d.Tidy m) : d.toData.Tidy m := by
  refine ⟨h.toSound.toData, fun hs => ?_⟩
  rw [toData_cmuxTerm] at hs
  obtain ⟨hd, hm⟩ := h.shared hs
  refine ⟨?_, hm⟩
  rcases hm with rfl | rfl <;> simp [Dte.toData, hd, swap]

theorem Tidy.setReadCb (h : d.Tidy m) : (d.setReadCb f).Tidy m :=
  ⟨h.toSound.setReadCb, by simpa using h.shared⟩

theorem Tidy.hush (h : d.Tidy m) : d.hush.Tidy m := h.setReadCb.setReadCb

theorem Sound.open_tidy (h : d.Sound .first) (hn : d.cmuxTerm = none)
    (hm : m = .cmuxMode ∨ m = .cmuxManualMode) (hd : d.setMode m line = (ok, d')) :
    (ok = true → d'.Tidy m ∧ d'.cmuxTerm.isSome) ∧ (ok = false → d'.cmuxTerm = none) := by
  have hs : d'.Sound .first := by
    have hs := h.setMode m line
    rwa [hd] at hs
  have setup (he : d.setMode m line = settle m (d.setupCmux line)) :
      (ok = true → d'.Tidy m ∧ d'.cmuxTerm.isSome) ∧ (ok = false → d'.cmuxTerm = none) := by
    rw [hd] at he
    have hok : ok = (d.setupCmux line).1 := (congrArg Prod.fst he).trans settle_fst
    obtain rfl : d' = (settle m (d.setupCmux line)).2 := congrArg Prod.snd he
    constructor
    · rintro rfl
      refine ⟨⟨hs, fun _ => ⟨settle_mode hok.symm, hm⟩⟩, ?_⟩
      rw [settle_cmuxTerm]
      exact (h.setupCmux line).2 hok.symm
    · rintro rfl
      rw [settle_cmuxTerm, setupCmux_cmuxTerm hok.symm, hn]
  rcases hm with rfl | rfl
  · by_cases hc : d.mode = .undef ∨ d.mode = .commandMode
    · exact setup (if_pos hc)
    · obtain ⟨rfl, rfl⟩ := Prod.mk.inj ((if_neg hc).symm.trans hd)
      exact ⟨by rintro ⟨⟩, fun _ => hn⟩
  · exact setup rfl

theorem Tidy.command (h : d.Tidy m) (hd : d.setMode .commandMode line = (ok, d')) :
    d'.Tidy m ∧ (m = .cmuxMode → d'.cmuxTerm = none) := by
  obtain rfl : d' = (d.setMode .commandMode line).2 := by rw [hd]
  have hs := h.toSound.setMode .commandMode line
  cases hn : d.cmuxTerm with
  | none =>
    have hf := setMode_free line hn (m := .commandMode) (by simp) (by simp)
    exact ⟨hs.tidy hf m, fun _ => hf⟩
  | some t =>
    obtain ⟨hd', rfl | rfl⟩ := h.shared (by simp [hn])
    · have he : (d.setMode .commandMode line).2.cmuxTerm = none := by
        simp [setMode, hd', settle_cmuxTerm, (h.exitCmux line).2.1]
      exact ⟨hs.tidy he _, fun _ => he⟩
    · refine ⟨?_, by rintro ⟨⟩⟩
      simpa [setMode, hd'] using h

theorem Tidy.exit (h : d.Tidy m) (hm : m = .undef ∨ m = .cmuxManualMode)
    (hd : d.setMode .cmuxManualExit line = (ok, d')) : d'.Tidy m ∧ d'.cmuxTerm = none := by
  obtain rfl : d' = (d.setMode .cmuxManualExit line).2 := by rw [hd]
  have hs := h.toSound.setMode .cmuxManualExit line
  have he : (d.setMode .cmuxManualExit line).2.cmuxTerm = none := by
    cases hn : d.cmuxTerm with
    | none => exact setMode_free line hn (by simp) (by simp)
    | some t =>
      obtain ⟨hd', hm'⟩ := h.shared (by simp [hn])
      have hmode : d.mode = .cmuxManualMode := by
        rcases hm with rfl | rfl
        · simp at hm'
        · exact hd'
      simp [setMode, hmode, settle_cmuxTerm, (h.exitCmux line).2.1]
  exact ⟨hs.tidy he _, he⟩

theorem Tidy.swap (h : d.Tidy m) (hm : m = .undef ∨ m = .cmuxManualMode)
    (hd : d.setMode .cmuxManualSwap line = (ok, d')) : d'.Tidy m := by
  obtain rfl : d' = (d.setMode .cmuxManualSwap line).2 := by rw [hd]
  have hs := h.toSound.setMode .cmuxManualSwap line
  cases hn : d.cmuxTerm with
  | none => exact hs.tidy (setMode_free line hn (by simp) (by simp)) m
  | some t =>
    obtain ⟨hd', hm'⟩ := h.shared (by simp [hn])
    rcases hm with rfl | rfl
    · simp at hm'
    · exact ⟨hs, fun _ => ⟨by simp [setMode, hd', Dte.swap], .inr rfl⟩⟩

end Dte

/-- The requests that force no mode on the DCE. -/
def ModeOp.Plain : ModeOp → Prop
  | .setMode m => m = .dataMode ∨ m = .commandMode ∨ m = .cmuxMode ∨ m = .cmuxManualMode ∨
      m = .cmuxManualExit ∨ m = .cmuxManualSwap ∨ m = .cmuxManualData ∨ m = .cmuxManualCommand ∨
      m = .dualMode
  | _ => True

/-- The multiplexer is there only where both modes say so, and PPP was only started where the
modem had just been dialled. -/
structure Dce.Tidy (w : Dce) : Prop extends w.Sound .first where
  tidy : w.dte.Tidy w.mode
  dialled : History.Always (fun pre a => ∀ t, a = .pppStart t → Dialled t pre) w.acts

theorem Moved.dialled (h : Moved d ppp w₀ w) (hw : w₀.Tidy) :
    History.Always (fun pre a => ∀ t, a = .pppStart t → Dialled t pre) w.acts := by
  obtain ⟨u, hu, ha⟩ := h.acts
  rw [ha, History.always_append]
  refine ⟨hw.dialled, History.always_of_forall fun pre a ha t => ?_⟩
  rintro rfl
  exact absurd rfl (hu _ ha t)

theorem Moved.tidy (h : Moved d ppp w₀ w) (hw : w₀.Tidy) (hd : d.Tidy w₀.mode) : w.Tidy :=
  ⟨h.sound hw.toSound hd.toSound, by rw [h.dte, h.mode]; exact hd, h.dialled hw⟩

theorem Dte.Sound.one (h : d.Sound .first) (hn : d.cmuxTerm = none) :
    d.primaryTerm = d.secondaryTerm := by
  cases h.layout with
  | plain _ _ hp hs => simp_all
  | mux t hm => simp [hn] at hm

theorem Dte.Tidy.toData_secondaryTerm (h : d.Tidy m) :
    d.toData.secondaryTerm = d.primaryTerm := by
  unfold Dte.toData
  split
  · rfl
  · rename_i hd
    refine (h.one ?_).symm
    by_contra hn
    obtain ⟨hd', hm⟩ := h.shared (Option.isSome_iff_ne_none.mpr hn)
    subst hd'
    tauto

theorem Entered.mode (h : Entered w₀ w) : w.mode = w₀.mode := by
  obtain ⟨w₁, w₂, ht, -, hm, -, hs⟩ := h.started
  rw [hs.mode, hm.mode, ht.mode]

theorem Stopped.mode (h : Stopped ok w₀ w) : w.mode = w₀.mode := by
  obtain ⟨d, hm, -⟩ := h
  exact hm.mode

theorem Entered.tidy (h : Entered w₀ w) (hw : w₀.Tidy) : w.Tidy := by
  obtain ⟨w₁, w₂, ht, hdial, hm, ha, hs⟩ := h.started
  have hw₁ := ht.tidy hw hw.tidy
  have hw₂ := hm.tidy hw₁ (ht.mode ▸ hw.tidy.toData)
  refine ⟨hs.sound hw₂.toSound, ?_, ?_⟩
  · rw [hs.dte, hs.mode]
    exact hw₂.tidy.setReadCb
  · rw [hs.acts]
    split
    · simpa using hw₂.dialled
    · refine History.always_append_singleton.mpr ⟨hw₂.dialled, ?_⟩
      rintro t ⟨⟩
      rw [hm.dte, hw.tidy.toData_secondaryTerm, ha]
      exact hdial

theorem Stopped.tidy (h : Stopped ok w₀ w) (hw : w₀.Tidy) : w.Tidy := by
  obtain ⟨d, hm, ⟨-, rfl⟩ | ⟨line, hd⟩⟩ := h
  · exact hm.tidy hw hw.tidy.hush
  · exact hm.tidy hw (hw.tidy.hush.command hd).1

theorem Dce.Tidy.with_mode (hw : w.Tidy) (hn : w.dte.cmuxTerm = none)
    (hm : m = .undef ∨ m = .commandMode ∨ m = .dataMode) : Dce.Tidy { w with mode := m } :=
  ⟨⟨hw.dte, by tauto⟩, hw.tidy.toSound.tidy hn m, hw.dialled⟩

theorem Dce.Tidy.free (hw : w.Tidy) (hm : w.mode ≠ .cmuxMode) (hm' : w.mode ≠ .cmuxManualMode) :
    w.dte.cmuxTerm = none := hw.tidy.free hm hm'

theorem Dce.Idle.ne (h : w.Idle) : w.mode ≠ .cmuxMode ∧ w.mode ≠ .cmuxManualMode := by
  rcases h with h | h | h <;> simp [h]

theorem Asked.opened (h : Asked m true ppp w₀ w) (hw : w₀.Tidy) (hi : w₀.Idle)
    (hm : m = .cmuxMode ∨ m = .cmuxManualMode) :
    Dce.Tidy { w with mode := m } ∧ w.dte.cmuxTerm.isSome := by
  obtain ⟨line, d, hd, hmv⟩ := h
  obtain ⟨ht, hs⟩ := (hw.tidy.toSound.open_tidy (hw.free hi.ne.1 hi.ne.2) hm hd).1 rfl
  rw [← hmv.dte] at ht hs
  exact ⟨⟨⟨ht.toSound, by tauto⟩, ht, hmv.dialled hw⟩, hs⟩

theorem Does.tidy (h : Does w₀ m ok w) (hm : (ModeOp.setMode m).Plain) (hw : w₀.Tidy) :
    w.Tidy := by
  cases h with
  | refused => exact hw
  | undef => simp [ModeOp.Plain] at hm
  | notDialled h => exact h.tidy hw hw.tidy
  | @dataMode w₁ _ hi h hw' =>
    subst hw'
    have hn := (h.tidy hw).free (h.mode ▸ hi.ne.1) (h.mode ▸ hi.ne.2)
    exact (h.tidy hw).with_mode hn (by simp)
  | close hc h hw' =>
    obtain ⟨line, d, hd, hmv⟩ := h
    obtain ⟨ht, hn⟩ := hw.tidy.command hd
    have hw₁ := hmv.tidy hw ht
    cases ok with
    | false => exact hw' ▸ hw₁
    | true => exact hw' ▸ hw₁.with_mode (hmv.dte ▸ hn hc) (by simp)
  | commandMode hc hi h hw' =>
    subst hw'
    have hm' : w₀.mode ≠ .cmuxManualMode := by
      intro h
      simp [h, ModemMode.isManual] at hi
    have hn := (h.tidy hw).free (h.mode ▸ hc) (h.mode ▸ hm')
    exact (h.tidy hw).with_mode hn (by cases ok <;> simp)
  | notOpened hi h hm' =>
    obtain ⟨line, d, hd, hmv⟩ := h
    have hd' := hw.tidy.toSound.setMode m line
    rw [hd] at hd'
    have hn := (hw.tidy.toSound.open_tidy (hw.free hi.ne.1 hi.ne.2) hm' hd).2 rfl
    exact hmv.tidy hw (hd'.tidy hn _)
  | cmuxMode hi h hw' ht hf =>
    have hw₂ := (h.opened hw hi (.inl rfl)).1
    rw [← hw'] at hw₂
    cases ok with
    | false => exact (hf rfl).tidy hw₂ hw₂.tidy
    | true => exact (ht rfl).tidy hw₂
  | cmuxManualMode hi h hw' => exact hw' ▸ (h.opened hw hi (.inr rfl)).1
  | cmuxManualExit hb h hw' =>
    obtain ⟨line, d, hd, hmv⟩ := h
    obtain ⟨ht, hn⟩ := hw.tidy.exit hb hd
    have hw₁ := hmv.tidy hw ht
    cases ok with
    | false => exact hw' ▸ hw₁
    | true => exact hw' ▸ hw₁.with_mode (hmv.dte ▸ hn) (by simp)
  | cmuxManualSwap hb h =>
    obtain ⟨line, d, hd, hmv⟩ := h
    exact hmv.tidy hw (hw.tidy.swap hb hd)
  | cmuxManualData hb h => exact h.tidy hw
  | cmuxManualCommand hb h => exact h.tidy hw
  | resumeDataMode | resumeCommandMode | resumeCmuxManualMode | resumeCmuxManualData | notResumed =>
    simp [ModeOp.Plain] at hm

theorem setMode_eq_setPlain (hm : (ModeOp.setMode m).Plain) : setMode m = setPlain m := by
  refine if_neg ?_
  rintro rfl
  simp [ModeOp.Plain] at hm

theorem setMode_does (hm : (ModeOp.setMode m).Plain) (w : Dce) :
    Does w m ((setMode m).run w).1 ((setMode m).run w).2 := by
  rw [setMode_eq_setPlain hm]
  exact StateTriple.run_relation (setPlain_spec m) w

theorem Dce.Tidy.apply {op : ModeOp} (hw : w₀.Tidy) (hp : op.Plain) (h : w₀.apply op = some w) :
    w.Tidy := by
  cases op with
  | setMode m =>
    obtain rfl := Option.some.inj h
    exact (setMode_does hp w₀).tidy hp hw
  | pauseNetif doPause force =>
    obtain rfl := Option.some.inj h
    rcases StateTriple.run_relation (pauseNetif_spec doPause force) w₀ with hm | hm | hm
    · exact hm.tidy hw (hw.tidy.setReadCb (f := none))
    · exact hm.tidy hw hw.tidy
    · exact hm.tidy hw hw.tidy.setReadCb
  | error =>
    obtain ⟨-, -, rfl⟩ := Option.map_eq_some_iff.mp h
    exact hw

theorem Dce.Tidy.boot (answers : ℕ → Answer) : (boot .single answers).Tidy :=
  ⟨.boot_single answers, Dte.Sound.single.tidy rfl _, History.always_nil⟩

/-- In a run that forces no mode, a multiplexer is there exactly where the DTE's mode is one of
its modes, which is then the mode of the DCE too, and PPP is started only on a terminal on which
the modem has just been dialled. -/
theorem Dce.plain_run (answers : ℕ → Answer) (ops : List ModeOp) (hops : ∀ op ∈ ops, op.Plain) :
    ∃ w, (Dce.boot .single answers).run ops = some w ∧
      (w.dte.cmuxTerm.isSome ↔ w.dte.mode = .cmuxMode ∨ w.dte.mode = .cmuxManualMode) ∧
      (w.dte.cmuxTerm.isSome → w.mode = w.dte.mode) ∧
      ∀ pre t post, w.acts = pre ++ .pppStart t :: post → Dialled t pre := by
  obtain ⟨w, h, hs⟩ := (Dce.Sound.boot_single answers).exists_run ops
  have hw := Dce.run_keeps (fun op w w' hp hw h => Dce.Tidy.apply hw hp h) hops (.boot answers) h
  refine ⟨w, h, ⟨fun hm => ?_, hs.dte.mux⟩, fun hm => (hw.tidy.shared hm).1.symm, ?_⟩
  · obtain ⟨hd, hm⟩ := hw.tidy.shared hm
    rwa [hd]
  · intro pre t post ha
    exact hw.dialled pre _ post ha t rfl

theorem Dce.plain_run_byHand :
    ∃ w, (Dce.boot .single fun _ => ⟨.ok, true, true, .undef⟩).run [.setMode .cmuxManualMode,
        .setMode .cmuxManualData, .error, .setMode .cmuxManualExit] = some w ∧
      (w.dte.cmuxTerm.isSome ↔ w.dte.mode = .cmuxMode ∨ w.dte.mode = .cmuxManualMode) ∧
      (w.dte.cmuxTerm.isSome → w.mode = w.dte.mode) ∧
      ∀ pre t post, w.acts = pre ++ .pppStart t :: post → Dialled t pre :=
  Dce.plain_run _ _ (by simp [ModeOp.Plain])

/-- The requests of the documented state machine, and errors. -/
def ModeOp.Documented : ModeOp → Prop
  | .setMode m => m = .dataMode ∨ m = .commandMode ∨ m = .cmuxMode
  | .pauseNetif _ _ => False
  | .error => True

/-- What is received on the secondary terminal goes to PPP. -/
def Dte.Online (d : Dte) : Prop :=
  d.readCb d.secondaryTerm = some .data ∧ d.onData = some .netif

/-- What the mode of the DCE promises. -/
def Dce.Honest (w : Dce) : Prop :=
  match w.mode with
  | .undef => w.pppStarted = false
  | .commandMode => w.pppStarted = false ∧ w.dte.Attentive
  | .dataMode => w.pppStarted = true ∧ w.dte.Online
  | .cmuxMode => w.dte.Attentive ∧ (w.pppStarted = true → w.dte.cmuxTerm.isSome ∧ w.dte.Online)
  | _ => False

theorem ModeOp.Documented.plain {op : ModeOp} (h : op.Documented) : op.Plain := by
  cases op with
  | setMode m => simp only [ModeOp.Documented] at h; simp only [ModeOp.Plain]; tauto
  | pauseNetif | error => trivial

theorem Dte.online_setReadCb : (d.setReadCb (some .netif)).Online := by
  simp [Dte.Online, Dte.setReadCb]

theorem Moved.honest (h : Talked w₀ w) (hw : w₀.Honest) : w.Honest := by
  simpa only [Dce.Honest, h.mode, h.pppStarted, h.dte] using hw

theorem Entered.online (h : Entered w₀ w) : w.pppStarted = true ∧ w.dte.Online := by
  obtain ⟨w₁, w₂, -, -, -, -, hs⟩ := h.started
  exact ⟨hs.pppStarted, hs.dte ▸ Dte.online_setReadCb⟩

theorem Entered.cmuxTerm (h : Entered w₀ w) : w.dte.cmuxTerm = w₀.dte.cmuxTerm := by
  obtain ⟨w₁, w₂, -, -, hm, -, hs⟩ := h.started
  rw [hs.dte, Dte.setReadCb_cmuxTerm, hm.dte, Dte.toData_cmuxTerm]

theorem Stopped.attentive (h : Stopped ok w₀ w) : w.pppStarted = false ∧ w.dte.Attentive := by
  obtain ⟨d, hm, hd⟩ := h
  have hush : w₀.dte.hush.Attentive := Dte.attentive_setCommandCallbacks
  rcases hd with ⟨-, rfl⟩ | ⟨line, hd⟩
  · exact ⟨hm.pppStarted, hm.dte ▸ hush⟩
  · have ha := hush.setMode .commandMode line
    rw [hd] at ha
    exact ⟨hm.pppStarted, hm.dte ▸ ha⟩

theorem Asked.attentive (h : Asked m ok ppp w₀ w) (hw : w₀.dte.Attentive) : w.dte.Attentive := by
  obtain ⟨line, d, hd, hm⟩ := h
  have ha := hw.setMode m line
  rw [hd] at ha
  exact hm.dte ▸ ha

theorem Asked.pppStarted (h : Asked m ok ppp w₀ w) : w.pppStarted = ppp ∧ w.mode = w₀.mode := by
  obtain ⟨line, d, -, hm⟩ := h
  exact ⟨hm.pppStarted, hm.mode⟩

theorem Dce.Honest.idle (h : w.Honest) (hi : w.Idle) :
    w.pppStarted = false ∧ (w.mode = .undef ∨ w.mode = .commandMode ∧ w.dte.Attentive) := by
  rcases hi with hi | hi | hi <;> simp_all [Dce.Honest]

theorem Does.honest (h : Does w₀ m ok w) (hm : (ModeOp.setMode m).Documented) (hw : w₀.Tidy)
    (hh : w₀.Honest) : w.Honest := by
  cases h with
  | refused => exact hh
  | notDialled h => exact h.honest hh
  | dataMode hi h hw' => exact hw' ▸ h.online
  | close hc h hw' =>
    simp only [Dce.Honest, hc] at hh
    have ha := h.attentive hh.1
    cases ok with
    | false =>
      subst hw'
      simp only [Dce.Honest, h.pppStarted.2, hc]
      exact ⟨ha, by simp [h.pppStarted.1]⟩
    | true => exact hw' ▸ ⟨h.pppStarted.1, ha⟩
  | commandMode hc hi h hw' =>
    subst hw'
    cases ok with
    | false => exact h.attentive.1
    | true => exact h.attentive
  | notOpened hi h =>
    obtain ⟨hp, hm | ⟨hm, ha⟩⟩ := hh.idle hi
    · simp only [Dce.Honest, h.pppStarted.2, hm]
      exact h.pppStarted.1.trans hp
    · simp only [Dce.Honest, h.pppStarted.2, hm]
      exact ⟨h.pppStarted.1.trans hp, h.attentive ha⟩
  | @cmuxMode _ w₁ w₂ _ hi h hw' ht hf =>
    obtain ⟨hw₂, hs⟩ := h.opened hw hi (.inl rfl)
    have ha : w₁.dte.Attentive := hw₂.dte.attentive (hw₂.dte.ne_of_mux hs)
    subst hw'
    cases ok with
    | false =>
      refine (hf rfl).honest ⟨ha, fun hp => ?_⟩
      rw [h.pppStarted.1, (hh.idle hi).1] at hp
      cases hp
    | true =>
      have he := ht rfl
      have hs' : w.dte.cmuxTerm.isSome := he.cmuxTerm ▸ hs
      have hw := he.tidy hw₂
      simp only [Dce.Honest, he.mode]
      exact ⟨hw.dte.attentive (hw.dte.ne_of_mux hs'), fun _ => ⟨hs', he.online.2⟩⟩
  | _ => simp [ModeOp.Documented] at hm

/-- In a run of the documented requests the mode of the DCE is true, but for a multiplexer that
is gone after it could not be closed: then the mode is still `CMUX_MODE`, and PPP is stopped. -/
theorem Dce.documented_run (answers : ℕ → Answer) (ops : List ModeOp)
    (hops : ∀ op ∈ ops, op.Documented) :
    ∃ w, (Dce.boot .single answers).run ops = some w ∧ w.Honest ∧
      (w.mode ≠ .cmuxMode → w.dte.cmuxTerm = none) := by
  obtain ⟨w, h, -⟩ := (Dce.Sound.boot_single answers).exists_run ops
  have hw : w.Tidy ∧ w.Honest := by
    refine Dce.run_keeps (I := fun w => w.Tidy ∧ w.Honest) (fun op w w' hp hw h => ?_) hops
      ⟨.boot answers, rfl⟩ h
    refine ⟨hw.1.apply hp.plain h, ?_⟩
    cases op with
    | setMode m =>
      obtain rfl := Option.some.inj h
      exact (setMode_does hp.plain w).honest hp hw.1 hw.2
    | pauseNetif => exact hp.elim
    | error =>
      obtain ⟨-, -, rfl⟩ := Option.map_eq_some_iff.mp h
      exact hw.2
  refine ⟨w, h, hw.2, fun hm => hw.1.free hm fun hm' => ?_⟩
  simpa [Dce.Honest, hm'] using hw.2

theorem Dce.documented_run_data :
    ∃ w, (Dce.boot .single fun _ => ⟨.ok, true, true, .undef⟩).run
        [.setMode .dataMode, .setMode .commandMode] = some w ∧
      w.Honest ∧ (w.mode ≠ .cmuxMode → w.dte.cmuxTerm = none) :=
  Dce.documented_run _ _ (by simp [ModeOp.Documented])

end Modes

end EspLtePpp
