import EspLtePpp.Dce.Transitions
import EspLtePpp.Library.StateTriple

/-! # What holds in every run of mode switches

Whatever is asked in whatever order, and whatever the modem answers, the terminals stay
as `Dte.Sound` says.
-/

set_option mvcgen.warning false

namespace EspLtePpp

namespace Modes

open Std.Do

variable {u : Terminal} {w w₀ w₁ : Dce} {d : Dte} {m : ModemMode} {ppp ok : Bool}

theorem Dte.Sound.toData (h : d.Sound u) : d.toData.Sound u := by
  have hs := h.setMode .dataMode true
  rwa [Dte.setMode_dataMode] at hs

theorem Dte.Sound.hush (h : d.Sound u) : d.hush.Sound u := h.setReadCb.setReadCb

/-- The terminals are sound, and the DCE is in one of its five modes. -/
structure Dce.Sound (u : Terminal) (w : Dce) : Prop where
  dte : w.dte.Sound u
  mode : w.mode = .undef ∨ w.mode = .commandMode ∨ w.mode = .dataMode ∨ w.mode = .cmuxMode ∨
    w.mode = .cmuxManualMode

theorem Moved.sound (h : Moved d ppp w₀ w) (hs : w₀.Sound u) (hd : d.Sound u) : w.Sound u :=
  ⟨h.dte ▸ hd, h.mode ▸ hs.mode⟩

theorem Started.sound (h : Started w₀ w) (hs : w₀.Sound u) : w.Sound u :=
  ⟨h.dte ▸ hs.dte.setReadCb, h.mode ▸ hs.mode⟩

theorem Entered.sound (h : Entered w₀ w) (hs : w₀.Sound u) : w.Sound u := by
  obtain ⟨w₁, w₂, ht, -, hm, -, hw⟩ := h.started
  exact hw.sound (hm.sound (ht.sound hs hs.dte) hs.dte.toData)

theorem Stopped.sound (h : Stopped ok w₀ w) (hs : w₀.Sound u) : w.Sound u := by
  obtain ⟨d, hm, ⟨-, rfl⟩ | ⟨line, hd⟩⟩ := h
  · exact hm.sound hs hs.dte.hush
  · have hd' := hs.dte.hush.setMode .commandMode line
    rw [hd] at hd'
    exact hm.sound hs hd'

theorem dteSetMode_sound (m : ModemMode) :
    ⦃fun w => ⌜w.Sound u⌝⦄ dteSetMode m ⦃⇓ _ w => ⌜w.Sound u⌝⦄ := by
  refine StateTriple.of_relation (dteSetMode_spec · m) fun w₀ r w hs h => ?_
  obtain ⟨line, d, hd, hm, -⟩ := h
  have hd' := hs.dte.setMode m line
  rw [hd] at hd'
  exact hm.sound hs hd'

theorem enterData_sound : ⦃fun w => ⌜w.Sound u⌝⦄ enterData ⦃⇓ _ w => ⌜w.Sound u⌝⦄ := by
  refine StateTriple.of_relation enterData_spec fun w₀ r w hs h => ?_
  cases r with
  | false => exact (h.2 rfl).sound hs hs.dte
  | true => exact (h.1 rfl).sound hs

theorem exitData_sound : ⦃fun w => ⌜w.Sound u⌝⦄ exitData ⦃⇓ _ w => ⌜w.Sound u⌝⦄ :=
  StateTriple.of_relation exitData_spec fun _ _ _ hs h => h.sound hs

theorem guessUnsafe_sound (withCmux : Bool) :
    ⦃fun w => ⌜w.Sound u⌝⦄ guessUnsafe withCmux ⦃⇓ _ w => ⌜w.Sound u⌝⦄ :=
  StateTriple.of_relation (guessUnsafe_spec withCmux) fun _ _ _ hs h =>
    h.sound hs hs.dte.setCommandCallbacks

theorem netifStart_sound : ⦃fun w => ⌜w.Sound u⌝⦄ Netif.start ⦃⇓ _ w => ⌜w.Sound u⌝⦄ :=
  StateTriple.of_relation netifStart_spec fun _ _ _ hs h => h.sound hs

theorem netifStop_sound : ⦃fun w => ⌜w.Sound u⌝⦄ Netif.stop ⦃⇓ _ w => ⌜w.Sound u⌝⦄ :=
  StateTriple.of_relation netifStop_spec fun _ _ _ hs h => h.sound hs hs.dte

theorem deviceSetMode_sound :
    ⦃fun w => ⌜w.Sound u⌝⦄ deviceSetMode .cmuxMode ⦃⇓ _ w => ⌜w.Sound u⌝⦄ :=
  StateTriple.of_relation deviceSetMode_cmux fun _ _ _ hs h => h.sound hs hs.dte

theorem setDceMode_sound (hm : m = .undef ∨ m = .commandMode ∨ m = .dataMode ∨ m = .cmuxMode ∨
    m = .cmuxManualMode) :
    ⦃fun w => ⌜w.Sound u⌝⦄ setDceMode m ⦃⇓ _ w => ⌜w.Sound u⌝⦄ := by
  refine StateTriple.of_relation (setDceMode_spec · m) fun w₀ _ w hs h => ?_
  subst h
  exact ⟨hs.dte, hm⟩

theorem setPlain_sound (m : ModemMode) :
    ⦃fun w => ⌜w.Sound u⌝⦄ setPlain m ⦃⇓ _ w => ⌜w.Sound u⌝⦄ := by
  cases m <;>
    mvcgen [setPlain, dteSetMode_sound, enterData_sound, exitData_sound, netifStart_sound,
      netifStop_sound, deviceSetMode_sound, setDceMode_sound, -dteSetMode_spec, -enterData_spec,
      -exitData_spec, -netifStart_spec, -netifStop_spec, -setDceMode_spec]

theorem autodetect_sound : ⦃fun w => ⌜w.Sound u⌝⦄ autodetect ⦃⇓ _ w => ⌜w.Sound u⌝⦄ := by
  mvcgen [autodetect, guessUnsafe_sound, dteSetMode_sound, setDceMode_sound, setPlain_sound,
    -guessUnsafe_spec, -dteSetMode_spec, -setDceMode_spec]

theorem setMode_sound (m : ModemMode) :
    ⦃fun w => ⌜w.Sound u⌝⦄ setMode m ⦃⇓ _ w => ⌜w.Sound u⌝⦄ := by
  mvcgen [setMode, autodetect_sound, setPlain_sound]

theorem pauseNetif_sound (doPause force : Bool) :
    ⦃fun w => ⌜w.Sound u⌝⦄ pauseNetif doPause force ⦃⇓ _ w => ⌜w.Sound u⌝⦄ := by
  refine StateTriple.of_relation (pauseNetif_spec doPause force) fun w₀ _ w hs h => ?_
  rcases h with h | h | h
  · exact h.sound hs hs.dte.setCommandCallbacks
  · exact h.sound hs hs.dte
  · exact h.sound hs hs.dte.setReadCb

theorem Dte.Sound.recover_eq_none_iff (h : d.Sound u) : d.recover = none ↔ d.mode = .dualMode := by
  constructor
  · intro hr
    by_contra hd
    have hm := h.mux
    simp only [Dte.recover] at hr
    split at hr
    · simp_all
    · simp at hr
  · intro hd
    simp [Dte.recover, hd, (h.two hd).1]

theorem Dte.Sound.not_dualMode (h : d.Sound .first) : d.mode ≠ .dualMode := by
  intro hd
  obtain ⟨hm, hne⟩ := h.two hd
  cases h.layout with
  | plain _ _ hp hs => exact hne (by simp_all)
  | mux t hm' => simp [hm] at hm'

namespace Dce

variable {op : ModeOp} {ops pre post : List ModeOp}

theorem Sound.apply (hs : w.Sound u) (h : w.apply op = some w₁) : w₁.Sound u := by
  cases op with
  | setMode m =>
    obtain rfl := Option.some.inj h
    exact StateTriple.run (setMode_sound m) hs
  | pauseNetif doPause force =>
    obtain rfl := Option.some.inj h
    exact StateTriple.run (pauseNetif_sound doPause force) hs
  | error =>
    obtain ⟨-, -, rfl⟩ := Option.map_eq_some_iff.mp h
    exact hs

theorem Sound.apply_eq_none_iff (hs : w.Sound u) :
    w.apply op = none ↔ op = .error ∧ w.dte.mode = .dualMode := by
  cases op with
  | setMode m => simp [Dce.apply]
  | pauseNetif doPause force => simp [Dce.apply]
  | error => simp [Dce.apply, hs.dte.recover_eq_none_iff]

@[simp] theorem run_nil : w.run [] = some w := rfl

@[simp] theorem run_cons : w.run (op :: ops) = (w.apply op).bind fun w => w.run ops := rfl

theorem run_append : w.run (pre ++ post) = (w.run pre).bind fun w => w.run post := by
  induction pre generalizing w with
  | nil => simp
  | cons op pre ih => simp [ih, Option.bind_assoc]

theorem run_keeps {I : Dce → Prop} {Ok : ModeOp → Prop}
    (step : ∀ op w w', Ok op → I w → w.apply op = some w' → I w') (hops : ∀ op ∈ ops, Ok op)
    (hw : I w₀) (h : w₀.run ops = some w) : I w := by
  induction ops generalizing w₀ with
  | nil => exact Option.some.inj h ▸ hw
  | cons op ops ih =>
    obtain ⟨w₂, h₂, h⟩ := Option.bind_eq_some_iff.mp h
    obtain ⟨hop, hops⟩ := List.forall_mem_cons.mp hops
    exact ih hops (step op w₀ w₂ hop hw h₂) h

theorem Sound.run (hs : w.Sound u) (h : w.run ops = some w₁) : w₁.Sound u :=
  run_keeps (fun _ _ _ (_ : True) hs h => hs.apply h) (by simp) hs h

/-- A run is cut short where an error is reported in the mode of two terminals. -/
theorem Sound.run_eq_none_iff (hs : w.Sound u) :
    w.run ops = none ↔ ∃ pre post w₁, ops = pre ++ .error :: post ∧ w.run pre = some w₁ ∧
      w₁.dte.mode = .dualMode := by
  induction ops generalizing w with
  | nil => simp
  | cons op ops ih =>
    rw [run_cons]
    constructor
    · intro h
      cases ha : w.apply op with
      | none =>
        obtain ⟨rfl, hd⟩ := hs.apply_eq_none_iff.mp ha
        exact ⟨[], ops, w, rfl, rfl, hd⟩
      | some w₁ =>
        rw [ha, Option.bind_some] at h
        obtain ⟨pre, post, w₂, rfl, hr, hd⟩ := (ih (hs.apply ha)).mp h
        exact ⟨op :: pre, post, w₂, rfl, by simp [ha, hr], hd⟩
    · rintro ⟨pre, post, w₁, h, hr, hd⟩
      rw [← run_cons, h, run_append, hr, Option.bind_some, run_cons,
        ((hs.run hr).apply_eq_none_iff).mpr ⟨rfl, hd⟩, Option.bind_none]

theorem Sound.exists_run (h : w.Sound .first) (ops : List ModeOp) :
    ∃ w', w.run ops = some w' ∧ w'.Sound .first := by
  cases hr : w.run ops with
  | some w' => exact ⟨w', rfl, h.run hr⟩
  | none =>
    obtain ⟨pre, post, w', -, hr', hd⟩ := h.run_eq_none_iff.mp hr
    exact absurd hd (h.run hr').dte.not_dualMode

theorem Sound.boot_single (answers : ℕ → Answer) : (boot .single answers).Sound .first :=
  ⟨.single, .inl rfl⟩

end Dce

end Modes

end EspLtePpp
