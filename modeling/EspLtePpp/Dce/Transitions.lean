import Mathlib
import EspLtePpp.Dce.Modes
import EspLtePpp.Dte.Sound

/-! # What the transitions do

Whatever the answers are, a request changes the terminals, the modes and PPP in a few
ways only. What entering and leaving data mode can do is said once here, as triples.
-/

set_option mvcgen.warning false

namespace EspLtePpp

namespace Modes

open Std.Do

def Act.Mute (a : Act) : Prop := ∀ t, a ≠ .pppStart t

/-- The terminals have become `d`, whether PPP runs `ppp`, and PPP was not started. -/
structure Moved (d : Dte) (ppp : Bool) (w₀ w : Dce) : Prop where
  dte : w.dte = d
  pppStarted : w.pppStarted = ppp
  mode : w.mode = w₀.mode
  acts : ∃ u, (∀ a ∈ u, a.Mute) ∧ w.acts = w₀.acts ++ u

abbrev Talked (w₀ w : Dce) : Prop := Moved w₀.dte w₀.pppStarted w₀ w

variable {w₀ w₁ w₂ w : Dce} {d d' : Dte} {ppp ppp' : Bool}

theorem Moved.refl (w : Dce) : Talked w w := ⟨rfl, rfl, rfl, [], by simp, by simp⟩

theorem Moved.trans (h : Moved d ppp w₀ w₁) (h' : Moved d' ppp' w₁ w) : Moved d' ppp' w₀ w := by
  obtain ⟨u, hu, hacts⟩ := h.acts
  obtain ⟨v, hv, hacts'⟩ := h'.acts
  refine ⟨h'.dte, h'.pppStarted, h'.mode.trans h.mode, u ++ v, ?_, ?_⟩
  · intro a ha
    rcases List.mem_append.mp ha with ha | ha
    · exact hu a ha
    · exact hv a ha
  · rw [hacts', hacts, List.append_assoc]

theorem Moved.talked (h : Moved d ppp w₀ w₁) (h' : Talked w₁ w) : Moved d ppp w₀ w := by
  have ht := h.trans h'
  rwa [h.dte, h.pppStarted] at ht

theorem moved_act {a : Act} (ha : a.Mute) : Talked w { w with acts := w.acts ++ [a] } :=
  ⟨rfl, rfl, rfl, [a], by simpa using ha, rfl⟩

theorem moved_dte : Moved d w.pppStarted w { w with dte := d } :=
  ⟨rfl, rfl, rfl, [], by simp, by simp⟩

/-- A modem on `t` has said last that it switches to data mode. -/
def Dialled (t : Terminal) (acts : List Act) : Prop :=
  ∃ c, (c = .setDataMode ∨ c = .resumeDataMode) ∧ ∃ u, acts = u ++ [.command t c .ok]

structure Started (w₀ w : Dce) : Prop where
  dte : w.dte = w₀.dte.setReadCb (some .netif)
  pppStarted : w.pppStarted = true
  mode : w.mode = w₀.mode
  acts : w.acts = w₀.acts ++ if w₀.pppStarted then [] else [.pppStart w₀.dte.secondaryTerm]

namespace Dte

def toData (d : Dte) : Dte :=
  if d.mode = .cmuxMode ∨ d.mode = .cmuxManualMode ∨ d.mode = .dualMode then d.swap
  else { d with mode := .dataMode }

theorem setMode_dataMode (d : Dte) (line : Bool) : d.setMode .dataMode line = (true, d.toData) := by
  simp only [setMode, toData]
  split <;> rfl

def hush (d : Dte) : Dte := (d.setReadCb (some .farewell)).setReadCb none

theorem hush_setReadCb (d : Dte) : d.hush.setReadCb none = d.hush := setCommandCallbacks_idem

end Dte

/-- The modem has answered a dial on the primary terminal, and then PPP was started. -/
structure Entered (w₀ w : Dce) : Prop where
  heard : w₀.dte.readCb w₀.dte.primaryTerm = some .command
  started : ∃ w₁ w₂, Talked w₀ w₁ ∧ Dialled w₀.dte.primaryTerm w₁.acts ∧
    Moved w₀.dte.toData w₀.pppStarted w₁ w₂ ∧ w₂.acts = w₁.acts ∧ Started w₂ w

/-- PPP is stopped, and the DTE listens for commands or has gone on to command mode. -/
def Stopped (ok : Bool) (w₀ w : Dce) : Prop :=
  ∃ d, Moved d false w₀ w ∧
    (ok = false ∧ d = w₀.dte.hush ∨ ∃ line, w₀.dte.hush.setMode .commandMode line = (ok, d))

@[spec]
theorem act_spec (w₀ : Dce) (a : Act) :
    ⦃fun w => ⌜w = w₀⌝⦄ act a
    ⦃⇓ _ w => ⌜w = { w₀ with acts := w₀.acts ++ [a] } ∧ (a.Mute → Talked w₀ w)⌝⦄ := by
  mvcgen [act]
  rename_i hw _
  subst hw
  exact ⟨rfl, moved_act⟩

@[spec]
theorem onDte_spec (w₀ : Dce) (f : Dte → Dte) :
    ⦃fun w => ⌜w = w₀⌝⦄ onDte f ⦃⇓ _ w => ⌜Moved (f w₀.dte) w₀.pppStarted w₀ w⌝⦄ := by
  mvcgen [onDte]
  rename_i hw _
  subst hw
  exact moved_dte

theorem ask_answer (w₀ : Dce) :
    ⦃fun w => ⌜w = w₀⌝⦄ ask
    ⦃⇓ a w => ⌜a = w₀.answers w₀.asked ∧ w = { w₀ with asked := w₀.asked + 1 }⌝⦄ := by
  mvcgen [ask]
  simp_all

@[spec]
theorem command_spec (w₀ : Dce) (c : DeviceCommand) :
    ⦃fun w => ⌜w = w₀⌝⦄ command c
    ⦃⇓ r w => ⌜Talked w₀ w ∧ w.acts = w₀.acts ++ [.command w₀.dte.primaryTerm c r] ∧
      (r = .ok → w₀.dte.readCb w₀.dte.primaryTerm = some .command)⌝⦄ := by
  mvcgen [command, ask_answer]
  rename_i hw _ _ ha t r _ _ hact
  obtain ⟨-, rfl⟩ := ha
  obtain ⟨rfl, -⟩ := hact
  subst hw
  refine ⟨⟨rfl, rfl, rfl, [.command t c r], by simp [Act.Mute], rfl⟩, rfl, ?_⟩
  intro hr
  by_contra h
  simp [r, t, h] at hr

@[spec]
theorem dteSetMode_spec (w₀ : Dce) (m : ModemMode) :
    ⦃fun w => ⌜w = w₀⌝⦄ dteSetMode m
    ⦃⇓ r w => ⌜∃ line d, w₀.dte.setMode m line = (r, d) ∧ Moved d w₀.pppStarted w₀ w ∧
      w.acts = w₀.acts⌝⦄ := by
  mvcgen [dteSetMode, ask_answer]
  rename_i _ hw a _ ha
  obtain ⟨-, rfl⟩ := ha
  subst hw
  exact ⟨a.line, _, rfl, ⟨rfl, rfl, rfl, [], by simp, by simp⟩, rfl⟩

@[spec]
theorem ask_spec (w₀ : Dce) : ⦃fun w => ⌜w = w₀⌝⦄ ask ⦃⇓ _ w => ⌜Talked w₀ w⌝⦄ := by
  mvcgen [ask]
  rename_i hw
  subst hw
  exact ⟨rfl, rfl, rfl, [], by simp, by simp⟩

@[spec]
theorem setupDataMode_spec (w₀ : Dce) :
    ⦃fun w => ⌜w = w₀⌝⦄ setupDataMode ⦃⇓ _ w => ⌜Talked w₀ w⌝⦄ := by
  mvcgen [setupDataMode]
  all_goals grind [Moved.talked]

theorem escape_spec (n : ℕ) (w₀ : Dce) :
    ⦃fun w => ⌜Talked w₀ w⌝⦄ escape n ⦃⇓ _ w => ⌜Talked w₀ w⌝⦄ := by
  induction n with
  | zero => mvcgen [escape]
  | succ n ih =>
    mvcgen [escape, ih]
    all_goals grind [Moved.talked, Act.Mute]

theorem deviceSetMode_data (w₀ : Dce) :
    ⦃fun w => ⌜w = w₀⌝⦄ deviceSetMode .dataMode
    ⦃⇓ r w => ⌜Talked w₀ w ∧ (r = true → Dialled w₀.dte.primaryTerm w.acts ∧
      w₀.dte.readCb w₀.dte.primaryTerm = some .command)⌝⦄ := by
  mvcgen [deviceSetMode]
  all_goals grind [Moved.talked, Moved.dte, Dialled]

theorem deviceSetMode_command (w₀ : Dce) :
    ⦃fun w => ⌜w = w₀⌝⦄ deviceSetMode .commandMode ⦃⇓ _ w => ⌜Talked w₀ w⌝⦄ := by
  mvcgen [deviceSetMode, escape_spec]
  all_goals grind [Moved.refl]

theorem deviceSetMode_cmux (w₀ : Dce) :
    ⦃fun w => ⌜w = w₀⌝⦄ deviceSetMode .cmuxMode ⦃⇓ _ w => ⌜Talked w₀ w⌝⦄ := by
  mvcgen [deviceSetMode]
  all_goals grind

@[spec]
theorem netifStart_spec (w₀ : Dce) :
    ⦃fun w => ⌜w = w₀⌝⦄ Netif.start ⦃⇓ _ w => ⌜Started w₀ w⌝⦄ := by
  mvcgen [Netif.start, -onDte_spec, onDte]
  · rename_i hw t h _ _
    subst hw
    rintro rfl -
    exact ⟨rfl, rfl, rfl, by simp_all [t]; rfl⟩
  · rename_i hw t h
    subst hw
    exact ⟨rfl, by simpa [t] using h, rfl, by simp_all [t]⟩

@[spec]
theorem netifStop_spec (w₀ : Dce) :
    ⦃fun w => ⌜w = w₀⌝⦄ Netif.stop ⦃⇓ _ w => ⌜Moved w₀.dte false w₀ w⌝⦄ := by
  mvcgen [Netif.stop]
  rename_i hw _ _ ha _
  obtain ⟨rfl, -⟩ := ha
  subst hw
  exact ⟨rfl, rfl, rfl, [.pppStop], by simp [Act.Mute], rfl⟩

@[spec]
theorem enterData_spec (w₀ : Dce) :
    ⦃fun w => ⌜w = w₀⌝⦄ enterData
    ⦃⇓ r w => ⌜(r = true → Entered w₀ w) ∧ (r = false → Talked w₀ w)⌝⦄ := by
  mvcgen [enterData, deviceSetMode_data]
  · grind
  · grind [Moved.talked]
  · grind [Dte.setMode_dataMode]
  · rename_i s hw _ hr _ h₁ _ hr' w₁ h₂ _ _ w₂ h₃ _ w h₄
    subst hw
    obtain ⟨line, d, hd, hm, ha⟩ := h₃
    obtain ⟨h₂, hdial⟩ := h₂
    obtain ⟨hdial, heard⟩ := hdial (by simpa using hr')
    rw [h₁.dte] at hdial heard
    have hd' : d = s.dte.toData := by
      rw [h₂.dte, h₁.dte, Dte.setMode_dataMode] at hd
      exact (Prod.mk.inj hd).2.symm
    subst hd'
    rw [h₂.pppStarted, h₁.pppStarted] at hm
    exact ⟨⟨heard, w₁, w₂, h₁.talked h₂, hdial, hm, ha, h₄⟩, by rintro ⟨⟩⟩

theorem Moved.hushed {w₃ w₄ : Dce} (h₁ : Moved (w₀.dte.setReadCb (some .farewell)) ppp w₀ w₁)
    (h₂ : Moved w₁.dte false w₁ w₂) (h₃ : Talked w₂ w₃)
    (h₄ : Moved (w₃.dte.setReadCb none) w₃.pppStarted w₃ w₄) : Moved w₀.dte.hush false w₀ w₄ := by
  rw [h₃.dte, h₂.dte, h₁.dte, h₃.pppStarted, h₂.pppStarted] at h₄
  exact ((h₁.trans h₂).trans h₃).trans h₄

theorem Moved.hushed_again (h : Moved w₀.dte.hush false w₀ w₁)
    (h' : Moved (w₁.dte.setReadCb none) w₁.pppStarted w₁ w) : Moved w₀.dte.hush false w₀ w := by
  rw [h.dte, h.pppStarted, Dte.hush_setReadCb] at h'
  exact h.trans h'

theorem Moved.stopped {ok : Bool} (h : Moved w₀.dte.hush false w₀ w₁)
    (h' : ∃ line d, w₁.dte.setMode .commandMode line = (ok, d) ∧ Moved d w₁.pppStarted w₁ w ∧
      w.acts = w₁.acts) : Stopped ok w₀ w := by
  obtain ⟨line, d, hd, hm, -⟩ := h'
  rw [h.dte] at hd
  rw [h.pppStarted] at hm
  exact ⟨d, h.trans hm, .inr ⟨line, hd⟩⟩

@[spec]
theorem exitData_spec (w₀ : Dce) :
    ⦃fun w => ⌜w = w₀⌝⦄ exitData ⦃⇓ r w => ⌜Stopped r w₀ w⌝⦄ := by
  mvcgen [exitData, deviceSetMode_command]
  · rename_i hw _ _ h₁ _ _ h₂ _ _ _ _ h₃ _ _ h₄ _ _ _ h₅
    subst hw
    exact ⟨_, (h₁.hushed h₂ h₃ h₄).talked h₅, .inl ⟨rfl, rfl⟩⟩
  · rename_i hw _ _ h₁ _ _ h₂ _ _ _ _ h₃ _ _ h₄ _ _ _ h₅ _ _ h₆ _ hr _ h₇
    subst hw
    rw [Bool.not_eq_true'] at hr
    exact (((h₁.hushed h₂ h₃ h₄).talked h₅).hushed_again h₆).stopped (hr ▸ h₇)
  · rename_i hw _ _ h₁ _ _ h₂ _ _ _ _ h₃ _ _ h₄ _ _ _ h₅ _ _ h₆ _ hr _ h₇
    subst hw
    rw [Bool.not_eq_true', Bool.not_eq_false] at hr
    exact (((h₁.hushed h₂ h₃ h₄).talked h₅).hushed_again h₆).stopped (hr ▸ h₇)
  · rename_i hw _ _ h₁ _ _ h₂ _ _ _ _ h₃ _ _ h₄ _ hr _ h₅
    subst hw
    rw [Bool.not_eq_true'] at hr
    exact (h₁.hushed h₂ h₃ h₄).stopped (hr ▸ h₅)
  · rename_i hw _ _ h₁ _ _ h₂ _ _ _ _ h₃ _ _ h₄ _ hr _ h₅
    subst hw
    rw [Bool.not_eq_true', Bool.not_eq_false] at hr
    exact (h₁.hushed h₂ h₃ h₄).stopped (hr ▸ h₅)

@[spec]
theorem guessUnsafe_spec (withCmux : Bool) (w₀ : Dce) :
    ⦃fun w => ⌜w = w₀⌝⦄ guessUnsafe withCmux
    ⦃⇓ _ w => ⌜Moved w₀.dte.setCommandCallbacks w₀.pppStarted w₀ w⌝⦄ := by
  mvcgen [guessUnsafe]
  rename_i hw _ _ _ h₁ _ _ h₂ _ _ h₃
  subst hw
  have h₁₂ := h₁.talked (h₂.2 (by simp [Act.Mute]))
  rw [h₁₂.dte, h₁₂.pppStarted, Dte.attach_setCommandCallbacks] at h₃
  exact h₁₂.trans h₃

@[spec]
theorem setDceMode_spec (w₀ : Dce) (m : ModemMode) :
    ⦃fun w => ⌜w = w₀⌝⦄ setDceMode m ⦃⇓ _ w => ⌜w = { w₀ with mode := m }⌝⦄ := by
  mvcgen [setDceMode]
  rename_i hw _
  exact congrArg (fun w : Dce => { w with mode := m }) hw

theorem moved_pppStarted : Moved w.dte ppp w { w with pppStarted := ppp } :=
  ⟨rfl, rfl, rfl, [], by simp, by simp⟩

@[spec]
theorem netifPause_spec (w₀ : Dce) :
    ⦃fun w => ⌜w = w₀⌝⦄ Netif.pause ⦃⇓ _ w => ⌜Moved w₀.dte false w₀ w⌝⦄ := by
  mvcgen [Netif.pause]
  rename_i hw _
  subst hw
  exact moved_pppStarted

@[spec]
theorem netifResume_spec (w₀ : Dce) :
    ⦃fun w => ⌜w = w₀⌝⦄ Netif.resume
    ⦃⇓ _ w => ⌜Moved (w₀.dte.setReadCb (some .netif)) true w₀ w⌝⦄ := by
  mvcgen [Netif.resume]
  rename_i hw _ _ h _
  subst hw
  rw [← h.dte]
  exact h.trans moved_pppStarted

@[spec]
theorem pauseNetif_spec (doPause force : Bool) (w₀ : Dce) :
    ⦃fun w => ⌜w = w₀⌝⦄ pauseNetif doPause force
    ⦃⇓ _ w => ⌜Moved w₀.dte.setCommandCallbacks false w₀ w ∨ Talked w₀ w ∨
      Moved (w₀.dte.setReadCb (some .netif)) true w₀ w⌝⦄ := by
  mvcgen [pauseNetif]
  all_goals grind [Moved.trans, Moved.talked, Moved.dte, Moved.pppStarted]

end Modes

end EspLtePpp
