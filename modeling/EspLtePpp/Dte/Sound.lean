import EspLtePpp.Dte.Terminals

/-! # The layouts of the terminals

A multiplexer holds the buffer and one of the terminals the DTE was built with, and
its two instances are the primary and the secondary terminal in some order. Without
one, the buffer is here and the terminals are those given. `Sound` adds what each mode
promises and who listens to the primary terminal; every function of the DTE keeps it.
-/

namespace EspLtePpp

namespace Modes

namespace Dte

/-- What can be the terminals when the DTE was built with `.first` and `u`. -/
inductive Layout (u : Terminal) (d : Dte) : Prop
  | plain (hm : d.cmuxTerm = none) (hb : d.buffer = true)
      (hp : d.primaryTerm = .first ∨ d.primaryTerm = u)
      (hs : d.secondaryTerm = .first ∨ d.secondaryTerm = u)
  | mux (t : Terminal) (hm : d.cmuxTerm = some t) (hb : d.buffer = false)
      (ht : t = .first ∨ t = u) (hc : d.readCb t = some .cmux)
      (hps : (d.primaryTerm = .channel 0 ∧ d.secondaryTerm = .channel 1) ∨
        (d.primaryTerm = .channel 1 ∧ d.secondaryTerm = .channel 0))

structure Wired (u : Terminal) (d : Dte) : Prop where
  real : u = .first ∨ u = .second
  layout : d.Layout u
  listened : d.readCb d.primaryTerm = some .command ∨
    d.readCb d.primaryTerm = some .data ∧ d.primaryTerm = d.secondaryTerm

/-- What holds of a DTE built with `.first` and `u` whatever it was asked. -/
structure Sound (u : Terminal) (d : Dte) : Prop extends d.Wired u where
  mux : d.mode = .cmuxMode ∨ d.mode = .cmuxManualMode → d.cmuxTerm.isSome
  two : d.mode = .dualMode → d.cmuxTerm = none ∧ d.primaryTerm ≠ d.secondaryTerm
  modes : d.mode = .undef ∨ d.mode = .commandMode ∨ d.mode = .dataMode ∨ d.mode = .dualMode ∨
    d.mode = .cmuxMode ∨ d.mode = .cmuxManualMode

variable {u t : Terminal} {d : Dte} {m : ModemMode} {line : Bool} {cb : Option ReadCb}
  {f : Option OnData}

@[simp] theorem attach_self : (d.attach t cb).readCb t = cb := by simp [attach]

theorem attach_of_ne {t' : Terminal} (h : t' ≠ t) : (d.attach t cb).readCb t' = d.readCb t' := by
  simp [attach, h]

@[simp] theorem attach_buffer : (d.attach t cb).buffer = d.buffer := rfl
@[simp] theorem attach_cmuxTerm : (d.attach t cb).cmuxTerm = d.cmuxTerm := rfl
@[simp] theorem attach_primaryTerm : (d.attach t cb).primaryTerm = d.primaryTerm := rfl
@[simp] theorem attach_secondaryTerm : (d.attach t cb).secondaryTerm = d.secondaryTerm := rfl
@[simp] theorem attach_mode : (d.attach t cb).mode = d.mode := rfl
@[simp] theorem attach_onData : (d.attach t cb).onData = d.onData := rfl

theorem attach_attach {cb' : Option ReadCb} : (d.attach t cb).attach t cb' = d.attach t cb' := by
  simp only [attach, mk.injEq, true_and]
  funext v
  split <;> rfl

theorem setCommandCallbacks_idem :
    d.setCommandCallbacks.setCommandCallbacks = d.setCommandCallbacks := attach_attach

theorem attach_setCommandCallbacks :
    (d.attach d.primaryTerm cb).setCommandCallbacks = d.setCommandCallbacks := attach_attach

@[simp] theorem setReadCb_cmuxTerm : (d.setReadCb f).cmuxTerm = d.cmuxTerm := by cases f <;> rfl
@[simp] theorem setReadCb_mode : (d.setReadCb f).mode = d.mode := by cases f <;> rfl

@[simp] theorem setCommandCallbacks_readCb :
    d.setCommandCallbacks.readCb d.primaryTerm = some .command := attach_self

@[simp] theorem setCommandCallbacks_cmuxTerm : d.setCommandCallbacks.cmuxTerm = d.cmuxTerm := rfl
@[simp] theorem setCommandCallbacks_primaryTerm :
    d.setCommandCallbacks.primaryTerm = d.primaryTerm := rfl
@[simp] theorem setCommandCallbacks_secondaryTerm :
    d.setCommandCallbacks.secondaryTerm = d.secondaryTerm := rfl
@[simp] theorem setCommandCallbacks_mode : d.setCommandCallbacks.mode = d.mode := rfl

theorem Wired.single : Dte.single.Wired .first where
  real := by simp
  layout := .plain rfl rfl (.inl rfl) (.inl rfl)
  listened := .inl rfl

theorem Wired.dual : Dte.dual.Wired .second where
  real := by simp
  layout := .plain rfl rfl (.inl rfl) (.inr rfl)
  listened := .inl rfl

theorem Sound.single : Dte.single.Sound .first where
  toWired := .single
  mux := by rintro (⟨⟨⟩⟩ | ⟨⟨⟩⟩)
  two := by rintro ⟨⟩
  modes := .inl rfl

theorem Sound.dual : Dte.dual.Sound .second where
  toWired := .dual
  mux := by rintro (⟨⟨⟩⟩ | ⟨⟨⟩⟩)
  two := fun _ => ⟨rfl, by rintro ⟨⟩⟩
  modes := by simp [Dte.dual]

theorem Wired.used_ne (h : d.Wired u) {t : Terminal} (ht : d.cmuxTerm = some t) :
    d.primaryTerm ≠ t ∧ d.secondaryTerm ≠ t := by
  have real := h.real
  cases h.layout with
  | plain hm => simp [hm] at ht
  | mux t' hm _ ht' _ hps =>
    obtain rfl : t' = t := by simpa [hm] using ht
    rcases real with rfl | rfl <;> rcases ht' with rfl | rfl <;>
      rcases hps with ⟨hp, hs⟩ | ⟨hp, hs⟩ <;> simp [hp, hs]

theorem Wired.attach_layout (h : d.Wired u) (cb : Option ReadCb)
    (ht : t = d.primaryTerm ∨ t = d.secondaryTerm) :
    (d.attach t cb).Layout u := by
  have hne {t' : Terminal} (ht' : d.cmuxTerm = some t') : t' ≠ t := by
    obtain ⟨hp, hs⟩ := h.used_ne ht'
    rcases ht with rfl | rfl
    · exact hp.symm
    · exact hs.symm
  cases h.layout with
  | plain hm hb hp hs => exact .plain hm hb hp hs
  | mux t' hm hb ht' hc hps => exact .mux t' hm hb ht' ((attach_of_ne (hne hm)).trans hc) hps

theorem Wired.setCommandCallbacks (h : d.Wired u) : d.setCommandCallbacks.Wired u where
  real := h.real
  layout := h.attach_layout _ (.inl rfl)
  listened := .inl attach_self

theorem Wired.setReadCb (h : d.Wired u) : (d.setReadCb f).Wired u := by
  cases f with
  | none => exact h.setCommandCallbacks
  | some f =>
    refine ⟨h.real, ?_, ?_⟩
    · cases h.attach_layout (some .data) (.inr rfl) with
      | plain hm hb hp hs => exact .plain hm hb hp hs
      | mux t hm hb ht hc hps => exact .mux t hm hb ht hc hps
    · by_cases hps : d.primaryTerm = d.secondaryTerm
      · exact .inr ⟨by simp [Dte.setReadCb, hps, attach], hps⟩
      · rcases h.listened with hl | ⟨-, hl⟩
        · exact .inl (by simpa [Dte.setReadCb, attach, hps] using hl)
        · exact absurd hl hps

theorem Wired.swap (h : d.Wired u) : d.swap.Wired u := by
  refine ⟨h.real, ?_, .inl attach_self⟩
  have hl := h.attach_layout (some .command) (.inr rfl)
  cases hl with
  | plain hm hb hp hs => exact .plain hm hb hs hp
  | mux t hm hb ht hc hps => exact .mux t hm hb ht hc (hps.symm.imp And.symm And.symm)

theorem Wired.ejected (real : u = .first ∨ u = .second) (ht : t = .first ∨ t = u)
    (hm : d.cmuxTerm = none) (hb : d.buffer = true) (hp : d.primaryTerm = t)
    (hs : d.secondaryTerm = t) (hl : d.readCb d.primaryTerm = some .command) : d.Wired u :=
  ⟨real, .plain hm hb (hp ▸ ht) (hs ▸ ht), .inl hl⟩

theorem Wired.exitCmux (h : d.Wired u) (line : Bool) :
    (d.exitCmux line).2.Wired u ∧ (d.exitCmux line).2.cmuxTerm = none ∧
      (d.exitCmux line).1 = (d.cmuxTerm.isSome && line) := by
  cases h.layout with
  | plain hm => simp [Dte.exitCmux, hm, h]
  | mux t hm _ ht =>
    cases line with
    | false =>
      simp only [Dte.exitCmux, hm, exitCmuxInternal, Bool.false_eq_true, if_false]
      exact ⟨.ejected h.real ht rfl rfl rfl rfl attach_self, trivial, rfl⟩
    | true =>
      simp only [Dte.exitCmux, hm, exitCmuxInternal, attach_cmuxTerm, if_true]
      exact ⟨.ejected h.real ht rfl rfl rfl rfl attach_self, trivial, rfl⟩

theorem Wired.setupCmux (h : d.Wired u) (line : Bool) :
    (d.setupCmux line).2.Wired u ∧
      ((d.setupCmux line).1 = true → (d.setupCmux line).2.cmuxTerm.isSome) := by
  cases h.layout with
  | mux t hm => simp [Dte.setupCmux, hm, h]
  | plain hm _ hp =>
    cases line with
    | false =>
      simp only [Dte.setupCmux, hm, exitCmuxInternal, Option.isSome_none, Bool.false_eq_true,
        if_false]
      exact ⟨.ejected h.real hp rfl rfl rfl rfl attach_self, by rintro ⟨⟩⟩
    | true =>
      have hne : d.primaryTerm ≠ .channel 0 := by
        rcases h.real with rfl | rfl <;> rcases hp with hp | hp <;> simp [hp]
      simp only [Dte.setupCmux, hm, Option.isSome_none, Bool.false_eq_true, if_false, if_true]
      refine ⟨⟨h.real, .mux d.primaryTerm rfl rfl hp ?_ (.inl ⟨rfl, rfl⟩), .inl attach_self⟩, ?_⟩
      · refine (attach_of_ne hne).trans ?_
        rcases h.real with rfl | rfl <;> rcases hp with hp | hp <;> simp [hp]
      · simp

theorem setupCmux_cmuxTerm (h : (d.setupCmux line).1 = false) :
    (d.setupCmux line).2.cmuxTerm = d.cmuxTerm := by
  cases hm : d.cmuxTerm with
  | some t => simp [Dte.setupCmux, hm]
  | none => cases line <;> simp [Dte.setupCmux, hm] at h ⊢

theorem Wired.with_mode (h : d.Wired u) (m : ModemMode) : Wired u { d with mode := m } := by
  refine ⟨h.real, ?_, h.listened⟩
  cases h.layout with
  | plain hm hb hp hs => exact .plain hm hb hp hs
  | mux t hm hb ht hc hps => exact .mux t hm hb ht hc hps

def Attentive (d : Dte) : Prop := d.readCb d.primaryTerm = some .command

theorem attentive_setCommandCallbacks : d.setCommandCallbacks.Attentive := attach_self

theorem Wired.attentive (h : d.Wired u) (hs : d.primaryTerm ≠ d.secondaryTerm) : d.Attentive := by
  rcases h.listened with hl | ⟨-, he⟩
  · exact hl
  · exact absurd he hs

theorem Wired.ne_of_mux (h : d.Wired u) (hs : d.cmuxTerm.isSome) :
    d.primaryTerm ≠ d.secondaryTerm := by
  cases h.layout with
  | plain hm => simp [hm] at hs
  | mux t _ _ _ _ hps => rcases hps with ⟨hp, hs⟩ | ⟨hp, hs⟩ <;> simp [hp, hs]

theorem Attentive.exitCmux (h : d.Attentive) : (d.exitCmux line).2.Attentive := by
  cases hm : d.cmuxTerm with
  | none => simpa [Dte.exitCmux, hm] using h
  | some t =>
    cases line <;> simp only [Dte.exitCmux, hm, exitCmuxInternal, attach_cmuxTerm,
      Bool.false_eq_true, if_false, if_true] <;> exact attach_self

theorem Attentive.setupCmux (h : d.Attentive) : (d.setupCmux line).2.Attentive := by
  cases hm : d.cmuxTerm with
  | some t => simpa [Dte.setupCmux, hm] using h
  | none =>
    cases line <;> simp only [Dte.setupCmux, hm, exitCmuxInternal, Option.isSome_none,
      Bool.false_eq_true, if_false, if_true] <;> exact attach_self

theorem Attentive.settle {r : Bool × Dte} (h : r.2.Attentive) : (settle m r).2.Attentive := by
  rcases r with ⟨_ | _, d⟩ <;> exact h

/-- No request makes the DTE deaf to commands. -/
theorem Attentive.setMode (h : d.Attentive) (m : ModemMode) (line : Bool) :
    (d.setMode m line).2.Attentive := by
  cases m <;> simp only [Dte.setMode]
  case cmuxMode => split <;> [exact h.setupCmux.settle; exact h]
  case dataMode | resumeDataMode => split <;> [exact attach_self; exact h]
  case commandMode =>
    split <;> [exact h.exitCmux.settle; split] <;> exact h
  case cmuxManualMode => exact h.setupCmux.settle
  case cmuxManualExit => split <;> [exact h.exitCmux.settle; exact h]
  case cmuxManualSwap => split <;> [exact attach_self; exact h]
  all_goals exact h

theorem Wired.sound (h : d.Wired u)
    (hm : d.mode = .undef ∨ d.mode = .commandMode ∨ d.mode = .dataMode) : d.Sound u where
  toWired := h
  mux := by rcases hm with hm | hm | hm <;> simp [hm]
  two := by rcases hm with hm | hm | hm <;> simp [hm]
  modes := by tauto

theorem Wired.sound_of_mux (h : d.Wired u) (hs : d.cmuxTerm.isSome)
    (hm : d.mode = .cmuxMode ∨ d.mode = .cmuxManualMode) : d.Sound u where
  toWired := h
  mux := fun _ => hs
  two := by rcases hm with hm | hm <;> simp [hm]
  modes := by tauto

theorem Sound.setCommandCallbacks (h : d.Sound u) : d.setCommandCallbacks.Sound u :=
  ⟨h.toWired.setCommandCallbacks, h.mux, h.two, h.modes⟩

theorem Sound.setReadCb (h : d.Sound u) : (d.setReadCb f).Sound u := by
  cases f with
  | none => exact h.setCommandCallbacks
  | some f => exact ⟨h.toWired.setReadCb, h.mux, h.two, h.modes⟩

theorem Sound.swap (h : d.Sound u) : d.swap.Sound u :=
  ⟨h.toWired.swap, h.mux, fun hd => ⟨(h.two hd).1, (h.two hd).2.symm⟩, h.modes⟩

theorem settle_sound {r : Bool × Dte} (h : r.2.Wired u)
    (hm : r.1 = true →
      m = .commandMode ∨ r.2.cmuxTerm.isSome ∧ (m = .cmuxMode ∨ m = .cmuxManualMode)) :
    (settle m r).2.Sound u := by
  rcases r with ⟨_ | _, d⟩
  · exact (h.with_mode _).sound (.inl rfl)
  · rcases hm rfl with rfl | ⟨hs, hm⟩
    · exact (h.with_mode _).sound (.inr (.inl rfl))
    · exact (h.with_mode _).sound_of_mux hs hm

theorem Sound.setMode (h : d.Sound u) (m : ModemMode) (line : Bool) :
    (d.setMode m line).2.Sound u := by
  have hw := h.toWired
  have undef := (hw.with_mode .undef).sound (.inl rfl)
  have setup (m) (hm : m = .cmuxMode ∨ m = .cmuxManualMode) :
      (settle m (d.setupCmux line)).2.Sound u :=
    settle_sound (hw.setupCmux line).1 fun hr => .inr ⟨(hw.setupCmux line).2 hr, hm⟩
  have exit : (settle .commandMode (d.exitCmux line)).2.Sound u :=
    settle_sound (hw.exitCmux line).1 fun _ => .inl rfl
  have data := (hw.with_mode .dataMode).sound (.inr (.inr rfl))
  have command := (hw.with_mode .commandMode).sound (.inr (.inl rfl))
  cases m <;> simp only [Dte.setMode]
  case cmuxMode => split <;> simp_all
  case dataMode | resumeDataMode => split <;> simp [h.swap, data]
  case commandMode => split <;> [exact exit; split] <;> simp [h, command]
  case cmuxManualMode => exact setup _ (.inr rfl)
  case cmuxManualExit => split <;> simp [exit, undef]
  case cmuxManualSwap => split <;> simp [h.swap, undef]
  all_goals exact undef

end Dte

end Modes

end EspLtePpp
