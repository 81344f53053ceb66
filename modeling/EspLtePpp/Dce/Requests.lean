import EspLtePpp.Dce.Transitions
import EspLtePpp.Library.StateTriple

/-! # What a request does

One case for each way in which `set_unsafe` can end, with what the guards have let through
and what it returns. Every invariant of the modes is read off these cases.
-/

set_option mvcgen.warning false

namespace EspLtePpp

namespace Modes

open Std.Do

def Dce.become (w : Dce) (ok : Bool) (m : ModemMode) : Dce := if ok then { w with mode := m } else w

def Dce.Idle (w : Dce) : Prop := w.mode = .undef ∨ w.mode = .commandMode ∨ w.mode = .dualMode

def Dce.ByHand (w : Dce) : Prop := w.mode = .undef ∨ w.mode = .cmuxManualMode

/-- The guards of `set_unsafe`. -/
def Dce.Grants (w : Dce) : ModemMode → Prop
  | .dataMode | .cmuxMode =>
    ¬(w.mode = .dataMode ∨ w.mode = .cmuxMode ∨ w.mode.isManual = true)
  | .commandMode => ¬(w.mode = .commandMode ∨ w.mode.isManual = true)
  | .cmuxManualMode => ¬(w.mode ≠ .commandMode ∧ w.mode ≠ .undef)
  | .cmuxManualExit | .cmuxManualSwap | .cmuxManualData | .cmuxManualCommand =>
    ¬(w.mode ≠ .cmuxManualMode ∧ w.mode ≠ .undef)
  | .dualMode | .autodetect => False
  | _ => True

/-- Asked for `m`, the DTE has answered `ok`. -/
def Asked (m : ModemMode) (ok ppp : Bool) (w₀ w : Dce) : Prop :=
  ∃ line d, w₀.dte.setMode m line = (ok, d) ∧ Moved d ppp w₀ w

inductive Does (w₀ : Dce) : ModemMode → Bool → Dce → Prop
  | refused {m} (hm : ¬w₀.Grants m) : Does w₀ m false w₀
  | undef {ok w w'} (h : Asked .undef ok w₀.pppStarted w₀ w) (hw : w' = w.become ok .undef) :
    Does w₀ .undef ok w'
  | notDialled {m w} (h : Talked w₀ w) (hm : m = .dataMode ∨ m = .cmuxManualData) :
    Does w₀ m false w
  | dataMode {w w'} (hm : w₀.Idle) (h : Entered w₀ w) (hw : w' = { w with mode := .dataMode }) :
    Does w₀ .dataMode true w'
  | close {ok w w'} (hm : w₀.mode = .cmuxMode) (h : Asked .commandMode ok false w₀ w)
      (hw : w' = w.become ok .commandMode) : Does w₀ .commandMode ok w'
  | commandMode {ok w w'} (hm : w₀.mode ≠ .cmuxMode) (hm' : w₀.mode.isManual = false)
      (h : Stopped ok w₀ w) (hw : w' = { w with mode := if ok then .commandMode else .undef }) :
    Does w₀ .commandMode ok w'
  | notOpened {m w} (hm : w₀.Idle) (h : Asked m false w₀.pppStarted w₀ w)
      (hm' : m = .cmuxMode ∨ m = .cmuxManualMode) : Does w₀ m false w
  | cmuxMode {ok w₁ w₂ w} (hm : w₀.Idle) (h : Asked .cmuxMode true w₀.pppStarted w₀ w₁)
      (hw : w₂ = { w₁ with mode := .cmuxMode }) (ht : ok = true → Entered w₂ w)
      (hf : ok = false → Talked w₂ w) : Does w₀ .cmuxMode ok w
  | cmuxManualMode {w w'} (hm : w₀.Idle) (h : Asked .cmuxManualMode true w₀.pppStarted w₀ w)
      (hw : w' = { w with mode := .cmuxManualMode }) : Does w₀ .cmuxManualMode true w'
  | cmuxManualExit {ok w w'} (hm : w₀.ByHand) (h : Asked .cmuxManualExit ok w₀.pppStarted w₀ w)
      (hw : w' = w.become ok .commandMode) : Does w₀ .cmuxManualExit ok w'
  | cmuxManualSwap {ok w} (hm : w₀.ByHand) (h : Asked .cmuxManualSwap ok w₀.pppStarted w₀ w) :
    Does w₀ .cmuxManualSwap ok w
  | cmuxManualData {w} (hm : w₀.ByHand) (h : Entered w₀ w) : Does w₀ .cmuxManualData true w
  | cmuxManualCommand {ok w} (hm : w₀.ByHand) (h : Stopped ok w₀ w) :
    Does w₀ .cmuxManualCommand ok w
  | resumeDataMode {w₁ w w'} (h : Asked .dataMode true w₀.pppStarted w₀ w₁) (hs : Started w₁ w)
      (hw : w' = { w with mode := .dataMode }) : Does w₀ .resumeDataMode true w'
  | resumeCommandMode {ok w w'} (h : Asked .commandMode ok w₀.pppStarted w₀ w)
      (hw : w' = w.become ok .commandMode) : Does w₀ .resumeCommandMode ok w'
  | resumeCmuxManualMode {ok w w'} (h : Asked .cmuxManualMode ok w₀.pppStarted w₀ w)
      (hw : w' = w.become ok .cmuxManualMode) : Does w₀ .resumeCmuxManualMode ok w'
  | resumeCmuxManualData {w₁ w w'} (h : Asked .cmuxManualSwap true w₀.pppStarted w₀ w₁)
      (hs : Started w₁ w) (hw : w' = { w with mode := .cmuxManualMode }) :
    Does w₀ .resumeCmuxManualData true w'
  | notResumed {w} (h : Asked .cmuxManualSwap false w₀.pppStarted w₀ w) :
    Does w₀ .resumeCmuxManualData false w

@[simp, grind =] theorem Dce.become_true {w : Dce} {m : ModemMode} :
    w.become true m = { w with mode := m } := rfl

@[simp, grind =] theorem Dce.become_false {w : Dce} {m : ModemMode} : w.become false m = w := rfl

variable {w₀ w₁ w : Dce} {m : ModemMode} {ok ppp : Bool}

theorem dteSetMode_asked (m : ModemMode) (w₀ : Dce) :
    ⦃fun w => ⌜w = w₀⌝⦄ dteSetMode m ⦃⇓ r w => ⌜Asked m r w₀.pppStarted w₀ w⌝⦄ :=
  StateTriple.of_relation (dteSetMode_spec · m) fun _ _ _ hw ⟨line, d, hd, hm, _⟩ =>
    hw ▸ ⟨line, d, hd, hm⟩

theorem Asked.after (h : Moved w₀.dte ppp w₀ w₁) (h' : Asked m ok w₁.pppStarted w₁ w) :
    Asked m ok ppp w₀ w := by
  obtain ⟨line, d, hd, hm⟩ := h'
  rw [h.dte] at hd
  rw [h.pppStarted] at hm
  exact ⟨line, d, hd, h.trans hm⟩

theorem Asked.dataMode (h : Asked .dataMode ok ppp w₀ w) : ok = true := by
  obtain ⟨line, d, hd, -⟩ := h
  rw [Dte.setMode_dataMode] at hd
  exact (congrArg Prod.fst hd).symm

theorem idle_of_guard (h : ¬(w.mode = .dataMode ∨ w.mode = .cmuxMode ∨ w.mode.isManual = true)) :
    w.Idle := by
  unfold Dce.Idle
  cases hm : w.mode <;> simp_all [ModemMode.isManual]

theorem byHand_of_guard (h : ¬(w.mode ≠ .cmuxManualMode ∧ w.mode ≠ .undef)) : w.ByHand := by
  unfold Dce.ByHand
  tauto

theorem idle_of_ne (h : ¬(w.mode ≠ .commandMode ∧ w.mode ≠ .undef)) : w.Idle := by
  unfold Dce.Idle
  tauto

theorem setPlain_commandMode (w₀ : Dce) :
    ⦃fun w => ⌜w = w₀⌝⦄ setPlain .commandMode ⦃⇓ r w => ⌜Does w₀ .commandMode r w⌝⦄ := by
  mvcgen [setPlain, dteSetMode_asked, -dteSetMode_spec]
  all_goals grind [Does.refused, Dce.Grants, Does.close, Does.commandMode, → Asked.after]

theorem setPlain_dataMode (w₀ : Dce) :
    ⦃fun w => ⌜w = w₀⌝⦄ setPlain .dataMode ⦃⇓ r w => ⌜Does w₀ .dataMode r w⌝⦄ := by
  mvcgen [setPlain]
  all_goals grind [Does.refused, Dce.Grants, Does.notDialled, Does.dataMode, idle_of_guard]

theorem setPlain_cmuxMode (w₀ : Dce) :
    ⦃fun w => ⌜w = w₀⌝⦄ setPlain .cmuxMode ⦃⇓ r w => ⌜Does w₀ .cmuxMode r w⌝⦄ := by
  mvcgen [setPlain, deviceSetMode_cmux, dteSetMode_asked, -dteSetMode_spec]
  all_goals grind [Does.refused, Dce.Grants, Does.notOpened, Does.cmuxMode, → Asked.after,
    idle_of_guard]

theorem setPlain_cmuxManualMode (w₀ : Dce) :
    ⦃fun w => ⌜w = w₀⌝⦄ setPlain .cmuxManualMode
    ⦃⇓ r w => ⌜Does w₀ .cmuxManualMode r w⌝⦄ := by
  mvcgen [setPlain, deviceSetMode_cmux, dteSetMode_asked, -dteSetMode_spec]
  all_goals grind [Does.refused, Dce.Grants, Does.notOpened, Does.cmuxManualMode,
    → Asked.after, idle_of_ne]

theorem setPlain_spec (m : ModemMode) (w₀ : Dce) :
    ⦃fun w => ⌜w = w₀⌝⦄ setPlain m ⦃⇓ r w => ⌜Does w₀ m r w⌝⦄ := by
  cases m
  case undef =>
    mvcgen [setPlain, dteSetMode_asked, -dteSetMode_spec]
    all_goals grind [Does.undef]
  case commandMode => exact setPlain_commandMode w₀
  case dataMode => exact setPlain_dataMode w₀
  case cmuxMode => exact setPlain_cmuxMode w₀
  case cmuxManualMode => exact setPlain_cmuxManualMode w₀
  case dualMode | autodetect =>
    mvcgen [setPlain]
    all_goals grind [Does.refused, Dce.Grants]
  case cmuxManualExit =>
    mvcgen [setPlain, dteSetMode_asked, -dteSetMode_spec]
    all_goals grind [Does.refused, Dce.Grants, Does.cmuxManualExit, byHand_of_guard]
  case cmuxManualSwap =>
    mvcgen [setPlain, dteSetMode_asked, -dteSetMode_spec]
    all_goals grind [Does.refused, Dce.Grants, Does.cmuxManualSwap, byHand_of_guard]
  case cmuxManualData =>
    mvcgen [setPlain]
    · grind [Does.refused, Dce.Grants]
    · rename_i r _
      cases r <;> grind [Does.notDialled, Does.cmuxManualData, byHand_of_guard]
  case cmuxManualCommand =>
    mvcgen [setPlain]
    all_goals grind [Does.refused, Dce.Grants, Does.cmuxManualCommand, byHand_of_guard]
  case resumeDataMode =>
    mvcgen [setPlain, dteSetMode_asked, -dteSetMode_spec]
    all_goals grind [Does.resumeDataMode, → Asked.dataMode]
  case resumeCommandMode =>
    mvcgen [setPlain, dteSetMode_asked, -dteSetMode_spec]
    all_goals grind [Does.resumeCommandMode]
  case resumeCmuxManualMode =>
    mvcgen [setPlain, dteSetMode_asked, -dteSetMode_spec]
    all_goals grind [Does.resumeCmuxManualMode]
  case resumeCmuxManualData =>
    mvcgen [setPlain, dteSetMode_asked, -dteSetMode_spec]
    all_goals grind [Does.resumeCmuxManualData, Does.notResumed]

end Modes

end EspLtePpp
