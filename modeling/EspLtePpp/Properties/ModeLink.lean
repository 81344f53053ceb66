import EspLtePpp.App.Run
import EspLtePpp.Dce.Transitions

/-! # Data mode byte by byte

The switch to data mode that exchanges bytes with the modem is one of the runs of the
switch that takes its answers as they come: there are answers, namely the results of the
exchanges, with which both return the same and leave the same modes.
-/

namespace EspLtePpp

open Exec World

namespace Modes

/-- What is written for a command. -/
def DeviceCommand.text (pdp : PdpContext) : DeviceCommand → Bytes
  | .setEcho => ascii "ATE0\r"
  | .setPdpContext => pdpCommand pdp
  | .setDataMode => ascii "ATD*99#\r"
  | .resumeDataMode => ascii "ATO\r"
  | .setCommandMode => ascii "+++"
  | .sync => ascii "AT\r"
  | .setCmux => ascii "AT+CMUX=0\r"

/-- The commands among what was done, as they were written, with their results. -/
def commands (pdp : PdpContext) (acts : List Act) : List (Bytes × CommandResult) :=
  acts.filterMap fun
    | .command _ c r => some (c.text pdp, r)
    | _ => none

/-- The same modes, and the same commands since `past`. -/
structure Linked (pdp : PdpContext) (past : List Exchange) (w : World) (s : Dce) : Prop where
  idle : w.port.Idle
  pdp_eq : w.pdp = pdp
  mode : s.mode = w.dceMode
  dteMode : s.dte.mode = w.dteMode
  pppStarted : s.pppStarted = w.pppStarted
  exchanged : ∃ xs, exchanges w.history = past ++ xs ∧
    xs.map (fun x => (x.cmd, x.result)) = commands pdp s.acts

/-- From related states `y` does as `x` does if the next answers are `as`. -/
def Follows {α : Type} (R : World → Dce → Prop) (x : AppM α) (y : ModeM α)
    (S : World → Dce → Prop) : Prop :=
  ∀ w s, R w s → ∃ a w', ∃ as : List Answer, ∃ s', exec x w = (.ok a, w') ∧
    s'.asked = s.asked + as.length ∧ S w' s' ∧ ∀ answers : ℕ → Answer,
      (∀ i (h : i < as.length), answers (s.asked + i) = as[i]) →
      y.run { s with answers := answers } = (a, { s' with answers := answers })

variable {α β : Type} {R S T : World → Dce → Prop} {x : AppM α} {y : ModeM α} {f : α → AppM β}
  {g : α → ModeM β} {pdp : PdpContext} {past : List Exchange} {w : World} {s : Dce}

theorem Follows.pure (a : α) : Follows R (pure a) (pure a) R := by
  intro w s h
  exact ⟨a, w, [], s, rfl, rfl, h, fun _ _ => rfl⟩

theorem Follows.bind (hx : Follows R x y S) (hf : ∀ a, Follows S (f a) (g a) T) :
    Follows R (x >>= f) (y >>= g) T := by
  intro w s h
  obtain ⟨a, w₁, as, s₁, hrun, hasked, hs, hy⟩ := hx w s h
  obtain ⟨b, w₂, bs, s₂, hrun', hasked', ht, hg⟩ := hf a w₁ s₁ hs
  refine ⟨b, w₂, as ++ bs, s₂, (exec_bind_of_ok hrun).trans hrun', ?_, ht, fun answers hans => ?_⟩
  · rw [hasked', hasked, List.length_append, Nat.add_assoc]
  · have hy' := hy answers fun i hi => by
      rw [hans i (by rw [List.length_append]; omega), List.getElem_append_left]
    have hg' := hg answers fun i hi => by
      rw [hasked, Nat.add_assoc, hans (as.length + i) (by rw [List.length_append]; omega),
        List.getElem_append_right (by omega)]
      simp
    rw [StateT.run_bind, hy']
    exact hg'

theorem Follows.mono (h : Follows R x y S) (hS : ∀ w s, S w s → T w s) : Follows R x y T := by
  intro w s hR
  obtain ⟨a, w', as, s', hrun, hasked, hs, hy⟩ := h w s hR
  exact ⟨a, w', as, s', hrun, hasked, hS w' s' hs, hy⟩

def Heard (pdp : PdpContext) (past : List Exchange) (w : World) (s : Dce) : Prop :=
  Linked pdp past w s ∧ s.dte.readCb s.dte.primaryTerm = some .command

theorem Follows.get_pdp {f : World → AppM α}
    (h : ∀ w : World, w.pdp = pdp → Follows (Heard pdp past) (f w) y S) :
    Follows (Heard pdp past) (get >>= f) y S := by
  intro w s hR
  obtain ⟨a, w', as, s', hrun, h⟩ := h w hR.1.pdp_eq w s hR
  exact ⟨a, w', as, s', (exec_bind_of_ok exec_get).trans hrun, h⟩

theorem Follows.ite {c : Prop} [Decidable c] {x' : AppM α} {y' : ModeM α} (h : Follows R x y S)
    (h' : Follows R x' y' S) : Follows R (if c then x else x') (if c then y else y') S := by
  split
  · exact h
  · exact h'

theorem Linked.after {e : Exchange} {w' : World} (h : Linked pdp past w s)
    (ha : w.After [.exchange e] w') {c : DeviceCommand} (hc : e.cmd = c.text pdp) (t : Terminal)
    (n : ℕ) : Linked pdp past w'
      { s with asked := n, acts := s.acts ++ [.command t c e.result] } := by
  obtain ⟨p, n, hp, rfl⟩ := ha
  obtain ⟨xs, hx, hmap⟩ := h.exchanged
  refine ⟨hp, h.pdp_eq, h.mode, h.dteMode, h.pppStarted, xs ++ [e], ?_, ?_⟩
  · change exchanges (w.history ++ [.exchange e]) = _
    rw [exchanges_append, hx]
    simp [exchanges, Event.exchange?]
  · simp [hmap, commands, hc]

def anyAnswer : Answer := ⟨.ok, true, true, .undef⟩

theorem command_follows {x : AppM CommandResult} {c : DeviceCommand}
    (hx : ∀ w : World, w.port.Idle → w.pdp = pdp → Completes x w fun r w' => ∃ e : Exchange,
      e.cmd = c.text pdp ∧ r = e.result ∧ w.After [.exchange e] w') :
    Follows (Heard pdp past) x (command c) (Heard pdp past) := by
  rintro w s ⟨h, heard⟩
  obtain ⟨r, w', hrun, e, hcmd, rfl, ha⟩ := hx w h.idle h.pdp_eq
  refine ⟨e.result, w', [{ anyAnswer with result := e.result }], _, hrun, rfl,
    ⟨h.after ha hcmd s.dte.primaryTerm _, heard⟩, fun answers hans => ?_⟩
  have h0 : answers s.asked = _ := hans 0 (by simp)
  simp only [List.getElem_cons_zero] at h0
  change (_, _) = _
  simp [h0, heard]

theorem genericCommand_follows {c : DeviceCommand} (pass fail : List Bytes) (timeoutMs : ℕ) :
    Follows (Heard pdp past) (genericCommand (c.text pdp) pass fail timeoutMs) (command c)
      (Heard pdp past) := by
  refine command_follows fun w hi _ => (genericCommand_completes hi _ pass fail timeoutMs).mono ?_
  rintro r w' ⟨e, he, hr, ha⟩
  exact ⟨e, he.cmd_eq, hr, ha⟩

theorem setupDataMode_follows :
    Follows (Heard pdp past) GenericModule.setupDataMode setupDataMode (Heard pdp past) := by
  refine (genericCommand_follows (c := .setEcho) _ _ _).bind fun r => ?_
  refine (Follows.pure false).ite (Follows.get_pdp fun w hw => ?_)
  subst hw
  refine (genericCommand_follows (c := .setPdpContext) _ _ _).bind fun r => ?_
  exact (Follows.pure false).ite (.pure true)

theorem deviceSetMode_follows :
    Follows (Heard pdp past) GenericModule.setMode (deviceSetMode .dataMode) (Heard pdp past) := by
  refine (genericCommand_follows (c := .setDataMode) _ _ _).bind fun r => ?_
  refine Follows.ite ?_ (.pure true)
  exact (genericCommand_follows (c := .resumeDataMode) _ _ _).bind fun r => .pure _

theorem dteSetMode_run (s : Dce) : (dteSetMode .dataMode).run s =
    (true, { s with dte := s.dte.toData, asked := s.asked + 1 }) := by
  change ((s.dte.setMode .dataMode (s.answers s.asked).line).1, { s with
    dte := (s.dte.setMode .dataMode (s.answers s.asked).line).2, asked := s.asked + 1 }) = _
  rw [Dte.setMode_dataMode]

theorem dteSetMode_follows :
    Follows (Heard pdp past) EspLtePpp.Dte.setMode (dteSetMode .dataMode) (Linked pdp past) := by
  rintro w s ⟨h, -⟩
  refine ⟨true, _, [anyAnswer], { s with dte := s.dte.toData, asked := s.asked + 1 }, rfl, rfl,
    ?_, fun answers _ => dteSetMode_run _⟩
  by_cases hm : w.dteMode = .cmuxMode ∨ w.dteMode = .cmuxManualMode ∨ w.dteMode = .dualMode
  · simp only [if_pos hm]
    refine ⟨h.idle, h.pdp_eq, h.mode, ?_, h.pppStarted, h.exchanged⟩
    rw [← h.dteMode] at hm ⊢
    rw [Dte.toData, if_pos hm]
    rfl
  · simp only [if_neg hm]
    refine ⟨h.idle, h.pdp_eq, h.mode, ?_, h.pppStarted, h.exchanged⟩
    rw [← h.dteMode] at hm
    rw [Dte.toData, if_neg hm]

theorem exchanges_started (w : World) :
    exchanges (w.record [.pppStarted]).history = exchanges w.history := by
  change exchanges (w.history ++ [.pppStarted]) = _
  rw [exchanges_append]
  simp [exchanges, Event.exchange?]

def Dce.started (s : Dce) : Dce :=
  { s with
    dte := s.dte.setReadCb (some .netif)
    pppStarted := true
    acts := s.acts ++ if s.pppStarted then []
      else [.pppStart (s.dte.setReadCb (some .netif)).secondaryTerm] }

theorem netifStart_run (s : Dce) : Netif.start.run s = ((), s.started) := by
  obtain ⟨dte, mode, ppp, answers, asked, acts⟩ := s
  cases ppp with
  | false => rfl
  | true =>
    simp only [Dce.started, if_true, List.append_nil]
    rfl

theorem netifStart_follows :
    Follows (Linked pdp past) EspLtePpp.Netif.start Netif.start (Linked pdp past) := by
  rintro w s h
  obtain ⟨xs, hx, hmap⟩ := h.exchanged
  have hs := h.pppStarted
  cases hp : w.pppStarted with
  | false =>
    refine ⟨(), _, [], s.started, exec_netifStart hp, rfl, ⟨h.idle, h.pdp_eq, h.mode, ?_, rfl, xs,
      (exchanges_started w).trans hx, ?_⟩, fun answers _ => netifStart_run _⟩
    · exact Dte.setReadCb_mode.trans h.dteMode
    · simp [Dce.started, hs, hp, hmap, commands]
  | true =>
    refine ⟨(), w, [], s.started, ?_, rfl, ⟨h.idle, h.pdp_eq, h.mode, ?_, hp.symm, xs, hx, ?_⟩,
      fun answers _ => netifStart_run _⟩
    · rw [EspLtePpp.Netif.start, exec_bind_of_ok exec_get]
      simp [hp]
    · exact Dte.setReadCb_mode.trans h.dteMode
    · simp [Dce.started, hs, hp, hmap]

theorem enterData_follows :
    Follows (Heard pdp past) EspLtePpp.enterData enterData (Linked pdp past) := by
  have no : Follows (Heard pdp past) (pure false) (pure false) (Linked pdp past) :=
    (Follows.pure false).mono fun _ _ h => h.1
  refine setupDataMode_follows.bind fun b => no.ite ?_
  refine deviceSetMode_follows.bind fun b => no.ite ?_
  refine dteSetMode_follows.bind fun b => (Follows.pure false).ite ?_
  exact netifStart_follows.bind fun _ => .pure true

theorem setMode_dataMode_run (s : Dce) :
    (setMode .dataMode).run s =
      if s.mode = .dataMode ∨ s.mode = .cmuxMode ∨ s.mode.isManual then (false, s)
      else (do
        if !(← enterData) then return false
        setDceMode .dataMode
        return true : ModeM Bool).run s := by
  rw [setMode, if_neg (by simp)]
  change (if _ then _ else _ : ModeM Bool).run s = _
  split <;> rfl

theorem dceModeSet_follows :
    Follows (Heard pdp past) DceMode.set (setMode .dataMode) (Linked pdp past) := by
  intro w s h
  by_cases hm : w.dceMode = .dataMode ∨ w.dceMode = .cmuxMode ∨ w.dceMode.isManual
  · refine ⟨false, w, [], s, ?_, rfl, h.1, fun answers _ => ?_⟩
    · rw [DceMode.set, exec_bind_of_ok exec_get, if_pos hm]
      rfl
    · rw [setMode_dataMode_run, if_pos (h.1.mode ▸ hm)]
  · have enter : Follows (Heard pdp past) (do
        if !(← EspLtePpp.enterData) then return false
        modify fun w : World => { w with dceMode := .dataMode }
        return true) (do
        if !(← enterData) then return false
        setDceMode .dataMode
        return true) (Linked pdp past) := by
      refine enterData_follows.bind fun b => (Follows.pure false).ite ?_
      intro w s h
      exact ⟨true, { w with dceMode := .dataMode }, [], { s with mode := .dataMode }, rfl, rfl,
        ⟨h.idle, h.pdp_eq, rfl, h.dteMode, h.pppStarted, h.exchanged⟩, fun _ _ => rfl⟩
    obtain ⟨a, w', as, s', hrun, hasked, hl, hy⟩ := enter w s h
    refine ⟨a, w', as, s', ?_, hasked, hl, fun answers hans => ?_⟩
    · rw [DceMode.set, exec_bind_of_ok exec_get, if_neg hm]
      exact hrun
    · rw [setMode_dataMode_run, if_neg (h.1.mode ▸ hm)]
      exact hy answers hans

/-- **Data mode byte by byte** is one of the runs of the switch with the results of its exchanges
for answers: it returns the same, writes the same commands and leaves the same modes. -/
theorem dceModeSet_simulated (w : World) (h : w.port.Idle) :
    ∃ b w' answers, exec DceMode.set w = (.ok b, w') ∧
      let r := (setMode .dataMode).run ⟨{ Dte.single with mode := w.dteMode }, w.dceMode,
        w.pppStarted, answers, 0, []⟩
      r.1 = b ∧ r.2.mode = w'.dceMode ∧ r.2.dte.mode = w'.dteMode ∧
        r.2.pppStarted = w'.pppStarted ∧ ∃ xs, exchanges w'.history = exchanges w.history ++ xs ∧
          xs.map (fun x => (x.cmd, x.result)) = commands w.pdp r.2.acts := by
  have hl : Heard w.pdp (exchanges w.history) w ⟨{ Dte.single with mode := w.dteMode }, w.dceMode,
      w.pppStarted, fun _ => anyAnswer, 0, []⟩ :=
    ⟨⟨h, rfl, rfl, rfl, rfl, [], (List.append_nil _).symm, rfl⟩, rfl⟩
  obtain ⟨b, w', as, s', hrun, -, hs, hy⟩ := dceModeSet_follows _ _ hl
  refine ⟨b, w', fun i => as.getD i anyAnswer, hrun, ?_⟩
  have hr := hy (fun i => as.getD i anyAnswer) fun i hi => by simp [hi]
  dsimp only at hr ⊢
  rw [hr]
  exact ⟨rfl, hs.mode, hs.dteMode, hs.pppStarted, hs.exchanged⟩

theorem dceModeSet_simulated_silence :
    let w := World.boot (ascii "internet") [] fun _ => ⟨[], [], [], []⟩
    ∃ b w' answers, exec DceMode.set w = (.ok b, w') ∧
      let r := (setMode .dataMode).run ⟨{ Dte.single with mode := w.dteMode }, w.dceMode,
        w.pppStarted, answers, 0, []⟩
      r.1 = b ∧ r.2.mode = w'.dceMode ∧ r.2.dte.mode = w'.dteMode ∧
        r.2.pppStarted = w'.pppStarted ∧ ∃ xs, exchanges w'.history = exchanges w.history ++ xs ∧
          xs.map (fun x => (x.cmd, x.result)) = commands w.pdp r.2.acts :=
  dceModeSet_simulated _ ⟨rfl, rfl⟩

end Modes

end EspLtePpp
