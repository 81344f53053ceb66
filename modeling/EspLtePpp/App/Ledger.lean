import EspLtePpp.App.Exchanges

/-! # The ledger of a run

What one command leaves unread is what the next one finds on the line. So over a whole
run every byte the modem sends is handed to exactly one callback, in order, or is
still on its way at the end.
-/

namespace EspLtePpp

open Exec World

variable {turns : ℕ → Turn} {start left : Bytes} {xs : List Exchange} {x : Exchange} {w : World}
  {e : Event}

/-- The commands `xs` follow one another on a line that held `start`, and leave `left`. -/
inductive Ledger (turns : ℕ → Turn) (start : Bytes) : List Exchange → Bytes → Prop where

  | nil : Ledger turns start [] start

  | snoc {xs : List Exchange} {x : Exchange} {left : Bytes} : Ledger turns start xs x.stale →
      x.reply = (turns xs.length).reply → x.stale ++ x.reply = x.handed ++ left →
      ((turns xs.length).Delivers x.stale.length →
        (x.stale ++ x.reply).length ≤ dteBufferSize → x.Timely) →
      Ledger turns start (xs ++ [x]) left

theorem Ledger.conserved (h : Ledger turns start xs left) :
    start ++ (List.range xs.length).flatMap (fun n => (turns n).reply) =
      xs.flatMap Exchange.handed ++ left := by
  induction h with
  | nil => simp
  | @snoc xs x left _ hreply hcons _ ih =>
    rw [List.length_append, List.length_singleton, List.range_succ, List.flatMap_append,
      ← List.append_assoc, ih, List.flatMap_append]
    simp only [List.flatMap_singleton, ← hreply, List.append_assoc, hcons]

theorem Ledger.of_append {ys : List Exchange} (h : Ledger turns start (xs ++ x :: ys) left) :
    Ledger turns start xs x.stale ∧ ((turns xs.length).Delivers x.stale.length →
      (x.stale ++ x.reply).length ≤ dteBufferSize → x.Timely) := by
  induction ys using List.reverseRecOn generalizing left with
  | nil =>
    generalize hl : xs ++ [x] = l at h
    cases h with
    | nil => simp at hl
    | snoc h _ _ ht =>
      obtain ⟨rfl, hx⟩ := List.append_inj' hl rfl
      obtain rfl := List.singleton_inj.mp hx
      exact ⟨h, ht⟩
  | append_singleton ys y ih =>
    rw [← List.cons_append, ← List.append_assoc] at h
    generalize hl : xs ++ x :: ys ++ [y] = l at h
    cases h with
    | nil => simp at hl
    | snoc h _ _ _ =>
      obtain ⟨rfl, -⟩ := List.append_inj' hl rfl
      exact ih h

structure Booked (turns : ℕ → Turn) (start : Bytes) (w : World) : Prop where
  turns_eq : w.turns = turns
  idle : w.port.Idle
  sent_eq : w.sent = (exchanges w.history).length
  ledger : Ledger turns start (exchanges w.history) w.port.outstanding

theorem Booked.record (h : Booked turns start w) (he : e.exchange? = none) :
    Booked turns start (w.record [e]) := by
  have hexch : exchanges (w.history ++ [e]) = exchanges w.history := by
    simp [exchanges, he]
  constructor
  · exact h.turns_eq
  · exact h.idle
  · rw [World.record, hexch]
    exact h.sent_eq
  · rw [World.record, hexch]
    exact h.ledger

theorem preserves_command (cmd : Bytes) (g : GotLine) (timeMs : ℕ) :
    Preserves (Booked turns start) (command cmd g timeMs) := by
  intro w h
  obtain ⟨x, o, p, hx, hp, -, hstale, hreply, hcons, -, -, ht⟩ := exec_command h.idle cmd g timeMs
  have hexch : exchanges (w.history ++ [.exchange x]) = exchanges w.history ++ [x] := by
    simp [exchanges, Event.exchange?]
  rw [hx]
  constructor
  · exact h.turns_eq
  · exact hp
  · change w.sent + 1 = (exchanges (w.history ++ [.exchange x])).length
    rw [hexch, List.length_append, List.length_singleton, h.sent_eq]
  · change Ledger turns start (exchanges (w.history ++ [.exchange x])) p.outstanding
    rw [hexch]
    rw [h.turns_eq, h.sent_eq] at hreply ht
    exact .snoc (hstale ▸ h.ledger) hreply hcons ht

theorem preserves_emit (he : e.exchange? = none) : Preserves (Booked turns start) (emit e) :=
  preserves_modify fun _ h => h.record he

theorem preserves_emitIf (c : Prop) [Decidable c] (he : e.exchange? = none) :
    Preserves (Booked turns start) (emitIf c e) :=
  (preserves_emit he).ite (preserves_pure _)

theorem preserves_genericGetString (cmd : Bytes) (timeoutMs : ℕ) :
    Preserves (Booked turns start) (genericGetString cmd timeoutMs) := preserves_command _ _ _

theorem preserves_genericCommand (cmd : Bytes) (pass fail : List Bytes) (timeoutMs : ℕ) :
    Preserves (Booked turns start) (genericCommand cmd pass fail timeoutMs) :=
  (preserves_command _ _ _).bind fun _ => preserves_pure _

theorem preserves_copyOut {size : ℕ} (pOut : CharArray size) (out : Bytes) :
    Preserves (Booked turns start) (copyOut pOut out) :=
  (preserves_emit rfl).bind fun _ => preserves_pure _

theorem preserves_espModemReadPin : Preserves (Booked turns start) espModemReadPin := by
  refine Preserves.bind ?_ fun _ => (preserves_emit rfl).bind fun _ => preserves_pure _
  exact (preserves_genericGetString _ _).bind fun _ => preserves_pure _

theorem preserves_askAndReport {size : ℕ} (cmd : Bytes) (buf : CharArray size) (timeout : ℕ) :
    Preserves (Booked turns start) (askAndReport cmd buf timeout) := by
  refine Preserves.bind ?_ fun _ => (preserves_emitIf _ rfl).bind fun _ => preserves_pure _
  refine (preserves_genericGetString _ _).bind fun _ => Preserves.ite ?_ (preserves_pure _)
  exact (preserves_copyOut _ _).bind fun _ => preserves_pure _

theorem preserves_reportImei : Preserves (Booked turns start) reportImei := by
  refine Preserves.bind ?_ fun _ => preserves_emitIf _ rfl
  refine (preserves_genericGetString _ _).bind fun _ => Preserves.ite ?_ (preserves_pure _)
  exact (preserves_copyOut _ _).bind fun _ => preserves_pure _

theorem preserves_reportSignalQuality : Preserves (Booked turns start) reportSignalQuality := by
  refine Preserves.bind ?_ fun _ => preserves_emitIf _ rfl
  refine Preserves.bind ?_ fun _ => preserves_pure _
  exact (preserves_genericGetString _ _).bind fun _ => preserves_pure _

theorem preserves_waitForSim (polls : ℕ) (pinOk : Bool) (retryCount : ℕ) :
    Preserves (Booked turns start) (waitForSim polls pinOk retryCount) := by
  induction polls generalizing pinOk retryCount with
  | zero => exact preserves_throw _
  | succ polls ih =>
    refine preserves_espModemReadPin.bind fun _ => Preserves.ite (preserves_emit rfl) ?_
    exact (preserves_emitIf _ rfl).bind fun _ => ih _ _

theorem preserves_askModem : Preserves (Booked turns start) askModem := by
  refine (preserves_askAndReport _ _ _).bind fun _ => preserves_reportImei.bind fun _ => ?_
  refine (preserves_askAndReport _ _ _).bind fun _ => ?_
  refine (preserves_askAndReport _ _ _).bind fun _ => ?_
  refine (preserves_askAndReport _ _ _).bind fun _ => ?_
  exact preserves_reportSignalQuality.bind fun _ => preserves_pure _

theorem preserves_setupDataMode :
    Preserves (Booked turns start) GenericModule.setupDataMode := by
  refine (preserves_genericCommand _ _ _ _).bind fun _ => Preserves.ite (preserves_pure _) ?_
  refine preserves_get_bind fun w h => ?_
  have hset : Preserves (Booked turns start) (do
      if (← setPdpContext w.pdp) ≠ .ok then return false
      return true) :=
    (preserves_genericCommand _ _ _ _).bind fun _ => (preserves_pure _).ite (preserves_pure _)
  exact hset w h

theorem preserves_setMode : Preserves (Booked turns start) GenericModule.setMode := by
  refine (preserves_genericCommand _ _ _ _).bind fun _ => Preserves.ite ?_ (preserves_pure _)
  exact (preserves_genericCommand _ _ _ _).bind fun _ => preserves_pure _

theorem preserves_dteSetMode : Preserves (Booked turns start) Dte.setMode := by
  refine (preserves_modify fun w h => ?_).bind fun _ => preserves_pure _
  split
  · exact h
  · exact ⟨h.turns_eq, h.idle, h.sent_eq, h.ledger⟩

theorem preserves_netifStart : Preserves (Booked turns start) Netif.start := by
  refine preserves_get_bind fun w h => ?_
  cases hs : w.pppStarted with
  | true => exact h
  | false =>
    have hr := h.record (e := .pppStarted) rfl
    exact ⟨hr.turns_eq, hr.idle, hr.sent_eq, hr.ledger⟩

theorem preserves_enterData : Preserves (Booked turns start) enterData := by
  refine preserves_setupDataMode.bind fun _ => Preserves.ite (preserves_pure _) ?_
  refine preserves_setMode.bind fun _ => Preserves.ite (preserves_pure _) ?_
  refine preserves_dteSetMode.bind fun _ => Preserves.ite (preserves_pure _) ?_
  exact preserves_netifStart.bind fun _ => preserves_pure _

theorem preserves_espModemSetMode : Preserves (Booked turns start) espModemSetMode := by
  refine Preserves.bind ?_ fun _ => preserves_pure _
  refine preserves_get_bind fun w h => ?_
  have hset : Preserves (Booked turns start) (do
      if !(← enterData) then return false
      modify fun w : World => { w with dceMode := .dataMode }
      return true) := by
    refine preserves_enterData.bind fun _ => Preserves.ite (preserves_pure _) ?_
    refine (preserves_modify fun w h => ?_).bind fun _ => preserves_pure _
    exact ⟨h.turns_eq, h.idle, h.sent_eq, h.ledger⟩
  exact (preserves_pure false).ite hset w h

theorem preserves_dial (modemApn apn : Bytes) :
    Preserves (Booked turns start) (dial modemApn apn) := by
  have hset : Preserves (Booked turns start)
      (if apn ≠ modemApn then espModemSetApn apn else pure ()) := by
    refine Preserves.ite (preserves_modify fun w h => ?_) (preserves_pure _)
    exact ⟨h.turns_eq, h.idle, h.sent_eq, h.ledger⟩
  refine hset.bind fun _ => preserves_espModemSetMode.bind fun _ => ?_
  exact (preserves_throw _).ite (preserves_pure _)

theorem preserves_appMain (modemApn : Bytes) (polls : ℕ) :
    Preserves (Booked turns start) (appMain modemApn polls) :=
  (preserves_waitForSim _ _ _).bind fun _ => preserves_askModem.bind fun _ =>
    (preserves_emit rfl).bind fun _ => preserves_dial _ _

theorem booked_boot (modemApn start : Bytes) (turns : ℕ → Turn) :
    Booked turns start (.boot modemApn start turns) :=
  ⟨rfl, ⟨rfl, rfl⟩, rfl, .nil⟩

theorem ledger_history (modemApn : CString) (sentAlready : Bytes) (turns : ℕ → Turn)
    (polls : ℕ) :
    ∃ left, Ledger turns sentAlready (exchanges (history modemApn sentAlready turns polls)) left :=
  ⟨_, (preserves_appMain modemApn.bytes polls _ (booked_boot _ _ _)).ledger⟩

theorem Ledger.timely {n : ℕ} (h : Ledger turns start xs left) (hx : xs[n]? = some x)
    (hd : (turns n).Delivers x.stale.length)
    (hfit : (x.stale ++ x.reply).length ≤ dteBufferSize) : x.Timely := by
  obtain ⟨hn, rfl⟩ := List.getElem?_eq_some_iff.mp hx
  have hsplit : xs = xs.take n ++ xs[n] :: xs.drop (n + 1) := by simp
  rw [hsplit] at h
  have ht := h.of_append.2
  rw [List.length_take_of_le hn.le] at ht
  exact ht hd hfit

/--
A command is timely when, within the DTE buffer, everything on the line for it arrives
and a round of the UART task follows before its wait ends.
-/
theorem history_timely (modemApn : CString) (sentAlready : Bytes) (turns : ℕ → Turn)
    (polls n : ℕ) (hx : (exchanges (history modemApn sentAlready turns polls))[n]? = some x)
    (hd : (turns n).Delivers x.stale.length)
    (hfit : (x.stale ++ x.reply).length ≤ dteBufferSize) : x.Timely := by
  obtain ⟨left, h⟩ := ledger_history modemApn sentAlready turns polls
  exact h.timely hx hd hfit

def piecewiseTurns (_ : ℕ) : Turn :=
  ⟨[], [], [.arrive 3, .task, .arrive 4, .task], ascii "ERROR\r\n"⟩

theorem history_timely_inPieces :
    ∃ x, (exchanges (history ⟨ascii "internet", by decide⟩ [] piecewiseTurns 1))[0]? = some x ∧
      x.Timely := by
  have hsome :
      (exchanges (history ⟨ascii "internet", by decide⟩ [] piecewiseTurns 1))[0]?.isSome := by
    decide +kernel
  have hline : ∀ x ∈ (exchanges (history ⟨ascii "internet", by decide⟩ [] piecewiseTurns 1))[0]?,
      x.stale = [] ∧ (x.stale ++ x.reply).length ≤ dteBufferSize := by
    decide +kernel
  obtain ⟨x, hx⟩ := Option.isSome_iff_exists.mp hsome
  obtain ⟨hstale, hfit⟩ := hline x hx
  exact ⟨x, hx, history_timely _ _ _ _ _ hx
    ⟨[.arrive 3, .task, .arrive 4], [], rfl, by rw [hstale]; decide⟩ hfit⟩

end EspLtePpp
