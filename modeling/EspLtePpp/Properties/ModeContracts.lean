import EspLtePpp.Properties.ModeTruth

/-! # What a request that succeeds has done, and one that cannot

Whatever was asked before, a request that returns `true` has brought the terminals and
PPP to what its mode is for. A multiplexer that was to be left by hand and could not be
closed properly strands the DCE in a mode that no other request leads out of.
-/

namespace EspLtePpp

namespace Modes

variable {u : Terminal} {w w₀ w₁ : Dce} {d d' : Dte} {m : ModemMode} {ppp ok line : Bool}

/-- What is so when a request for `m` has returned `true` to `w₀`. -/
def Serves (w₀ : Dce) (m : ModemMode) (w : Dce) : Prop :=
  match m with
  | .undef => w.mode = .undef
  | .commandMode => w.mode = .commandMode ∧ w.pppStarted = false ∧
      (w₀.mode ≠ .cmuxMode ∨ w₀.dte.cmuxTerm.isSome → w.dte.Attentive)
  | .dataMode => w.mode = .dataMode ∧ w.pppStarted = true ∧ w.dte.Online
  | .cmuxMode => w.mode = .cmuxMode ∧ w.dte.cmuxTerm.isSome ∧ w.dte.Attentive ∧
      w.pppStarted = true ∧ w.dte.Online
  | .cmuxManualMode => w.mode = .cmuxManualMode ∧ w.dte.cmuxTerm.isSome ∧ w.dte.Attentive
  | .cmuxManualExit => w.mode = .commandMode ∧ w.dte.cmuxTerm = none ∧ w.dte.Attentive
  | .cmuxManualSwap => w.dte.primaryTerm = w₀.dte.secondaryTerm ∧
      w.dte.secondaryTerm = w₀.dte.primaryTerm ∧ w.dte.Attentive
  | .cmuxManualData => w.pppStarted = true ∧ w.dte.Online
  | .cmuxManualCommand => w.pppStarted = false ∧ w.dte.Attentive
  | _ => False

namespace Dte

theorem setMode_opened (hm : m = .cmuxMode ∨ m = .cmuxManualMode)
    (hd : d.setMode m line = (true, d')) : d'.mode = m := by
  have setup (he : d.setMode m line = settle m (d.setupCmux line)) : d'.mode = m := by
    rw [hd] at he
    rw [show d' = (settle m (d.setupCmux line)).2 from congrArg Prod.snd he]
    exact settle_mode (settle_fst.symm.trans (congrArg Prod.fst he).symm)
  rcases hm with rfl | rfl
  · by_cases hc : d.mode = .undef ∨ d.mode = .commandMode
    · exact setup (if_pos hc)
    · exact absurd (congrArg Prod.fst ((if_neg hc).symm.trans hd)) (by simp)
  · exact setup rfl

theorem Sound.setMode_exit (h : d.Sound u) (hd : d.setMode .cmuxManualExit line = (true, d')) :
    d'.cmuxTerm = none ∧ d'.Attentive := by
  by_cases hc : d.mode = .cmuxManualMode ∨ d.mode = .undef
  · have he : settle .commandMode (d.exitCmux line) = (true, d') := (if_pos hc).symm.trans hd
    obtain ⟨hw, hn, hok⟩ := h.exitCmux line
    have hs : d.cmuxTerm.isSome := by
      have := settle_fst.symm.trans (congrArg Prod.fst he)
      simp_all
    rw [show d' = (settle .commandMode (d.exitCmux line)).2 from (congrArg Prod.snd he).symm]
    exact ⟨settle_cmuxTerm.trans hn, ((h.attentive (h.ne_of_mux hs)).exitCmux).settle⟩
  · exact absurd (congrArg Prod.fst ((if_neg hc).symm.trans hd)) (by simp)

theorem setMode_swap (hd : d.setMode .cmuxManualSwap line = (true, d')) : d' = d.swap := by
  by_cases hc : d.mode = .cmuxManualMode ∨ d.mode = .undef
  · exact (congrArg Prod.snd ((if_pos hc).symm.trans hd)).symm
  · exact absurd (congrArg Prod.fst ((if_neg hc).symm.trans hd)) (by simp)

end Dte

theorem Asked.sound (h : Asked m ok ppp w₀ w) (hs : w₀.dte.Sound u) : w.dte.Sound u := by
  obtain ⟨line, d, hd, hm⟩ := h
  have hd' := hs.setMode m line
  rw [hd] at hd'
  exact hm.dte ▸ hd'

theorem Asked.mux (h : Asked m true ppp w₀ w) (hs : w₀.dte.Sound u)
    (hm : m = .cmuxMode ∨ m = .cmuxManualMode) : w.dte.cmuxTerm.isSome := by
  have hs' := h.sound hs
  obtain ⟨line, d, hd, hmv⟩ := h
  refine hs'.mux ?_
  rwa [hmv.dte, Dte.setMode_opened hm hd]

theorem Dte.Sound.attentive_of_mux (h : d.Sound u) (hs : d.cmuxTerm.isSome) : d.Attentive :=
  h.attentive (h.ne_of_mux hs)

theorem Does.serves (h : Does w₀ m true w) (hm : (ModeOp.setMode m).Plain ∨ m = .undef)
    (hs : w₀.Sound u) : Serves w₀ m w := by
  cases h with
  | undef h hw => exact hw ▸ rfl
  | dataMode hi h hw => exact hw ▸ ⟨rfl, h.online⟩
  | close hc h hw =>
    subst hw
    refine ⟨rfl, h.pppStarted.1, fun hm => h.attentive (hs.dte.attentive_of_mux ?_)⟩
    exact hm.resolve_left (absurd hc)
  | commandMode hc hi h hw =>
    subst hw
    exact ⟨rfl, h.attentive.1, fun _ => h.attentive.2⟩
  | @cmuxMode _ w₁ w₂ _ hi h hw ht =>
    have he := ht rfl
    have hmux : w₂.dte.cmuxTerm.isSome := hw ▸ h.mux hs.dte (.inl rfl)
    have hs₂ : w₂.Sound u := hw ▸ ⟨h.sound hs.dte, by simp⟩
    have hmux' : w.dte.cmuxTerm.isSome := he.cmuxTerm ▸ hmux
    exact ⟨he.mode.trans (hw ▸ rfl), hmux', (he.sound hs₂).dte.attentive_of_mux hmux', he.online⟩
  | cmuxManualMode hi h hw =>
    have hmux := h.mux hs.dte (.inr rfl)
    exact hw ▸ ⟨rfl, hmux, (h.sound hs.dte).attentive_of_mux hmux⟩
  | cmuxManualExit hb h hw =>
    obtain ⟨line, d, hd, hmv⟩ := h
    exact hw ▸ ⟨rfl, hmv.dte ▸ hs.dte.setMode_exit hd⟩
  | cmuxManualSwap hb h =>
    obtain ⟨line, d, hd, hmv⟩ := h
    have hd' : w.dte = w₀.dte.swap := hmv.dte.trans (Dte.setMode_swap hd)
    exact ⟨by rw [hd']; rfl, by rw [hd']; rfl, by rw [hd']; exact Dte.attach_self⟩
  | cmuxManualData hb h => exact h.online
  | cmuxManualCommand hb h => exact h.attentive
  | _ => simp [ModeOp.Plain] at hm

theorem Dce.setMode_serves (hd : d.Sound u) (answers : ℕ → Answer) (ops : List ModeOp)
    (h : (Dce.boot d answers).run ops = some w) (hm : (ModeOp.setMode m).Plain ∨ m = .undef)
    (ht : ((setMode m).run w).1 = true) : Serves w m ((setMode m).run w).2 := by
  have hs : w.Sound u := Dce.Sound.run ⟨hd, .inl rfl⟩ h
  have hp : setMode m = setPlain m := by
    refine if_neg ?_
    rintro rfl
    simp [ModeOp.Plain] at hm
  have hd := StateTriple.run_relation (setPlain_spec m) w
  rw [hp] at ht ⊢
  rw [ht] at hd
  exact hd.serves hm hs

theorem Dce.setMode_serves_cmux :
    Serves (Dce.boot .single fun _ => ⟨.ok, true, true, .undef⟩) .cmuxMode
      ((setMode .cmuxMode).run (Dce.boot .single fun _ => ⟨.ok, true, true, .undef⟩)).2 :=
  Dce.setMode_serves .single _ [] rfl (.inl (by simp [ModeOp.Plain])) rfl

/-- The DCE believes in a multiplexer that is gone. -/
structure Dce.Stranded (w : Dce) : Prop extends w.Sound .first where
  stuck : w.mode = .cmuxManualMode
  gone : w.dte.cmuxTerm = none

theorem Moved.stranded (h : Moved d ppp w₀ w) (hw : w₀.Stranded) (hd : d.Sound .first)
    (hn : d.cmuxTerm = none) : w.Stranded :=
  ⟨h.sound hw.toSound hd, h.mode.trans hw.stuck, h.dte ▸ hn⟩

theorem Asked.stranded (h : Asked m ok ppp w₀ w) (hw : w₀.Stranded) (hm : m ≠ .cmuxMode)
    (hm' : m ≠ .cmuxManualMode) : w.Stranded := by
  obtain ⟨line, d, hd, hmv⟩ := h
  have hs := hw.dte.setMode m line
  have hf := Dte.setMode_free line hw.gone hm hm'
  rw [hd] at hs hf
  exact hmv.stranded hw hs hf

theorem Stopped.stranded (h : Stopped ok w₀ w) (hw : w₀.Stranded) : w.Stranded := by
  have hn : w₀.dte.hush.cmuxTerm = none := Dte.hush_cmuxTerm.trans hw.gone
  obtain ⟨d, hm, ⟨-, rfl⟩ | ⟨line, hd⟩⟩ := h
  · exact hm.stranded hw hw.dte.hush hn
  · have hs := hw.dte.hush.setMode .commandMode line
    have hf := Dte.setMode_free line hn (m := .commandMode) (by simp) (by simp)
    rw [hd] at hs hf
    exact hm.stranded hw hs hf

theorem Asked.exit_gone (h : Asked .cmuxManualExit ok ppp w₀ w) (hw : w₀.Stranded) :
    ok = false := by
  obtain ⟨line, d, hd, -⟩ := h
  cases ok with
  | false => rfl
  | true =>
    have he : (w₀.dte.exitCmux line).1 = false := by simp [Dte.exitCmux, hw.gone]
    by_cases hc : w₀.dte.mode = .cmuxManualMode ∨ w₀.dte.mode = .undef
    · have hd' := congrArg Prod.fst ((if_pos hc).symm.trans hd)
      rw [Dte.settle_fst, he] at hd'
      cases hd'
    · exact absurd (congrArg Prod.fst ((if_neg hc).symm.trans hd)) (by simp)

theorem Does.stranded (h : Does w₀ m ok w) (hm : (ModeOp.setMode m).Plain) (hw : w₀.Stranded) :
    w.Stranded ∧ (m = .cmuxManualExit → ok = false) := by
  cases h with
  | refused => exact ⟨hw, fun _ => rfl⟩
  | notDialled h => exact ⟨h.stranded hw hw.dte hw.gone, fun _ => rfl⟩
  | dataMode hi => exact absurd hw.stuck hi.ne.2
  | close hc => simp [hw.stuck] at hc
  | commandMode hc hi => simp [hw.stuck, ModemMode.isManual] at hi
  | notOpened hi => exact absurd hw.stuck hi.ne.2
  | cmuxMode hi => exact absurd hw.stuck hi.ne.2
  | cmuxManualMode hi => exact absurd hw.stuck hi.ne.2
  | cmuxManualExit hb h hw' =>
    obtain rfl := h.exit_gone hw
    exact ⟨hw' ▸ h.stranded hw (by simp) (by simp), fun _ => rfl⟩
  | cmuxManualSwap hb h => exact ⟨h.stranded hw (by simp) (by simp), by rintro ⟨⟩⟩
  | cmuxManualData hb h =>
    exact ⟨⟨h.sound hw.toSound, h.mode.trans hw.stuck, h.cmuxTerm.trans hw.gone⟩, by rintro ⟨⟩⟩
  | cmuxManualCommand hb h => exact ⟨h.stranded hw, by rintro ⟨⟩⟩
  | _ => simp [ModeOp.Plain] at hm

theorem Dce.Stranded.apply {op : ModeOp} (hw : w₀.Stranded) (hp : op.Plain)
    (h : w₀.apply op = some w) : w.Stranded := by
  cases op with
  | setMode m =>
    obtain rfl := Option.some.inj h
    exact ((setMode_does hp w₀).stranded hp hw).1
  | pauseNetif doPause force =>
    obtain rfl := Option.some.inj h
    rcases StateTriple.run_relation (pauseNetif_spec doPause force) w₀ with hm | hm | hm
    · exact hm.stranded hw hw.dte.setCommandCallbacks hw.gone
    · exact hm.stranded hw hw.dte hw.gone
    · exact hm.stranded hw hw.dte.setReadCb (Dte.setReadCb_cmuxTerm.trans hw.gone)
  | error =>
    obtain ⟨-, -, rfl⟩ := Option.map_eq_some_iff.mp h
    exact hw

theorem Does.strands (h : Does w₀ .cmuxManualExit false w) (hw : w₀.Sound .first)
    (hm : w₀.mode = .cmuxManualMode) (hd : w₀.dte.mode = .cmuxManualMode) : w.Stranded := by
  cases h with
  | refused hr => simp [Dce.Grants, hm] at hr
  | notDialled _ hm => simp at hm
  | notOpened _ _ hm => simp at hm
  | cmuxManualExit hb h hw' =>
    rw [Dce.become_false] at hw'
    subst hw'
    obtain ⟨line, d, hd', hmv⟩ := h
    have hs := hw.dte.setMode .cmuxManualExit line
    have hn : (w₀.dte.setMode .cmuxManualExit line).2.cmuxTerm = none := by
      simp [Dte.setMode, hd, Dte.settle_cmuxTerm, (hw.dte.exitCmux line).2.1]
    rw [hd'] at hs hn
    exact ⟨hmv.sound hw hs, hmv.mode.trans hm, hmv.dte ▸ hn⟩

/-- Once `CMUX_MANUAL_EXIT` has failed, the multiplexer is gone but the DCE stays in
`CMUX_MANUAL_MODE` whatever it is asked, until a mode is forced on it, and every further
`CMUX_MANUAL_EXIT` fails. -/
theorem Dce.exit_strands (answers : ℕ → Answer) (pre ops : List ModeOp)
    (h : (Dce.boot .single answers).run pre = some w) (hm : w.mode = .cmuxManualMode)
    (hd : w.dte.mode = .cmuxManualMode) (hf : ((setMode .cmuxManualExit).run w).1 = false)
    (hops : ∀ op ∈ ops, op.Plain) :
    ∃ w', ((setMode .cmuxManualExit).run w).2.run ops = some w' ∧ w'.mode = .cmuxManualMode ∧
      w'.dte.cmuxTerm = none ∧ ((setMode .cmuxManualExit).run w').1 = false := by
  have hp : (ModeOp.setMode .cmuxManualExit).Plain := by simp [ModeOp.Plain]
  have hs := Dce.Sound.run (.boot_single answers) h
  have he := setMode_does hp w
  rw [hf] at he
  have hw := he.strands hs hm hd
  obtain ⟨w', hr, -⟩ := hw.toSound.exists_run ops
  have hw' := Dce.run_keeps (fun _ _ _ hp hw h => Dce.Stranded.apply hw hp h) hops hw hr
  exact ⟨w', hr, hw'.stuck, hw'.gone, ((setMode_does hp w').stranded hp hw').2 rfl⟩

theorem Dce.exit_strands_silence :
    let answers := fun n => (⟨.ok, decide (n < 2), true, .undef⟩ : Answer)
    let w := ((setMode .cmuxManualMode).run (Dce.boot .single answers)).2
    ∃ w', ((setMode .cmuxManualExit).run w).2.run [.setMode .cmuxManualMode, .error] = some w' ∧
      w'.mode = .cmuxManualMode ∧ w'.dte.cmuxTerm = none ∧
      ((setMode .cmuxManualExit).run w').1 = false :=
  Dce.exit_strands _ [.setMode .cmuxManualMode] _ rfl rfl rfl rfl (by simp [ModeOp.Plain])

end Modes

end EspLtePpp
