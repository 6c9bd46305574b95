import GreenfieldRelayer.PassLaws

/-!
# GreenfieldRelayer — runs of passes

`assemblePackagesAndClaimForOracleChannel` runs `process` on every tick, each pass from the
world the one before left, whatever it returned. A run is `runPasses`: since the environment
answers from the whole log, the runs of every environment cover every sequence of responses.

* **`process_gauge_iff`** and **`process_alertSet_emptied`**: one pass keeps the delay gauge in
  step with the alert set, and empties the set only past its largest member;
* **`gauge_iff_runPasses`** and **`delay_alert_consistency`**: so does every run from a fresh
  assembler, by induction on the number of passes;
* **`calibration_pairs_new_nonce_with_old_sequence`**: the in-turn calibration writes the nonce
  it read before it reads the sequence, so a failed second read leaves a nonce from the next
  block paired with the sequence of an earlier read;
* **`cursor_lockstep`**: that is the only way to break the lockstep: over every run with no
  such half-failed calibration, `relayerNonce - NextDeliverySeq` is the difference of the pair
  read together last;
* **`claims_in_lockstep`**: so every claim of every run, in either role, is sent with
  `nonce - sequence` equal to that difference, unless a calibration failed half-way before it.
-/

namespace GreenfieldRelayer

/-- The world of a new assembler with key `key`, before any pass. -/
def freshWorld (key : List UInt8) : World := ⟨newBSCAssembler key, []⟩

/-- `n` consecutive passes from `w`, as `assemblePackagesAndClaimForOracleChannel` runs them:
each starts where the one before left the world, whether it returned, returned early or
failed. -/
def runPasses (env : Env) (setup : Setup) : Nat → World → World
  | 0, w => w
  | n + 1, w => worldOf (process env setup setup.config.oracleChannelId (runPasses env setup n w))

section

variable (env : Env) (setup : Setup)

/-- One pass keeps the delay gauge in step with the alert set. -/
theorem process_gauge_iff (channelId : UInt8) (w : World)
    (hinv : lastHasTxDelay w.log = true ↔ w.asm.alertSet ≠ []) :
    let w' := worldOf (process env setup channelId w)
    lastHasTxDelay w'.log = true ↔ w'.asm.alertSet ≠ [] := by
  intro w'
  obtain ⟨δ₁, hl₁, hq₁, ha₁, -, -, -⟩ := prepare_spec env setup channelId w
  rcases process_cases env setup channelId w with
    ⟨hr, -⟩ | ⟨win, w₁, δ₂, a', its, hp, -, hδ₂, hrun, hlog, hasm, -⟩
  · -- the pass stopped in `prepare`, which touches neither
    show lastHasTxDelay (worldOf _).log = true ↔ (worldOf _).asm.alertSet ≠ []
    rw [hr, hl₁, hq₁.lastHasTxDelay_eq, ha₁]
    exact hinv
  simp only [hp, worldOf_ok] at hl₁ ha₁
  -- the reconciliation either does nothing or clears both
  have h₀ : lastHasTxDelay (w.log ++ δ₁ ++ δ₂) = true ↔ a'.alertSet ≠ [] := by
    rcases hδ₂ with ⟨rfl, rfl⟩ | ⟨rfl, rfl, -, -⟩
    · rw [List.append_nil, hq₁.lastHasTxDelay_eq, ha₁]; exact hinv
    · rw [lastHasTxDelay_append_set]; simp
  show lastHasTxDelay (worldOf _).log = true ↔ (worldOf _).asm.alertSet ≠ []
  rw [hasm, hlog]
  simpa [hl₁] using hrun.gauge_iff h₀

/-- A pass empties a non-empty alert set only when it enters the loop with a start sequence past
every member. -/
theorem process_alertSet_emptied (channelId : UInt8) (w : World) (hne : w.asm.alertSet ≠ [])
    (hempty : (worldOf (process env setup channelId w)).asm.alertSet = []) :
    ∃ win w₁, prepare env setup channelId w = .ok (some win) w₁ ∧
      ∀ k ∈ w.asm.alertSet, k.toNat < win.startSeq.toNat := by
  obtain ⟨δ₁, -, -, ha₁, -, -, -⟩ := prepare_spec env setup channelId w
  rcases process_cases env setup channelId w with
    ⟨hr, -⟩ | ⟨win, w₁, δ₂, a', its, hp, -, hδ₂, hrun, -, hasm, -⟩
  · rw [hr] at hempty; exact absurd (ha₁ ▸ hempty) hne
  simp only [hp, worldOf_ok] at ha₁
  -- the loop only adds to the set, so it was empty when the loop began
  have h₀ : a'.alertSet = [] := List.eq_nil_iff_forall_not_mem.2 fun x hx => by
    simpa [← hasm, hempty] using hrun.mem_alertSet hx
  rcases hδ₂ with ⟨-, rfl⟩ | ⟨-, -, -, hgt⟩
  · exact absurd (ha₁ ▸ h₀) hne
  · exact ⟨win, w₁, hp, fun k hk => lt_of_le_of_lt (le_maxTxSeqOfAlert (ha₁ ▸ hk)) hgt⟩

/-- Every run from a fresh assembler keeps the delay gauge in step with the alert set. -/
theorem gauge_iff_runPasses (key : List UInt8) (n : Nat) :
    lastHasTxDelay (runPasses env setup n (freshWorld key)).log = true ↔
      (runPasses env setup n (freshWorld key)).asm.alertSet ≠ [] := by
  induction n with
  | zero => simp [runPasses, freshWorld, lastHasTxDelay, newBSCAssembler]
  | succ n ih => exact process_gauge_iff env setup _ _ ih

/-- **Delay-alert consistency over whole runs.** After any number of passes from a fresh
assembler, the last value written to the delay gauge (`false` before any) is `true` exactly
when the alert set is non-empty; and a pass empties a non-empty set only when it enters the loop
with a start sequence past every member. -/
theorem delay_alert_consistency (key : List UInt8) (n : Nat) :
    (lastHasTxDelay (runPasses env setup n (freshWorld key)).log = true ↔
      (runPasses env setup n (freshWorld key)).asm.alertSet ≠ []) ∧
    ((runPasses env setup n (freshWorld key)).asm.alertSet ≠ [] →
      (runPasses env setup (n + 1) (freshWorld key)).asm.alertSet = [] →
      ∃ win w₁, prepare env setup setup.config.oracleChannelId (runPasses env setup n (freshWorld key)) =
          .ok (some win) w₁ ∧
        ∀ k ∈ (runPasses env setup n (freshWorld key)).asm.alertSet, k.toNat < win.startSeq.toNat) :=
  ⟨gauge_iff_runPasses env setup key n, process_alertSet_emptied env setup _ _⟩

end

/-! ## A calibration that fails half-way -/

/-- An in-turn scene where the chain rejects the claim and the calibration's read of the next
delivery sequence fails. -/
def halfCalibratedScene : Scene where
  inturnKey := "0a"
  start := 5
  recalibrated := .error (.call "rpc")
  nextSend := 6
  latest := 5
  stored := [5]
  txTime := 0
  clock := 100
  timeout := 120
  accepts := 0

/-- One in-turn pass of that scene from a fresh assembler: the cursor is established from the
pair `(5, 10)` read together, the claim is rejected, the calibration reads nonce `11` and then
fails to read the sequence. The pass ends with nonce `11` beside `NextDeliverySeq = 5`, so
`relayerNonce - NextDeliverySeq` is `6`, no longer `10 - 5`. -/
theorem calibration_pairs_new_nonce_with_old_sequence :
    halfCalibratedScene.pass.asm.inturnRelayerSequenceStatus = ⟨true, 5⟩ ∧
      halfCalibratedScene.pass.asm.relayerNonce = 11 ∧
      [Event.nextDeliveryOracleSequence 97 (.ok 5), .nonce (.ok 10)] <:+: halfCalibratedScene.pass.log ∧
      [Event.nonceOnNextBlock (.ok 11), .nextDeliveryOracleSequence 97 (.error (.call "rpc"))] <:+:
        halfCalibratedScene.pass.log := by
  decide

/-! ## The cursor's lockstep over runs -/

/-- **The lockstep of the in-turn cursor**: wherever the assembler holds a retrieved cursor,
`relayerNonce - NextDeliverySeq` is `n - s` for the pair `(n, s)` read together last, after
which no nonce or sequence was read. -/
def Lockstep (w : World) : Prop :=
  w.asm.inturnRelayerSequenceStatus.hasRetrieved = true →
    ∃ n s, LastReadTogether n s w.log ∧ w.asm.nonceOffset = n - s

theorem Lockstep.follows {w : World} {δ : List Event} {a' : BSCAssembler} (h : Lockstep w)
    (hf : CursorFollows w.asm δ a') (hδ : ¬ HalfCalibration δ) : Lockstep ⟨a', w.log ++ δ⟩ :=
  fun hr => by
    rcases hf hr with ⟨h₀, hu, ho⟩ | ⟨n, s, hl, ho⟩ | hh
    · obtain ⟨n, s, hl, ho'⟩ := h h₀
      exact ⟨n, s, hl.append_right hu, ho.trans ho'⟩
    · exact ⟨n, s, hl.append_left _, ho⟩
    · exact absurd hh hδ

/-- A new assembler holds no cursor. -/
theorem lockstep_freshWorld (key : List UInt8) : Lockstep (freshWorld key) := fun h => by
  simp [freshWorld, newBSCAssembler] at h

section

variable (env : Env) (setup : Setup)

/-- The run lemma: passes from a world in `Lockstep` keep it, as long as no calibration fails
half-way. -/
theorem lockstep_runPasses (w : World) (hw : Lockstep w) (n : Nat)
    (hcal : ¬ HalfCalibration (runPasses env setup n w).log) : Lockstep (runPasses env setup n w) := by
  induction n with
  | zero => exact hw
  | succ n ih =>
    obtain ⟨δ, hlog, hf⟩ := process_cursorFollows env setup setup.config.oracleChannelId
      (runPasses env setup n w)
    have hstep : runPasses env setup (n + 1) w = worldOf (process env setup
        setup.config.oracleChannelId (runPasses env setup n w)) := rfl
    rw [hstep, hlog] at hcal
    rw [hstep]
    generalize worldOf (process env setup setup.config.oracleChannelId
      (runPasses env setup n w)) = w' at hlog hf
    obtain ⟨a', l'⟩ := w'
    simp only at hlog hf
    subst hlog
    exact (ih fun h => hcal (h.append_right δ)).follows hf fun h => hcal (h.append_left _)

/-- **The in-turn cursor stays in lockstep over every run with no half-failed calibration.**
After any number of passes from a fresh assembler, with any roles, answers and failures: if no
calibration read the nonce at the next block and then failed to read the sequence, a retrieved
cursor has `relayerNonce - NextDeliverySeq = n - s` for the pair `(n, s)` read together last. -/
theorem cursor_lockstep (key : List UInt8) (n : Nat)
    (hcal : ¬ HalfCalibration (runPasses env setup n (freshWorld key)).log) :
    Lockstep (runPasses env setup n (freshWorld key)) :=
  lockstep_runPasses env setup _ (lockstep_freshWorld key) n hcal

end

/-- The in-turn scene of `halfCalibratedScene` where the calibration reads both: the nonce `11`
and the sequence `6`. -/
def fullCalibrationScene : Scene := { halfCalibratedScene with recalibrated := .ok 6 }

theorem cursor_lockstep_after_calibration :
    ¬ HalfCalibration (runPasses fullCalibrationScene.env fullCalibrationScene.setup 1
        (freshWorld [10])).log ∧
      Lockstep (runPasses fullCalibrationScene.env fullCalibrationScene.setup 1 (freshWorld [10])) :=
  have hcal : ¬ HalfCalibration (runPasses fullCalibrationScene.env fullCalibrationScene.setup 1
      (freshWorld [10])).log := not_halfCalibration_of_all (by decide)
  ⟨hcal, cursor_lockstep _ _ [10] 1 hcal⟩

/-! ## Claims sent in lockstep -/

/-- **Claims in lockstep**: every claim of the log is sent with `nonce - sequence = n - s` for the
pair `(n, s)` read together last before it, wherever no calibration failed half-way before it. -/
def ClaimsInLockstep (log : List Event) : Prop :=
  ∀ pre msg opt res post, log = pre ++ Event.broadcastTx msg opt res :: post →
    ¬ HalfCalibration pre → ∃ n s, LastReadTogether n s pre ∧ opt.nonce - msg.sequence = n - s

section

variable (env : Env) (setup : Setup)

/-- A pass from a world in `Lockstep` sends its claims in lockstep: in turn at the offset the
cursor holds, in stand-by at the offset of the pair the pass itself read. -/
theorem process_claim_lockstep (channelId : UInt8) (w : World) (hw : Lockstep w)
    {pre post : List Event} {msg : MsgClaim} {opt : TxOption} {res : Except GoError TxResponse}
    (heq : (worldOf (process env setup channelId w)).log =
      w.log ++ pre ++ .broadcastTx msg opt res :: post)
    (hcal : ¬ HalfCalibration (w.log ++ pre)) :
    ∃ n s, LastReadTogether n s (w.log ++ pre) ∧ opt.nonce - msg.sequence = n - s := by
  obtain ⟨win, w₁, δ₁, δ₂, a', its, pre', hp, hl₁, hδ₂, hrun, rfl, hrest, -⟩ :=
    process_loop_event env setup channelId w (by rfl) (by rfl) heq
  obtain ⟨δ₁', hl₁', -, -, -, -, hwin, hcf₁, -⟩ := prepare_spec env setup channelId w
  simp only [hp, worldOf_ok] at hl₁' hwin hcf₁
  obtain rfl : δ₁ = δ₁' := List.append_cancel_left (hl₁.symm.trans hl₁')
  obtain ⟨-, hin, -, hsr⟩ := hwin win w₁ rfl
  have hu₂ : NoCursorRead δ₂ := by
    rcases hδ₂ with ⟨rfl, -⟩ | ⟨rfl, -⟩ <;> simp [NoCursorRead, Event.cursorRead]
  have hna : a'.relayerNonce = w₁.asm.relayerNonce := by
    rcases hδ₂ with ⟨-, rfl⟩ | ⟨-, rfl, -⟩ <;> rfl
  obtain ⟨hpre, hoff⟩ := hrun.claim_offset hrest rfl
  -- the offset the loop began with is that of the pair read together last before it
  suffices h : ∃ n s, LastReadTogether n s (w.log ++ δ₁) ∧ w₁.asm.relayerNonce - win.startSeq = n - s by
    obtain ⟨n, s, hl, ho⟩ := h
    refine ⟨n, s, ?_, by rw [← ho, ← hna]; exact hoff⟩
    simpa using (hl.append_right hu₂).append_right hpre
  cases hturn : win.isInturn
  · obtain ⟨n, hl, hn⟩ := hsr hturn
    exact ⟨n, win.startSeq, hl.append_left _, by rw [hn]⟩
  · have hhalf : ¬ HalfCalibration δ₁ := fun h => hcal (by simpa using (h.append_left w.log).append_right (δ₂ ++ pre'))
    obtain ⟨n, s, hl, ho⟩ := hw.follows hcf₁ hhalf (by rw [(hin hturn).1])
    exact ⟨n, s, hl, by rw [← ho, BSCAssembler.nonceOffset, (hin hturn).1]⟩

/-- **Every claim of every run is sent in lockstep.** Over any number of passes from a fresh
assembler, with any roles, answers and failures, each claim is sent with `nonce - sequence`
equal to `n - s` for the nonce and sequence `(n, s)` read together last before it, unless a
calibration failed half-way before it: a claim never pairs a nonce with a sequence from
different readings of the chains. -/
theorem claims_in_lockstep (key : List UInt8) (n : Nat) :
    ClaimsInLockstep (runPasses env setup n (freshWorld key)).log := by
  induction n with
  | zero => intro pre msg opt res post h; simp [runPasses, freshWorld] at h
  | succ n ih =>
    intro pre msg opt res post heq hcal
    obtain ⟨δ, hlog, -⟩ := process_cursorFollows env setup setup.config.oracleChannelId
      (runPasses env setup n (freshWorld key))
    have hstep : runPasses env setup (n + 1) (freshWorld key) = worldOf (process env setup
        setup.config.oracleChannelId (runPasses env setup n (freshWorld key))) := rfl
    rw [hstep, hlog] at heq
    rcases append_eq_append_cons heq with ⟨c, hA, -⟩ | ⟨a'', rfl, hB⟩
    · -- a claim of an earlier pass
      exact ih pre msg opt res c hA hcal
    · -- a claim of this pass, which starts in lockstep
      have hw := lockstep_runPasses env setup _ (lockstep_freshWorld key) n
        fun h => hcal (h.append_right a'')
      exact process_claim_lockstep env setup _ _ hw (by rw [hlog, hB, List.append_assoc]) hcal

end

/-- After the half-failed calibration of `halfCalibratedScene`, the next pass claims sequence `5`
with nonce `11`, though the only pair ever read together is `(10, 5)`. -/
example : claimsOf (runPasses halfCalibratedScene.env halfCalibratedScene.setup 2
    (freshWorld [10])).log = [(5, 10), (5, 11)] := by
  decide

end GreenfieldRelayer
