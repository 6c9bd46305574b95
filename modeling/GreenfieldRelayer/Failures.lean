import GreenfieldRelayer.PassLaws

/-!
# GreenfieldRelayer — why a pass fails

`assemblePackagesAndClaimForOracleChannel` logs the error each pass returns and tries again at
the next tick. This module says where such an error comes from: every error a pass returns has
a cause among the events that pass logged. Either a call it made to a chain or a store answered
with that error, or the code raised it at one of its own checks.

Each check raises its error after the event that shows its reason. So each cause is found in
what the function that raises it logged, and the result is built bottom-up:

* **`FailureCause`** lists the causes, one constructor per error site of the source;
* **`Explained`**: a failure from `w` to `w'` whose cause is in what was logged since `w`;
  it carries over a stretch before it that went through (`Explained.of_earlier`);
* one lemma per function, from **`decideRole_fails`** to **`deliverPackage_fails`**, where the
  in-turn calibration returns the error of `processPkgs`, or the one of its own reads;
* **`deliverPackages_fails`**: the loop, by induction on the fuel;
* **`process_failure_cause`**: the pass.
-/

namespace GreenfieldRelayer

/-- The error a call of a chain or of a store answered. -/
def Event.error? : Event → Option GoError
  | .inturnRelayer (.error e) | .nextDeliveryOracleSequence _ (.error e) | .nonce (.error e)
  | .nonceOnNextBlock (.error e) | .nextSendSequence (.error e) | .latestOracleSequence _ (.error e)
  | .packages _ (.error e) | .votes _ _ (.error e) | .latestValidators (.error e)
  | .broadcastTx _ _ (.error e) | .updateClaimedTxHash _ _ (.error e)
  | .updateStatusAndClaimedTxHash _ _ _ (.error e) => some e
  | _ => none

/-- The validators a query read in `δ`: a non-empty cache, or the chain's answer on a miss. -/
def ValidatorsRead (vals : List Validator) (δ : List Event) : Prop :=
  (.cachedValidators vals ∈ δ ∧ vals ≠ []) ∨ .latestValidators (.ok vals) ∈ δ

theorem ValidatorsRead.mono {vals : List Validator} {δ δ' : List Event} (h : ValidatorsRead vals δ)
    (hs : δ ⊆ δ') : ValidatorsRead vals δ' :=
  h.imp (.imp_left (hs ·)) (hs ·)

/-- Why a pass may fail with `e`, read off what it logged, `δ`. -/
inductive FailureCause (setup : Setup) (δ : List Event) : GoError → Prop
  /-- A call of a chain or of a store answered `e`. -/
  | call {e : GoError} (h : ∃ ev ∈ δ, ev.error? = some e) : FailureCause setup δ e
  /-- Line 66: the in-turn relayer's key is not hex. -/
  | badKey {r : QueryInturnRelayerResponse} {he : HexError} (hr : .inturnRelayer (.ok r) ∈ δ)
      (hd : decodeString r.blsPubKey = .error he) : FailureCause setup δ (.hex he)
  /-- Line 87: the clock reads before the start of the relay interval. -/
  | clockSkew {now : BitVec 64} {start : UInt64} (hn : .now now ∈ δ)
      (hlt : (now - start.toBitVec).slt 0 = true) : FailureCause setup δ (.clockSkew now start)
  /-- Line 169: the first package read at `i` has not got enough votes. -/
  | notEnoughVotes {i : UInt64} {pkg : BscRelayPackage} {pkgs : List BscRelayPackage}
      (hr : .packages i (.ok (pkg :: pkgs)) ∈ δ)
      (hs : pkg.status ≠ .allVoted ∧ pkg.status ≠ .delivered) :
      FailureCause setup δ (.notEnoughVotes i)
  /-- Line 215: the votes read do not aggregate over the validators read. -/
  | aggregate {c : UInt8} {i : UInt64} {votes : List Vote} {vals : List Validator} {e : GoError}
      (hv : .votes c i (.ok votes) ∈ δ) (hvals : ValidatorsRead vals δ)
      (ha : setup.aggregate votes vals = .error e) : FailureCause setup δ e
  /-- Line 220: `votes[0]` of an empty vote list panics. -/
  | noVotes {c : UInt8} {i : UInt64} (hv : .votes c i (.ok []) ∈ δ) :
      FailureCause setup δ (.indexOutOfRange 0 0)
  /-- `ClaimPackages`, line 321: the chain answered the claim with a non-zero code. -/
  | claimRejected {msg : MsgClaim} {opt : TxOption} {resp : TxResponse}
      (hb : .broadcastTx msg opt (.ok resp) ∈ δ) (hc : resp.code ≠ 0) :
      FailureCause setup δ (.claimRejected resp.code resp.rawLog)

namespace FailureCause

variable {setup : Setup} {δ δ' : List Event} {e : GoError}

theorem mono (h : FailureCause setup δ e) (hs : δ ⊆ δ') : FailureCause setup δ' e := by
  cases h with
  | call h => exact .call (let ⟨ev, hev, he⟩ := h; ⟨ev, hs hev, he⟩)
  | badKey hr hd => exact .badKey (hs hr) hd
  | clockSkew hn hlt => exact .clockSkew (hs hn) hlt
  | notEnoughVotes hr hst => exact .notEnoughVotes (hs hr) hst
  | aggregate hv hvals ha => exact .aggregate (hs hv) (hvals.mono hs) ha
  | noVotes hv => exact .noVotes (hs hv)
  | claimRejected hb hc => exact .claimRejected (hs hb) hc

end FailureCause

/-- A failure from `w` to `w'` with `e`, whose cause is in what was logged since `w`. -/
def Explained (setup : Setup) (w : World) (e : GoError) (w' : World) : Prop :=
  ∃ δ, w'.log = w.log ++ δ ∧ FailureCause setup δ e

namespace Explained

variable {setup : Setup} {w₀ w w₁ w' : World} {e : GoError}

/-- The call logged last, after `l`, answered `e`. -/
theorem of_last {l : List Event} {ev : Event} (hl : w'.log = l ++ [ev]) (hp : w.log <+: l)
    (h : ev.error? = some e) : Explained setup w e w' :=
  let ⟨δ, hδ⟩ := hp
  ⟨δ ++ [ev], by rw [hl, ← hδ, List.append_assoc], .call ⟨ev, by simp, h⟩⟩

/-- A stretch that went through keeps the cause in what was logged since. -/
theorem of_earlier {δ₁ : List Event} (h : Explained setup w₁ e w') (h₁ : w₁.log = w.log ++ δ₁) :
    Explained setup w e w' :=
  let ⟨δ, hl, hc⟩ := h
  ⟨δ₁ ++ δ, by simp [hl, h₁], hc.mono (List.subset_append_right _ _)⟩

theorem log_grows (h : Explained setup w e w') : w.log <+: w'.log :=
  let ⟨δ, hδ, _⟩ := h
  ⟨δ, hδ.symm⟩

/-- A failure stays explained by what was logged since, whatever is logged after it. -/
theorem extend (h : Explained setup w₀ e w) (hl : w.log <+: w'.log) : Explained setup w₀ e w' :=
  let ⟨δ, hδ, hc⟩ := h
  let ⟨δ', hδ'⟩ := hl
  ⟨δ ++ δ', by rw [← hδ', hδ, List.append_assoc], hc.mono (List.subset_append_left _ _)⟩

/-- A failure of `x >>= f`: of `x`, or of `f` after `x` went through and logged. -/
theorem of_bind {α β : Type} {x : PassM α} {f : α → PassM β} (h : (x >>= f) w = .error e w')
    (hgrow : ∃ δ, (worldOf (x w)).log = w.log ++ δ)
    (hx : ∀ e w', x w = .error e w' → Explained setup w e w')
    (hf : ∀ a w₁, x w = .ok a w₁ → f a w₁ = .error e w' → Explained setup w₁ e w') :
    Explained setup w e w' := by
  rcases hx' : x w with ⟨a, w₁⟩ | ⟨e₁, w₁⟩
  · rw [bind_of_ok hx'] at h
    obtain ⟨δ, hδ⟩ := hgrow
    rw [hx', worldOf_ok] at hδ
    exact (hf a w₁ hx' h).of_earlier hδ
  · rw [bind_of_error hx'] at h
    cases h
    exact hx _ _ hx'

end Explained

section

variable (env : Env) (setup : Setup) {w w' : World} {e : GoError}

/-! ## The functions of a pass, one by one -/

theorem decideRole_fails (h : decideRole env w = .error e w') : Explained setup w e w' := by
  simp only [decideRole, getInturnRelayer, askE_bind_apply] at h
  split at h
  · next ir _ =>
    rcases hd : decodeString ir.blsPubKey with he | key
    · simp only [hd, Except.mapError, liftExcept_bind_apply] at h
      cases h
      exact ⟨_, rfl, .badKey (List.mem_singleton_self _) hd⟩
    · simp [hd, Except.mapError, liftExcept] at h
  · cases h
    exact .of_last rfl (List.prefix_refl _) rfl

theorem establishCursor_fails (isInturn : Bool) (ir : QueryInturnRelayerResponse)
    (h : establishCursor env setup isInturn ir w = .error e w') : Explained setup w e w' := by
  cases isInturn
  · simp only [establishCursor, Bool.false_eq_true, if_false, modifyAsm_bind_apply, emit_bind_apply,
      getNextDeliveryOracleSequence, getNonce, askE_bind_apply] at h
    split at h
    · split at h
      · simp at h
      · cases h
        exact .of_last rfl (by simp) rfl
    · cases h
      exact .of_last rfl (by simp) rfl
  · simp only [establishCursor, if_true, getAsm_bind_apply] at h
    cases hret : w.asm.inturnRelayerSequenceStatus.hasRetrieved
    · simp only [hret, Bool.not_false, if_true, timeNow, ask_bind_apply] at h
      split at h
      · -- the clock reads inside the grace period, or before the relay interval
        split at h
        · simp only [throw_bind_apply] at h
          cases h
          exact ⟨_, rfl, .clockSkew (List.mem_singleton_self _) ‹_›⟩
        · simp at h
      · simp only [pure_bind, getNextDeliveryOracleSequence, getNonce, askE_bind_apply] at h
        split at h
        · split at h
          · simp at h
          · cases h
            exact .of_last rfl (by simp) rfl
        · cases h
          exact .of_last rfl (by simp) rfl
    · simp [hret] at h

theorem updateMetrics_fails (channelId : UInt8) (s : UInt64)
    (h : updateMetrics env channelId s w = .error e w') : Explained setup w e w' := by
  simp only [updateMetrics, getNextSendSequence, emit_bind_apply, askE_bind_apply] at h
  split at h
  · simp at h
  · cases h
    exact .of_last rfl (by simp) rfl

theorem selectEndSequence_fails (isInturn : Bool)
    (h : selectEndSequence env isInturn w = .error e w') : Explained setup w e w' := by
  cases isInturn <;>
    simp only [selectEndSequence, Bool.false_eq_true, if_false, if_true, getNextSendSequence,
      getLatestOracleSequenceByStatus, askE_bind_apply] at h <;>
    split at h
  all_goals first
    | (cases h; exact .of_last rfl (List.prefix_refl _) rfl)
    | (split at h <;> simp at h)
    | simp at h

/-- **`prepare` fails only for a cause it logged.** -/
theorem prepare_fails (channelId : UInt8) (h : prepare env setup channelId w = .error e w') :
    Explained setup w e w' := by
  simp only [prepare] at h
  obtain ⟨δ₁, hw₁, -⟩ := decideRole_spec env w
  refine Explained.of_bind h ⟨δ₁, by rw [hw₁]⟩ (fun _ _ => decideRole_fails env setup)
    fun ⟨b, ir⟩ w₁ _ h => ?_
  obtain ⟨δ₂, hl₂, -⟩ := establishCursor_spec env setup b ir w₁
  refine Explained.of_bind h ⟨δ₂, hl₂⟩ (fun _ _ => establishCursor_fails env setup b ir) fun o w₂ _ h => ?_
  rcases o with _ | s
  · simp at h
  obtain ⟨δ₃, hw₃, -⟩ := updateMetrics_spec env channelId s w₂
  refine Explained.of_bind h ⟨δ₃, by rw [hw₃]⟩ (fun _ _ => updateMetrics_fails env setup channelId s)
    fun _ w₃ _ h => ?_
  obtain ⟨ev, hw₄, -⟩ := selectEndSequence_spec env b w₃
  refine Explained.of_bind h ⟨[ev], by rw [hw₄]⟩ (fun _ _ => selectEndSequence_fails env setup b)
    fun o _ _ h => ?_
  rcases o with _ | E <;> simp at h

/-! ## The body of the loop -/

/-- The validators the query returns are the ones it read: a non-empty cache, or the chain's
answer on a miss. -/
theorem queryCachedLatestValidators_read {vals : List Validator}
    (h : queryCachedLatestValidators env w = .ok vals w') :
    ∃ δ, w'.log = w.log ++ δ ∧ ValidatorsRead vals δ := by
  simp only [queryCachedLatestValidators, bind_apply, pure_apply, ask_apply] at h
  by_cases hc : env.cachedValidators w.log = []
  · simp only [hc, ne_eq, not_true_eq_false, if_false, pure_bind, askE_apply] at h
    split at h
    · cases h
      exact ⟨[.cachedValidators [], .latestValidators (.ok vals)], by simp, .inr (by simp)⟩
    · cases h
  · simp only [hc, ne_eq, not_false_eq_true, if_true] at h
    cases h
    exact ⟨_, rfl, .inl ⟨by simp, hc⟩⟩

theorem queryCachedLatestValidators_fails (h : queryCachedLatestValidators env w = .error e w') :
    Explained setup w e w' := by
  simp only [queryCachedLatestValidators, bind_apply, pure_apply, ask_apply] at h
  by_cases hc : env.cachedValidators w.log = []
  · simp only [hc, ne_eq, not_true_eq_false, if_false, pure_bind, askE_apply] at h
    split at h
    · cases h
    · cases h
      exact .of_last rfl (by simp) rfl
  · simp [hc] at h

theorem claimPackages_fails (payload sig : List UInt8) (bits : List UInt64) (ts : BitVec 64)
    (seq n : UInt64) (h : claimPackages env setup payload sig bits ts seq n w = .error e w') :
    Explained setup w e w' := by
  simp only [claimPackages, askE_bind_apply] at h
  split at h
  · split at h
    · simp only [throw_bind_apply] at h
      cases h
      exact ⟨_, rfl, .claimRejected (List.mem_singleton_self _) ‹_›⟩
    · simp at h
  · cases h
    exact .of_last rfl (List.prefix_refl _) rfl

/-- `processPkgs` fails only for a cause it logged: a read, the aggregation of the votes it
read, an empty vote list, the claim, or the write. -/
theorem processPkgs_fails (pkg : BscRelayPackage) (pkgs : List BscRelayPackage) (channelId : UInt8)
    (i n : UInt64) (isInturn : Bool)
    (h : processPkgs env setup (pkg :: pkgs) channelId i n isInturn w = .error e w') :
    Explained setup w e w' := by
  simp only [processPkgs, getVotesByChannelIdAndSequence, askE_bind_apply] at h
  split at h
  swap
  · cases h
    exact .of_last rfl (List.prefix_refl _) rfl
  next votes _ =>
  rcases hq : queryCachedLatestValidators env
    { w with log := w.log ++ [.votes channelId i (.ok votes)] } with ⟨vals, w₁⟩ | ⟨e₁, w₁⟩
  swap
  · rw [bind_of_error hq] at h
    cases h
    exact (queryCachedLatestValidators_fails env setup hq).of_earlier rfl
  rw [bind_of_ok hq] at h
  obtain ⟨δ₁, hl₁, hvals⟩ := queryCachedLatestValidators_read env hq
  -- the votes and the validators are read before anything can fail
  have hpre : w₁.log = w.log ++ .votes channelId i (.ok votes) :: δ₁ := by simp [hl₁]
  simp only [liftExcept_bind_apply] at h
  rcases ha : setup.aggregate votes vals with e₂ | ⟨sig, bits⟩ <;> simp only [ha] at h
  · cases h
    exact ⟨_, hpre, .aggregate (List.mem_cons_self _ _)
      (hvals.mono (List.subset_cons_self _ _)) ha⟩
  rcases votes with _ | ⟨vote, votes⟩
  · simp only [index0, throw_bind_apply] at h
    cases h
    exact ⟨_, hpre, .noVotes (List.mem_cons_self _ _)⟩
  simp only [index0, pure_bind] at h
  refine Explained.of_earlier ?_ hpre
  refine Explained.of_bind h ?_ (fun _ _ => claimPackages_fails env setup _ _ _ _ _ _)
    fun txHash w₂ _ h => ?_
  · simp only [claimPackages, askE_bind_apply]
    split
    · split <;> simp
    · simp
  cases isInturn
  · simp only [emit_bind_apply, Bool.not_false, if_true, updateBatchPackagesClaimedTxHash,
      askE_apply] at h
    split at h
    · cases h
    · cases h
      exact .of_last rfl (by simp) rfl
  · simp only [emit_bind_apply, Bool.not_true, Bool.false_eq_true, if_false,
      updateBatchPackagesStatusAndClaimedTxHash, askE_bind_apply] at h
    split at h
    · cases h
    · cases h
      exact .of_last rfl (by simp) rfl

/-- The calibration fails with the error of `processPkgs`, or with one of its own reads. -/
theorem calibrate_fails {w₀ : World} {err : GoError} (herr : Explained setup w₀ err w)
    (isInturn : Bool) (h : calibrate env setup isInturn err w = .error e w') :
    Explained setup w₀ e w' := by
  cases isInturn
  · simp only [calibrate, Bool.not_false, if_true, throw_bind_apply] at h
    cases h
    exact herr
  have hp := herr.log_grows
  simp only [calibrate, Bool.not_true, Bool.false_eq_true, if_false, pure_bind,
    getNonceOnNextBlock, getNextDeliveryOracleSequence, askE_bind_apply] at h
  split at h
  · simp only [modifyAsm_bind_apply, askE_bind_apply] at h
    split at h
    · simp only [modifyAsm_bind_apply, throw_apply] at h
      cases h
      exact herr.extend (by simp)
    · cases h
      exact .of_last rfl (hp.trans (by simp)) rfl
  · cases h
    exact .of_last rfl hp rfl

theorem claimBatch_fails (pkg : BscRelayPackage) (pkgs : List BscRelayPackage) (channelId : UInt8)
    (i : UInt64) (isInturn : Bool)
    (h : claimBatch env setup (pkg :: pkgs) channelId i isInturn w = .error e w') :
    Explained setup w e w' := by
  simp only [claimBatch, getAsm_bind_apply] at h
  rcases hp : processPkgs env setup (pkg :: pkgs) channelId i w.asm.relayerNonce isInturn w with
    ⟨u, w₁⟩ | ⟨e₁, w₁⟩
  · rw [onError_bind_of_ok hp, modifyAsm_apply] at h
    cases h
  have hx := processPkgs_fails env setup pkg pkgs channelId i _ isInturn hp
  cases hpanic : e₁.isPanic
  · -- an `err`: the calibration runs, and fails
    rw [onError_bind_of_error hp hpanic] at h
    rcases hc : calibrate env setup isInturn e₁ w₁ with ⟨u, w₂⟩ | ⟨e₂, w₂⟩
    · obtain ⟨e', δ, a', hc', -⟩ := calibrate_spec env setup isInturn e₁ w₁
      rw [hc] at hc'
      cases hc'
    rw [bind_of_error hc] at h
    cases h
    exact calibrate_fails env setup hx isInturn hc
  · -- a panic passes the calibration by
    rw [onError_bind_of_panic hp hpanic] at h
    cases h
    exact hx

/-- The body of the loop fails only for a cause it logged. -/
theorem deliverPackage_fails (isInturn : Bool) (channelId : UInt8) (i : UInt64)
    (h : deliverPackage env setup isInturn channelId i w = .error e w') :
    Explained setup w e w' := by
  simp only [deliverPackage, getPackagesByOracleSequence, askE_bind_apply] at h
  split at h
  swap
  · cases h
    exact .of_last rfl (List.prefix_refl _) rfl
  next pkgs _ =>
  rcases pkgs with _ | ⟨pkg, pkgs⟩
  · simp at h
  obtain ⟨δf, a₁, hf, -⟩ := flagDelay_spec env setup i pkg.txTime
    ⟨w.asm, w.log ++ [.packages i (.ok (pkg :: pkgs))]⟩
  dsimp only at h
  rw [bind_of_ok hf] at h
  have hpre : (⟨a₁, w.log ++ [.packages i (.ok (pkg :: pkgs))] ++ δf⟩ : World).log =
      w.log ++ .packages i (.ok (pkg :: pkgs)) :: δf := by simp
  by_cases hst : pkg.status ≠ .allVoted ∧ pkg.status ≠ .delivered
  · rw [if_pos hst, throw_bind_apply] at h
    cases h
    exact ⟨_, hpre, .notEnoughVotes (List.mem_cons_self _ _) hst⟩
  rw [if_neg hst, pure_bind] at h
  refine Explained.of_earlier ?_ hpre
  cases isInturn
  · simp only [Bool.not_false, if_true, timeNow, ask_bind_apply] at h
    split at h
    · simp at h
    · simp only [pure_bind, bind_apply, pure_apply] at h
      split at h
      · simp at h
      · next hc =>
        cases h
        exact (claimBatch_fails env setup pkg pkgs channelId i false hc).of_earlier rfl
  · simp only [Bool.not_true, Bool.false_eq_true, if_false, pure_bind, bind_apply] at h
    split at h
    · simp at h
    · next hc =>
      cases h
      exact claimBatch_fails env setup pkg pkgs channelId i true hc

/-! ## The loop and the pass -/

theorem deliverPackages_fails (isInturn : Bool) (channelId : UInt8) (endSeq : UInt64) (fuel : Nat) :
    ∀ i w, deliverPackages env setup isInturn channelId endSeq fuel i w = .error e w' →
      Explained setup w e w' := by
  induction fuel with
  | zero => intro i w h; simp [deliverPackages] at h
  | succ fuel ih =>
    intro i w h
    simp only [deliverPackages] at h
    split at h
    · obtain ⟨events, hlog, -⟩ := deliverPackage_spec env setup isInturn channelId i w
      refine Explained.of_bind h ⟨events, hlog⟩
        (fun _ _ => deliverPackage_fails env setup isInturn channelId i) fun b w₁ _ h => ?_
      cases b
      · simp at h
      · exact ih (i + 1) w₁ h
    · simp at h

/-- **Every failure of a pass has a cause in what the pass logged.** When `process` returns an
error, the pass logged a call of a chain or a store that answered it, or the error is one the
code raises itself, at its own condition: an in-turn key that is not hex, a clock before the
relay interval, a first package without enough votes, votes that do not aggregate over the
validators read, an empty vote list, or a claim the chain answered with a non-zero code. -/
theorem process_failure_cause (channelId : UInt8) (w : World) {e : GoError} {w' : World}
    (h : process env setup channelId w = .error e w') :
    ∃ δ, w'.log = w.log ++ δ ∧ FailureCause setup δ e := by
  simp only [process] at h
  obtain ⟨δ₁, hl₁, -⟩ := prepare_spec env setup channelId w
  refine Explained.of_bind h ⟨δ₁, hl₁⟩ (fun _ _ => prepare_fails env setup channelId)
    fun o w₁ _ h => ?_
  rcases o with _ | win
  · simp at h
  obtain ⟨δ, a', hrec, -⟩ := reconcileAlerts_spec win.startSeq w₁
  dsimp only at h
  rw [bind_of_ok hrec] at h
  exact (deliverPackages_fails env setup _ _ _ _ _ _ h).of_earlier rfl

end

/-- The stand-by scene of `edgeScene`, where the package stored at `5` has only been saved. -/
def unvotedEnv : Env :=
  { edgeScene.env with
    getPackagesByOracleSequence := fun _ i => .ok [{ edgeScene.package i with status := .saved }] }

/-- A stand-by pass over `unvotedEnv` fails at `5` for want of votes, and says why. -/
theorem process_failure_cause_unvoted :
    process unvotedEnv edgeScene.setup 0 ⟨newBSCAssembler [10], []⟩ = .error (.notEnoughVotes 5)
        (worldOf (process unvotedEnv edgeScene.setup 0 ⟨newBSCAssembler [10], []⟩)) ∧
      ∃ δ, (worldOf (process unvotedEnv edgeScene.setup 0 ⟨newBSCAssembler [10], []⟩)).log =
        (⟨newBSCAssembler [10], []⟩ : World).log ++ δ ∧
        FailureCause edgeScene.setup δ (.notEnoughVotes 5) :=
  have h : process unvotedEnv edgeScene.setup 0 ⟨newBSCAssembler [10], []⟩ = .error (.notEnoughVotes 5)
      (worldOf (process unvotedEnv edgeScene.setup 0 ⟨newBSCAssembler [10], []⟩)) := rfl
  ⟨h, process_failure_cause unvotedEnv edgeScene.setup 0 _ h⟩

end GreenfieldRelayer
