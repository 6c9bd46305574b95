import GreenfieldRelayer.Failures
import GreenfieldRelayer.Runs

/-!
# GreenfieldRelayer — what a claim carries

`processPkgs` (lines 203-245) builds its claim from what the iteration just read, and
`ClaimPackages` (greenfield_executor.go, lines 298-325) wraps it: the claim payload of the first
vote read for the channel and sequence, the aggregate signature and validator bit set of those
votes over the validators read, the `TxTime` of the first package read, with the executor's
address, the configured chain ids, and the configured gas limit and fee. This module shows that
every claim of every run is built so, from the latest package read before it and the reads
after that one.

* **`ClaimBuilt`** says it of one broadcast, from the log before it; **`ClaimsBuilt`** of every
  broadcast of a log, over each split of the log at a broadcast, so that a claim sent twice is
  justified at each sending. It composes over `++` (`ClaimsBuilt.append`);
* **`processPkgs_builds`**, **`claimBatch_builds`**: at most one claim, built from the vote and
  validator reads of the call (`BuildsClaim`); the calibration after a failure claims nothing;
* **`BuildsClaim.claimsBuilt`**: with the package read that opens the iteration in front and
  only silent events between, the claim is built from that read;
* **`deliverPackage_claimsBuilt`**, **`deliverPackages_claimsBuilt`**,
  **`process_claimsBuilt`**, then **`claims_built`** over every run, by induction on the passes.
-/

namespace GreenfieldRelayer

/-- `msg` and `opt` are what `ClaimPackages` builds for the first package `pkg` at `i` from the
reads of `P`: the votes read for channel `c` and `i`, aggregated over validators read, the first
vote's claim payload, the package's `TxTime`, and some nonce. -/
def BuiltFromVotes (setup : Setup) (c : UInt8) (pkg : BscRelayPackage) (i : UInt64)
    (P : List Event) (msg : MsgClaim) (opt : TxOption) : Prop :=
  ∃ v vs vals sig bits n, .votes c i (.ok (v :: vs)) ∈ P ∧ ValidatorsRead vals P ∧
    setup.aggregate (v :: vs) vals = .ok (sig, bits) ∧
    msg = claimMsg setup v.claimPayload sig bits pkg.txTime i ∧ opt = claimTxOption setup n

/-- The claim `msg` was built from the log `pre` before it: the last package read of `pre` is at
the claim's sequence, and the claim is built from its first package and the reads after it. -/
def ClaimBuilt (setup : Setup) (c : UInt8) (pre : List Event) (msg : MsgClaim) (opt : TxOption) :
    Prop :=
  ∃ A pkg pkgs B, pre = A ++ .packages msg.sequence (.ok (pkg :: pkgs)) :: B ∧
    (∀ e ∈ B, e.read? = none) ∧ BuiltFromVotes setup c pkg msg.sequence B msg opt

/-- Every claim broadcast in `log`, at each place it stands, was built from the log before it. -/
def ClaimsBuilt (setup : Setup) (c : UInt8) (log : List Event) : Prop :=
  ∀ pre msg opt r post, log = pre ++ .broadcastTx msg opt r :: post → ClaimBuilt setup c pre msg opt

/-- What one call of `processPkgs` for the first package `pkg` at `i` logs: no claim, or one
claim built from the quiet reads before it, and no claim after it. -/
def BuildsClaim (setup : Setup) (c : UInt8) (pkg : BscRelayPackage) (i : UInt64) (δ : List Event) :
    Prop :=
  claimsOf δ = [] ∨ ∃ P msg opt r Q, δ = P ++ .broadcastTx msg opt r :: Q ∧ Quiet P ∧
    claimsOf Q = [] ∧ BuiltFromVotes setup c pkg i P msg opt

section

variable {setup : Setup} {c : UInt8} {pkg : BscRelayPackage} {i : UInt64} {msg : MsgClaim}
  {opt : TxOption}

theorem BuiltFromVotes.mono {P P' : List Event} (h : BuiltFromVotes setup c pkg i P msg opt)
    (hs : P ⊆ P') : BuiltFromVotes setup c pkg i P' msg opt :=
  let ⟨v, vs, vals, sig, bits, n, hv, hvals, ha, hm, ho⟩ := h
  ⟨v, vs, vals, sig, bits, n, hs hv, hvals.mono hs, ha, hm, ho⟩

theorem BuiltFromVotes.sequence_eq {P : List Event} (h : BuiltFromVotes setup c pkg i P msg opt) :
    msg.sequence = i := by
  obtain ⟨-, -, -, -, -, -, -, -, -, rfl, -⟩ := h
  rfl

theorem ClaimBuilt.append_left {pre : List Event} (h : ClaimBuilt setup c pre msg opt)
    (l : List Event) : ClaimBuilt setup c (l ++ pre) msg opt :=
  let ⟨A, pkg, pkgs, B, hpre, hB, hb⟩ := h
  ⟨l ++ A, pkg, pkgs, B, by simp [hpre], hB, hb⟩

namespace ClaimsBuilt

variable {l δ : List Event}

theorem of_unclaimed (h : claimsOf δ = []) : ClaimsBuilt setup c δ := by
  rintro pre msg opt r post rfl
  simp [Event.claim?] at h

theorem append (h₁ : ClaimsBuilt setup c l) (h₂ : ClaimsBuilt setup c δ) :
    ClaimsBuilt setup c (l ++ δ) := by
  intro pre msg opt r post h
  rcases append_eq_append_cons h with ⟨d, hl, -⟩ | ⟨a', rfl, hδ⟩
  · exact h₁ pre msg opt r d hl
  · exact (h₂ a' msg opt r post hδ).append_left l

end ClaimsBuilt

/-- The one claim of `P ++ b :: Q`, when `P` and `Q` claim nothing. -/
theorem eq_of_only_claim {P Q pre post : List Event} {b b' : Event}
    (h : P ++ b :: Q = pre ++ b' :: post) (hP : claimsOf P = []) (hQ : claimsOf Q = [])
    (hb' : b'.claim?.isSome) : pre = P ∧ b' = b := by
  obtain ⟨x, hx⟩ := Option.isSome_iff_exists.1 hb'
  rcases append_eq_append_cons h with ⟨d, rfl, -⟩ | ⟨_ | ⟨y, a'⟩, rfl, h'⟩
  · simp [hx] at hP
  · obtain ⟨rfl, -⟩ := List.cons.inj h'
    simp
  · obtain ⟨-, rfl⟩ := List.cons.inj h'
    simp [hx] at hQ

namespace BuildsClaim

variable {δ : List Event}

theorem of_broadcast {P Q : List Event} (hP : Quiet P) (hQ : claimsOf Q = [])
    (hb : BuiltFromVotes setup c pkg i P msg opt) (r : Except GoError TxResponse) :
    BuildsClaim setup c pkg i (P ++ .broadcastTx msg opt r :: Q) :=
  .inr ⟨P, msg, opt, r, Q, rfl, hP, hQ, hb⟩

theorem append (h : BuildsClaim setup c pkg i δ) {δ' : List Event} (h' : claimsOf δ' = []) :
    BuildsClaim setup c pkg i (δ ++ δ') := by
  rcases h with h | ⟨P, msg, opt, r, Q, rfl, hP, hQ, hb⟩
  · exact .inl (by simp [h, h'])
  · simpa using of_broadcast hP (Q := Q ++ δ') (by simp [hQ, h']) hb r

/-- The package read that opens the iteration, a silent stretch, then what the claim logs: the
claim, if any, is built from that read. -/
theorem claimsBuilt (h : BuildsClaim setup c pkg i δ) {pkgs : List BscRelayPackage}
    {S : List Event} (hS : ∀ e ∈ S, e.silent) :
    ClaimsBuilt setup c (.packages i (.ok (pkg :: pkgs)) :: (S ++ δ)) := by
  have hS' : claimsOf S = [] :=
    List.filterMap_eq_nil_iff.2 fun e he => Event.claim?_of_silent (hS e he)
  rcases h with h | ⟨P, msg, opt, r, Q, rfl, hP, hQ, hb⟩
  · exact .of_unclaimed (by simp [Event.claim?, hS', h])
  intro pre msg' opt' r' post h
  obtain ⟨rfl, he⟩ := eq_of_only_claim (P := .packages i (.ok (pkg :: pkgs)) :: (S ++ P))
    (by simpa using h) (by simp [Event.claim?, hS', hP.claimsOf_eq]) hQ (by simp [Event.claim?])
  cases he
  refine ⟨[], pkg, pkgs, S ++ P, by simp [hb.sequence_eq], fun e he => ?_, ?_⟩
  · rcases List.mem_append.1 he with he | he
    · exact Event.read?_of_silent (hS e he)
    · exact Event.read?_of_quiet (hP e he)
  · rw [hb.sequence_eq]
    exact hb.mono (List.subset_append_right _ _)

end BuildsClaim

end

theorem worldOf_bind_const {α β : Type} (x : PassM α) (b : β) (w : World) :
    worldOf ((x >>= fun _ => pure b) w) = worldOf (x w) := by
  rw [bind_apply]
  cases x w <;> rfl

section

variable (env : Env) (setup : Setup)

theorem processPkgs_builds (pkg : BscRelayPackage) (pkgs : List BscRelayPackage) (c : UInt8)
    (i n : UInt64) (isInturn : Bool) (w : World) {δ : List Event}
    (hδ : (worldOf (processPkgs env setup (pkg :: pkgs) c i n isInturn w)).log = w.log ++ δ) :
    BuildsClaim setup c pkg i δ := by
  generalize hr : processPkgs env setup (pkg :: pkgs) c i n isInturn w = r at hδ
  simp only [processPkgs, getVotesByChannelIdAndSequence, askE_bind_apply] at hr
  split at hr
  swap
  · subst hr; simp at hδ; subst hδ
    exact .inl (by simp [Event.claim?])
  next votes _ =>
  obtain ⟨δ₁, hq₁, -, h₁⟩ := queryCachedLatestValidators_spec env
    { w with log := w.log ++ [.votes c i (.ok votes)] }
  have hq : Quiet (.votes c i (.ok votes) :: δ₁) :=
    List.forall_mem_cons.2 ⟨rfl, hq₁⟩
  rcases h₁ with ⟨vals, h₁⟩ | ⟨e, h₁⟩
  swap
  · rw [bind_of_error h₁] at hr
    subst hr; simp at hδ; subst hδ
    exact .inl hq.claimsOf_eq
  rw [bind_of_ok h₁] at hr
  obtain ⟨δ₂, hl₂, hvals⟩ := queryCachedLatestValidators_read env h₁
  obtain rfl := List.append_cancel_left hl₂
  simp only [liftExcept_bind_apply] at hr
  rcases ha : setup.aggregate votes vals with e | ⟨sig, bits⟩ <;> simp only [ha] at hr
  · subst hr; simp at hδ; subst hδ
    exact .inl hq.claimsOf_eq
  rcases votes with _ | ⟨v, vs⟩
  · simp only [index0, throw_bind_apply] at hr
    subst hr; simp at hδ; subst hδ
    exact .inl hq.claimsOf_eq
  simp only [index0, pure_bind, claimPackages, bind_assoc, askE_bind_apply] at hr
  -- the claim is built from the votes and validators just read
  have hb : BuiltFromVotes setup c pkg i (.votes c i (.ok (v :: vs)) :: δ₁)
      (claimMsg setup v.claimPayload sig bits pkg.txTime i) (claimTxOption setup n) :=
    ⟨v, vs, vals, sig, bits, n, List.mem_cons_self _ _, hvals.mono (List.subset_cons_self _ _),
      ha, rfl, rfl⟩
  split at hr
  case h_2 e _ =>
    subst hr; simp at hδ; subst hδ
    exact .of_broadcast hq (Q := []) rfl hb _
  case h_1 resp _ =>
  by_cases hc : resp.code = 0
  swap
  · simp only [ne_eq, hc, not_false_eq_true, if_true, throw_bind_apply] at hr
    subst hr; simp at hδ; subst hδ
    exact .of_broadcast hq (Q := []) rfl hb _
  simp only [hc, ne_eq, not_true_eq_false, if_false, pure_bind, emit_bind_apply] at hr
  cases isInturn
  · simp only [Bool.not_false, if_true, updateBatchPackagesClaimedTxHash, askE_apply] at hr
    split at hr <;> (subst hr; simp at hδ; subst hδ)
    all_goals exact .of_broadcast hq (by simp [Event.claim?]) hb _
  · simp only [Bool.not_true, Bool.false_eq_true, if_false,
      updateBatchPackagesStatusAndClaimedTxHash, askE_bind_apply] at hr
    split at hr <;> (subst hr; simp at hδ; subst hδ)
    all_goals exact .of_broadcast hq (by simp [Event.claim?]) hb _

/-- `claimBatch` claims as `processPkgs` does: the calibration after a failure claims
nothing. -/
theorem claimBatch_builds (pkg : BscRelayPackage) (pkgs : List BscRelayPackage) (c : UInt8)
    (i : UInt64) (isInturn : Bool) (w : World) :
    ∃ δ, (worldOf (claimBatch env setup (pkg :: pkgs) c i isInturn w)).log = w.log ++ δ ∧
      BuildsClaim setup c pkg i δ := by
  obtain ⟨δp, hp, -⟩ := processPkgs_spec env setup (pkg :: pkgs) c i w.asm.relayerNonce isInturn w
  have hb := processPkgs_builds env setup pkg pkgs c i _ isInturn w hp
  simp only [claimBatch, getAsm_bind_apply]
  rcases hr : processPkgs env setup (pkg :: pkgs) c i w.asm.relayerNonce isInturn w with
    ⟨u, w₁⟩ | ⟨e, w₁⟩ <;> simp only [hr, worldOf_ok, worldOf_error] at hp
  · rw [onError_bind_of_ok hr, modifyAsm_apply]
    exact ⟨δp, hp, hb⟩
  cases hpan : e.isPanic
  · obtain ⟨e', δc, a', hc, hq, -⟩ := calibrate_spec env setup isInturn e w₁
    rw [onError_bind_of_error hr hpan, bind_of_error hc]
    exact ⟨δp ++ δc, by simp [hp], hb.append hq.claimsOf_eq⟩
  · rw [onError_bind_of_panic hr hpan]
    exact ⟨δp, hp, hb⟩

/-- An iteration that reaches `claimBatch` after its read and a silent stretch `S`: its claim,
if any, is built from that read. -/
theorem claimBatch_claimsBuilt (isInturn : Bool) (c : UInt8) (i : UInt64) {pkg : BscRelayPackage}
    {pkgs : List BscRelayPackage} {S δ : List Event} {w W : World} (hS : ∀ e ∈ S, e.silent)
    (hW : W.log = w.log ++ .packages i (.ok (pkg :: pkgs)) :: S)
    (hδ : (worldOf ((claimBatch env setup (pkg :: pkgs) c i isInturn >>= fun _ => pure true) W)).log =
      w.log ++ δ) :
    ClaimsBuilt setup c δ := by
  obtain ⟨δb, hl, hb⟩ := claimBatch_builds env setup pkg pkgs c i isInturn W
  rw [worldOf_bind_const, hl, hW] at hδ
  simp only [List.append_assoc, List.cons_append, List.append_cancel_left_eq] at hδ
  exact hδ ▸ hb.claimsBuilt hS

theorem deliverPackage_claimsBuilt (isInturn : Bool) (c : UInt8) (i : UInt64) (w : World)
    {δ : List Event} (hδ : (worldOf (deliverPackage env setup isInturn c i w)).log = w.log ++ δ) :
    ClaimsBuilt setup c δ := by
  generalize hr : deliverPackage env setup isInturn c i w = r at hδ
  simp only [deliverPackage, getPackagesByOracleSequence, askE_bind_apply] at hr
  split at hr
  swap
  · subst hr; simp at hδ; subst hδ
    exact .of_unclaimed (by simp [Event.claim?])
  next pkgs _ =>
  rcases pkgs with _ | ⟨pkg, pkgs⟩
  · subst hr; simp at hδ; subst hδ
    exact .of_unclaimed (by simp [Event.claim?])
  obtain ⟨δf, a₁, hf, hu, -⟩ := flagDelay_spec env setup i pkg.txTime
    ⟨w.asm, w.log ++ [.packages i (.ok (pkg :: pkgs))]⟩
  dsimp only at hr
  rw [bind_of_ok hf] at hr
  by_cases hst : pkg.status ≠ .allVoted ∧ pkg.status ≠ .delivered
  · rw [if_pos hst, throw_bind_apply] at hr
    subst hr; simp at hδ; subst hδ
    exact .of_unclaimed (by simp [Event.claim?, hu.claimsOf_eq])
  rw [if_neg hst, pure_bind] at hr
  cases isInturn
  · simp only [Bool.not_false, if_true, timeNow, ask_bind_apply] at hr
    generalize env.now (w.log ++ [.packages i (.ok (pkg :: pkgs))] ++ δf) = t at hr
    split at hr
    · subst hr; simp at hδ; subst hδ
      exact .of_unclaimed (by simp [Event.claim?, hu.claimsOf_eq])
    · subst hr
      exact claimBatch_claimsBuilt env setup false c i (hu.append_now t).silent (by simp) hδ
  · simp only [Bool.not_true, Bool.false_eq_true, if_false, pure_bind] at hr
    subst hr
    exact claimBatch_claimsBuilt env setup true c i hu.silent (by simp) hδ

theorem deliverPackages_claimsBuilt (isInturn : Bool) (c : UInt8) (endSeq : UInt64) (fuel : Nat) :
    ∀ i w, ClaimsBuilt setup c w.log →
      ClaimsBuilt setup c (worldOf (deliverPackages env setup isInturn c endSeq fuel i w)).log := by
  induction fuel with
  | zero => intro i w hw; simpa [deliverPackages] using hw
  | succ fuel ih =>
    intro i w hw
    simp only [deliverPackages]
    split
    · obtain ⟨events, hlog, -⟩ := deliverPackage_spec env setup isInturn c i w
      have h₁ := hw.append (deliverPackage_claimsBuilt env setup isInturn c i w hlog)
      rw [← hlog] at h₁
      rcases hd : deliverPackage env setup isInturn c i w with ⟨b, w₁⟩ | ⟨e, w₁⟩ <;>
        rw [hd] at h₁
      · rw [bind_of_ok hd]
        cases b
        · simpa using h₁
        · simpa using ih (i + 1) w₁ h₁
      · rw [bind_of_error hd]
        exact h₁
    · simpa using hw

/-- A pass keeps `ClaimsBuilt`: `prepare` and the reconciliation claim nothing, and every claim
of the loop is built from the read of its iteration. -/
theorem process_claimsBuilt (channelId : UInt8) (w : World)
    (hw : ClaimsBuilt setup channelId w.log) :
    ClaimsBuilt setup channelId (worldOf (process env setup channelId w)).log := by
  obtain ⟨δ₁, hl₁, hq₁, -⟩ := prepare_spec env setup channelId w
  have h₁ : ClaimsBuilt setup channelId (worldOf (prepare env setup channelId w)).log :=
    hl₁ ▸ hw.append (.of_unclaimed hq₁.claimsOf_eq)
  simp only [process]
  rcases hp : prepare env setup channelId w with ⟨_ | win, w₁⟩ | ⟨e, w₁⟩ <;> rw [hp] at h₁
  · rw [bind_of_ok hp]
    exact h₁
  · rw [bind_of_ok hp]
    obtain ⟨δ, a', hrec, hδ⟩ := reconcileAlerts_spec win.startSeq w₁
    dsimp only
    rw [bind_of_ok hrec]
    refine deliverPackages_claimsBuilt env setup _ _ _ _ _ _ (h₁.append (.of_unclaimed ?_))
    rcases hδ with ⟨rfl, -⟩ | ⟨rfl, -⟩ <;> rfl
  · rw [bind_of_error hp]
    exact h₁

/-- **Every claim is built from the relayer's own reads.** Over any run of passes from a fresh
assembler, in either role and with any answers, each claim broadcast, at each place it stands in
the log, follows a read of the packages at its sequence with no package read between; between
the two the relayer read non-empty votes for the oracle channel and that sequence and a
validator set over which they aggregate, and the claim carries the first vote's payload, the
aggregate signature and bit set, the first package's `TxTime`, the executor's address, the
configured chain ids, gas limit and fee, and no simulation. -/
theorem claims_built (key : List UInt8) (n : Nat) :
    ClaimsBuilt setup setup.config.oracleChannelId (runPasses env setup n (freshWorld key)).log := by
  induction n with
  | zero => exact .of_unclaimed rfl
  | succ n ih => exact process_claimsBuilt env setup _ _ ih

end

end GreenfieldRelayer
