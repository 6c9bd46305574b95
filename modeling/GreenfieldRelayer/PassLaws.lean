import GreenfieldRelayer.Process

/-!
# GreenfieldRelayer — what one pass guarantees

The laws of a single pass of `process`, each assembled from `process_cases`, `prepare_spec`,
`reconcileAlerts_spec` and the `LoopRun` lemmas, never from an unfolding of the code:

* **`process_claim_discipline`**: the loop runs from the assembler the reconciliation leaves,
  and the pass ends with the one its last iteration leaves; its claims are for consecutive
  sequences from `startSeq` with consecutive nonces from the one the loop began with; every
  claim but the last is `Completed`; a claim follows, in its own iteration, a non-empty read of
  its sequence with enough votes and, in stand-by, a clock reading `t` with `t ≥ txTime + timeout`
  in Go's wrapping `int64` sum, hence as integers whenever that sum does not overflow;
  **`standBy_claims_inside_timeout`**: when it overflows, a stand-by relayer claims inside the
  in-turn relayer's timeout, which the comment of line 172 forbids;
* **`process_window`**: the loop reads `startSeq, startSeq + 1, …` up to `uint64(endSequence)`,
  which is the `AllVoted` height (never `-1`) in turn and `next_send_sequence` itself in
  stand-by; only a bound of `2^64 - 1` lets the index wrap;
* **`deliverPackages_fuel_eq`**: below that bound the loop ends through its own exits, so any
  fuel that covers the window, the `2^64` of `process` among them, gives the same program;
* **`process_gap_not_bridged`**: a read that finds no package ends the loop: nothing after it
  is read or claimed, and the pass returns no error;
* **`process_store_effects`**: over the same run of the loop, every store write carries the ids
  its iteration read and the hash of its accepted claim; `Delivered` is written only in turn and
  leaves the cursor at `i + 1` for the next iteration; a stand-by pass writes no status, keeps
  the in-turn cursor and clears the retrieval flag;
* **`getValidatorsBlsPublicKey_spec`** and **`decideRole_of_encoded`**: the executor's hex keys
  decode to the validators' keys, and a key named in that form decides the role by equality
  with the relayer's own.

A `Scene` is a concrete environment. In `overflowScene` a stand-by pass claims with the clock
below `txTime + timeout` as integers, and in `edgeScene` it claims `next_send_sequence` itself.
-/

namespace GreenfieldRelayer

/-- Go's `int64` sum is the integer sum when the latter fits. -/
theorem BitVec.toInt_add_of_range {x y : BitVec 64} (h₁ : -2 ^ 63 ≤ x.toInt + y.toInt)
    (h₂ : x.toInt + y.toInt < 2 ^ 63) : (x + y).toInt = x.toInt + y.toInt := by
  rw [BitVec.toInt_add, Int.bmod_def]
  split <;> omega

/-! ## Concrete scenes -/

/-- A concrete scene: the in-turn relayer's hex key and an interval from `0`; the chain's next
delivery sequence `start` (`recalibrated` once a calibration has read a nonce), next send
sequence `nextSend` and `AllVoted` height `latest`; one `AllVoted` package of time `txTime` at
each sequence of `stored`; a clock at `clock`; nonces `10`, and `11` at the next block; the
first `accepts` broadcasts accepted and every later one rejected; every store write accepted. -/
structure Scene where
  inturnKey : String
  start : UInt64
  recalibrated : Except GoError UInt64
  nextSend : UInt64
  latest : BitVec 64
  stored : List UInt64
  txTime : BitVec 64
  clock : BitVec 64
  timeout : BitVec 64
  accepts : Nat

namespace Scene

/-- The package the store holds at `i`. -/
def package (s : Scene) (i : UInt64) : BscRelayPackage where
  id := i.toBitVec
  status := .allVoted
  txTime := s.txTime
  height := 1

def env (s : Scene) : Env where
  getInturnRelayer _ := .ok { blsPubKey := s.inturnKey, relayInterval := { start := 0, end' := 1000 } }
  now _ := s.clock
  since _ _ := 0
  getNextDeliveryOracleSequence log _ :=
    if log.any fun | .nonceOnNextBlock _ => true | _ => false then s.recalibrated else .ok s.start
  getNonce _ := .ok 10
  getNonceOnNextBlock _ := .ok 11
  getNextSendSequence _ := .ok s.nextSend
  getLatestOracleSequenceByStatus _ _ := .ok s.latest
  getPackagesByOracleSequence _ i := .ok (if i ∈ s.stored then [s.package i] else [])
  getVotes _ _ _ := .ok [{ pubKey := "k", signature := "s", claimPayload := [1] }]
  cachedValidators _ := [{ blsKey := [1], votingPower := 1 }]
  queryLatestValidators _ := .ok []
  broadcastTx log _ _ := if (claimsOf log).length < s.accepts
    then .ok { code := 0, rawLog := "", txHash := "h" }
    else .error (.call "account sequence mismatch")
  updateBatchPackagesClaimedTxHash _ _ _ := .ok ()
  updateBatchPackagesStatusAndClaimedTxHash _ _ _ _ := .ok ()

def config (s : Scene) : Config where
  greenfieldSequenceUpdateLatency := 30
  bscToGreenfieldInturnRelayerTimeout := s.timeout
  bscChainId := 97
  greenfieldChainId := 9000
  gasLimit := 1000
  feeAmount := 5
  txDelayAlertThreshHold := 300
  oracleChannelId := 0
  denom := "BNB"

def setup (s : Scene) : Setup where
  config := s.config
  address := "0x1"
  aggregate _ _ := .ok ([7], [1])

/-- One pass of a relayer of key `0a` from a fresh assembler. -/
def pass (s : Scene) : World := worldOf (process s.env s.setup 0 ⟨newBSCAssembler [10], []⟩)

end Scene

/-! ## Claims of a pass -/

section

variable (env : Env) (setup : Setup)

/-- **Claim discipline of one pass.** A pass that never enters the loop claims nothing. One
that enters it, with window `win` in the world `w₀` the reconciliation leaves, runs the
iterations `its` from `w₀.asm` and ends with the assembler the last of them leaves. It claims
`consecutive` sequences from `win.startSeq` with nonces from `w₀.asm.relayerNonce`; every
iteration another follows is `Completed`; and each claim follows, in its iteration, a non-empty
read of its sequence whose first package is `AllVoted` or `Delivered` and, in stand-by, a clock
reading `t` past `txTime + timeout` as Go's `int64` sum, and as integers when that sum fits. -/
theorem process_claim_discipline (channelId : UInt8) (w : World) :
    let r := process env setup channelId w
    let timeout := setup.config.bscToGreenfieldInturnRelayerTimeout
    ((∀ win w₁, prepare env setup channelId w ≠ .ok (some win) w₁) ∧
      ∃ δ, (worldOf r).log = w.log ++ δ ∧ claimsOf δ = []) ∨
    ∃ win w₁ w₀ its, prepare env setup channelId w = .ok (some win) w₁ ∧
      reconcileAlerts win.startSeq w₁ = .ok () w₀ ∧
      LoopRun setup.config win.isInturn (UInt64.mk win.endSequence) win.startSeq w₀.asm its ∧
      (worldOf r).asm = lastAfter w₀.asm its ∧
      (∃ δ, w₀.log = w.log ++ δ ∧ claimsOf δ = []) ∧ (worldOf r).log = w₀.log ++ eventsOf its ∧
      (∃ k, claimsOf (eventsOf its) = consecutive win.startSeq w₀.asm.relayerNonce k) ∧
      (∀ pre it post, its = pre ++ it :: post → post ≠ [] → Completed it) ∧
      ∀ it ∈ its, claimsOf it.events ≠ [] → ∃ pkg pkgs rest,
        it.events = .packages it.seq (.ok (pkg :: pkgs)) :: rest ∧
        (pkg.status = .allVoted ∨ pkg.status = .delivered) ∧
        (win.isInturn = false → ∃ t pre post, rest = pre ++ post ∧ claimsOf pre = [] ∧
          .now t ∈ pre ∧ (pkg.txTime + timeout).toInt ≤ t.toInt ∧
          (-2 ^ 63 ≤ pkg.txTime.toInt + timeout.toInt → pkg.txTime.toInt + timeout.toInt < 2 ^ 63 →
            pkg.txTime.toInt + timeout.toInt ≤ t.toInt)) := by
  intro r timeout
  obtain ⟨δ₁, hl₁, hq₁, -⟩ := prepare_spec env setup channelId w
  rcases process_cases env setup channelId w with
    ⟨hr, hne⟩ | ⟨win, w₁, δ₂, a', its, hp, hrec, hδ₂, hrun, hlog, hasm, -⟩
  · exact .inl ⟨hne, δ₁, hr ▸ hl₁, hq₁.claimsOf_eq⟩
  simp only [hp, worldOf_ok] at hl₁
  have hc₂ : claimsOf δ₂ = [] := by rcases hδ₂ with ⟨rfl, -⟩ | ⟨rfl, -⟩ <;> simp [Event.claim?]
  refine .inr ⟨win, w₁, ⟨a', w₁.log ++ δ₂⟩, its, hp, hrec, hrun, hasm,
    ⟨δ₁ ++ δ₂, by simp [hl₁], by simp [hq₁.claimsOf_eq, hc₂]⟩, hlog, hrun.claimsOf_eventsOf,
    fun _ _ _ => hrun.completed_of_append, fun it hit hc => ?_⟩
  obtain ⟨a, hspec⟩ := hrun.spec_of_mem hit
  obtain ⟨pkg, pkgs, rest, he, hst, hguard⟩ := hspec.justified hc
  refine ⟨pkg, pkgs, rest, he, hst, fun h => ?_⟩
  obtain ⟨t, pre, post, hrest, hpre, hnow, hlt⟩ := hguard h
  have hle : (pkg.txTime + timeout).toInt ≤ t.toInt := by simpa [BitVec.slt] using hlt
  exact ⟨t, pre, post, hrest, hpre, hnow, hle, fun h₁ h₂ => BitVec.toInt_add_of_range h₁ h₂ ▸ hle⟩

end

/-- A stand-by scene whose package time is the largest `int64`, with a timeout of one second:
`txTime + timeout` wraps to the smallest `int64`. -/
def overflowScene : Scene where
  inturnKey := "0b"
  start := 5
  recalibrated := .ok 5
  nextSend := 5
  latest := -1
  stored := [5]
  txTime := BitVec.ofInt 64 (2 ^ 63 - 1)
  clock := 0
  timeout := 1
  accepts := 0

/-- **A stand-by relayer claims inside the in-turn relayer's timeout.** In `overflowScene` the
pass is stand-by, its clock reads `0`, and `txTime + timeout` wraps to `-2^63`, so the guard of
line 173 lets the claim of sequence `5` through, although as integers the clock is below
`txTime + timeout`. -/
theorem standBy_claims_inside_timeout :
    Event.setInturnRelayerMetrics false 0 1000 ∈ overflowScene.pass.log ∧
      claimsOf overflowScene.pass.log = [(5, 10)] ∧ Event.now 0 ∈ overflowScene.pass.log ∧
      (overflowScene.txTime + overflowScene.timeout).toInt = -2 ^ 63 ∧
      (0 : BitVec 64).toInt < overflowScene.txTime.toInt + overflowScene.timeout.toInt := by
  decide

/-! ## The delivery window -/

section

variable (env : Env) (setup : Setup)

/-- **Delivery window of a pass.** A pass that never enters the loop reads no package. One that
enters it with window `win`, where `prepare` ended on the read of `endSequence` (the `AllVoted`
height, never `-1`, in turn; `next_send_sequence` in stand-by), reads only sequences up to
`uint64(endSequence)`; unless that bound is `2^64 - 1`, it reads exactly
`startSeq, startSeq + 1, …`, each once. -/
theorem process_window (channelId : UInt8) (w : World) :
    let r := process env setup channelId w
    ((∀ win w₁, prepare env setup channelId w ≠ .ok (some win) w₁) ∧
      ∃ δ, (worldOf r).log = w.log ++ δ ∧ δ.filterMap Event.read? = []) ∨
    ∃ win w₁ δ reads, prepare env setup channelId w = .ok (some win) w₁ ∧ w₁.log = w.log ++ δ ∧
      (win.isInturn = true → δ.getLast? = some (.latestOracleSequence .allVoted (.ok win.endSequence)) ∧
        win.endSequence ≠ -1) ∧
      (win.isInturn = false → ∃ e, δ.getLast? = some (.nextSendSequence (.ok e)) ∧
        win.endSequence.toNat = e.toNat) ∧
      (∃ δ', (worldOf r).log = w.log ++ δ' ∧ δ'.filterMap Event.read? = reads) ∧
      (∀ s ∈ reads, s.toNat ≤ win.endSequence.toNat) ∧
      (win.endSequence ≠ -1 → reads.map UInt64.toNat = List.range' win.startSeq.toNat reads.length) := by
  intro r
  obtain ⟨δ₁, hl₁, hq₁, -, -, -, hwin, -⟩ := prepare_spec env setup channelId w
  have hr₁ : δ₁.filterMap Event.read? = [] :=
    List.filterMap_eq_nil_iff.2 fun e he => Event.read?_of_quiet (hq₁ e he)
  rcases process_cases env setup channelId w with
    ⟨hr, hne⟩ | ⟨win, w₁, δ₂, a', its, hp, -, hδ₂, hrun, hlog, -⟩
  · exact .inl ⟨hne, δ₁, hr ▸ hl₁, hr₁⟩
  simp only [hp, worldOf_ok] at hl₁ hwin
  obtain ⟨-, hin, hsb, -⟩ := hwin win w₁ rfl
  have hr₂ : δ₂.filterMap Event.read? = [] := by
    rcases hδ₂ with ⟨rfl, -⟩ | ⟨rfl, -⟩ <;> simp [Event.read?]
  refine .inr ⟨win, w₁, δ₁, its.map (·.seq), hp, hl₁, fun h => (hin h).2, ?_, ⟨δ₁ ++ δ₂ ++ eventsOf its, ?_, ?_⟩,
    ?_, fun hE => ?_⟩
  · intro h
    obtain ⟨e, he, hE⟩ := hsb h
    exact ⟨e, he, by rw [hE]; rfl⟩
  · simp [hlog, hl₁]
  · simp [List.filterMap_append, hr₁, hr₂, hrun.reads_eq]
  · simp only [List.mem_map]
    rintro _ ⟨it, hit, rfl⟩
    exact hrun.seq_le hit
  · have hlt : win.endSequence.toNat < 2 ^ 64 - 1 := by
      have hne : win.endSequence.toNat ≠ 2 ^ 64 - 1 := fun h => hE (BitVec.eq_of_toNat_eq (by simp [h]))
      have := win.endSequence.isLt
      omega
    simpa using hrun.seqs_eq_range' hlt

end

/-- A stand-by scene where the store already holds a package at `next_send_sequence`. -/
def edgeScene : Scene where
  inturnKey := "0b"
  start := 5
  recalibrated := .ok 5
  nextSend := 5
  latest := -1
  stored := [5]
  txTime := 0
  clock := 1000
  timeout := 120
  accepts := 0

theorem standBy_claims_next_send_sequence :
    claimsOf edgeScene.pass.log = [(5, 10)] ∧ Event.nextSendSequence (.ok 5) ∈ edgeScene.pass.log := by
  decide

/-- At the bound `2^64 - 1` the index wraps: from `2^64 - 1`, the loop claims `0` next. -/
def wrapScene : Scene := { edgeScene with stored := [2 ^ 64 - 1, 0], accepts := 1 }

example : claimsOf (worldOf (deliverPackages wrapScene.env wrapScene.setup false 0 (2 ^ 64 - 1) 3
    (2 ^ 64 - 1) ⟨newBSCAssembler [10], []⟩)).log = [(2 ^ 64 - 1, 0), (0, 1)] := by
  decide

/-! ## The loop ends on its own -/

section

variable (env : Env) (setup : Setup)

/-- **Below the largest `uint64` the fuel is never what stops the loop**: any fuel that covers
the `endSeq + 1 - i` sequences left in the window gives the same program, so the `2^64` of
`process` cuts no run short; only at the bound `2^64 - 1`, where `i <= bound` never fails, is
the loop's end the fuel's. -/
theorem deliverPackages_fuel_eq (isInturn : Bool) (channelId : UInt8) {endSeq : UInt64}
    (hb : endSeq.toNat < 2 ^ 64 - 1) {fuel fuel' : Nat} {i : UInt64}
    (hf : endSeq.toNat + 1 - i.toNat ≤ fuel) (hf' : endSeq.toNat + 1 - i.toNat ≤ fuel') :
    deliverPackages env setup isInturn channelId endSeq fuel i =
      deliverPackages env setup isInturn channelId endSeq fuel' i := by
  induction fuel generalizing fuel' i with
  | zero =>
    -- no fuel: the window is already past
    have hgt : ¬ i ≤ endSeq := fun h => by have : i.toNat ≤ endSeq.toNat := h; omega
    cases fuel' <;> simp only [deliverPackages, if_neg hgt]
  | succ fuel ih =>
    by_cases hle : i ≤ endSeq
    · have hi : i.toNat ≤ endSeq.toNat := hle
      obtain ⟨fuel', rfl⟩ : ∃ f, fuel' = f + 1 := ⟨fuel' - 1, by omega⟩
      have hsucc := toNat_add_one_of_lt (show i.toNat < 2 ^ 64 - 1 by omega)
      have hrec : deliverPackages env setup isInturn channelId endSeq fuel (i + 1) =
          deliverPackages env setup isInturn channelId endSeq fuel' (i + 1) :=
        ih (by omega) (by omega)
      simp only [deliverPackages, if_pos hle, hrec]
    · cases fuel' <;> simp only [deliverPackages, if_neg hle]

theorem deliverPackages_fuel_eq_single :
    (5 : UInt64).toNat < 2 ^ 64 - 1 ∧ (5 : UInt64).toNat + 1 - (5 : UInt64).toNat ≤ 1 ∧
      (5 : UInt64).toNat + 1 - (5 : UInt64).toNat ≤ 2 ^ 64 ∧
      deliverPackages edgeScene.env edgeScene.setup false 0 5 1 5 =
        deliverPackages edgeScene.env edgeScene.setup false 0 5 (2 ^ 64) 5 :=
  ⟨by decide, by decide, by decide,
    deliverPackages_fuel_eq edgeScene.env edgeScene.setup false 0 (by decide) (by decide) (by decide)⟩

end

/-! ## Gaps in the store -/

section

variable (env : Env) (setup : Setup)

/-- **A pass never bridges a gap in the store** (lines 158-160): a read that finds no package at
its sequence ends the loop, in either role: the pass reads no later sequence, claims nothing
after it, and returns no error. -/
theorem process_gap_not_bridged (channelId : UInt8) (w : World) :
    ∃ δ, (worldOf (process env setup channelId w)).log = w.log ++ δ ∧
      ∀ pre j post, δ = pre ++ .packages j (.ok []) :: post →
        post.filterMap Event.read? = [] ∧ claimsOf post = [] ∧
        ∃ w', process env setup channelId w = .ok () w' := by
  obtain ⟨δ, hlog, -⟩ := process_cursorFollows env setup channelId w
  refine ⟨δ, hlog, fun pre j post heq => ?_⟩
  have heq' : (worldOf (process env setup channelId w)).log =
      w.log ++ pre ++ .packages j (.ok []) :: post := by rw [hlog, heq, List.append_assoc]
  obtain ⟨_, _, _, _, _, _, pre', -, -, -, hrun, -, hrest, hgap⟩ :=
    process_loop_event env setup channelId w (by rfl) (by rfl) heq'
  obtain ⟨hreads, hclaims⟩ := hrun.gap_last hrest
  exact ⟨hreads, hclaims, hgap pre' j post hrest⟩

end

/-! ## Store effects -/

section

variable (env : Env) (setup : Setup)

/-- **Store effects of a pass.** A stand-by pass keeps the in-turn cursor and clears the
retrieval flag. A pass that never enters the loop writes no package row. One that enters it, in
the world `w₀` the reconciliation leaves, writes only in the iterations `its` of the loop's run
from `w₀.asm`, and ends with the assembler the last of them leaves. Each write covers the ids
its iteration read and the hash of that iteration's accepted claim, sets `Delivered` in turn and
no status in stand-by, and a write accepted in turn leaves the cursor at `i + 1` for what
follows: for the next iteration, or for the pass's end when it was the last. -/
theorem process_store_effects (channelId : UInt8) (w : World) :
    let r := process env setup channelId w
    (∀ ir w₁, decideRole env w = .ok (false, ir) w₁ → (worldOf r).asm.inturnRelayerSequenceStatus =
        { w.asm.inturnRelayerSequenceStatus with hasRetrieved := false }) ∧
    (((∀ win w₁, prepare env setup channelId w ≠ .ok (some win) w₁) ∧
      ∃ δ, (worldOf r).log = w.log ++ δ ∧ ∀ e ∈ δ, e.write? = none) ∨
    ∃ win w₁ w₀ its, prepare env setup channelId w = .ok (some win) w₁ ∧
      reconcileAlerts win.startSeq w₁ = .ok () w₀ ∧
      LoopRun setup.config win.isInturn (UInt64.mk win.endSequence) win.startSeq w₀.asm its ∧
      (worldOf r).asm = lastAfter w₀.asm its ∧
      (∃ δ, w₀.log = w.log ++ δ ∧ ∀ e ∈ δ, e.write? = none) ∧ (worldOf r).log = w₀.log ++ eventsOf its ∧
      (∃ ir w', decideRole env w = .ok (win.isInturn, ir) w') ∧
      (win.isInturn = true → ∀ it, its.getLast? = some it → (∃ e ∈ it.events, e.writeOk) →
        (worldOf r).asm.inturnRelayerSequenceStatus.nextDeliverySeq = it.seq + 1) ∧ ∀ it ∈ its,
        (∀ e ∈ it.events, ∀ ids txHash, e.write? = some (ids, txHash) → ∃ pkgs rest,
          it.events = .packages it.seq (.ok pkgs) :: rest ∧ ids = pkgs.map (·.id) ∧
          ∃ msg opt resp, .broadcastTx msg opt (.ok resp) ∈ it.events ∧ msg.sequence = it.seq ∧
            resp.code = 0 ∧ resp.txHash = txHash) ∧
        (∀ e ∈ it.events, e.write?.isSome → e.status? = if win.isInturn then some .delivered else none) ∧
        (win.isInturn = true → (∃ e ∈ it.events, e.writeOk) →
          it.after.inturnRelayerSequenceStatus.nextDeliverySeq = it.seq + 1)) := by
  intro r
  obtain ⟨δ₁, hl₁, hq₁, -, -, hsb₁, hwin, -⟩ := prepare_spec env setup channelId w
  have hw₁ : ∀ e ∈ δ₁, e.write? = none := fun e he => Event.write?_of_quiet (hq₁ e he)
  rcases process_cases env setup channelId w with
    ⟨hr, hne⟩ | ⟨win, w₁, δ₂, a', its, hp, hrec, hδ₂, hrun, hlog, hasm, -⟩
  · exact ⟨fun ir w₁ h => hr ▸ hsb₁ ir w₁ h, .inl ⟨hne, δ₁, hr ▸ hl₁, hw₁⟩⟩
  simp only [hp, worldOf_ok] at hl₁ hsb₁ hwin
  obtain ⟨hrole, -, -⟩ := hwin win w₁ rfl
  -- the reconciliation writes no row and keeps the cursor
  obtain ⟨hst, hw₂⟩ : a'.inturnRelayerSequenceStatus = w₁.asm.inturnRelayerSequenceStatus ∧
      ∀ e ∈ δ₂, e.write? = none := by
    rcases hδ₂ with ⟨rfl, rfl⟩ | ⟨rfl, rfl, -⟩ <;> simp [Event.write?]
  refine ⟨fun ir' w' h => ?_, .inr ⟨win, w₁, ⟨a', w₁.log ++ δ₂⟩, its, hp, hrec, hrun, hasm,
    ⟨δ₁ ++ δ₂, by simp [hl₁], fun e he => (List.mem_append.1 he).elim (hw₁ e) (hw₂ e)⟩, hlog,
    hrole, fun hin it hl hw => ?_, fun it hit => ?_⟩⟩
  · -- stand-by: the loop keeps the cursor `prepare` left
    obtain ⟨ir, w₁', hrole⟩ := hrole
    have hfalse : win.isInturn = false := by
      rw [hrole] at h; simp only [EStateM.Result.ok.injEq, Prod.mk.injEq] at h; exact h.1.1
    rw [hfalse] at hrun
    rw [hasm, ← hsb₁ ir' w' h, ← hst]
    exact SequenceStatus.ext hrun.hasRetrieved_lastAfter hrun.nextDeliverySeq_lastAfter
  · -- the pass ends with the assembler its last iteration leaves
    obtain ⟨a, hspec⟩ := hrun.spec_of_mem (List.mem_of_getLast?_eq_some hl)
    obtain ⟨its, rfl⟩ := List.getLast?_eq_some_iff.1 hl
    rw [hasm, lastAfter_append_singleton]
    exact hspec.delivered hin hw
  · obtain ⟨a, hspec⟩ := hrun.spec_of_mem hit
    exact ⟨hspec.writes, hspec.status, hspec.delivered⟩

end

/-! ## Who is in turn

The chain names the in-turn relayer by its BLS key as a hex string, the form in which
`GetValidatorsBlsPublicKey` writes every validator's key; `process` decodes it (line 66) and
compares the bytes with its own (line 70). -/

section

variable (env : Env)

/-- **The executor's keys decode to the validators' keys.** When `GetValidatorsBlsPublicKey`
succeeds, its keys are the hex strings of the keys of the validators
`QueryCachedLatestValidators` returned, in order, and `hex.DecodeString` gives each one back. -/
theorem getValidatorsBlsPublicKey_spec (w : World) (keys : List String) (w' : World)
    (h : getValidatorsBlsPublicKey env w = .ok keys w') :
    ∃ vs, queryCachedLatestValidators env w = .ok vs w' ∧
      keys = vs.map (fun v => encodeToString v.blsKey) ∧
      keys.map decodeString = vs.map fun v => .ok v.blsKey := by
  simp only [getValidatorsBlsPublicKey, bind_apply, pure_apply] at h
  split at h
  next vs w₁ hq =>
    cases h
    exact ⟨vs, hq, rfl, by simp [Function.comp_def, decodeString_encodeToString]⟩
  next => cases h

theorem getValidatorsBlsPublicKey_spec_of_cached :
    getValidatorsBlsPublicKey edgeScene.env ⟨newBSCAssembler [10], []⟩ =
        .ok ["01"] (worldOf (getValidatorsBlsPublicKey edgeScene.env ⟨newBSCAssembler [10], []⟩)) ∧
      ∃ vs, queryCachedLatestValidators edgeScene.env ⟨newBSCAssembler [10], []⟩ =
          .ok vs (worldOf (getValidatorsBlsPublicKey edgeScene.env ⟨newBSCAssembler [10], []⟩)) ∧
        ["01"] = vs.map (fun v => encodeToString v.blsKey) ∧
        ["01"].map decodeString = vs.map fun v => .ok v.blsKey :=
  have h : getValidatorsBlsPublicKey edgeScene.env ⟨newBSCAssembler [10], []⟩ =
      .ok ["01"] (worldOf (getValidatorsBlsPublicKey edgeScene.env ⟨newBSCAssembler [10], []⟩)) := rfl
  ⟨h, getValidatorsBlsPublicKey_spec _ _ _ _ h⟩

/-- **A key written as the executor writes it decides the role.** When the chain names as in-turn
relayer the hex string of a key, `decideRole` does not fail on it, and the relayer is in turn
exactly when that key equals its own. -/
theorem decideRole_of_encoded (w : World) (ir : QueryInturnRelayerResponse) (key : List UInt8)
    (hir : env.getInturnRelayer w.log = .ok ir) (hk : ir.blsPubKey = encodeToString key) :
    ∃ w', decideRole env w = .ok (w.asm.blsPubKey == key, ir) w' :=
  ⟨_, decideRole_of_decode env hir (by rw [hk, decodeString_encodeToString])⟩

theorem decideRole_of_encoded_own_key :
    edgeScene.env.getInturnRelayer [] = .ok ⟨"0b", ⟨0, 1000⟩⟩ ∧ "0b" = encodeToString [11] ∧
      ∃ w', decideRole edgeScene.env ⟨newBSCAssembler [11], []⟩ =
        .ok ((newBSCAssembler [11]).blsPubKey == [11], ⟨"0b", ⟨0, 1000⟩⟩) w' :=
  ⟨rfl, rfl, decideRole_of_encoded _ ⟨newBSCAssembler [11], []⟩ _ [11] rfl rfl⟩

end

end GreenfieldRelayer
