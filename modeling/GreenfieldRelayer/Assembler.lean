import GreenfieldRelayer.Executor

/-!
# GreenfieldRelayer — `BSCAssembler.process`

One tick of `assemblePackagesAndClaimForOracleChannel` runs `process`, cut here along the
lines of `bsc_assembler.go`:

* **`prepare`** (lines 62-136): the role (`decideRole`), the cursor (`establishCursor`), the
  metrics (`updateMetrics`) and the end of the window (`selectEndSequence`);
* **`reconcileAlerts`** (lines 139-150): clear the delay gauge once the start has passed every
  flagged sequence;
* **`deliverPackages`** (lines 152-199): the loop over `i`, whose body is `deliverPackage`:
  the read, the delay flag (`flagDelay`), the status and stand-by guards, and the claim
  (`claimBatch`) through `processPkgs` (lines 203-245) with the in-turn calibration
  (`calibrate`, lines 180-195).

`process` is their composition. The loop runs on a fuel of `2^64` iterations: `i` takes every
`uint64` value once in that many, so the loop meets its bound first unless the bound is
`2^64 - 1`, where Go's `i <= bound` never fails (`deliverPackages_fuel_eq`).
-/

namespace GreenfieldRelayer

/-- What `process` has decided when it reaches the loop. -/
structure Window where
  isInturn : Bool
  startSeq : UInt64
  endSequence : BitVec 64
  deriving DecidableEq, Repr

/-- `d.Seconds() > threshold` for a `time.Duration` `d` in nanoseconds. Go compares `float64`
seconds; for a whole-second threshold below `2^22` that is this comparison. -/
def exceedsSeconds (d : BitVec 64) (threshold : Nat) : Bool :=
  decide ((threshold : Int) * 10 ^ 9 < d.toInt)

/-- `votes[0]`, `pkgs[0]`: Go panics on an empty slice. -/
def index0 {α : Type} : List α → PassM α
  | [] => throw (.indexOutOfRange 0 0)
  | x :: _ => pure x

section Process

variable (env : Env) (setup : Setup)

/-! ## The calls, one line each -/

/-- `GreenfieldExecutor.GetInturnRelayer`. -/
def getInturnRelayer : PassM QueryInturnRelayerResponse :=
  askE env.getInturnRelayer .inturnRelayer

/-- `time.Now().Unix()`. -/
def timeNow : PassM (BitVec 64) := ask env.now .now

/-- `BSCExecutor.GetNextDeliveryOracleSequenceWithRetry(a.getChainId())`. -/
def getNextDeliveryOracleSequence : PassM UInt64 :=
  let chainId := setup.config.bscChainId.toUInt16
  askE (fun log => env.getNextDeliveryOracleSequence log chainId)
    (.nextDeliveryOracleSequence chainId)

/-- `GreenfieldExecutor.GetNonce`. -/
def getNonce : PassM UInt64 := askE env.getNonce .nonce

/-- `GreenfieldExecutor.GetNonceOnNextBlock`. -/
def getNonceOnNextBlock : PassM UInt64 := askE env.getNonceOnNextBlock .nonceOnNextBlock

/-- `BSCExecutor.GetNextSendSequenceForChannelWithRetry`. -/
def getNextSendSequence : PassM UInt64 := askE env.getNextSendSequence .nextSendSequence

/-- `BSCDao.GetLatestOracleSequenceByStatus`. -/
def getLatestOracleSequenceByStatus (status : TxStatus) : PassM (BitVec 64) :=
  askE (fun log => env.getLatestOracleSequenceByStatus log status) (.latestOracleSequence status)

/-- `BSCDao.GetPackagesByOracleSequence`. -/
def getPackagesByOracleSequence (seq : UInt64) : PassM (List BscRelayPackage) :=
  askE (fun log => env.getPackagesByOracleSequence log seq) (.packages seq)

/-- `time.Since(time.Unix(pkgTime, 0))`. -/
def timeSince (pkgTime : BitVec 64) : PassM (BitVec 64) :=
  ask (fun log => env.since log pkgTime) (.since pkgTime)

/-- `VoteDao.GetVotesByChannelIdAndSequence`. -/
def getVotesByChannelIdAndSequence (channelId : UInt8) (seq : UInt64) : PassM (List Vote) :=
  askE (fun log => env.getVotes log channelId seq) (.votes channelId seq)

/-- `BSCDao.UpdateBatchPackagesClaimedTxHash`. -/
def updateBatchPackagesClaimedTxHash (ids : List (BitVec 64)) (txHash : String) : PassM Unit :=
  askE (fun log => env.updateBatchPackagesClaimedTxHash log ids txHash)
    (.updateClaimedTxHash ids txHash)

/-- `BSCDao.UpdateBatchPackagesStatusAndClaimedTxHash`. -/
def updateBatchPackagesStatusAndClaimedTxHash (ids : List (BitVec 64)) (status : TxStatus)
    (txHash : String) : PassM Unit :=
  askE (fun log => env.updateBatchPackagesStatusAndClaimedTxHash log ids status txHash)
    (.updateStatusAndClaimedTxHash ids status txHash)

/-! ## The cursor and the window -/

/-- Lines 79-117: the start sequence of the pass, or `none` for the silent `return nil` of an
in-turn relayer still inside the grace period. -/
def establishCursor (isInturnRelyer : Bool) (inturnRelayer : QueryInturnRelayerResponse) :
    PassM (Option UInt64) := do
  if isInturnRelyer then
    let a ← getAsm
    if !a.inturnRelayerSequenceStatus.hasRetrieved then
      let now ← timeNow env
      let timeDiff := now - inturnRelayer.relayInterval.start.toBitVec
      if timeDiff.slt setup.config.greenfieldSequenceUpdateLatency then
        if timeDiff.slt 0 then
          throw (.clockSkew now inturnRelayer.relayInterval.start)
        return none
      let inTurnRelayerStartSeq ← getNextDeliveryOracleSequence env setup
      let nonce ← getNonce env
      modifyAsm fun a => ((a.setRelayerNonce nonce).setHasRetrieved true).setNextDeliverySeq
        inTurnRelayerStartSeq
    let a ← getAsm
    return some a.inturnRelayerSequenceStatus.nextDeliverySeq
  else
    modifyAsm (·.setHasRetrieved false)
    emit (.sleep setup.config.greenfieldSequenceUpdateLatency)
    let startSeq ← getNextDeliveryOracleSequence env setup
    let startNonce ← getNonce env
    modifyAsm (·.setRelayerNonce startNonce)
    return some startSeq

/-- `BSCAssembler.updateMetrics`. -/
def updateMetrics (channelId : UInt8) (nextDeliveryOracleSeq : UInt64) : PassM Unit := do
  emit (.setNextReceiveSequence channelId nextDeliveryOracleSeq)
  let nextSendOracleSeq ← getNextSendSequence env
  emit (.setNextSendSequence channelId nextSendOracleSeq)

/-- Lines 122-136: the last sequence of the window, as Go's `int64`; `none` when an in-turn
relayer finds no `AllVoted` sequence. -/
def selectEndSequence (isInturnRelyer : Bool) : PassM (Option (BitVec 64)) := do
  if isInturnRelyer then
    let endSequence ← getLatestOracleSequenceByStatus env .allVoted
    if endSequence = -1 then return none
    return some endSequence
  else
    let endSeq ← getNextSendSequence env
    return some endSeq.toBitVec

/-- Lines 62-72: the in-turn relayer, and whether this relayer is it. -/
def decideRole : PassM (Bool × QueryInturnRelayerResponse) := do
  let inturnRelayer ← getInturnRelayer env
  let inturnRelayerPubkey ← liftExcept ((decodeString inturnRelayer.blsPubKey).mapError .hex)
  let a ← getAsm
  let isInturnRelyer := a.blsPubKey == inturnRelayerPubkey
  emit (.setInturnRelayerMetrics isInturnRelyer inturnRelayer.relayInterval.start
    inturnRelayer.relayInterval.end')
  return (isInturnRelyer, inturnRelayer)

/-- Lines 62-136 of `process`, up to the alert reconciliation. -/
def prepare (channelId : UInt8) : PassM (Option Window) := do
  let (isInturnRelyer, inturnRelayer) ← decideRole env
  let some startSeq ← establishCursor env setup isInturnRelyer inturnRelayer | return none
  updateMetrics env channelId startSeq
  let some endSequence ← selectEndSequence env isInturnRelyer | return none
  return some { isInturn := isInturnRelyer, startSeq := startSeq, endSequence := endSequence }

/-- The largest flagged sequence, as the `for k := range a.alertSet` loop finds it from `0`. -/
def maxTxSeqOfAlert (alertSet : List UInt64) : UInt64 :=
  alertSet.foldl (fun m k => if k > m then k else m) 0

/-- Lines 139-150: once the start sequence passes every flagged one, clear the delay gauge
and the alert set. -/
def reconcileAlerts (startSeq : UInt64) : PassM Unit := do
  let a ← getAsm
  if a.alertSet ≠ [] then
    if startSeq > maxTxSeqOfAlert a.alertSet then
      emit (.setHasTxDelay false)
      modifyAsm (·.clearAlerts)

/-! ## The delivery loop -/

/-- `BSCAssembler.processPkgs`. -/
def processPkgs (pkgs : List BscRelayPackage) (channelId : UInt8) (sequence nonce : UInt64)
    (isInturnRelyer : Bool) : PassM Unit := do
  let votes ← getVotesByChannelIdAndSequence env channelId sequence
  let validators ← queryCachedLatestValidators env
  let (aggregatedSignature, valBitSet) ← liftExcept (setup.aggregate votes validators)
  let vote ← index0 votes
  let pkg ← index0 pkgs
  let txHash ← claimPackages env setup vote.claimPayload aggregatedSignature valBitSet
    pkg.txTime sequence nonce
  let pkgIds := pkgs.map (·.id)
  emit (.setProcessedHeight pkg.height)
  if !isInturnRelyer then
    updateBatchPackagesClaimedTxHash env pkgIds txHash
  else
    updateBatchPackagesStatusAndClaimedTxHash env pkgIds .delivered txHash
    modifyAsm (·.setNextDeliverySeq (sequence + 1))

/-- Lines 177-195: a stand-by relayer returns the error of `processPkgs`; an in-turn one
first re-reads its nonce at the next block and its next delivery sequence. -/
def calibrate (isInturnRelyer : Bool) (err : GoError) : PassM Unit := do
  if !isInturnRelyer then throw err
  let newNonce ← getNonceOnNextBlock env
  modifyAsm (·.setRelayerNonce newNonce)
  let newNextDeliveryOracleSeq ← getNextDeliveryOracleSequence env setup
  modifyAsm (·.setNextDeliverySeq newNextDeliveryOracleSeq)
  throw err

/-- Lines 162-166: flag the sequence when its first package is older than the threshold. -/
def flagDelay (i : UInt64) (pkgTime : BitVec 64) : PassM Unit := do
  let d ← timeSince env pkgTime
  if exceedsSeconds d setup.config.txDelayAlertThreshHold then
    emit (.setHasTxDelay true)
    modifyAsm (·.addAlert i)

/-- Lines 176-198: claim the batch with the current nonce, calibrating on a failure, and move
to the next nonce on success. -/
def claimBatch (pkgs : List BscRelayPackage) (channelId : UInt8) (i : UInt64)
    (isInturnRelyer : Bool) : PassM Unit := do
  let a ← getAsm
  onError (processPkgs env setup pkgs channelId i a.relayerNonce isInturnRelyer)
    (calibrate env setup isInturnRelyer)
  modifyAsm fun a => a.setRelayerNonce (a.relayerNonce + 1)

/-- The body of the loop at `i` (lines 154-198): `true` when it reaches `i++`. -/
def deliverPackage (isInturnRelyer : Bool) (channelId : UInt8) (i : UInt64) : PassM Bool := do
  let pkgs ← getPackagesByOracleSequence env i
  match pkgs with
  | [] => return false
  | pkg :: _ =>
    flagDelay env setup i pkg.txTime
    if pkg.status ≠ .allVoted ∧ pkg.status ≠ .delivered then
      throw (.notEnoughVotes i)
    if !isInturnRelyer then
      let now ← timeNow env
      if now.slt (pkg.txTime + setup.config.bscToGreenfieldInturnRelayerTimeout) then
        return false
    claimBatch env setup pkgs channelId i isInturnRelyer
    return true

/-- The loop `for i := startSeq; i <= uint64(endSequence); i++`, on `fuel` iterations. -/
def deliverPackages (isInturnRelyer : Bool) (channelId : UInt8) (endSeq : UInt64) :
    Nat → UInt64 → PassM Unit
  | 0, _ => pure ()
  | fuel + 1, i => do
    if i ≤ endSeq then
      if ← deliverPackage env setup isInturnRelyer channelId i then
        deliverPackages isInturnRelyer channelId endSeq fuel (i + 1)

/-- `BSCAssembler.process`. -/
def process (channelId : UInt8) : PassM Unit := do
  let some win ← prepare env setup channelId | return
  reconcileAlerts win.startSeq
  deliverPackages env setup win.isInturn channelId (UInt64.mk win.endSequence) (2 ^ 64)
    win.startSeq

end Process

end GreenfieldRelayer
