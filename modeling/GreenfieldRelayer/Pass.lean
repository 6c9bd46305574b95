import GreenfieldRelayer.Types

/-!
# GreenfieldRelayer — a pass and the world it talks to

`BSCAssembler.process` is Go code with effects: it asks two chains, two stores, a clock and a
validator cache for answers, and writes to a metric sink and to the stores. The model keeps
every such interaction as an `Event` in a log, in the order the code makes them.

* **`Env`** answers each call. An answer is any function of the log so far (and of the call's
  arguments), so a theorem over all environments holds for every combination of answers,
  clock readings and failures, each call answered on its own.
* **`World`** is the assembler's own fields together with the log. A pass is a
  `PassM := EStateM GoError World` program: Go's `return err` is `throw`, and what the pass
  wrote to the assembler before it returned stays written, as in Go.
* **`askE`/`ask`/`emit`** are the only ways a pass touches the outside; the named calls below
  (`getInturnRelayer`, `getPackagesByOracleSequence`, …) are one line each over them.
-/

namespace GreenfieldRelayer

/-- One interaction of a pass with the outside, with the answer it got. -/
inductive Event
  /-- `GreenfieldExecutor.GetInturnRelayer`. -/
  | inturnRelayer (r : Except GoError QueryInturnRelayerResponse)
  /-- `MetricService.SetGnfdInturnRelayerMetrics`. -/
  | setInturnRelayerMetrics (isInturn : Bool) (start end' : UInt64)
  /-- `time.Now().Unix()`. -/
  | now (t : BitVec 64)
  /-- `time.Sleep` for a number of seconds. -/
  | sleep (seconds : BitVec 64)
  /-- `BSCExecutor.GetNextDeliveryOracleSequenceWithRetry`. -/
  | nextDeliveryOracleSequence (chainId : UInt16) (r : Except GoError UInt64)
  /-- `GreenfieldExecutor.GetNonce`. -/
  | nonce (r : Except GoError UInt64)
  /-- `GreenfieldExecutor.GetNonceOnNextBlock`. -/
  | nonceOnNextBlock (r : Except GoError UInt64)
  /-- `MetricService.SetNextReceiveSequenceForChannel`. -/
  | setNextReceiveSequence (channelId : UInt8) (seq : UInt64)
  /-- `BSCExecutor.GetNextSendSequenceForChannelWithRetry`. -/
  | nextSendSequence (r : Except GoError UInt64)
  /-- `MetricService.SetNextSendSequenceForChannel`. -/
  | setNextSendSequence (channelId : UInt8) (seq : UInt64)
  /-- `BSCDao.GetLatestOracleSequenceByStatus`. -/
  | latestOracleSequence (status : TxStatus) (r : Except GoError (BitVec 64))
  /-- `MetricService.SetHasTxDelay`. -/
  | setHasTxDelay (b : Bool)
  /-- `BSCDao.GetPackagesByOracleSequence`. -/
  | packages (seq : UInt64) (r : Except GoError (List BscRelayPackage))
  /-- `time.Since(time.Unix(pkgTime, 0))`, a `time.Duration` in nanoseconds. -/
  | since (pkgTime : BitVec 64) (d : BitVec 64)
  /-- `VoteDao.GetVotesByChannelIdAndSequence`. -/
  | votes (channelId : UInt8) (seq : UInt64) (r : Except GoError (List Vote))
  /-- A read of the validator cache, which another goroutine refreshes. -/
  | cachedValidators (vs : List Validator)
  /-- The RPC of `queryLatestValidators`, on a cache miss. -/
  | latestValidators (r : Except GoError (List Validator))
  /-- `client.BroadcastTx` of one claim message. -/
  | broadcastTx (msg : MsgClaim) (opt : TxOption) (r : Except GoError TxResponse)
  /-- `MetricService.SetBSCProcessedBlockHeight`. -/
  | setProcessedHeight (h : UInt64)
  /-- `BSCDao.UpdateBatchPackagesClaimedTxHash`. -/
  | updateClaimedTxHash (ids : List (BitVec 64)) (txHash : String) (r : Except GoError Unit)
  /-- `BSCDao.UpdateBatchPackagesStatusAndClaimedTxHash`. -/
  | updateStatusAndClaimedTxHash (ids : List (BitVec 64)) (status : TxStatus) (txHash : String)
      (r : Except GoError Unit)
  deriving DecidableEq, Repr

/-- The answers of the outside world. Each is a function of the log of everything that
happened before the call, so every call can be answered independently of the others. -/
structure Env where
  getInturnRelayer : List Event → Except GoError QueryInturnRelayerResponse
  now : List Event → BitVec 64
  since : List Event → BitVec 64 → BitVec 64
  getNextDeliveryOracleSequence : List Event → UInt16 → Except GoError UInt64
  getNonce : List Event → Except GoError UInt64
  getNonceOnNextBlock : List Event → Except GoError UInt64
  getNextSendSequence : List Event → Except GoError UInt64
  getLatestOracleSequenceByStatus : List Event → TxStatus → Except GoError (BitVec 64)
  getPackagesByOracleSequence : List Event → UInt64 → Except GoError (List BscRelayPackage)
  getVotes : List Event → UInt8 → UInt64 → Except GoError (List Vote)
  cachedValidators : List Event → List Validator
  queryLatestValidators : List Event → Except GoError (List Validator)
  broadcastTx : List Event → MsgClaim → TxOption → Except GoError TxResponse
  updateBatchPackagesClaimedTxHash :
    List Event → List (BitVec 64) → String → Except GoError Unit
  updateBatchPackagesStatusAndClaimedTxHash :
    List Event → List (BitVec 64) → TxStatus → String → Except GoError Unit

/-! ## The assembler's state -/

/-- `types.SequenceStatus`, the in-turn relayer's cursor. -/
@[ext] structure SequenceStatus where
  hasRetrieved : Bool
  nextDeliverySeq : UInt64
  deriving DecidableEq, Repr

/-- The fields of `BSCAssembler` a pass reads or writes; the map `alertSet` is the list of its
keys. The executors, stores and metric sink are the `Env` and the log. -/
structure BSCAssembler where
  blsPubKey : List UInt8
  inturnRelayerSequenceStatus : SequenceStatus
  relayerNonce : UInt64
  alertSet : List UInt64
  deriving DecidableEq, Repr

namespace BSCAssembler

/-! The assignments `process` makes, one definition each, with their field lemmas. -/

/-- `a.relayerNonce = n`. -/
def setRelayerNonce (a : BSCAssembler) (n : UInt64) : BSCAssembler := { a with relayerNonce := n }

/-- `a.inturnRelayerSequenceStatus.NextDeliverySeq = s`. -/
def setNextDeliverySeq (a : BSCAssembler) (s : UInt64) : BSCAssembler :=
  { a with inturnRelayerSequenceStatus := { a.inturnRelayerSequenceStatus with nextDeliverySeq := s } }

/-- `a.inturnRelayerSequenceStatus.HasRetrieved = b`. -/
def setHasRetrieved (a : BSCAssembler) (b : Bool) : BSCAssembler :=
  { a with inturnRelayerSequenceStatus := { a.inturnRelayerSequenceStatus with hasRetrieved := b } }

/-- `a.alertSet[i] = struct{}{}`. -/
def addAlert (a : BSCAssembler) (i : UInt64) : BSCAssembler := { a with alertSet := a.alertSet.insert i }

/-- `a.alertSet = make(map[uint64]struct{}, 0)`. -/
def clearAlerts (a : BSCAssembler) : BSCAssembler := { a with alertSet := [] }

variable (a : BSCAssembler)

@[simp] theorem setRelayerNonce_relayerNonce (n : UInt64) : (a.setRelayerNonce n).relayerNonce = n := rfl
@[simp] theorem setRelayerNonce_status (n : UInt64) :
    (a.setRelayerNonce n).inturnRelayerSequenceStatus = a.inturnRelayerSequenceStatus := rfl
@[simp] theorem setRelayerNonce_alertSet (n : UInt64) : (a.setRelayerNonce n).alertSet = a.alertSet := rfl
@[simp] theorem setRelayerNonce_blsPubKey (n : UInt64) : (a.setRelayerNonce n).blsPubKey = a.blsPubKey := rfl

@[simp] theorem setNextDeliverySeq_relayerNonce (s : UInt64) :
    (a.setNextDeliverySeq s).relayerNonce = a.relayerNonce := rfl
@[simp] theorem setNextDeliverySeq_nextDeliverySeq (s : UInt64) :
    (a.setNextDeliverySeq s).inturnRelayerSequenceStatus.nextDeliverySeq = s := rfl
@[simp] theorem setNextDeliverySeq_hasRetrieved (s : UInt64) :
    (a.setNextDeliverySeq s).inturnRelayerSequenceStatus.hasRetrieved =
      a.inturnRelayerSequenceStatus.hasRetrieved := rfl
@[simp] theorem setNextDeliverySeq_alertSet (s : UInt64) : (a.setNextDeliverySeq s).alertSet = a.alertSet := rfl
@[simp] theorem setNextDeliverySeq_blsPubKey (s : UInt64) :
    (a.setNextDeliverySeq s).blsPubKey = a.blsPubKey := rfl

@[simp] theorem setHasRetrieved_relayerNonce (b : Bool) :
    (a.setHasRetrieved b).relayerNonce = a.relayerNonce := rfl
@[simp] theorem setHasRetrieved_nextDeliverySeq (b : Bool) :
    (a.setHasRetrieved b).inturnRelayerSequenceStatus.nextDeliverySeq =
      a.inturnRelayerSequenceStatus.nextDeliverySeq := rfl
@[simp] theorem setHasRetrieved_hasRetrieved (b : Bool) :
    (a.setHasRetrieved b).inturnRelayerSequenceStatus.hasRetrieved = b := rfl
@[simp] theorem setHasRetrieved_alertSet (b : Bool) : (a.setHasRetrieved b).alertSet = a.alertSet := rfl
@[simp] theorem setHasRetrieved_blsPubKey (b : Bool) : (a.setHasRetrieved b).blsPubKey = a.blsPubKey := rfl

@[simp] theorem addAlert_relayerNonce (i : UInt64) : (a.addAlert i).relayerNonce = a.relayerNonce := rfl
@[simp] theorem addAlert_status (i : UInt64) :
    (a.addAlert i).inturnRelayerSequenceStatus = a.inturnRelayerSequenceStatus := rfl
@[simp] theorem addAlert_alertSet (i : UInt64) : (a.addAlert i).alertSet = a.alertSet.insert i := rfl
@[simp] theorem addAlert_blsPubKey (i : UInt64) : (a.addAlert i).blsPubKey = a.blsPubKey := rfl

@[simp] theorem clearAlerts_relayerNonce : a.clearAlerts.relayerNonce = a.relayerNonce := rfl
@[simp] theorem clearAlerts_status :
    a.clearAlerts.inturnRelayerSequenceStatus = a.inturnRelayerSequenceStatus := rfl
@[simp] theorem clearAlerts_alertSet : a.clearAlerts.alertSet = [] := rfl
@[simp] theorem clearAlerts_blsPubKey : a.clearAlerts.blsPubKey = a.blsPubKey := rfl

end BSCAssembler

/-- `NewBSCAssembler`: an empty cursor and an empty alert set. -/
def newBSCAssembler (blsPubKey : List UInt8) : BSCAssembler where
  blsPubKey := blsPubKey
  inturnRelayerSequenceStatus := { hasRetrieved := false, nextDeliverySeq := 0 }
  relayerNonce := 0
  alertSet := []

/-- The assembler together with the log of every interaction so far. -/
structure World where
  asm : BSCAssembler
  log : List Event
  deriving DecidableEq, Repr

/-- A Go function of the assembler: mutations survive a returned error. -/
abbrev PassM := EStateM GoError World

/-- The world a finished computation left, whether it returned or failed. -/
def worldOf {α : Type} : EStateM.Result GoError World α → World
  | .ok _ w => w
  | .error _ w => w

@[simp] theorem worldOf_ok {α : Type} (a : α) (w : World) : worldOf (.ok a w) = w := rfl

@[simp] theorem worldOf_error {α : Type} (e : GoError) (w : World) :
    worldOf (EStateM.Result.error e w : EStateM.Result GoError World α) = w := rfl

/-! ## Interacting with the outside -/

section Primitives

variable {α β : Type}

/-- A call that cannot fail: the environment answers from the log, and the call is logged. -/
def ask (answer : List Event → α) (ev : α → Event) : PassM α := fun w =>
  let r := answer w.log
  .ok r { w with log := w.log ++ [ev r] }

/-- A call that may fail: a failure comes back as Go's `err`. -/
def askE (answer : List Event → Except GoError α) (ev : Except GoError α → Event) : PassM α :=
  fun w =>
    let r := answer w.log
    match r with
    | .ok a => .ok a { w with log := w.log ++ [ev r] }
    | .error e => .error e { w with log := w.log ++ [ev r] }

/-- A write to the metric sink, which never fails. -/
def emit (e : Event) : PassM Unit := fun w => .ok () { w with log := w.log ++ [e] }

/-- Go's `if err := x; err != nil { return h(err) }`: the handler runs in the state the
failure left behind. A panic is not an `err`: it passes the handler by. -/
def onError (x : PassM α) (h : GoError → PassM α) : PassM α := fun w =>
  match x w with
  | .ok a w' => .ok a w'
  | .error e w' => if e.isPanic then .error e w' else h e w'

/-- Go code returning the error of a pure library call. -/
def liftExcept (r : Except GoError α) : PassM α := fun w =>
  match r with
  | .ok a => .ok a w
  | .error e => .error e w

/-- A write to the assembler's fields. -/
def modifyAsm (f : BSCAssembler → BSCAssembler) : PassM Unit := fun w =>
  .ok () { w with asm := f w.asm }

/-- A read of the assembler's fields. -/
def getAsm : PassM BSCAssembler := fun w => .ok w.asm w

@[simp] theorem bind_apply (x : PassM α) (f : α → PassM β) (w : World) :
    (x >>= f) w = match x w with
      | .ok a w' => f a w'
      | .error e w' => .error e w' := by
  show EStateM.bind x f w = _
  unfold EStateM.bind; cases x w <;> rfl

@[simp] theorem map_apply (f : α → β) (x : PassM α) (w : World) :
    (f <$> x) w = match x w with
      | .ok a w' => .ok (f a) w'
      | .error e w' => .error e w' := by
  show EStateM.map f x w = _
  unfold EStateM.map; cases x w <;> rfl

@[simp] theorem pure_apply (a : α) (w : World) : (pure a : PassM α) w = .ok a w := rfl

@[simp] theorem throw_apply (e : GoError) (w : World) :
    (throw e : PassM α) w = .error e w := rfl

@[simp] theorem ask_apply (answer : List Event → α) (ev : α → Event) (w : World) :
    ask answer ev w = .ok (answer w.log) { w with log := w.log ++ [ev (answer w.log)] } := rfl

theorem askE_apply (answer : List Event → Except GoError α) (ev : Except GoError α → Event)
    (w : World) : askE answer ev w = match answer w.log with
      | .ok a => .ok a { w with log := w.log ++ [ev (.ok a)] }
      | .error e => .error e { w with log := w.log ++ [ev (.error e)] } := by
  simp only [askE]; split <;> simp_all

/-- A call that may fail, followed by the rest of the function: the rest runs only on an
answer. -/
@[simp] theorem askE_bind_apply (answer : List Event → Except GoError α)
    (ev : Except GoError α → Event) (f : α → PassM β) (w : World) :
    (askE answer ev >>= f) w = match answer w.log with
      | .ok a => f a { w with log := w.log ++ [ev (.ok a)] }
      | .error e => .error e { w with log := w.log ++ [ev (.error e)] } := by
  rw [bind_apply, askE_apply]; cases answer w.log <;> rfl

/-! Binds whose first step is a primitive: symbolic execution with these never builds a
`match` on a `match`, so each answer of the environment is split once. -/

theorem bind_of_ok {x : PassM α} {w w' : World} {a : α} (h : x w = .ok a w') (f : α → PassM β) :
    (x >>= f) w = f a w' := by
  rw [bind_apply, h]

theorem bind_of_error {x : PassM α} {w w' : World} {e : GoError} (h : x w = .error e w')
    (f : α → PassM β) : (x >>= f) w = .error e w' := by
  rw [bind_apply, h]

@[simp] theorem ask_bind_apply (answer : List Event → α) (ev : α → Event) (f : α → PassM β)
    (w : World) : (ask answer ev >>= f) w =
      f (answer w.log) { w with log := w.log ++ [ev (answer w.log)] } := rfl

@[simp] theorem emit_bind_apply (e : Event) (f : Unit → PassM β) (w : World) :
    (emit e >>= f) w = f () { w with log := w.log ++ [e] } := rfl

@[simp] theorem modifyAsm_bind_apply (g : BSCAssembler → BSCAssembler) (f : Unit → PassM β)
    (w : World) : (modifyAsm g >>= f) w = f () { w with asm := g w.asm } := rfl

@[simp] theorem getAsm_bind_apply (f : BSCAssembler → PassM β) (w : World) :
    (getAsm >>= f) w = f w.asm w := rfl

@[simp] theorem liftExcept_bind_apply (r : Except GoError α) (f : α → PassM β) (w : World) :
    (liftExcept r >>= f) w = match r with
      | .ok a => f a w
      | .error e => .error e w := by
  cases r <;> rfl

@[simp] theorem throw_bind_apply (e : GoError) (f : α → PassM β) (w : World) :
    (throw e >>= f) w = .error e w := rfl

@[simp] theorem emit_apply (e : Event) (w : World) :
    emit e w = .ok () { w with log := w.log ++ [e] } := rfl

@[simp] theorem onError_apply (x : PassM α) (h : GoError → PassM α) (w : World) :
    onError x h w = match x w with
      | .ok a w' => .ok a w'
      | .error e w' => if e.isPanic then .error e w' else h e w' := rfl

theorem onError_bind_of_ok {x : PassM α} {h : GoError → PassM α} {w w' : World} {a : α}
    (hx : x w = .ok a w') (f : α → PassM β) : (onError x h >>= f) w = f a w' := by
  rw [bind_apply, onError_apply, hx]

theorem onError_bind_of_error {x : PassM α} {h : GoError → PassM α} {w w' : World}
    {e : GoError} (hx : x w = .error e w') (hp : e.isPanic = false) (f : α → PassM β) :
    (onError x h >>= f) w = (h e >>= f) w' := by
  rw [bind_apply, bind_apply, onError_apply, hx]; simp [hp]

theorem onError_bind_of_panic {x : PassM α} {h : GoError → PassM α} {w w' : World}
    {e : GoError} (hx : x w = .error e w') (hp : e.isPanic = true) (f : α → PassM β) :
    (onError x h >>= f) w = .error e w' := by
  rw [bind_apply, onError_apply, hx]; simp [hp]

@[simp] theorem modifyAsm_apply (f : BSCAssembler → BSCAssembler) (w : World) :
    modifyAsm f w = .ok () { w with asm := f w.asm } := rfl

@[simp] theorem getAsm_apply (w : World) : getAsm w = .ok w.asm w := rfl

end Primitives

end GreenfieldRelayer
