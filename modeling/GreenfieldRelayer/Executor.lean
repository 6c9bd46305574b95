import GreenfieldRelayer.Pass

/-!
# GreenfieldRelayer — the Greenfield executor calls the assembler makes

`greenfield_executor.go` holds three calls with logic of their own between the assembler and
the chain:

* **`claimPackages`** (`ClaimPackages`) builds the `MsgClaim`, broadcasts it with the
  caller's nonce, and turns a non-zero response code into an error;
* **`queryCachedLatestValidators`** (`QueryCachedLatestValidators`) answers from the cache
  when it is non-empty and asks the chain otherwise, without filling the cache;
* **`getValidatorsBlsPublicKey`** (`GetValidatorsBlsPublicKey`) writes their BLS keys as the
  lowercase hex strings that `process` decodes the in-turn relayer's key from.

The cache itself is written by `UpdateCachedLatestValidatorsLoop` on its own goroutine, which
the model leaves out: each read of the cache is an answer of the environment, so a pass may
read any value of it, and theorems over all environments hold whatever the loop wrote.
-/

namespace GreenfieldRelayer

/-- The configuration the assembler and the executor read. The last three fields are package
constants outside the sources (`common.TxDelayAlertThreshHold`, `common.OracleChannelId`,
`sdktypes.Denom`), taken as parameters. -/
structure Config where
  /-- `RelayConfig.GreenfieldSequenceUpdateLatency`, in seconds. -/
  greenfieldSequenceUpdateLatency : BitVec 64
  /-- `RelayConfig.BSCToGreenfieldInturnRelayerTimeout`, in seconds. -/
  bscToGreenfieldInturnRelayerTimeout : BitVec 64
  /-- `BSCConfig.ChainId`. -/
  bscChainId : UInt64
  /-- `GreenfieldConfig.ChainId`. -/
  greenfieldChainId : UInt64
  /-- `GreenfieldConfig.GasLimit`. -/
  gasLimit : UInt64
  /-- `GreenfieldConfig.FeeAmount`. -/
  feeAmount : UInt64
  txDelayAlertThreshHold : Nat
  oracleChannelId : UInt8
  denom : String

/-- What a pass needs beyond the environment: the configuration, the executor's account
address, and `vote.AggregateSignatureAndValidatorBitSet` (outside the sources, a parameter),
which returns the aggregated BLS signature and the words of the validator bit set. -/
structure Setup where
  config : Config
  address : String
  aggregate : List Vote → List Validator → Except GoError (List UInt8 × List UInt64)

section Calls

variable (env : Env) (setup : Setup)

/-- `getSrcChainId`. -/
def Config.srcChainId (c : Config) : UInt32 := c.bscChainId.toUInt32

/-- `getDestChainId`. -/
def Config.destChainId (c : Config) : UInt32 := c.greenfieldChainId.toUInt32

/-- The claim message `ClaimPackages` builds for its arguments. -/
def claimMsg (payloadBts aggregatedSig : List UInt8) (voteAddressSet : List UInt64)
    (claimTs : BitVec 64) (oracleSeq : UInt64) : MsgClaim where
  fromAddress := setup.address
  srcChainId := setup.config.srcChainId
  destChainId := setup.config.destChainId
  sequence := oracleSeq
  timestamp := UInt64.mk claimTs
  payload := payloadBts
  voteAddressSet := voteAddressSet
  aggSignature := aggregatedSig

/-- The transaction options `ClaimPackages` broadcasts with. -/
def claimTxOption (nonce : UInt64) : TxOption where
  noSimulate := true
  gasLimit := setup.config.gasLimit
  feeDenom := setup.config.denom
  feeAmount := setup.config.feeAmount.toBitVec
  nonce := nonce

/-- `GreenfieldExecutor.ClaimPackages`: the transaction hash of an accepted claim. -/
def claimPackages (payloadBts aggregatedSig : List UInt8) (voteAddressSet : List UInt64)
    (claimTs : BitVec 64) (oracleSeq nonce : UInt64) : PassM String := do
  let msg := claimMsg setup payloadBts aggregatedSig voteAddressSet claimTs oracleSeq
  let opt := claimTxOption setup nonce
  let txRes ← askE (fun log => env.broadcastTx log msg opt) (.broadcastTx msg opt)
  if txRes.code ≠ 0 then throw (.claimRejected txRes.code txRes.rawLog)
  return txRes.txHash

/-- `GreenfieldExecutor.QueryCachedLatestValidators`. -/
def queryCachedLatestValidators : PassM (List Validator) := do
  let validators ← ask env.cachedValidators .cachedValidators
  if validators ≠ [] then return validators
  askE env.queryLatestValidators .latestValidators

/-- `GreenfieldExecutor.GetValidatorsBlsPublicKey`: the validators' BLS keys, hex-encoded. -/
def getValidatorsBlsPublicKey : PassM (List String) := do
  let validators ← queryCachedLatestValidators env
  return validators.map fun v => encodeToString v.blsKey

end Calls

end GreenfieldRelayer
