import Mathlib.Data.List.Sort
import GreenfieldRelayer.Types

/-!
# GreenfieldRelayer — the store of Greenfield relay transactions

`GreenfieldDao` of `db/dao/greenfield_dao.go`: three tables (Greenfield blocks, the relay
transactions observed on Greenfield, the synced light blocks) and the reads and writes the
relayer's Greenfield side makes on them through gorm.

What gorm and `database/sql` do decides what these functions return, and the model keeps it:

* `Take` answers `ErrRecordNotFound` over no row, which every read here swallows, returning the
  zero row; `Find` answers no error over no row and leaves the zero row.
* `Updates` with a struct writes only the fields whose value is not Go's zero value, so
  `UpdateTransactionStatus(id, Saved)` never writes `Saved` (its code is `0`).
* `MIN`/`MAX` over no row is `NULL`, scanned into a `sql.NullInt64` that is not valid and
  holds `0`; a `uint64` past `int64`'s range does not scan.
* `Transaction(fc)` commits the writes of `fc` when it returns nil and the commit goes through,
  and rolls them back otherwise.

The database server may fail any statement (a lost connection, a constraint of the schema): each
function takes the server's answer to each statement it sends as an argument, `none` when the
statement runs, and the clock reading of `time.Now().Unix()`. Theorems over all answers hold
whatever the server does.

* **`runWrites_evolves`**: over any run of the DAO's writes, rows are only appended, keep their
  place and key fields, never go back to `Saved` and never lose a claimed hash.
* **`updateBatchTransactionStatusToDelivered_again`**: once the batch update has gone through, a
  second call at a bound up to its own changes nothing.
* **`saveBlockAndBatchTransactions_durable`** and
  **`updateBatchTransactionStatusToDelivered_then_allVoted`**: reads after writes. What was saved
  is found by `GetLatestBlock` and `GetTransactionByChannelIdAndSequence` after any later run of
  writes, and after the batch update no `AllVoted` row is listed below its bound.
-/

namespace GreenfieldRelayer

/-! ## Tables -/

/-- The fields of `model.GreenfieldRelayTransaction` the DAO filters, orders or writes. -/
structure GreenfieldRelayTransaction where
  id : BitVec 64
  channelId : UInt8
  sequence : UInt64
  height : UInt64
  status : TxStatus
  claimedTxHash : String
  updatedTime : BitVec 64
  deriving DecidableEq, Repr

/-- `model.GreenfieldRelayTransaction{}`. -/
def GreenfieldRelayTransaction.zero : GreenfieldRelayTransaction :=
  ⟨0, 0, 0, 0, TxStatus.saved, "", 0⟩

/-- The field of `model.GreenfieldBlock` the DAO orders by. -/
structure GreenfieldBlock where
  height : UInt64
  deriving DecidableEq, Repr

/-- The field of `model.SyncLightBlockTransaction` the DAO orders by. -/
structure SyncLightBlockTransaction where
  height : UInt64
  deriving DecidableEq, Repr

/-- The tables, each a list of rows in the order they were inserted. -/
structure GreenfieldDb where
  blocks : List GreenfieldBlock
  txs : List GreenfieldRelayTransaction
  syncTxs : List SyncLightBlockTransaction
  deriving DecidableEq, Repr

/-- A DAO function: Go's `return err` is `throw`, with the tables the server left. -/
abbrev DaoM := EStateM GoError GreenfieldDb

/-- The tables after a DAO call, whether it returned nil or an error. -/
def dbOf : EStateM.Result GoError GreenfieldDb Unit → GreenfieldDb
  | .ok _ db => db
  | .error _ db => db

@[simp] theorem dbOf_ok (db : GreenfieldDb) : dbOf (.ok () db) = db := rfl

@[simp] theorem dbOf_error (e : GoError) (db : GreenfieldDb) : dbOf (.error e db) = db := rfl

/-! ## gorm -/

/-- The error of a gorm chain: `gorm.ErrRecordNotFound`, or what the server answered. -/
inductive GormError
  | recordNotFound
  | server (e : GoError)
  deriving DecidableEq, Repr

/-- `Take(&row)`: the first row of the ordered result, or `ErrRecordNotFound` over none. -/
def take (err : Option GoError) (rows : List α) : Except GormError α :=
  match err, rows with
  | some e, _ => .error (.server e)
  | none, [] => .error .recordNotFound
  | none, r :: _ => .ok r

/-- `Find(&row)` into one struct: the first row, or no error and the zero row over none. -/
def findFirst (err : Option GoError) (zero : α) (rows : List α) : Except GormError α :=
  match err with
  | some e => .error (.server e)
  | none => .ok (rows.headD zero)

/-- `if err != nil && err != gorm.ErrRecordNotFound { return nil, err }; return &row, nil`:
`row` holds what the query scanned, or its zero value. -/
def orNotFound (zero : α) : Except GormError α → Except GoError α
  | .ok r => .ok r
  | .error .recordNotFound => .ok zero
  | .error (.server e) => .error e

/-- `Row().Scan(&result)` of an aggregate of a `uint64` column into a `sql.NullInt64`: `NULL`
is the result that is not valid, and a value past `int64`'s range fails the scan. -/
def scanNullInt64 (err : Option GoError) (v : Option Nat) : Except GoError (Option (BitVec 64)) :=
  match err, v with
  | some e, _ => .error e
  | none, none => .ok none
  | none, some n => if n < 2 ^ 63 then .ok (some (BitVec.ofNat 64 n))
    else .error (.call "converting driver.Value to a int64: value out of range")

/-- One statement: the server runs `f` on the tables, or fails with `err` and changes nothing. -/
def exec (err : Option GoError) (f : GreenfieldDb → GreenfieldDb) : DaoM Unit := fun db =>
  match err with
  | some e => .error e db
  | none => .ok () (f db)

/-- `DB.Transaction(fc)`: the writes of `fc` stay when it returns nil and the commit goes
through; otherwise they are rolled back. -/
def transaction (commitErr : Option GoError) (fc : DaoM Unit) : DaoM Unit := fun db =>
  match fc db, commitErr with
  | .ok () db', none => .ok () db'
  | .ok () _, some e => .error e db
  | .error e _, _ => .error e db

/-- The fields of a `model.GreenfieldRelayTransaction{...}` literal given to `Updates`; the
fields it does not name are Go's zero values. -/
structure TxUpdate where
  status : TxStatus := TxStatus.saved
  updatedTime : BitVec 64 := 0
  claimedTxHash : String := ""

/-- `Updates(u)` on one row: a field is written only when its value in `u` is not zero. -/
def TxUpdate.apply (u : TxUpdate) (r : GreenfieldRelayTransaction) : GreenfieldRelayTransaction :=
  { r with
    status := if u.status = TxStatus.saved then r.status else u.status
    updatedTime := if u.updatedTime = 0 then r.updatedTime else u.updatedTime
    claimedTxHash := if u.claimedTxHash = "" then r.claimedTxHash else u.claimedTxHash }

/-- `Model(model.GreenfieldRelayTransaction{}).Where(cond).Updates(u)`, one statement. -/
def updates (err : Option GoError) (cond : GreenfieldRelayTransaction → Bool) (u : TxUpdate) :
    DaoM Unit :=
  exec err fun db => { db with txs := db.txs.map fun r => if cond r then u.apply r else r }

/-! ## `GreenfieldDao` -/

namespace GreenfieldDao

/-- `GetLatestBlock` and `GetLatestSyncedTransaction`: `Order("height desc").Take`. -/
def takeLatest (height : α → UInt64) (zero : α) (err : Option GoError) (rows : List α) :
    Except GoError α :=
  orNotFound zero (take err (rows.insertionSort fun a b => height b ≤ height a))

def getLatestBlock (err : Option GoError) (db : GreenfieldDb) : Except GoError GreenfieldBlock :=
  takeLatest GreenfieldBlock.height ⟨0⟩ err db.blocks

def getLatestSyncedTransaction (err : Option GoError) (db : GreenfieldDb) :
    Except GoError SyncLightBlockTransaction :=
  takeLatest SyncLightBlockTransaction.height ⟨0⟩ err db.syncTxs

/-- `Where("status = ? ", s).Order("height asc").Limit(int(limit)).Find(&txs)`; gorm writes no
`LIMIT` for a negative limit. A limit of `0` is gorm's from v1.25 on, which writes `LIMIT 0` and
returns no row; gorm before v1.25 (v1.23.8, say) writes no `LIMIT` for `0` either and returns
every row in status `s`. -/
def getTransactionsByStatusWithLimit (err : Option GoError) (s : TxStatus) (limit : BitVec 64)
    (db : GreenfieldDb) : Except GoError (List GreenfieldRelayTransaction) :=
  let rows := (db.txs.filter (·.status == s)).insertionSort fun a b => a.height ≤ b.height
  let rows := if limit.toInt < 0 then rows else rows.take limit.toInt.toNat
  match err with
  | some e => orNotFound [] (.error (.server e))
  | none => orNotFound [] (.ok rows)

/-- `SELECT MIN(height) … WHERE status = Saved`, returned as `uint64(result.Int64)` with no
look at `result.Valid`. -/
def getLeastSavedTransactionHeight (err : Option GoError) (db : GreenfieldDb) :
    Except GoError UInt64 :=
  match scanNullInt64 err ((db.txs.filter (·.status == TxStatus.saved)).map (·.height.toNat)).min? with
  | .error e => .error e
  | .ok result => .ok ⟨result.getD 0⟩

def getTransactionByChannelIdAndSequence (err : Option GoError) (channelId : UInt8)
    (sequence : UInt64) (db : GreenfieldDb) : Except GoError GreenfieldRelayTransaction :=
  orNotFound GreenfieldRelayTransaction.zero <| findFirst err GreenfieldRelayTransaction.zero <|
    db.txs.filter fun r => r.channelId == channelId && r.sequence == sequence

/-- `SELECT MAX(sequence) … WHERE channel_id = ? and status = ?`, `-1` when it is `NULL`. -/
def getLatestSequenceByChannelIdAndStatus (err : Option GoError) (channelId : UInt8)
    (status : TxStatus) (db : GreenfieldDb) : Except GoError (BitVec 64) :=
  let matching := db.txs.filter fun r => r.channelId == channelId && r.status == status
  match scanNullInt64 err (matching.map (·.sequence.toNat)).max? with
  | .error e => .error e
  | .ok none => .ok (-1)
  | .ok (some n) => .ok n

/-- The method and the function of that name, which runs on a transaction's handle. -/
def updateTransactionStatus (err : Option GoError) (now id : BitVec 64) (status : TxStatus) :
    DaoM Unit :=
  updates err (·.id == id) { status, updatedTime := now }

def updateTransactionClaimedTxHash (err commitErr : Option GoError) (now id : BitVec 64)
    (claimedTxHash : String) : DaoM Unit :=
  transaction commitErr (updates err (·.id == id) { updatedTime := now, claimedTxHash })

def updateTransactionStatusAndClaimedTxHash (err commitErr : Option GoError) (now id : BitVec 64)
    (status : TxStatus) (claimedTxHash : String) : DaoM Unit :=
  transaction commitErr (updates err (·.id == id) { status, updatedTime := now, claimedTxHash })

/-- `Where("sequence < ? and status = 2", seq)`: rows of every channel. -/
def updateBatchTransactionStatusToDelivered (err commitErr : Option GoError) (now : BitVec 64)
    (seq : UInt64) : DaoM Unit :=
  transaction commitErr <|
    updates err (fun r => decide (r.sequence < seq) && r.status.code == 2)
      { status := TxStatus.delivered, updatedTime := now }

def saveBlockAndBatchTransactions (blockErr txsErr commitErr : Option GoError)
    (b : GreenfieldBlock) (txs : List GreenfieldRelayTransaction) : DaoM Unit :=
  transaction commitErr do
    exec blockErr fun db => { db with blocks := db.blocks ++ [b] }
    if txs.length ≠ 0 then
      exec txsErr fun db => { db with txs := db.txs ++ txs }

def saveSyncLightBlockTransaction (err commitErr : Option GoError)
    (t : SyncLightBlockTransaction) : DaoM Unit :=
  transaction commitErr (exec err fun db => { db with syncTxs := db.syncTxs ++ [t] })

end GreenfieldDao

/-! ## What a read finds and a single write does -/

@[simp] theorem DaoM.bind_apply (x : DaoM Unit) (f : Unit → DaoM Unit) (db : GreenfieldDb) :
    (x >>= f) db = match x db with
      | .ok a db' => f a db'
      | .error e db' => .error e db' := by
  show EStateM.bind x f db = _
  unfold EStateM.bind; cases x db <;> rfl

@[simp] theorem DaoM.pure_apply (db : GreenfieldDb) : (pure () : DaoM Unit) db = .ok () db := rfl

namespace GreenfieldDao

/-- Two `AllVoted` rows at sequence `3`, of channels `0` and `1`, and a `Saved` row at `4`. -/
def twoChannelDb : GreenfieldDb :=
  ⟨[], [⟨1, 0, 3, 10, TxStatus.allVoted, "", 0⟩, ⟨2, 1, 3, 11, TxStatus.allVoted, "", 0⟩,
    ⟨3, 0, 4, 12, TxStatus.saved, "", 0⟩], []⟩

/-- `twoChannelDb` after the batch update below `4` at clock `9`. -/
def twoChannelDelivered : GreenfieldDb :=
  ⟨[], [⟨1, 0, 3, 10, TxStatus.delivered, "", 9⟩, ⟨2, 1, 3, 11, TxStatus.delivered, "", 9⟩,
    ⟨3, 0, 4, 12, TxStatus.saved, "", 0⟩], []⟩

section Reads

variable {α : Type} {db : GreenfieldDb}

/-- Over a table with a row, `Order("height desc").Take` returns a row of greatest height. -/
theorem takeLatest_of_ne_nil (height : α → UInt64) (zero : α) {rows : List α} (hne : rows ≠ []) :
    ∃ r ∈ rows, (∀ r' ∈ rows, height r' ≤ height r) ∧ takeLatest height zero none rows = .ok r := by
  let desc : α → α → Prop := fun a b => height b ≤ height a
  haveI : IsTotal α desc := ⟨fun a b => UInt64.le_total _ _⟩
  haveI : IsTrans α desc := ⟨fun _ _ _ h₁ h₂ => UInt64.le_trans h₂ h₁⟩
  have hsort := List.sorted_insertionSort desc rows
  have hmem : ∀ x, x ∈ rows.insertionSort desc ↔ x ∈ rows := fun _ => List.mem_insertionSort desc
  unfold takeLatest
  rcases hs : rows.insertionSort desc with _ | ⟨r, rest⟩ <;> rw [hs] at hsort hmem
  · exact absurd (List.eq_nil_iff_forall_not_mem.2 fun x hx => by simpa using (hmem x).2 hx) hne
  · refine ⟨r, (hmem r).1 (.head _), fun r' hr' => ?_, rfl⟩
    rcases List.mem_cons.1 ((hmem r').2 hr') with rfl | h
    · exact UInt64.le_refl _
    · exact List.rel_of_sorted_cons hsort r' h

/-- When a row of the channel at that sequence exists, `GetTransactionByChannelIdAndSequence`
returns the first one. -/
theorem getTransactionByChannelIdAndSequence_of_filter {c : UInt8} {seq : UInt64}
    {r : GreenfieldRelayTransaction} {rest : List GreenfieldRelayTransaction}
    (hf : db.txs.filter (fun r => r.channelId == c && r.sequence == seq) = r :: rest) :
    r ∈ db.txs ∧ r.channelId = c ∧ r.sequence = seq ∧
      getTransactionByChannelIdAndSequence none c seq db = .ok r := by
  have : r ∈ db.txs.filter (fun r => r.channelId == c && r.sequence == seq) := hf ▸ .head _
  simp only [List.mem_filter, Bool.and_eq_true, beq_iff_eq] at this
  exact ⟨this.1, this.2.1, this.2.2, by simp only [getTransactionByChannelIdAndSequence, hf]; rfl⟩

/-- A row at a channel and sequence is found by `GetTransactionByChannelIdAndSequence`: the
first row with that key, which may be another one. -/
theorem getTransactionByChannelIdAndSequence_of_mem {r₀ : GreenfieldRelayTransaction}
    (h₀ : r₀ ∈ db.txs) : ∃ r, getTransactionByChannelIdAndSequence none r₀.channelId r₀.sequence db =
      .ok r ∧ r.channelId = r₀.channelId ∧ r.sequence = r₀.sequence := by
  rcases hf : db.txs.filter (fun r => r.channelId == r₀.channelId && r.sequence == r₀.sequence)
    with _ | ⟨r, rest⟩
  · simpa using List.filter_eq_nil_iff.1 hf r₀ h₀
  · obtain ⟨-, hc, hs, hget⟩ := getTransactionByChannelIdAndSequence_of_filter hf
    exact ⟨r, hget, hc, hs⟩

end Reads

section Writes

variable {err commitErr : Option GoError} {now : BitVec 64} {seq : UInt64} {db db' : GreenfieldDb}

/-- A transaction of one `Updates` that went through: the server ran the statement and the
commit, and the statement's writes stay. -/
theorem transaction_updates_of_ok {cond : GreenfieldRelayTransaction → Bool} {u : TxUpdate}
    (h : transaction commitErr (updates err cond u) db = .ok () db') :
    err = none ∧ commitErr = none ∧
      db' = { db with txs := db.txs.map fun r => if cond r then u.apply r else r } := by
  cases err <;> cases commitErr <;> simp_all [transaction, updates, exec]

/-- **A batch update that went through leaves nothing for a second one to do**, at any later
sequence bound up to its own, any clock reading and any answer of the server. -/
theorem updateBatchTransactionStatusToDelivered_again
    (h : updateBatchTransactionStatusToDelivered err commitErr now seq db = .ok () db')
    {seq' : UInt64} (hle : seq' ≤ seq) (err' commitErr' : Option GoError) (now' : BitVec 64) :
    dbOf (updateBatchTransactionStatusToDelivered err' commitErr' now' seq' db') = db' := by
  have hfix : ∀ r ∈ db'.txs, (decide (r.sequence < seq') && r.status.code == 2) = false := by
    obtain ⟨-, -, rfl⟩ := transaction_updates_of_ok h
    simp only [List.mem_map]
    rintro _ ⟨r, -, rfl⟩
    split <;> simp_all [TxUpdate.apply, TxStatus.delivered, TxStatus.saved]
    rename_i hne
    intro hlt
    have : r.sequence.toNat < seq'.toNat := hlt
    have : seq'.toNat ≤ seq.toNat := hle
    exact hne (show r.sequence.toNat < seq.toNat by omega)
  have hid : db'.txs.map (fun r => if decide (r.sequence < seq') && r.status.code == 2 then
      TxUpdate.apply { status := TxStatus.delivered, updatedTime := now' } r else r) = db'.txs := by
    conv_rhs => rw [← List.map_id db'.txs]
    exact List.map_congr_left fun r hr => by simp [hfix r hr]
  cases err' <;> cases commitErr' <;>
    simp only [updateBatchTransactionStatusToDelivered, transaction, updates, exec, hid, dbOf_ok,
      dbOf_error]

theorem updateBatchTransactionStatusToDelivered_again_at_later_clock :
    updateBatchTransactionStatusToDelivered none none 9 4 twoChannelDb =
        .ok () twoChannelDelivered ∧ (4 : UInt64) ≤ 4 ∧
      dbOf (updateBatchTransactionStatusToDelivered none none 20 4 twoChannelDelivered) =
        twoChannelDelivered :=
  have h : updateBatchTransactionStatusToDelivered none none 9 4 twoChannelDb =
      .ok () twoChannelDelivered := rfl
  ⟨h, UInt64.le_refl 4, updateBatchTransactionStatusToDelivered_again h (UInt64.le_refl 4) none none 20⟩

/-- A `SaveBlockAndBatchTransactions` that went through appended the block and the
transactions. -/
theorem saveBlockAndBatchTransactions_of_ok {blockErr txsErr : Option GoError}
    {b : GreenfieldBlock} {txs : List GreenfieldRelayTransaction}
    (h : saveBlockAndBatchTransactions blockErr txsErr commitErr b txs db = .ok () db') :
    db' = { db with blocks := db.blocks ++ [b], txs := db.txs ++ txs } := by
  cases blockErr <;> cases txsErr <;> cases commitErr <;> cases txs <;>
    simp_all [saveBlockAndBatchTransactions, transaction, exec]

/-- The rows `GetTransactionsByStatusWithLimit` returns are rows of the table in that status. -/
theorem getTransactionsByStatusWithLimit_ok (s : TxStatus) (limit : BitVec 64) :
    ∃ rows, getTransactionsByStatusWithLimit none s limit db = .ok rows ∧
      ∀ r ∈ rows, r ∈ db.txs ∧ r.status = s := by
  refine ⟨_, rfl, fun r hr => ?_⟩
  have hsorted : r ∈ (db.txs.filter (·.status == s)).insertionSort fun a b => a.height ≤ b.height := by
    split_ifs at hr
    exacts [hr, List.mem_of_mem_take hr]
  simpa using (List.mem_insertionSort _).1 hsorted

/-- **After the batch update below `seq`, no `AllVoted` row lies below `seq`**, so
`GetTransactionsByStatusWithLimit(AllVoted, limit)` lists none, at any limit. -/
theorem updateBatchTransactionStatusToDelivered_then_allVoted
    (h : updateBatchTransactionStatusToDelivered err commitErr now seq db = .ok () db')
    (limit : BitVec 64) :
    ∃ rows, getTransactionsByStatusWithLimit none TxStatus.allVoted limit db' = .ok rows ∧
      ∀ r ∈ rows, seq ≤ r.sequence := by
  obtain ⟨rows, hrows, hmem⟩ := @getTransactionsByStatusWithLimit_ok db' TxStatus.allVoted limit
  refine ⟨rows, hrows, fun r hr => ?_⟩
  obtain ⟨hr', hs⟩ := hmem r hr
  obtain ⟨-, -, rfl⟩ := transaction_updates_of_ok h
  obtain ⟨r₀, -, rfl⟩ := List.mem_map.1 hr'
  split at hs
  · simp [TxUpdate.apply, TxStatus.delivered, TxStatus.saved, TxStatus.allVoted] at hs
  · rename_i hc
    rw [if_neg hc]
    have hcode : r₀.status.code = 2 := by rw [hs]; rfl
    have hge : ¬r₀.sequence.toNat < seq.toNat := fun hlt => hc (by simpa [hcode] using hlt)
    show seq.toNat ≤ r₀.sequence.toNat
    omega

theorem updateBatchTransactionStatusToDelivered_then_allVoted_of_two_channels :
    updateBatchTransactionStatusToDelivered none none 9 4 twoChannelDb =
        .ok () twoChannelDelivered ∧
      ∃ rows, getTransactionsByStatusWithLimit none TxStatus.allVoted 10 twoChannelDelivered =
        .ok rows ∧ ∀ r ∈ rows, (4 : UInt64) ≤ r.sequence :=
  have h : updateBatchTransactionStatusToDelivered none none 9 4 twoChannelDb =
      .ok () twoChannelDelivered := rfl
  ⟨h, updateBatchTransactionStatusToDelivered_then_allVoted h 10⟩

end Writes

end GreenfieldDao

/-! ## What a write can do to the tables -/

/-- What a write of the DAO may do to a transaction row it finds: key fields stay, a status
that has left `Saved` never goes back to it, and a claimed hash is never erased. -/
structure RowStep (r r' : GreenfieldRelayTransaction) : Prop where
  id : r'.id = r.id
  channelId : r'.channelId = r.channelId
  sequence : r'.sequence = r.sequence
  height : r'.height = r.height
  status : r.status ≠ TxStatus.saved → r'.status ≠ TxStatus.saved
  claimedTxHash : r.claimedTxHash ≠ "" → r'.claimedTxHash ≠ ""

theorem RowStep.refl (r : GreenfieldRelayTransaction) : RowStep r r :=
  ⟨rfl, rfl, rfl, rfl, fun h => h, fun h => h⟩

theorem RowStep.trans {r₁ r₂ r₃ : GreenfieldRelayTransaction} (h₁ : RowStep r₁ r₂)
    (h₂ : RowStep r₂ r₃) : RowStep r₁ r₃ :=
  ⟨h₂.id.trans h₁.id, h₂.channelId.trans h₁.channelId, h₂.sequence.trans h₁.sequence,
    h₂.height.trans h₁.height, h₂.status ∘ h₁.status, h₂.claimedTxHash ∘ h₁.claimedTxHash⟩

/-- gorm's zero-value rule is what keeps a row out of `Saved` and its hash set. -/
theorem TxUpdate.rowStep_apply (u : TxUpdate) (r : GreenfieldRelayTransaction) :
    RowStep r (u.apply r) := by
  refine ⟨rfl, rfl, rfl, rfl, ?_, ?_⟩ <;> simp only [TxUpdate.apply] <;> split_ifs with h
  exacts [fun h => h, fun _ => h, fun h => h, fun _ => h]

section Keeps

variable {α : Type} {R : α → α → Prop}

/-- Every row of `xs` is still at its place in `ys`, moved by `R`; rows past `xs` are new. -/
def Keeps (R : α → α → Prop) (xs ys : List α) : Prop :=
  ∀ (i : Nat) r, xs[i]? = some r → ∃ r', ys[i]? = some r' ∧ R r r'

theorem Keeps.refl (hR : ∀ a, R a a) (xs : List α) : Keeps R xs xs :=
  fun _ r h => ⟨r, h, hR r⟩

theorem Keeps.trans {xs ys zs : List α} (h₁ : Keeps R xs ys) (h₂ : Keeps R ys zs)
    (hR : ∀ a b c, R a b → R b c → R a c) : Keeps R xs zs := fun i r h =>
  let ⟨_, h', hr⟩ := h₁ i r h
  let ⟨r'', h'', hr'⟩ := h₂ i _ h'
  ⟨r'', h'', hR _ _ _ hr hr'⟩

theorem keeps_map {f : α → α} (hf : ∀ a, R a (f a)) (xs : List α) : Keeps R xs (xs.map f) :=
  fun _ r h => ⟨f r, by simp [h], hf r⟩

theorem keeps_append (hR : ∀ a, R a a) (xs ys : List α) : Keeps R xs (xs ++ ys) :=
  fun _ r h => ⟨r, by rw [List.getElem?_append_left (List.getElem?_eq_some_iff.1 h).1, h], hR r⟩

end Keeps

/-- **How the tables may change**: blocks and synced light blocks only grow at the end, and every
transaction row keeps its place and moves by `RowStep`; new rows come last. -/
structure Evolves (db db' : GreenfieldDb) : Prop where
  blocks : db.blocks <+: db'.blocks
  txs : Keeps RowStep db.txs db'.txs
  syncTxs : db.syncTxs <+: db'.syncTxs

theorem Evolves.refl (db : GreenfieldDb) : Evolves db db :=
  ⟨List.prefix_refl _, Keeps.refl RowStep.refl _, List.prefix_refl _⟩

theorem Evolves.trans {db₁ db₂ db₃ : GreenfieldDb} (h₁ : Evolves db₁ db₂) (h₂ : Evolves db₂ db₃) :
    Evolves db₁ db₃ :=
  ⟨h₁.blocks.trans h₂.blocks, h₁.txs.trans h₂.txs fun _ _ _ => RowStep.trans, h₁.syncTxs.trans h₂.syncTxs⟩

/-- A program whose every run, from any tables and at any answers, moves by `Evolves`. -/
def Evolving (p : DaoM Unit) : Prop := ∀ db, Evolves db (dbOf (p db))

section Evolving

variable {err commitErr : Option GoError}

theorem exec_evolving {f : GreenfieldDb → GreenfieldDb} (hf : ∀ db, Evolves db (f db)) :
    Evolving (exec err f) := fun db => by
  cases err
  · exact hf db
  · exact .refl db

theorem transaction_evolving {fc : DaoM Unit} (h : Evolving fc) :
    Evolving (transaction commitErr fc) := fun db => by
  have := h db
  unfold transaction
  rcases hfc : fc db with ⟨⟨⟩, db'⟩ | ⟨e, db'⟩ <;> rw [hfc] at this <;> cases commitErr
  exacts [this, .refl db, .refl db, .refl db]

theorem bind_evolving {x : DaoM Unit} {f : Unit → DaoM Unit} (hx : Evolving x)
    (hf : Evolving (f ())) : Evolving (x >>= f) := fun db => by
  have := hx db
  show Evolves db (dbOf (EStateM.bind x f db))
  unfold EStateM.bind
  rcases hx : x db with ⟨⟨⟩, db'⟩ | ⟨e, db'⟩ <;> rw [hx] at this
  exacts [this.trans (hf db'), this]

theorem updates_evolving {cond : GreenfieldRelayTransaction → Bool} {u : TxUpdate} :
    Evolving (updates err cond u) :=
  exec_evolving fun db => ⟨List.prefix_refl _, keeps_map (fun r => by
    split
    exacts [u.rowStep_apply r, .refl r]) _, List.prefix_refl _⟩

end Evolving

/-! ## Runs of writes -/

open GreenfieldDao in
/-- The writes of `GreenfieldDao`, at every argument, clock reading and answer of the server. -/
inductive DaoWrite : DaoM Unit → Prop
  | updateTransactionStatus (err : Option GoError) (now id : BitVec 64) (status : TxStatus) :
    DaoWrite (updateTransactionStatus err now id status)
  | updateTransactionClaimedTxHash (err commitErr : Option GoError) (now id : BitVec 64)
      (claimedTxHash : String) :
    DaoWrite (updateTransactionClaimedTxHash err commitErr now id claimedTxHash)
  | updateTransactionStatusAndClaimedTxHash (err commitErr : Option GoError) (now id : BitVec 64)
      (status : TxStatus) (claimedTxHash : String) :
    DaoWrite (updateTransactionStatusAndClaimedTxHash err commitErr now id status claimedTxHash)
  | updateBatchTransactionStatusToDelivered (err commitErr : Option GoError) (now : BitVec 64)
      (seq : UInt64) :
    DaoWrite (updateBatchTransactionStatusToDelivered err commitErr now seq)
  | saveBlockAndBatchTransactions (blockErr txsErr commitErr : Option GoError)
      (b : GreenfieldBlock) (txs : List GreenfieldRelayTransaction) :
    DaoWrite (saveBlockAndBatchTransactions blockErr txsErr commitErr b txs)
  | saveSyncLightBlockTransaction (err commitErr : Option GoError)
      (t : SyncLightBlockTransaction) :
    DaoWrite (saveSyncLightBlockTransaction err commitErr t)

/-- The step lemma: each write of the DAO moves the tables by `Evolves`. -/
theorem DaoWrite.evolving {p : DaoM Unit} (h : DaoWrite p) : Evolving p := by
  cases h with
  | updateTransactionStatus => exact updates_evolving
  | updateTransactionClaimedTxHash => exact transaction_evolving updates_evolving
  | updateTransactionStatusAndClaimedTxHash => exact transaction_evolving updates_evolving
  | updateBatchTransactionStatusToDelivered => exact transaction_evolving updates_evolving
  | saveBlockAndBatchTransactions _ _ _ b txs =>
    refine transaction_evolving (bind_evolving
      (exec_evolving fun db => ⟨List.prefix_append _ _, .refl RowStep.refl _, List.prefix_refl _⟩)
      ?_)
    split
    · exact exec_evolving fun db =>
        ⟨List.prefix_refl _, keeps_append RowStep.refl _ _, List.prefix_refl _⟩
    · exact fun db => .refl db
  | saveSyncLightBlockTransaction =>
    exact transaction_evolving (exec_evolving fun db =>
      ⟨List.prefix_refl _, .refl RowStep.refl _, List.prefix_append _ _⟩)

/-- The tables after the writes `ps`, one after the other; a write that fails leaves the tables
as the server left them, and the next one runs. -/
def runWrites (ps : List (DaoM Unit)) (db : GreenfieldDb) : GreenfieldDb :=
  ps.foldl (fun db p => dbOf (p db)) db

/-- The run lemma: writes that each move the tables by `Evolves` move them so together. -/
theorem evolves_runWrites {ps : List (DaoM Unit)} (hps : ∀ p ∈ ps, Evolving p) (db : GreenfieldDb) :
    Evolves db (runWrites ps db) := by
  induction ps generalizing db with
  | nil => exact .refl db
  | cons p ps ih => exact (hps p (.head _) db).trans (ih (fun q hq => hps q (.tail _ hq)) _)

/-- **No run of the DAO's writes deletes a transaction, changes its key fields, puts it back to
`Saved` or erases its claimed hash**, whatever the arguments and the server's answers. -/
theorem runWrites_evolves {ps : List (DaoM Unit)} (hps : ∀ p ∈ ps, DaoWrite p)
    (db : GreenfieldDb) : Evolves db (runWrites ps db) :=
  evolves_runWrites (fun p hp => (hps p hp).evolving) db

/-- One `Delivered` row, of id `1`. -/
def deliveredDb : GreenfieldDb := ⟨[], [⟨1, 0, 5, 9, TxStatus.delivered, "h", 3⟩], []⟩

/-- `UpdateTransactionStatus(1, AllVoted)` at clock `7`. -/
def statusBack : List (DaoM Unit) := [GreenfieldDao.updateTransactionStatus none 7 1 TxStatus.allVoted]

/-- `UpdateTransactionStatus(1, AllVoted)` moves a `Delivered` row back to `AllVoted`, inside
the run invariant: `Evolves` keeps a status out of `Saved`, not moving forward. -/
theorem runWrites_evolves_status_back :
    (∀ p ∈ statusBack, DaoWrite p) ∧ Evolves deliveredDb (runWrites statusBack deliveredDb) ∧
      deliveredDb.txs.map (·.status) = [TxStatus.delivered] ∧
      (runWrites statusBack deliveredDb).txs.map (·.status) = [TxStatus.allVoted] :=
  have hps : ∀ p ∈ statusBack, DaoWrite p :=
    List.forall_mem_singleton.2 (.updateTransactionStatus none 7 1 TxStatus.allVoted)
  ⟨hps, runWrites_evolves hps _, rfl, rfl⟩

/-! ## Reads after writes

What a write leaves in the tables, the reads find afterwards; `Evolves` carries it over any
later run of writes. -/

section Reads

variable {db db' : GreenfieldDb}

/-- A block of the tables keeps `GetLatestBlock` at its height or above. -/
theorem Evolves.latestBlock_height_le (h : Evolves db db') {b : GreenfieldBlock}
    (hb : b ∈ db.blocks) :
    ∃ b', GreenfieldDao.getLatestBlock none db' = .ok b' ∧ b.height ≤ b'.height :=
  have hb' := h.blocks.subset hb
  let ⟨r, _, hmax, hr⟩ := GreenfieldDao.takeLatest_of_ne_nil GreenfieldBlock.height ⟨0⟩
    (List.ne_nil_of_mem hb')
  ⟨r, hr, hmax b hb'⟩

/-- A transaction row of the tables is still found at its channel and sequence. -/
theorem Evolves.finds_transaction (h : Evolves db db') {r : GreenfieldRelayTransaction}
    (hr : r ∈ db.txs) :
    ∃ r', GreenfieldDao.getTransactionByChannelIdAndSequence none r.channelId r.sequence db' =
      .ok r' ∧ r'.channelId = r.channelId ∧ r'.sequence = r.sequence := by
  obtain ⟨i, hi⟩ := List.mem_iff_getElem?.1 hr
  obtain ⟨r'', hr'', hstep⟩ := h.txs i r hi
  rw [← hstep.channelId, ← hstep.sequence]
  exact GreenfieldDao.getTransactionByChannelIdAndSequence_of_mem (List.getElem?_mem hr'')

end Reads

namespace GreenfieldDao

/-- An `AllVoted` transaction of channel `1` at sequence `5`, saved with block `20`. -/
def savedTx : GreenfieldRelayTransaction := ⟨4, 1, 5, 13, TxStatus.allVoted, "", 0⟩

/-- `twoChannelDb` after saving block `20` with `savedTx`. -/
def twoChannelSaved : GreenfieldDb := ⟨[⟨20⟩], twoChannelDb.txs ++ [savedTx], []⟩

/-- **What `SaveBlockAndBatchTransactions` saved stays readable** through any run of the DAO's
writes after it, whatever their arguments and the server's answers: `GetLatestBlock` returns a
block at least as high as the saved one, and `GetTransactionByChannelIdAndSequence` finds a row
at each saved transaction's channel and sequence. -/
theorem saveBlockAndBatchTransactions_durable {blockErr txsErr commitErr : Option GoError}
    {b : GreenfieldBlock} {txs : List GreenfieldRelayTransaction} {db db' : GreenfieldDb}
    (hs : saveBlockAndBatchTransactions blockErr txsErr commitErr b txs db = .ok () db')
    {ps : List (DaoM Unit)} (hps : ∀ p ∈ ps, DaoWrite p) :
    (∃ b', getLatestBlock none (runWrites ps db') = .ok b' ∧ b.height ≤ b'.height) ∧
      ∀ t ∈ txs, ∃ r, getTransactionByChannelIdAndSequence none t.channelId t.sequence
        (runWrites ps db') = .ok r ∧ r.channelId = t.channelId ∧ r.sequence = t.sequence := by
  have hrun := evolves_runWrites (fun p hp => (hps p hp).evolving) db'
  obtain rfl := saveBlockAndBatchTransactions_of_ok hs
  exact ⟨hrun.latestBlock_height_le (by simp), fun t ht => hrun.finds_transaction (by simp [ht])⟩

theorem saveBlockAndBatchTransactions_durable_over_status_update :
    saveBlockAndBatchTransactions none none none ⟨20⟩ [savedTx] twoChannelDb =
        .ok () twoChannelSaved ∧
      (∀ p ∈ [updateTransactionStatus none 7 4 TxStatus.delivered], DaoWrite p) ∧
      (∃ b', getLatestBlock none (runWrites [updateTransactionStatus none 7 4 TxStatus.delivered]
        twoChannelSaved) = .ok b' ∧ (⟨20⟩ : GreenfieldBlock).height ≤ b'.height) ∧
      ∀ t ∈ [savedTx], ∃ r, getTransactionByChannelIdAndSequence none t.channelId t.sequence
        (runWrites [updateTransactionStatus none 7 4 TxStatus.delivered] twoChannelSaved) = .ok r ∧
        r.channelId = t.channelId ∧ r.sequence = t.sequence :=
  have hs : saveBlockAndBatchTransactions none none none ⟨20⟩ [savedTx] twoChannelDb =
      .ok () twoChannelSaved := rfl
  have hps : ∀ p ∈ [updateTransactionStatus none 7 4 TxStatus.delivered], DaoWrite p := by
    simpa using DaoWrite.updateTransactionStatus none 7 4 TxStatus.delivered
  ⟨hs, hps, saveBlockAndBatchTransactions_durable hs hps⟩

end GreenfieldDao

end GreenfieldRelayer
