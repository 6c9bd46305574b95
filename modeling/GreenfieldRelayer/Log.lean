import GreenfieldRelayer.Assembler

/-!
# GreenfieldRelayer — what the log shows

The claims about a pass are claims about its log: which claims it broadcast with which
nonce, which store rows it read and wrote, and what it set the delay gauge to. This module
names those projections of an `Event` and of a log, and proves how they distribute over `++`,
so that later proofs never unfold them.

An event is **quiet** when it is none of these: a query for a sequence, a nonce or a
validator list, a metric other than the delay gauge, a clock or duration reading, a sleep. It
is **silent** when it is no claim, no package read and no package write: every quiet event is,
and so is a write of the gauge.
-/

namespace GreenfieldRelayer

namespace Event

/-- The oracle sequence and nonce of a claim broadcast. -/
def claim? : Event → Option (UInt64 × UInt64)
  | .broadcastTx msg opt _ => some (msg.sequence, opt.nonce)
  | _ => none

/-- The sequence a package-store read asked for. -/
def read? : Event → Option UInt64
  | .packages seq _ => some seq
  | _ => none

/-- The ids and the transaction hash of a write of package rows. -/
def write? : Event → Option (List (BitVec 64) × String)
  | .updateClaimedTxHash ids txHash _ => some (ids, txHash)
  | .updateStatusAndClaimedTxHash ids _ txHash _ => some (ids, txHash)
  | _ => none

/-- The status a write of package rows sets, if it sets one. -/
def status? : Event → Option TxStatus
  | .updateStatusAndClaimedTxHash _ status _ _ => some status
  | _ => none

/-- A write of package rows that the store accepted. -/
def writeOk : Event → Bool
  | .updateClaimedTxHash _ _ (.ok _) => true
  | .updateStatusAndClaimedTxHash _ _ _ (.ok _) => true
  | _ => false

/-- The value written to the delay gauge. -/
def hasTxDelay? : Event → Option Bool
  | .setHasTxDelay b => some b
  | _ => none

/-- Neither a claim, nor a package read or write, nor the delay gauge. -/
def quiet : Event → Bool
  | .inturnRelayer _ | .setInturnRelayerMetrics .. | .now _ | .sleep _ | .nextDeliveryOracleSequence ..
  | .nonce _ | .nonceOnNextBlock _ | .setNextReceiveSequence .. | .nextSendSequence _
  | .setNextSendSequence .. | .latestOracleSequence .. | .since .. | .votes ..
  | .cachedValidators _ | .latestValidators _ | .setProcessedHeight _ => true
  | _ => false


/-- Neither a claim, nor a package read, nor a package write. -/
def silent (e : Event) : Bool := e.claim?.isNone && e.read?.isNone && e.write?.isNone

/-- A nonce or a next delivery sequence read from a chain: what the in-turn cursor is made of. -/
def cursorRead : Event → Bool
  | .nextDeliveryOracleSequence _ (.ok _) | .nonce (.ok _) | .nonceOnNextBlock (.ok _) => true
  | _ => false

variable {e : Event}

theorem claim?_of_quiet (h : e.quiet) : e.claim? = none := by cases e <;> simp_all [quiet, claim?]

theorem read?_of_quiet (h : e.quiet) : e.read? = none := by cases e <;> simp_all [quiet, read?]

theorem write?_of_quiet (h : e.quiet) : e.write? = none := by
  cases e <;> simp_all [quiet, write?]

theorem writeOk_of_quiet (h : e.quiet) : e.writeOk = false := by
  cases e <;> simp_all [quiet, writeOk]

theorem hasTxDelay?_of_quiet (h : e.quiet) : e.hasTxDelay? = none := by
  cases e <;> simp_all [quiet, hasTxDelay?]

theorem silent_of_quiet (h : e.quiet) : e.silent := by
  cases e <;> simp_all [quiet, silent, claim?, read?, write?]

theorem claim?_of_silent (h : e.silent) : e.claim? = none := by simp_all [silent]

theorem read?_of_silent (h : e.silent) : e.read? = none := by simp_all [silent]

theorem write?_of_silent (h : e.silent) : e.write? = none := by simp_all [silent]

theorem writeOk_of_write? (h : e.write? = none) : e.writeOk = false := by
  cases e <;> simp_all [write?, writeOk]

theorem write?_isSome_of_writeOk (h : e.writeOk) : e.write?.isSome := by
  cases e <;> simp_all [write?, writeOk]

/-- The events `processPkgs` logs (a quiet one, a claim or a write) read no package and leave
the gauge alone. -/
theorem read?_of_kind (h : e.quiet ∨ e.claim?.isSome ∨ e.write?.isSome) : e.read? = none := by
  cases e <;> simp_all [quiet, claim?, write?, read?]

theorem hasTxDelay?_of_kind (h : e.quiet ∨ e.claim?.isSome ∨ e.write?.isSome) :
    e.hasTxDelay? = none := by
  cases e <;> simp_all [quiet, claim?, write?, hasTxDelay?]

end Event

/-- The claims of a log: `(oracle sequence, nonce)` of each broadcast, in order. -/
def claimsOf (log : List Event) : List (UInt64 × UInt64) := log.filterMap Event.claim?

/-- The last value written to the delay gauge; a gauge never written reads `false`. -/
def lastHasTxDelay (log : List Event) : Bool :=
  ((log.filterMap Event.hasTxDelay?).getLast?).getD false

/-- Every event of the log is quiet. -/
def Quiet (δ : List Event) : Prop := ∀ e ∈ δ, e.quiet

/-! ## Projections over `++` -/

@[simp] theorem claimsOf_nil : claimsOf [] = [] := rfl

@[simp] theorem claimsOf_append (l δ : List Event) :
    claimsOf (l ++ δ) = claimsOf l ++ claimsOf δ := List.filterMap_append ..

@[simp] theorem claimsOf_cons (e : Event) (l : List Event) :
    claimsOf (e :: l) = (e.claim?.toList) ++ claimsOf l := by
  cases h : e.claim? <;> simp [claimsOf, List.filterMap_cons, h]

theorem lastHasTxDelay_append_of_none {l δ : List Event}
    (h : ∀ e ∈ δ, e.hasTxDelay? = none) : lastHasTxDelay (l ++ δ) = lastHasTxDelay l := by
  simp [lastHasTxDelay, List.filterMap_append, List.filterMap_eq_nil_iff.2 h]

@[simp] theorem lastHasTxDelay_append_set (l : List Event) (b : Bool) :
    lastHasTxDelay (l ++ [.setHasTxDelay b]) = b := by
  simp [lastHasTxDelay, List.filterMap_append, Event.hasTxDelay?]

theorem Quiet.nil : Quiet [] := by simp [Quiet]

theorem Quiet.append {δ δ' : List Event} (h : Quiet δ) (h' : Quiet δ') : Quiet (δ ++ δ') := by
  simp only [Quiet, List.mem_append] at *
  rintro e (he | he) <;> simp_all

theorem Quiet.claimsOf_eq {δ : List Event} (h : Quiet δ) : claimsOf δ = [] :=
  List.filterMap_eq_nil_iff.2 fun e he => Event.claim?_of_quiet (h e he)

theorem Quiet.lastHasTxDelay_eq {δ : List Event} (h : Quiet δ) (l : List Event) :
    lastHasTxDelay (l ++ δ) = lastHasTxDelay l :=
  lastHasTxDelay_append_of_none fun e he => Event.hasTxDelay?_of_quiet (h e he)

/-! ## The reads of the cursor -/

/-- No nonce and no next delivery sequence is read in `δ`. -/
def NoCursorRead (δ : List Event) : Prop := ∀ e ∈ δ, e.cursorRead = false

theorem NoCursorRead.nil : NoCursorRead [] := nofun

theorem NoCursorRead.append {δ δ' : List Event} (h : NoCursorRead δ) (h' : NoCursorRead δ') :
    NoCursorRead (δ ++ δ') := by
  simp only [NoCursorRead, List.mem_append] at *
  rintro e (he | he) <;> simp_all

/-- The two reads of a pair `(n, s)` made together: when the cursor is established (the
sequence, then the nonce) and in a calibration (the nonce at the next block, then the
sequence). -/
def ReadTogether (n s : UInt64) (pair : List Event) : Prop :=
  (∃ c, pair = [.nextDeliveryOracleSequence c (.ok s), .nonce (.ok n)]) ∨
    ∃ c, pair = [.nonceOnNextBlock (.ok n), .nextDeliveryOracleSequence c (.ok s)]

/-- `(n, s)` is the pair read together most recently in `log`: no nonce or sequence is read
after it. -/
def LastReadTogether (n s : UInt64) (log : List Event) : Prop :=
  ∃ pre pair post, log = pre ++ pair ++ post ∧ ReadTogether n s pair ∧ NoCursorRead post

/-- A calibration that read the nonce at the next block and then failed to read the sequence. -/
def HalfCalibration (log : List Event) : Prop :=
  ∃ n c e, [Event.nonceOnNextBlock (.ok n), .nextDeliveryOracleSequence c (.error e)] <:+: log

/-- A read of the next delivery sequence that failed. -/
def Event.sequenceReadFailed : Event → Bool
  | .nextDeliveryOracleSequence _ (.error _) => true
  | _ => false

/-- Where no read of the next delivery sequence failed, no calibration failed half-way. -/
theorem not_halfCalibration_of_all {log : List Event}
    (h : log.all fun e => !e.sequenceReadFailed) : ¬ HalfCalibration log := by
  rintro ⟨n, c, e, pre, post, rfl⟩
  simp [Event.sequenceReadFailed] at h

section

variable {n s : UInt64} {l δ : List Event}

theorem LastReadTogether.append_right (h : LastReadTogether n s l) (hδ : NoCursorRead δ) :
    LastReadTogether n s (l ++ δ) := by
  obtain ⟨pre, pair, post, rfl, hp, hpost⟩ := h
  exact ⟨pre, pair, post ++ δ, by simp, hp, hpost.append hδ⟩

theorem LastReadTogether.append_left (h : LastReadTogether n s δ) (l : List Event) :
    LastReadTogether n s (l ++ δ) := by
  obtain ⟨pre, pair, post, rfl, hp, hpost⟩ := h
  exact ⟨l ++ pre, pair, post, by simp, hp, hpost⟩

theorem HalfCalibration.append_right (h : HalfCalibration l) (δ : List Event) :
    HalfCalibration (l ++ δ) :=
  let ⟨n, c, e, hi⟩ := h
  ⟨n, c, e, hi.trans (List.prefix_append l δ).isInfix⟩

theorem HalfCalibration.append_left (h : HalfCalibration δ) (l : List Event) :
    HalfCalibration (l ++ δ) :=
  let ⟨n, c, e, hi⟩ := h
  ⟨n, c, e, hi.trans (List.suffix_append l δ).isInfix⟩

theorem NoCursorRead.not_mem {e : Event} (h : NoCursorRead δ) (hr : e.cursorRead = true) : e ∉ δ :=
  fun he => by simp [h e he] at hr

/-- Both kinds of calibration read: neither is `NoCursorRead`. -/
theorem LastReadTogether.not_noCursorRead (h : LastReadTogether n s δ) : ¬ NoCursorRead δ := by
  intro hu
  obtain ⟨pre, pair, post, rfl, ⟨c, rfl⟩ | ⟨c, rfl⟩, -⟩ := h
  · exact hu.not_mem (e := .nonce (.ok n)) rfl (by simp)
  · exact hu.not_mem (e := .nonceOnNextBlock (.ok n)) rfl (by simp)

theorem HalfCalibration.not_noCursorRead (h : HalfCalibration δ) : ¬ NoCursorRead δ := fun hu =>
  let ⟨n, _, _, hi⟩ := h
  hu.not_mem (e := .nonceOnNextBlock (.ok n)) rfl (hi.subset (by simp))

end

end GreenfieldRelayer
