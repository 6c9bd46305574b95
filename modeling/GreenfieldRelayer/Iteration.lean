import GreenfieldRelayer.ProcessPkgs

/-!
# GreenfieldRelayer — what one iteration of the delivery loop does

`deliverPackage` is the body of the loop at `i`. Its spec, **`deliverPackage_spec`**, says
everything one iteration can do as an `IterationSpec`: it reads the packages of `i` first and
no other sequence; it claims at most once, for `i` with the nonce it began with, and only
after a non-empty read with enough votes and, in stand-by, a clock reading past the in-turn
relayer's timeout; its store writes carry the ids it read and the hash of its accepted claim;
it raises the delay flag at most once, for `i`, after finding its first package older than the
threshold (`FoundDelayed`); in turn, it keeps the nonce and the sequence,
moves both on with its claim, or has the calibration re-read them (`CursorStep`), and nothing
before its claim reads either. When it reaches `i++` it is `Completed`: the claim went through,
the store took the write, and the nonce moved on by one. A read that finds no package ends it
with no error.

`CursorFollows` says how any stretch of a run moves `relayerNonce - NextDeliverySeq`; it
composes (`CursorFollows.trans`), and **`CursorStep.follows`** gives it for one iteration at
the cursor's sequence.

The proof cites one spec per piece of the body and never unfolds them:

* **`flagDelay_spec`** and the stand-by guard give an `Unclaimed` stretch;
* **`calibrate_spec`**: the in-turn calibration fails in every case, logs quietly, and keeps
  the key, the alert set and the retrieval flag (`BSCAssembler.Frame`);
* **`claimBatch_spec`**: `processPkgs_spec` with the calibration or the nonce increment after
  it, where a panic passes the calibration by;
* **`IterationSpec.of_unclaimed`** and **`IterationSpec.of_claim`** assemble the two shapes
  of an iteration: it stopped before its claim, or it claimed.
-/

namespace GreenfieldRelayer

/-- Fields a claim never touches: the key, the alert set and the retrieval flag. -/
structure BSCAssembler.Frame (a a' : BSCAssembler) : Prop where
  blsPubKey : a'.blsPubKey = a.blsPubKey
  alertSet : a'.alertSet = a.alertSet
  hasRetrieved : a'.inturnRelayerSequenceStatus.hasRetrieved = a.inturnRelayerSequenceStatus.hasRetrieved

/-- What the gauge and the alert set do over `δ`: nothing, or one `SetHasTxDelay(true)` with
`i` added to the set. -/
def DelayStep (i : UInt64) (a a' : BSCAssembler) (δ : List Event) : Prop :=
  (δ.filterMap Event.hasTxDelay? = [] ∧ a'.alertSet = a.alertSet) ∨
  (δ.filterMap Event.hasTxDelay? = [true] ∧ a'.alertSet = a.alertSet.insert i)

/-- `δ` reads the packages of `x` and then finds the first one older than `threshold`: the
reason lines 162-166 give for an alert. -/
def FoundDelayed (threshold : Nat) (δ : List Event) (x : UInt64) : Prop :=
  ∃ pkg pkgs d, [Event.packages x (.ok (pkg :: pkgs)), .since pkg.txTime d] <:+: δ ∧
    exceedsSeconds d threshold = true

theorem FoundDelayed.mono {t : Nat} {δ δ' : List Event} {x : UInt64} (h : FoundDelayed t δ x)
    (hs : δ <:+: δ') : FoundDelayed t δ' x :=
  let ⟨pkg, pkgs, d, hi, hd⟩ := h
  ⟨pkg, pkgs, d, hi.trans hs, hd⟩

/-- A stretch of the iteration at `i` before its claim: no claim, read or write; the cursor and
the key stay, and at most the delay flag for `i` is raised. -/
structure Unclaimed (i : UInt64) (a : BSCAssembler) (δ : List Event) (a' : BSCAssembler) : Prop where
  silent : ∀ e ∈ δ, e.silent
  unread : NoCursorRead δ
  delay : DelayStep i a a' δ
  relayerNonce : a'.relayerNonce = a.relayerNonce
  status : a'.inturnRelayerSequenceStatus = a.inturnRelayerSequenceStatus
  blsPubKey : a'.blsPubKey = a.blsPubKey

namespace Unclaimed
variable {i : UInt64} {a a' : BSCAssembler} {δ : List Event}

theorem nil : Unclaimed i a [] a := ⟨nofun, .nil, .inl ⟨rfl, rfl⟩, rfl, rfl, rfl⟩

theorem claimsOf_eq (h : Unclaimed i a δ a') : claimsOf δ = [] :=
  List.filterMap_eq_nil_iff.2 fun e he => Event.claim?_of_silent (h.silent e he)

theorem append_now (h : Unclaimed i a δ a') (t : BitVec 64) : Unclaimed i a (δ ++ [.now t]) a' where
  silent e he := by
    rcases List.mem_append.1 he with he | he
    · exact h.silent e he
    · simp_all [Event.silent, Event.claim?, Event.read?, Event.write?]
  unread := h.unread.append (by simp [NoCursorRead, Event.cursorRead])
  delay := by simpa [DelayStep, List.filterMap_append, Event.hasTxDelay?] using h.delay
  relayerNonce := h.relayerNonce
  status := h.status
  blsPubKey := h.blsPubKey

/-- The read and an `Unclaimed` stretch after it write nothing. -/
theorem write?_eq_none (h : Unclaimed i a δ a') {r : Except GoError (List BscRelayPackage)} :
    ∀ e ∈ Event.packages i r :: δ, e.write? = none := by
  intro e he
  rcases List.mem_cons.1 he with rfl | he
  · rfl
  · exact Event.write?_of_silent (h.silent e he)

theorem not_writeOk (h : Unclaimed i a δ a') {r : Except GoError (List BscRelayPackage)} :
    ¬ ∃ e ∈ Event.packages i r :: δ, e.writeOk :=
  fun ⟨e, he, hw⟩ => by simp [Event.writeOk_of_write? (h.write?_eq_none e he)] at hw

end Unclaimed

/-! ## The cursor's lockstep -/

/-- `relayerNonce - NextDeliverySeq` in `uint64`: what moving the nonce and the sequence on
together keeps. -/
def BSCAssembler.nonceOffset (a : BSCAssembler) : UInt64 :=
  a.relayerNonce - a.inturnRelayerSequenceStatus.nextDeliverySeq

theorem UInt64.add_one_sub_add_one (n i : UInt64) : (n + 1) - (i + 1) = n - i := by
  apply UInt64.eq_of_toBitVec_eq
  show (n.toBitVec + 1) - (i.toBitVec + 1) = n.toBitVec - i.toBitVec
  bv_omega

/-- How a stretch `δ` of the log takes the cursor from `a` to `a'`, as far as the lockstep is
concerned. Where `a'` holds a retrieved cursor: `a` held one, `δ` read no nonce or sequence and
the offset stayed; or the offset is that of the pair `δ` read together last; or `δ` holds a
half-failed calibration. -/
def CursorFollows (a : BSCAssembler) (δ : List Event) (a' : BSCAssembler) : Prop :=
  a'.inturnRelayerSequenceStatus.hasRetrieved = true →
    (a.inturnRelayerSequenceStatus.hasRetrieved = true ∧ NoCursorRead δ ∧
      a'.nonceOffset = a.nonceOffset) ∨
    (∃ n s, LastReadTogether n s δ ∧ a'.nonceOffset = n - s) ∨ HalfCalibration δ

namespace CursorFollows

variable {a a₁ a' : BSCAssembler} {δ δ' : List Event}

theorem refl (a : BSCAssembler) : CursorFollows a [] a := fun h => .inl ⟨h, .nil, rfl⟩

theorem of_unread (hδ : NoCursorRead δ)
    (hh : a'.inturnRelayerSequenceStatus.hasRetrieved = a.inturnRelayerSequenceStatus.hasRetrieved)
    (ho : a'.nonceOffset = a.nonceOffset) : CursorFollows a δ a' :=
  fun h => .inl ⟨hh ▸ h, hδ, ho⟩

theorem of_not_retrieved (h : a'.inturnRelayerSequenceStatus.hasRetrieved = false) :
    CursorFollows a δ a' :=
  fun h' => absurd (h.symm.trans h') Bool.false_ne_true

theorem trans (h₁ : CursorFollows a δ a₁) (h₂ : CursorFollows a₁ δ' a') :
    CursorFollows a (δ ++ δ') a' := fun h => by
  rcases h₂ h with ⟨h₁', hu₂, ho₂⟩ | ⟨n, s, hl, ho⟩ | hh
  · rcases h₁ h₁' with ⟨h₀, hu₁, ho₁⟩ | ⟨n, s, hl, ho⟩ | hh
    · exact .inl ⟨h₀, hu₁.append hu₂, ho₂.trans ho₁⟩
    · exact .inr (.inl ⟨n, s, hl.append_right hu₂, ho₂.trans ho⟩)
    · exact .inr (.inr (hh.append_right _))
  · exact .inr (.inl ⟨n, s, hl.append_left _, ho⟩)
  · exact .inr (.inr (hh.append_left _))

end CursorFollows

/-- What an in-turn iteration at `i` does to the nonce and the next delivery sequence over `δ`,
from `a` to `a'`. -/
inductive CursorStep (i : UInt64) (a : BSCAssembler) (δ : List Event) (a' : BSCAssembler) : Prop
  /-- No claim went through: both stay, and neither is read. -/
  | keep (hδ : NoCursorRead δ) (hn : a'.relayerNonce = a.relayerNonce)
      (hs : a'.inturnRelayerSequenceStatus.nextDeliverySeq =
        a.inturnRelayerSequenceStatus.nextDeliverySeq)
  /-- The claim went through: the sequence moves past `i` and the nonce on by one. -/
  | advance (hδ : NoCursorRead δ) (hn : a'.relayerNonce = a.relayerNonce + 1)
      (hs : a'.inturnRelayerSequenceStatus.nextDeliverySeq = i + 1)
  /-- The calibration read both together, and the cursor holds what it read. -/
  | recalibrate (n s : UInt64) (hδ : LastReadTogether n s δ) (hn : a'.relayerNonce = n)
      (hs : a'.inturnRelayerSequenceStatus.nextDeliverySeq = s)
  /-- The calibration read the nonce and failed to read the sequence. -/
  | half (hδ : HalfCalibration δ)

namespace CursorStep

variable {i : UInt64} {a a₁ a' : BSCAssembler} {δ : List Event}

/-- A stretch before the claim that reads neither and moves neither. -/
theorem prepend (h : CursorStep i a₁ δ a') {pre : List Event} (hpre : NoCursorRead pre)
    (hn : a₁.relayerNonce = a.relayerNonce)
    (hs : a₁.inturnRelayerSequenceStatus.nextDeliverySeq =
      a.inturnRelayerSequenceStatus.nextDeliverySeq) :
    CursorStep i a (pre ++ δ) a' := by
  cases h with
  | keep hδ hn' hs' => exact .keep (hpre.append hδ) (hn'.trans hn) (hs'.trans hs)
  | advance hδ hn' hs' => exact .advance (hpre.append hδ) (hn ▸ hn') hs'
  | recalibrate n s hδ hn' hs' => exact .recalibrate n s (hδ.append_left pre) hn' hs'
  | half hδ => exact .half (hδ.append_left pre)

/-- **An iteration at the cursor's sequence keeps the lockstep.** -/
theorem follows (h : CursorStep i a δ a') (hi : a.inturnRelayerSequenceStatus.nextDeliverySeq = i)
    (hh : a'.inturnRelayerSequenceStatus.hasRetrieved = a.inturnRelayerSequenceStatus.hasRetrieved) :
    CursorFollows a δ a' := by
  cases h with
  | keep hδ hn hs => exact .of_unread hδ hh (by simp only [BSCAssembler.nonceOffset, hn, hs])
  | advance hδ hn hs =>
    refine .of_unread hδ hh ?_
    simp only [BSCAssembler.nonceOffset, hn, hs, ← hi, UInt64.add_one_sub_add_one]
  | recalibrate n s hδ hn hs =>
    exact fun _ => .inr (.inl ⟨n, s, hδ, by simp only [BSCAssembler.nonceOffset, hn, hs]⟩)
  | half hδ => exact fun _ => .inr (.inr hδ)

end CursorStep

/-- One iteration of the loop: its sequence, the nonce the assembler held when it began, what
it logged and the assembler it left. -/
structure Iteration where
  seq : UInt64
  nonce : UInt64
  events : List Event
  after : BSCAssembler

/-- Everything one iteration can do, from assembler `a`. -/
structure IterationSpec (cfg : Config) (isInturn : Bool) (a : BSCAssembler) (it : Iteration) : Prop where
  /-- It begins with the read of its sequence and reads nothing else. -/
  read : ∃ r rest, it.events = .packages it.seq r :: rest ∧ ∀ e ∈ rest, e.read? = none
  /-- At most one claim, for its sequence with the nonce it began with. -/
  claims : claimsOf it.events = [] ∨ claimsOf it.events = [(it.seq, it.nonce)]
  /-- A claim follows a non-empty read whose first package has enough votes and, in stand-by,
  a clock reading past the in-turn relayer's timeout. -/
  justified : claimsOf it.events ≠ [] → ∃ pkg pkgs rest,
    it.events = .packages it.seq (.ok (pkg :: pkgs)) :: rest ∧
    (pkg.status = .allVoted ∨ pkg.status = .delivered) ∧
    (isInturn = false → ∃ t pre post, rest = pre ++ post ∧ claimsOf pre = [] ∧ .now t ∈ pre ∧
      ¬ t.slt (pkg.txTime + cfg.bscToGreenfieldInturnRelayerTimeout) = true)
  /-- A write covers the ids the iteration read, with the hash of a claim the chain accepted. -/
  writes : ∀ e ∈ it.events, ∀ ids txHash, e.write? = some (ids, txHash) → ∃ pkgs rest,
    it.events = .packages it.seq (.ok pkgs) :: rest ∧ ids = pkgs.map (·.id) ∧
    ∃ msg opt resp, .broadcastTx msg opt (.ok resp) ∈ it.events ∧ msg.sequence = it.seq ∧
      resp.code = 0 ∧ resp.txHash = txHash
  /-- A write sets `Delivered` in turn and no status in stand-by. -/
  status : ∀ e ∈ it.events, e.write?.isSome → e.status? = if isInturn then some .delivered else none
  delay : DelayStep it.seq a it.after it.events
  blsPubKey : it.after.blsPubKey = a.blsPubKey
  hasRetrieved : it.after.inturnRelayerSequenceStatus.hasRetrieved =
    a.inturnRelayerSequenceStatus.hasRetrieved
  standBy : isInturn = false → it.after.inturnRelayerSequenceStatus.nextDeliverySeq =
    a.inturnRelayerSequenceStatus.nextDeliverySeq
  delivered : isInturn = true → (∃ e ∈ it.events, e.writeOk) →
    it.after.inturnRelayerSequenceStatus.nextDeliverySeq = it.seq + 1
  /-- In turn, the cursor stays, moves on with the claim, or is re-read by the calibration. -/
  cursor : isInturn = true → CursorStep it.seq a it.events it.after
  /-- Nothing before the claim reads the cursor: only the calibration after it does, and none
  runs once the store took the write. -/
  unread : ∃ A B, it.events = A ++ B ∧ NoCursorRead A ∧ claimsOf B = [] ∧
    ((∃ e ∈ it.events, e.writeOk) → B = [])
  /-- No write comes before the claim. -/
  claimFirst : ∃ A B, it.events = A ++ B ∧ (∀ e ∈ A, e.write? = none) ∧ claimsOf B = []
  /-- A write the store took moved the nonce on by one. -/
  advanced : (∃ e ∈ it.events, e.writeOk) → it.after.relayerNonce = it.nonce + 1
  /-- Without such a write and without a read, the nonce and the sequence stay. -/
  kept : (¬ ∃ e ∈ it.events, e.writeOk) → NoCursorRead it.events →
    it.after.relayerNonce = a.relayerNonce ∧
      it.after.inturnRelayerSequenceStatus.nextDeliverySeq = a.inturnRelayerSequenceStatus.nextDeliverySeq
  /-- An alert it adds was found delayed by its read. -/
  flagged : ∀ x ∈ it.after.alertSet, x ∈ a.alertSet ∨ FoundDelayed cfg.txDelayAlertThreshHold it.events x
  /-- A read that found packages is followed at once by the age of the first, and the sequence
  is flagged when that age passes the threshold. -/
  measured : ∀ pkg pkgs rest, it.events = .packages it.seq (.ok (pkg :: pkgs)) :: rest →
    ∃ d rest', rest = .since pkg.txTime d :: rest' ∧
      (exceedsSeconds d cfg.txDelayAlertThreshHold = true → it.seq ∈ it.after.alertSet)

/-- An iteration that reached `i++`: its claim went through, the store took its write, and the
nonce moved on by one. -/
structure Completed (it : Iteration) : Prop where
  claimed : claimsOf it.events = [(it.seq, it.nonce)]
  written : ∃ e ∈ it.events, e.writeOk
  nonce : it.after.relayerNonce = it.nonce + 1

/-- The read of the packages reads no cursor. -/
theorem NoCursorRead.packages_cons {i : UInt64} {r : Except GoError (List BscRelayPackage)}
    {δ : List Event} (h : NoCursorRead δ) : NoCursorRead (.packages i r :: δ) := by
  simpa [NoCursorRead, Event.cursorRead] using h

namespace IterationSpec
variable {cfg : Config} {isInturn : Bool} {a : BSCAssembler} {i n : UInt64}

/-- An iteration that stopped before its claim. -/
theorem of_unclaimed {r : Except GoError (List BscRelayPackage)} {δ : List Event} {a' : BSCAssembler}
    (h : Unclaimed i a δ a') (hflag : ∀ x ∈ a'.alertSet,
      x ∈ a.alertSet ∨ FoundDelayed cfg.txDelayAlertThreshHold (.packages i r :: δ) x)
    (hmeas : ∀ pkg pkgs, r = .ok (pkg :: pkgs) → ∃ d rest, δ = .since pkg.txTime d :: rest ∧
      (exceedsSeconds d cfg.txDelayAlertThreshHold = true → i ∈ a'.alertSet)) :
    IterationSpec cfg isInturn a ⟨i, n, .packages i r :: δ, a'⟩ where
  read := ⟨r, δ, rfl, fun e he => Event.read?_of_silent (h.silent e he)⟩
  claims := .inl (by simp [Event.claim?, h.claimsOf_eq])
  justified hc := absurd (by simp [Event.claim?, h.claimsOf_eq]) hc
  writes e he := by
    rcases List.mem_cons.1 he with rfl | he
    · simp [Event.write?]
    · simp [Event.write?_of_silent (h.silent e he)]
  status e he := by
    rcases List.mem_cons.1 he with rfl | he
    · simp [Event.write?]
    · simp [Event.write?_of_silent (h.silent e he)]
  delay := by simpa [DelayStep, Event.hasTxDelay?] using h.delay
  blsPubKey := h.blsPubKey
  hasRetrieved := by simp [h.status]
  standBy _ := by simp [h.status]
  delivered _ hw := absurd hw h.not_writeOk
  cursor _ := .keep h.unread.packages_cons h.relayerNonce (by rw [h.status])
  unread := ⟨_, [], (List.append_nil _).symm, h.unread.packages_cons, rfl, fun _ => rfl⟩
  claimFirst := ⟨_, [], (List.append_nil _).symm, h.write?_eq_none, rfl⟩
  advanced hw := absurd hw h.not_writeOk
  kept _ _ := ⟨h.relayerNonce, by rw [h.status]⟩
  flagged := hflag
  measured pkg pkgs rest he := by
    cases he
    exact hmeas pkg pkgs rfl

/-- The writes of a claimed iteration are those of its `processPkgs`. -/
theorem mem_of_write {r : Except GoError (List BscRelayPackage)} {δs δp δc : List Event}
    {a₁ : BSCAssembler} {e : Event} (hs : Unclaimed i a δs a₁) (hc : Quiet δc)
    (he : e ∈ .packages i r :: (δs ++ δp ++ δc)) (hw : e.write?.isSome) : e ∈ δp := by
  simp only [List.mem_cons, List.mem_append] at he
  rcases he with rfl | (he | he) | he
  · simp [Event.write?] at hw
  · simp [Event.write?_of_silent (hs.silent e he)] at hw
  · exact he
  · simp [Event.write?_of_silent (Event.silent_of_quiet (hc e he))] at hw

/-- A write the store took in a claimed iteration is that of a `processPkgs` that succeeded. -/
theorem ok_of_writeOk {r : Except GoError (List BscRelayPackage)} {δs δp δc : List Event}
    {a₁ : BSCAssembler} {pkgs : List BscRelayPackage} {ok : Bool} (hs : Unclaimed i a δs a₁)
    (hp : PkgsOutcome isInturn pkgs i n δp ok) (hc : Quiet δc)
    (hw : ∃ e ∈ .packages i r :: (δs ++ δp ++ δc), e.writeOk) : ok = true :=
  let ⟨e, he, hw⟩ := hw
  hp.ok_iff.2 ⟨e, mem_of_write hs hc he (Event.write?_isSome_of_writeOk hw), hw⟩

/-- An iteration that claimed: `δs` before the claim, `δp` of `processPkgs`, `δc` of the
calibration. -/
theorem of_claim {pkg : BscRelayPackage} {pkgs : List BscRelayPackage} {δs δp δc : List Event}
    {a₁ a' : BSCAssembler} {ok : Bool} (hs : Unclaimed i a δs a₁)
    (hst : pkg.status = .allVoted ∨ pkg.status = .delivered)
    (hguard : isInturn = false → ∃ t, .now t ∈ δs ∧
      ¬ t.slt (pkg.txTime + cfg.bscToGreenfieldInturnRelayerTimeout) = true)
    (hp : PkgsOutcome isInturn (pkg :: pkgs) i n δp ok) (hc : Quiet δc) (hf : a₁.Frame a')
    (hsb : isInturn = false → a'.inturnRelayerSequenceStatus.nextDeliverySeq =
      a₁.inturnRelayerSequenceStatus.nextDeliverySeq)
    (hd : ok = true → isInturn = true → a'.inturnRelayerSequenceStatus.nextDeliverySeq = i + 1)
    (hcur : isInturn = true → CursorStep i a₁ (δp ++ δc) a') (hcd : ok = true → δc = [])
    (hn : ok = true → a'.relayerNonce = n + 1) (hkeep : ok = false → NoCursorRead δc → a' = a₁)
    (hflag : ∀ x ∈ a₁.alertSet, x ∈ a.alertSet ∨
      FoundDelayed cfg.txDelayAlertThreshHold (.packages i (.ok (pkg :: pkgs)) :: δs) x)
    (hmeas : ∃ d rest, δs = .since pkg.txTime d :: rest ∧
      (exceedsSeconds d cfg.txDelayAlertThreshHold = true → i ∈ a₁.alertSet)) :
    IterationSpec cfg isInturn a ⟨i, n, .packages i (.ok (pkg :: pkgs)) :: (δs ++ δp ++ δc), a'⟩ where
  read := by
    refine ⟨_, _, rfl, fun e he => ?_⟩
    rcases List.mem_append.1 he with he | he
    · rcases List.mem_append.1 he with he | he
      · exact Event.read?_of_silent (hs.silent e he)
      · exact Event.read?_of_kind (hp.kinds e he)
    · exact Event.read?_of_silent (Event.silent_of_quiet (hc e he))
  claims := by simpa [Event.claim?, hs.claimsOf_eq, hc.claimsOf_eq] using hp.claims
  justified _ := ⟨pkg, pkgs, _, rfl, hst, fun h => by
    obtain ⟨t, ht, hlt⟩ := hguard h
    exact ⟨t, δs, δp ++ δc, List.append_assoc .., hs.claimsOf_eq, ht, hlt⟩⟩
  writes e he ids txHash hw := by
    obtain ⟨hids, msg, opt, resp, hm, hseq, hcode, hhash⟩ :=
      hp.writes e (mem_of_write hs hc he (by simp [hw])) ids txHash hw
    exact ⟨_, _, rfl, hids, msg, opt, resp, by simp [hm], hseq, hcode, hhash⟩
  status e he hw := hp.status e (mem_of_write hs hc he hw) hw
  delay := by
    have hp' : δp.filterMap Event.hasTxDelay? = [] :=
      List.filterMap_eq_nil_iff.2 fun e he => Event.hasTxDelay?_of_kind (hp.kinds e he)
    have hc' : δc.filterMap Event.hasTxDelay? = [] :=
      List.filterMap_eq_nil_iff.2 fun e he => Event.hasTxDelay?_of_quiet (hc e he)
    simpa [DelayStep, Event.hasTxDelay?, List.filterMap_append, hp', hc', hf.alertSet] using hs.delay
  blsPubKey := hf.blsPubKey.trans hs.blsPubKey
  hasRetrieved := by rw [hf.hasRetrieved, hs.status]
  standBy h := by rw [hsb h, hs.status]
  delivered h hw := hd (ok_of_writeOk hs hp hc hw) h
  cursor h := by
    simpa using (hcur h).prepend hs.unread.packages_cons hs.relayerNonce (by rw [hs.status])
  unread := ⟨.packages i (.ok (pkg :: pkgs)) :: (δs ++ δp), δc, by simp,
    (hs.unread.append hp.unread).packages_cons, hc.claimsOf_eq, fun hw => hcd (ok_of_writeOk hs hp hc hw)⟩
  claimFirst := by
    obtain ⟨A, B, rfl, hA, hB⟩ := hp.claimFirst
    refine ⟨.packages i (.ok (pkg :: pkgs)) :: (δs ++ A), B ++ δc, by simp, fun e he => ?_,
      by simp [hB, hc.claimsOf_eq]⟩
    rcases List.mem_cons.1 he with rfl | he
    · rfl
    rcases List.mem_append.1 he with he | he
    · exact Event.write?_of_silent (hs.silent e he)
    · exact hA e he
  advanced hw := hn (ok_of_writeOk hs hp hc hw)
  kept hw hu := by
    have hok : ok = false := Bool.eq_false_iff.2 fun h =>
      let ⟨e, he, hwe⟩ := hp.ok_iff.1 h
      hw ⟨e, by simp [he], hwe⟩
    obtain rfl := hkeep hok fun e he => hu e (by simp [he])
    exact ⟨hs.relayerNonce, by rw [hs.status]⟩
  flagged x hx := (hflag x (hf.alertSet ▸ hx)).imp_right (·.mono ⟨[], δp ++ δc, by simp⟩)
  measured pkg' pkgs' rest he := by
    cases he
    obtain ⟨d, rest₀, rfl, hd⟩ := hmeas
    exact ⟨d, rest₀ ++ δp ++ δc, by simp, fun h => hf.alertSet ▸ hd h⟩

/-- A claim of an iteration is its own, and nothing before it in the iteration reads the
cursor. -/
theorem claim_split {it : Iteration} (h : IterationSpec cfg isInturn a it) {pre post : List Event}
    {e : Event} {c : UInt64 × UInt64} (heq : it.events = pre ++ e :: post)
    (hc : e.claim? = some c) : NoCursorRead pre ∧ c = (it.seq, it.nonce) := by
  obtain ⟨A, B, hAB, hA, hB, -⟩ := h.unread
  refine ⟨?_, ?_⟩
  · rcases List.append_eq_append_iff.1 (hAB.symm.trans heq) with ⟨a', -, hB'⟩ | ⟨c', rfl, -⟩
    · -- the claim would lie after the calibration began
      simp [hB', hc] at hB
    · exact fun e he => hA e (List.mem_append_left _ he)
  · have hmem : c ∈ claimsOf it.events := List.mem_filterMap.2 ⟨e, by simp [heq], hc⟩
    rcases h.claims with h' | h' <;> rw [h'] at hmem
    · simp at hmem
    · simpa using hmem

/-- A read that found no package opens its iteration, and the iteration reads nothing after it
and claims nothing. -/
theorem of_empty_read {it : Iteration} (h : IterationSpec cfg isInturn a it) {pre post : List Event}
    {j : UInt64} (heq : it.events = pre ++ .packages j (.ok []) :: post) :
    pre = [] ∧ post.filterMap Event.read? = [] ∧ claimsOf it.events = [] := by
  obtain ⟨r, rest, hev, hrest⟩ := h.read
  rcases pre with _ | ⟨x, pre⟩
  · obtain ⟨hx, rfl⟩ := List.cons.inj (hev.symm.trans heq)
    refine ⟨rfl, List.filterMap_eq_nil_iff.2 hrest, ?_⟩
    by_contra hc
    obtain ⟨pkg, pkgs, rest', he, -⟩ := h.justified hc
    rw [hev, List.cons.injEq] at he
    simp [hx] at he
  · -- a second read inside the iteration
    obtain ⟨-, rfl⟩ := List.cons.inj (hev.symm.trans heq)
    simpa [Event.read?] using hrest _ (List.mem_append_right pre (List.mem_cons_self _ post))

/-- A `Completed` iteration reads no nonce and no sequence. -/
theorem unread_of_completed {it : Iteration} (h : IterationSpec cfg isInturn a it)
    (hd : Completed it) : NoCursorRead it.events := by
  obtain ⟨A, B, hAB, hA, -, hw⟩ := h.unread
  rwa [hAB, hw hd.written, List.append_nil]

end IterationSpec

section

variable (env : Env) (setup : Setup)

theorem flagDelay_spec (i : UInt64) (pkgTime : BitVec 64) (w : World) :
    ∃ δ a', flagDelay env setup i pkgTime w = .ok () ⟨a', w.log ++ δ⟩ ∧ Unclaimed i w.asm δ a' ∧
      ∃ d rest, δ = .since pkgTime d :: rest ∧
        (exceedsSeconds d setup.config.txDelayAlertThreshHold = true → i ∈ a'.alertSet) ∧
        ∀ x ∈ a'.alertSet, x ∈ w.asm.alertSet ∨
          x = i ∧ exceedsSeconds d setup.config.txDelayAlertThreshHold = true := by
  simp only [flagDelay, timeSince, ask_bind_apply]
  split
  · refine ⟨[.since pkgTime (env.since w.log pkgTime), .setHasTxDelay true], w.asm.addAlert i, by simp,
      ⟨?_, by simp [NoCursorRead, Event.cursorRead], ?_, rfl, rfl, rfl⟩, _, _, rfl,
      fun _ => List.mem_insert_self _ _, fun x hx => ?_⟩
    · exact List.forall_mem_cons.2 ⟨rfl, List.forall_mem_singleton.2 rfl⟩
    · exact .inr ⟨by simp [Event.hasTxDelay?], rfl⟩
    · -- the one alert added is `i`, for the duration just read
      rcases List.mem_insert_iff.1 hx with rfl | hx
      · exact .inr ⟨rfl, ‹_›⟩
      · exact .inl hx
  · refine ⟨[.since pkgTime (env.since w.log pkgTime)], w.asm, by simp,
      ⟨?_, by simp [NoCursorRead, Event.cursorRead], ?_, rfl, rfl, rfl⟩, _, [], rfl,
      fun h => absurd h ‹_›, fun x hx => .inl hx⟩
    · exact List.forall_mem_singleton.2 rfl
    · exact .inl ⟨by simp [Event.hasTxDelay?], rfl⟩

theorem calibrate_spec (isInturn : Bool) (err : GoError) (w : World) :
    ∃ e δ a', calibrate env setup isInturn err w = .error e { asm := a', log := w.log ++ δ } ∧
      Quiet δ ∧ w.asm.Frame a' ∧ (isInturn = false → a' = w.asm) ∧
      ((NoCursorRead δ ∧ a' = w.asm) ∨
        (∃ n s, LastReadTogether n s δ ∧ a' = (w.asm.setRelayerNonce n).setNextDeliverySeq s) ∨
        HalfCalibration δ) := by
  cases isInturn
  · exact ⟨err, [], w.asm, by simp [calibrate], Quiet.nil, ⟨rfl, rfl, rfl⟩, fun _ => rfl,
      .inl ⟨.nil, rfl⟩⟩
  simp only [calibrate, Bool.not_true, Bool.false_eq_true, if_false, pure_bind, getNonceOnNextBlock,
    getNextDeliveryOracleSequence, askE_bind_apply, modifyAsm_bind_apply]
  split
  next n _ =>
    split
    next s _ => exact ⟨err, [.nonceOnNextBlock (.ok n), .nextDeliveryOracleSequence setup.config.bscChainId.toUInt16 (.ok s)],
      (w.asm.setRelayerNonce n).setNextDeliverySeq s, by simp, by simp [Quiet, Event.quiet],
      ⟨by simp, by simp, by simp⟩, nofun, .inr (.inl ⟨n, s, ⟨[], _, [], rfl, .inr ⟨_, rfl⟩, .nil⟩, rfl⟩)⟩
    next e _ => exact ⟨e, [.nonceOnNextBlock (.ok n), .nextDeliveryOracleSequence setup.config.bscChainId.toUInt16 (.error e)],
      w.asm.setRelayerNonce n, by simp, by simp [Quiet, Event.quiet], ⟨by simp, by simp, by simp⟩, nofun,
      .inr (.inr ⟨n, _, e, List.infix_refl _⟩)⟩
  next e _ => exact ⟨e, [.nonceOnNextBlock (.error e)], w.asm, by simp, by simp [Quiet, Event.quiet],
    ⟨rfl, rfl, rfl⟩, nofun, .inl ⟨by simp [NoCursorRead, Event.cursorRead], rfl⟩⟩

theorem claimBatch_spec (pkgs : List BscRelayPackage) (channelId : UInt8) (i : UInt64)
    (isInturn : Bool) (w : World) :
    let r := claimBatch env setup pkgs channelId i isInturn w
    ∃ δp δc, (worldOf r).log = w.log ++ δp ++ δc ∧
      PkgsOutcome isInturn pkgs i w.asm.relayerNonce δp (isOk r) ∧ Quiet δc ∧
      w.asm.Frame (worldOf r).asm ∧
      (isInturn = false → (worldOf r).asm.inturnRelayerSequenceStatus.nextDeliverySeq =
        w.asm.inturnRelayerSequenceStatus.nextDeliverySeq) ∧
      (isOk r = true → (worldOf r).asm = (if isInturn then w.asm.setNextDeliverySeq (i + 1)
        else w.asm).setRelayerNonce (w.asm.relayerNonce + 1)) ∧
      (isInturn = true → CursorStep i w.asm (δp ++ δc) (worldOf r).asm) ∧
      (isOk r = true → δc = []) ∧ (isOk r = false → NoCursorRead δc → (worldOf r).asm = w.asm) := by
  generalize hr : claimBatch env setup pkgs channelId i isInturn w = r
  simp only [claimBatch, getAsm_bind_apply] at hr
  have hspec := processPkgs_spec env setup pkgs channelId i w.asm.relayerNonce isInturn w
  rcases hp : processPkgs env setup pkgs channelId i w.asm.relayerNonce isInturn w with ⟨u, w₁⟩ | ⟨e, w₁⟩
  all_goals simp only [hp, worldOf_ok, worldOf_error, isOk_ok, isOk_error, Bool.true_and,
    Bool.false_and, Bool.false_eq_true, if_false] at hspec
  all_goals obtain ⟨δp, hlog, hout, hasm⟩ := hspec
  case ok =>
    rw [onError_bind_of_ok hp, modifyAsm_apply] at hr
    subst hr
    refine ⟨δp, [], by simp [hlog], hout, Quiet.nil, ?_, ?_, fun _ => by cases isInturn <;> simp [hasm],
      fun h => ?_, fun _ => rfl, nofun⟩
    · cases isInturn <;> simp [hasm, BSCAssembler.Frame.mk]
    · cases isInturn <;> simp [hasm]
    · subst h
      exact .advance (by simpa using hout.unread) (by simp [hasm]) (by simp [hasm])
  case error =>
  cases hpan : e.isPanic
  · obtain ⟨e', δc, a', hc, hq, hf, hsb, hcal⟩ := calibrate_spec env setup isInturn e w₁
    rw [onError_bind_of_error hp hpan, bind_of_error hc] at hr
    subst hr
    have hkeep : NoCursorRead δc → a' = w.asm := fun hu => by
      rcases hcal with ⟨-, rfl⟩ | ⟨n, s, hl, -⟩ | hh
      · exact hasm
      · exact absurd hu hl.not_noCursorRead
      · exact absurd hu hh.not_noCursorRead
    refine ⟨δp, δc, by simp [hlog], hout, hq, hasm ▸ hf, fun h => by simp [hsb h, hasm], nofun,
      fun _ => ?_, nofun, fun _ => hkeep⟩
    rcases hcal with ⟨hu, rfl⟩ | ⟨n, s, hl, rfl⟩ | hh
    · exact .keep (hout.unread.append hu) (by simp [hasm]) (by simp [hasm])
    · exact .recalibrate n s (hl.append_left δp) (by simp) (by simp)
    · exact .half (hh.append_left δp)
  · rw [onError_bind_of_panic hp hpan] at hr
    subst hr
    exact ⟨δp, [], by simp [hlog], hout, Quiet.nil, hasm ▸ ⟨rfl, rfl, rfl⟩, fun _ => by simp [hasm], nofun,
      fun _ => .keep (by simpa using hout.unread) (by simp [hasm]) (by simp [hasm]), nofun,
      fun _ _ => hasm⟩

/-- The end of an iteration that passed its guards, in either role. -/
theorem deliverPackage_claim (isInturn : Bool) (channelId : UInt8) (i : UInt64) (w : World)
    {pkg : BscRelayPackage} {pkgs : List BscRelayPackage} {δs : List Event} {a₁ : BSCAssembler}
    (hs : Unclaimed i w.asm δs a₁) (hst : pkg.status = .allVoted ∨ pkg.status = .delivered)
    (hguard : isInturn = false → ∃ t, .now t ∈ δs ∧
      ¬ t.slt (pkg.txTime + setup.config.bscToGreenfieldInturnRelayerTimeout) = true)
    (hflag : ∀ x ∈ a₁.alertSet, x ∈ w.asm.alertSet ∨
      FoundDelayed setup.config.txDelayAlertThreshHold (.packages i (.ok (pkg :: pkgs)) :: δs) x)
    (hmeas : ∃ d rest, δs = .since pkg.txTime d :: rest ∧
      (exceedsSeconds d setup.config.txDelayAlertThreshHold = true → i ∈ a₁.alertSet)) :
    let r := (claimBatch env setup (pkg :: pkgs) channelId i isInturn >>= fun _ => pure true)
      ⟨a₁, w.log ++ .packages i (.ok (pkg :: pkgs)) :: δs⟩
    ∃ events, (worldOf r).log = w.log ++ events ∧
      IterationSpec setup.config isInturn w.asm ⟨i, w.asm.relayerNonce, events, (worldOf r).asm⟩ ∧
      (∀ w', r = .ok true w' → Completed ⟨i, w.asm.relayerNonce, events, w'.asm⟩) ∧
      ∀ j rest, events = .packages j (.ok []) :: rest → ∃ w', r = .ok false w' := by
  have h := claimBatch_spec env setup (pkg :: pkgs) channelId i isInturn
    ⟨a₁, w.log ++ .packages i (.ok (pkg :: pkgs)) :: δs⟩
  simp only [hs.relayerNonce] at h
  rcases hc : claimBatch env setup (pkg :: pkgs) channelId i isInturn
    ⟨a₁, w.log ++ .packages i (.ok (pkg :: pkgs)) :: δs⟩ with ⟨u, w₁⟩ | ⟨e, w₁⟩
  all_goals simp only [hc, worldOf_ok, worldOf_error, isOk_ok, isOk_error] at h
  all_goals obtain ⟨δp, δc, hlog, hout, hq, hf, hsb, hok, hcur, hcd, hkeep⟩ := h
  · rw [bind_of_ok hc, pure_apply]
    have ha := hok trivial
    refine ⟨_, by simp [hlog], .of_claim hs hst hguard hout hq hf hsb (fun _ h => by simp [ha, h])
      hcur (fun _ => hcd trivial) (fun _ => by simp [ha, hs.relayerNonce]) nofun hflag hmeas, ?_,
      by rintro _ _ ⟨⟩⟩
    rintro w' ⟨⟩
    refine ⟨?_, ?_, by simp [ha, hs.relayerNonce]⟩
    · simp [Event.claim?, hs.claimsOf_eq, hq.claimsOf_eq, hout.claimed rfl]
    · obtain ⟨e, he, hw⟩ := hout.ok_iff.1 rfl
      exact ⟨e, by simp [he], hw⟩
  · rw [bind_of_error hc]
    exact ⟨_, by simp [hlog], .of_claim hs hst hguard hout hq hf hsb nofun hcur hcd nofun
      (fun _ => hkeep trivial) hflag hmeas, nofun, by rintro _ _ ⟨⟩⟩

theorem deliverPackage_spec (isInturn : Bool) (channelId : UInt8) (i : UInt64) (w : World) :
    let r := deliverPackage env setup isInturn channelId i w
    ∃ events, (worldOf r).log = w.log ++ events ∧
      IterationSpec setup.config isInturn w.asm ⟨i, w.asm.relayerNonce, events, (worldOf r).asm⟩ ∧
      (∀ w', r = .ok true w' → Completed ⟨i, w.asm.relayerNonce, events, w'.asm⟩) ∧
      ∀ j rest, events = .packages j (.ok []) :: rest → ∃ w', r = .ok false w' := by
  generalize hr : deliverPackage env setup isInturn channelId i w = r
  simp only [deliverPackage, getPackagesByOracleSequence, askE_bind_apply] at hr
  split at hr
  case h_2 e _ => subst hr; exact ⟨_, rfl, .of_unclaimed .nil (fun _ => .inl) nofun, nofun, by rintro _ _ ⟨⟩⟩
  case h_1 pkgs _ =>
  rcases pkgs with _ | ⟨pkg, pkgs⟩
  · -- a gap: the loop stops with no error
    subst hr; exact ⟨_, rfl, .of_unclaimed .nil (fun _ => .inl) nofun, by simp, fun _ _ _ => ⟨_, rfl⟩⟩
  obtain ⟨δf, a₁, hf, hu, d, rest, hδf, hmeas, hfl⟩ := flagDelay_spec env setup i pkg.txTime
    ⟨w.asm, w.log ++ [.packages i (.ok (pkg :: pkgs))]⟩
  -- an alert the iteration adds was found delayed by its read, whatever follows
  have hfl : ∀ δ', ∀ x ∈ a₁.alertSet, x ∈ w.asm.alertSet ∨
      FoundDelayed setup.config.txDelayAlertThreshHold (.packages i (.ok (pkg :: pkgs)) :: (δf ++ δ')) x :=
    fun δ' x hx => (hfl x hx).imp_right fun ⟨hx, hd⟩ =>
      ⟨pkg, pkgs, d, ⟨[], rest ++ δ', by simp [hx, hδf]⟩, hd⟩
  -- and the age of the first package follows the read, whatever follows
  have hm : ∀ δ', ∃ d rest, δf ++ δ' = .since pkg.txTime d :: rest ∧
      (exceedsSeconds d setup.config.txDelayAlertThreshHold = true → i ∈ a₁.alertSet) :=
    fun δ' => ⟨d, rest ++ δ', by simp [hδf], hmeas⟩
  dsimp only at hr
  rw [bind_of_ok hf] at hr
  by_cases hst : pkg.status ≠ .allVoted ∧ pkg.status ≠ .delivered
  · rw [if_pos hst, throw_bind_apply] at hr
    subst hr; exact ⟨.packages i (.ok (pkg :: pkgs)) :: δf, by simp,
      .of_unclaimed hu (by simpa using hfl []) (fun _ _ h => by cases h; simpa using hm []), nofun,
      by rintro _ _ ⟨⟩⟩
  rw [if_neg hst, pure_bind] at hr
  have hst' : pkg.status = .allVoted ∨ pkg.status = .delivered := (not_and_or.1 hst).imp not_not.1 not_not.1
  cases isInturn
  · simp only [Bool.not_false, if_true, timeNow, ask_bind_apply] at hr
    generalize env.now (w.log ++ [.packages i (.ok (pkg :: pkgs))] ++ δf) = t at hr
    split at hr
    · subst hr
      exact ⟨.packages i (.ok (pkg :: pkgs)) :: (δf ++ [.now t]), by simp,
        .of_unclaimed (hu.append_now _) (hfl _) (fun _ _ h => by cases h; exact hm _), nofun,
        by rintro _ _ ⟨⟩⟩
    · subst hr
      simpa using deliverPackage_claim env setup false channelId i w (hu.append_now t) hst'
        (fun _ => ⟨t, by simp, by assumption⟩) (hfl _) (hm _)
  · simp only [Bool.not_true, Bool.false_eq_true, if_false, pure_bind] at hr
    subst hr
    simpa using deliverPackage_claim env setup true channelId i w hu hst' nofun
      (by simpa using hfl []) (by simpa using hm [])

end

end GreenfieldRelayer
