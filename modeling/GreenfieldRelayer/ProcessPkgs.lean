import GreenfieldRelayer.Log

/-!
# GreenfieldRelayer — what `processPkgs` does

The spec lemma of `processPkgs` says everything one call can log and leave, so that the loop
never unfolds it:

* **`queryCachedLatestValidators_spec`**: a cache read and at most one query, all quiet;
* **`processPkgs_spec`**: `PkgsOutcome`, at most one claim, for the sequence with the nonce
  it was given; store writes for exactly the ids of the packages it was given, with the hash
  of a claim the chain accepted; a status only when in turn, and then `Delivered`; success
  exactly when the store accepted the write, and then the cursor moves to the next sequence.

`PkgsOutcome.of_quiet`, `of_claim_failed` and `of_write` are its three shapes: the call
stopped before the broadcast, at the broadcast, or at the store write.
-/

namespace GreenfieldRelayer

/-- Did the computation return (rather than fail)? -/
def isOk {α : Type} : EStateM.Result GoError World α → Bool
  | .ok _ _ => true
  | .error _ _ => false

@[simp] theorem isOk_ok {α : Type} (a : α) (w : World) : isOk (.ok a w) = true := rfl
@[simp] theorem isOk_error {α : Type} (e : GoError) (w : World) :
    isOk (EStateM.Result.error e w : EStateM.Result GoError World α) = false := rfl

/-- What one call of `processPkgs pkgs channelId sequence nonce isInturnRelyer` logs. -/
structure PkgsOutcome (isInturn : Bool) (pkgs : List BscRelayPackage) (sequence nonce : UInt64)
    (δ : List Event) (ok : Bool) : Prop where
  claims : claimsOf δ = [] ∨ claimsOf δ = [(sequence, nonce)]
  kinds : ∀ e ∈ δ, e.quiet ∨ e.claim?.isSome ∨ e.write?.isSome
  writes : ∀ e ∈ δ, ∀ ids txHash, e.write? = some (ids, txHash) → ids = pkgs.map (·.id) ∧
    ∃ msg opt resp, Event.broadcastTx msg opt (.ok resp) ∈ δ ∧ msg.sequence = sequence ∧
      resp.code = 0 ∧ resp.txHash = txHash
  status : ∀ e ∈ δ, e.write?.isSome → e.status? = if isInturn then some .delivered else none
  ok_iff : ok = true ↔ ∃ e ∈ δ, e.writeOk
  claimed : ok = true → claimsOf δ = [(sequence, nonce)]
  unread : NoCursorRead δ
  /-- No write comes before the claim: the log splits with no write before the split and no
  claim after it. -/
  claimFirst : ∃ A B, δ = A ++ B ∧ (∀ e ∈ A, e.write? = none) ∧ claimsOf B = []

namespace PkgsOutcome

variable {isInturn : Bool} {pkgs : List BscRelayPackage} {sequence nonce : UInt64}

theorem of_quiet {δ : List Event} (h : Quiet δ) (hu : NoCursorRead δ) :
    PkgsOutcome isInturn pkgs sequence nonce δ false where
  claims := .inl h.claimsOf_eq
  kinds e he := .inl (h e he)
  writes e he := by simp [Event.write?_of_quiet (h e he)]
  status e he := by simp [Event.write?_of_quiet (h e he)]
  ok_iff := by simpa using fun e he => Event.writeOk_of_quiet (h e he)
  claimed := by simp
  unread := hu
  claimFirst := ⟨δ, [], (List.append_nil δ).symm, fun e he => Event.write?_of_quiet (h e he), rfl⟩

/-- The quiet events of a claim and its broadcast carry no write. -/
theorem write?_of_claim {q : List Event} (hq : Quiet q) {msg : MsgClaim} {opt : TxOption}
    {r : Except GoError TxResponse} : ∀ e ∈ q ++ [.broadcastTx msg opt r], e.write? = none := by
  intro e he
  rcases List.mem_append.1 he with he | he
  · exact Event.write?_of_quiet (hq e he)
  · rw [List.mem_singleton.1 he]; rfl

theorem of_claim_failed {q : List Event} (hq : Quiet q) (hu : NoCursorRead q) (msg : MsgClaim)
    (opt : TxOption)
    (r : Except GoError TxResponse) (hs : msg.sequence = sequence) (hn : opt.nonce = nonce) :
    PkgsOutcome isInturn pkgs sequence nonce (q ++ [.broadcastTx msg opt r]) false where
  claims := .inr (by simp [hq.claimsOf_eq, Event.claim?, hs, hn])
  kinds e he := by
    rcases List.mem_append.1 he with he | he
    · exact .inl (hq e he)
    · simp_all [Event.claim?]
  writes e he := by
    rcases List.mem_append.1 he with he | he
    · simp [Event.write?_of_quiet (hq e he)]
    · simp_all [Event.write?]
  status e he := by
    rcases List.mem_append.1 he with he | he
    · simp [Event.write?_of_quiet (hq e he)]
    · simp_all [Event.write?]
  ok_iff := by
    refine ⟨by simp, ?_⟩
    rintro ⟨e, he, hw⟩
    rcases List.mem_append.1 he with he | he
    · simp [Event.writeOk_of_quiet (hq e he)] at hw
    · simp_all [Event.writeOk]
  claimed := by simp
  unread := hu.append (by simp [NoCursorRead, Event.cursorRead])
  claimFirst := ⟨_, [], (List.append_nil _).symm, write?_of_claim hq, rfl⟩

theorem of_write {q : List Event} (hq : Quiet q) (hu : NoCursorRead q) (msg : MsgClaim) (opt : TxOption)
    (resp : TxResponse) (hs : msg.sequence = sequence) (hn : opt.nonce = nonce) (hc : resp.code = 0)
    (h : UInt64) (we : Event) (hw : we.write? = some (pkgs.map (·.id), resp.txHash))
    (hst : we.status? = if isInturn then some .delivered else none) (hwc : we.claim? = none) :
    PkgsOutcome isInturn pkgs sequence nonce
      (q ++ [.broadcastTx msg opt (.ok resp), .setProcessedHeight h, we]) we.writeOk where
  claims := .inr (by
    simp only [claimsOf_append, claimsOf_cons, hwc, hq.claimsOf_eq, claimsOf_nil]
    simp [Event.claim?, hs, hn])
  kinds e he := by
    simp only [List.mem_append, List.mem_cons, List.mem_singleton, List.not_mem_nil, or_false] at he
    rcases he with he | rfl | rfl | rfl
    · exact .inl (hq e he)
    · simp [Event.claim?]
    · simp [Event.quiet]
    · simp [hw]
  writes e he := by
    simp only [List.mem_append, List.mem_cons, List.mem_singleton, List.not_mem_nil, or_false] at he
    rcases he with he | rfl | rfl | rfl
    · simp [Event.write?_of_quiet (hq e he)]
    · simp [Event.write?]
    · simp [Event.write?]
    · simp only [hw, Option.some.injEq, Prod.mk.injEq, and_imp]
      rintro _ _ rfl rfl
      exact ⟨rfl, msg, opt, resp, by simp, hs, hc, rfl⟩
  status e he := by
    simp only [List.mem_append, List.mem_cons, List.mem_singleton, List.not_mem_nil, or_false] at he
    rcases he with he | rfl | rfl | rfl
    · simp [Event.write?_of_quiet (hq e he)]
    · simp [Event.write?]
    · simp [Event.write?]
    · simp [hst]
  ok_iff := by
    refine ⟨fun h => ⟨we, by simp, h⟩, ?_⟩
    rintro ⟨e, he, hok⟩
    simp only [List.mem_append, List.mem_cons, List.mem_singleton, List.not_mem_nil, or_false] at he
    rcases he with he | rfl | rfl | rfl
    · simp [Event.writeOk_of_quiet (hq e he)] at hok
    · simp [Event.writeOk] at hok
    · simp [Event.writeOk] at hok
    · exact hok
  claimed _ := by
    simp only [claimsOf_append, claimsOf_cons, hwc, hq.claimsOf_eq, claimsOf_nil]
    simp [Event.claim?, hs, hn]
  unread := hu.append fun e he => by
    simp only [List.mem_cons, List.mem_singleton, List.not_mem_nil, or_false] at he
    rcases he with rfl | rfl | rfl
    · rfl
    · rfl
    · cases e <;> simp_all [Event.write?, Event.cursorRead]
  claimFirst := ⟨q ++ [.broadcastTx msg opt (.ok resp)], [.setProcessedHeight h, we], by simp,
    write?_of_claim hq,
    by simp only [claimsOf_cons, hwc, claimsOf_nil]; rfl⟩

end PkgsOutcome

section

variable (env : Env) (setup : Setup)

theorem queryCachedLatestValidators_spec (w : World) :
    ∃ δ, Quiet δ ∧ NoCursorRead δ ∧
      ((∃ vs, queryCachedLatestValidators env w = .ok vs { w with log := w.log ++ δ }) ∨
      (∃ e, queryCachedLatestValidators env w = .error e { w with log := w.log ++ δ })) := by
  simp only [queryCachedLatestValidators, bind_apply, pure_apply, ask_apply]
  by_cases h : env.cachedValidators w.log = []
  · simp only [h, ne_eq, not_true_eq_false, if_false, bind_apply, pure_apply, askE_apply]
    rcases h' : env.queryLatestValidators (w.log ++ [.cachedValidators []]) with e | vs
    · exact ⟨[.cachedValidators [], .latestValidators (.error e)], by simp [Quiet, Event.quiet],
        by simp [NoCursorRead, Event.cursorRead], by simp [h']⟩
    · exact ⟨[.cachedValidators [], .latestValidators (.ok vs)], by simp [Quiet, Event.quiet],
        by simp [NoCursorRead, Event.cursorRead], by simp [h']⟩
  · exact ⟨[.cachedValidators (env.cachedValidators w.log)], by simp [Quiet, Event.quiet],
      by simp [NoCursorRead, Event.cursorRead], by simp [h]⟩

theorem processPkgs_spec (pkgs : List BscRelayPackage) (channelId : UInt8)
    (sequence nonce : UInt64) (isInturn : Bool) (w : World) :
    let r := processPkgs env setup pkgs channelId sequence nonce isInturn w
    ∃ δ, (worldOf r).log = w.log ++ δ ∧ PkgsOutcome isInturn pkgs sequence nonce δ (isOk r) ∧
      (worldOf r).asm = if isOk r && isInturn then w.asm.setNextDeliverySeq (sequence + 1) else w.asm := by
  generalize hr : processPkgs env setup pkgs channelId sequence nonce isInturn w = r
  simp only [processPkgs, getVotesByChannelIdAndSequence, askE_bind_apply] at hr
  split at hr
  case h_2 e _ =>
    subst hr
    exact ⟨_, rfl, .of_quiet (by simp [Quiet, Event.quiet]) (by simp [NoCursorRead, Event.cursorRead]),
      by simp⟩
  case h_1 votes _ =>
  have hq₀ : Quiet [.votes channelId sequence (.ok votes)] := by simp [Quiet, Event.quiet]
  have hu₀ : NoCursorRead [.votes channelId sequence (.ok votes)] := by
    simp [NoCursorRead, Event.cursorRead]
  obtain ⟨δ₁, hq₁, hu₁, ⟨vs, h₁⟩ | ⟨e, h₁⟩⟩ := queryCachedLatestValidators_spec env
    { w with log := w.log ++ [.votes channelId sequence (.ok votes)] }
  swap
  · rw [bind_of_error h₁] at hr; subst hr
    exact ⟨_, by simp, .of_quiet (hq₀.append hq₁) (hu₀.append hu₁), by simp⟩
  rw [bind_of_ok h₁] at hr
  have hq := hq₀.append hq₁
  have hu := hu₀.append hu₁
  simp only [liftExcept_bind_apply] at hr
  rcases ha : setup.aggregate votes vs with e | ⟨sig, bits⟩ <;> simp only [ha] at hr
  · subst hr; exact ⟨_, by simp, .of_quiet hq hu, by simp⟩
  rcases votes with _ | ⟨vote, votes⟩
  · simp only [index0, throw_bind_apply] at hr
    subst hr; exact ⟨_, by simp, .of_quiet hq hu, by simp⟩
  rcases pkgs with _ | ⟨pkg, pkgs⟩
  · simp only [index0, pure_bind, throw_bind_apply] at hr
    subst hr; exact ⟨_, by simp, .of_quiet hq hu, by simp⟩
  simp only [index0, pure_bind, claimPackages, bind_assoc, askE_bind_apply] at hr
  have hmsg : (claimMsg setup vote.claimPayload sig bits pkg.txTime sequence).sequence = sequence := rfl
  split at hr
  case h_2 e _ =>
    subst hr
    exact ⟨_, by simp, .of_claim_failed hq hu _ (claimTxOption setup nonce) (.error e) hmsg rfl, by simp⟩
  case h_1 resp _ =>
  by_cases hc : resp.code = 0
  swap
  · simp only [ne_eq, hc, not_false_eq_true, if_true, throw_bind_apply] at hr
    subst hr
    exact ⟨_, by simp, .of_claim_failed hq hu _ (claimTxOption setup nonce) (.ok resp) hmsg rfl, by simp⟩
  simp only [hc, ne_eq, not_true_eq_false, if_false, pure_bind, emit_bind_apply] at hr
  cases isInturn
  · simp only [Bool.not_false, if_true, updateBatchPackagesClaimedTxHash, askE_apply] at hr
    split at hr
    next => subst hr; refine ⟨_, ?_, @PkgsOutcome.of_write false (pkg :: pkgs) sequence nonce _ hq hu _
      (claimTxOption setup nonce) resp hmsg rfl hc pkg.height
      (.updateClaimedTxHash _ resp.txHash (.ok ())) rfl rfl rfl, ?_⟩ <;> simp
    next e _ => subst hr; refine ⟨_, ?_, @PkgsOutcome.of_write false (pkg :: pkgs) sequence nonce _ hq hu _
      (claimTxOption setup nonce) resp hmsg rfl hc pkg.height
      (.updateClaimedTxHash _ resp.txHash (.error e)) rfl rfl rfl, ?_⟩ <;> simp
  · simp only [Bool.not_true, Bool.false_eq_true, if_false,
      updateBatchPackagesStatusAndClaimedTxHash, askE_bind_apply] at hr
    split at hr
    next => simp only [modifyAsm_apply] at hr; subst hr; refine ⟨_, ?_,
      @PkgsOutcome.of_write true (pkg :: pkgs) sequence nonce _ hq hu _ (claimTxOption setup nonce) resp
      hmsg rfl hc pkg.height (.updateStatusAndClaimedTxHash _ .delivered resp.txHash (.ok ())) rfl rfl
      rfl, ?_⟩ <;> simp
    next e _ => subst hr; refine ⟨_, ?_,
      @PkgsOutcome.of_write true (pkg :: pkgs) sequence nonce _ hq hu _ (claimTxOption setup nonce) resp
      hmsg rfl hc pkg.height (.updateStatusAndClaimedTxHash _ .delivered resp.txHash (.error e)) rfl rfl
      rfl, ?_⟩ <;> simp

end

end GreenfieldRelayer
