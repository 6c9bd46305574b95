import GreenfieldRelayer.Iteration

/-!
# GreenfieldRelayer — the delivery loop

`for i := startSeq; i <= uint64(endSequence); i++` as a list of iterations. The run lemma
**`deliverPackages_spec`** cuts any run of the loop into the iterations it made, a `LoopRun`:
each at the next sequence, beginning with the nonce the one before left, inside the bound, as
`deliverPackage_spec` describes it, and every one but the last `Completed`. It is proved by
induction on the fuel from the step lemma, and the loop's laws follow from it by induction on
the `LoopRun`:

* **`LoopRun.claimsOf_eventsOf`**: the claims are `consecutive` in sequence and nonce;
* **`LoopRun.claim_offset`**: so each is sent with the offset of nonce over sequence the loop
  began with, and no nonce or sequence is read in the loop before it;
* **`LoopRun.completed_of_append`**: an iteration that another follows is `Completed`;
* **`LoopRun.gap_last`**: after a read that found no package the loop reads and claims nothing;
* **`LoopRun.reads_eq`**, **`LoopRun.seq_le`** and **`LoopRun.seqs_eq_range'`**: the loop
  reads its iterations' sequences once each, every one inside the bound, and below the largest
  `uint64` they are `startSeq, startSeq + 1, …` with no wrap;
* **`LoopRun.gauge_iff`** and **`LoopRun.mem_alertSet`**: the delay gauge stays in step with
  the alert set, which only grows; **`LoopRun.flagged`**: by alerts the loop's reads found
  delayed, and the loop never clears the gauge (`LoopRun.no_clear`);
* **`LoopRun.hasRetrieved_lastAfter`** and **`LoopRun.nextDeliverySeq_lastAfter`**: the
  retrieval flag stays, and a stand-by loop keeps the in-turn cursor;
* **`LoopRun.cursorFollows`**: an in-turn loop keeps `relayerNonce - NextDeliverySeq`, unless a
  calibration re-read the cursor.
-/

namespace GreenfieldRelayer

/-- The events of a run of iterations, in order. -/
def eventsOf : List Iteration → List Event
  | [] => []
  | it :: its => it.events ++ eventsOf its

/-- The assembler the last of the iterations left, or `a` when there is none. -/
def lastAfter (a : BSCAssembler) : List Iteration → BSCAssembler
  | [] => a
  | it :: its => lastAfter it.after its

@[simp] theorem eventsOf_nil : eventsOf [] = [] := rfl
@[simp] theorem eventsOf_cons (it : Iteration) (its : List Iteration) :
    eventsOf (it :: its) = it.events ++ eventsOf its := rfl
@[simp] theorem lastAfter_nil (a : BSCAssembler) : lastAfter a [] = a := rfl
@[simp] theorem lastAfter_cons (a : BSCAssembler) (it : Iteration) (its : List Iteration) :
    lastAfter a (it :: its) = lastAfter it.after its := rfl

@[simp] theorem lastAfter_append_singleton (a : BSCAssembler) (its : List Iteration)
    (it : Iteration) : lastAfter a (its ++ [it]) = it.after := by
  induction its generalizing a with
  | nil => rfl
  | cons it' its ih => exact ih it'.after

/-- Below the largest `uint64`, `i++` does not wrap. -/
theorem toNat_add_one_of_lt {i : UInt64} (h : i.toNat < 2 ^ 64 - 1) : (i + 1).toNat = i.toNat + 1 :=
  (BitVec.toNat_add i.toBitVec 1).trans (Nat.mod_eq_of_lt (show i.toNat + 1 < 2 ^ 64 by omega))

/-- The iterations of one run of the loop from sequence `i` with assembler `a`, bounded by
`endSeq`: each at the next sequence, beginning with the nonce the one before left, inside the
bound and as `deliverPackage_spec` describes it. Only the last may be other than `Completed`. -/
inductive LoopRun (cfg : Config) (isInturn : Bool) (endSeq : UInt64) :
    UInt64 → BSCAssembler → List Iteration → Prop
  | nil (i : UInt64) (a : BSCAssembler) : LoopRun cfg isInturn endSeq i a []
  | last {i : UInt64} {a : BSCAssembler} (it : Iteration) (hseq : it.seq = i)
      (hnonce : it.nonce = a.relayerNonce) (hle : i ≤ endSeq)
      (hspec : IterationSpec cfg isInturn a it) : LoopRun cfg isInturn endSeq i a [it]
  | next {i : UInt64} {a : BSCAssembler} (it : Iteration) {its : List Iteration}
      (hseq : it.seq = i) (hnonce : it.nonce = a.relayerNonce) (hle : i ≤ endSeq)
      (hspec : IterationSpec cfg isInturn a it) (hdone : Completed it)
      (hrest : LoopRun cfg isInturn endSeq (i + 1) it.after its) :
      LoopRun cfg isInturn endSeq i a (it :: its)

namespace DelayStep

variable {i : UInt64} {a a' : BSCAssembler} {δ : List Event}

/-- An iteration keeps the gauge in step with the alert set. -/
theorem gauge_iff (h : DelayStep i a a' δ) {l : List Event}
    (hl : lastHasTxDelay l = true ↔ a.alertSet ≠ []) :
    lastHasTxDelay (l ++ δ) = true ↔ a'.alertSet ≠ [] := by
  rcases h with ⟨hδ, ha⟩ | ⟨hδ, ha⟩
  · rw [lastHasTxDelay_append_of_none (List.filterMap_eq_nil_iff.1 hδ), ha]; exact hl
  · simp [lastHasTxDelay, List.filterMap_append, hδ, ha, List.ne_nil_of_mem (List.mem_insert_self i _)]

theorem mem_alertSet (h : DelayStep i a a' δ) {x : UInt64} (hx : x ∈ a.alertSet) : x ∈ a'.alertSet := by
  rcases h with ⟨-, ha⟩ | ⟨-, ha⟩ <;> rw [ha]
  · exact hx
  · exact List.mem_insert_of_mem hx

/-- An iteration never clears the gauge. -/
theorem no_clear (h : DelayStep i a a' δ) : ∀ e ∈ δ, e.hasTxDelay? ≠ some false := fun e he hf => by
  have : false ∈ δ.filterMap Event.hasTxDelay? := List.mem_filterMap.2 ⟨e, he, hf⟩
  rcases h with ⟨h, -⟩ | ⟨h, -⟩ <;> simp [h] at this

end DelayStep

theorem IterationSpec.reads {cfg : Config} {isInturn : Bool} {a : BSCAssembler} {it : Iteration}
    (h : IterationSpec cfg isInturn a it) : it.events.filterMap Event.read? = [it.seq] := by
  obtain ⟨r, rest, he, hr⟩ := h.read
  simp [he, Event.read?, List.filterMap_eq_nil_iff.2 hr]

/-- An element of `A ++ B` lies in `A`, or in `B` after all of `A`. -/
theorem append_eq_append_cons {α : Type} {A B pre post : List α} {x : α}
    (h : A ++ B = pre ++ x :: post) :
    (∃ c, A = pre ++ x :: c ∧ post = c ++ B) ∨ ∃ a', pre = A ++ a' ∧ B = a' ++ x :: post := by
  rcases List.append_eq_append_iff.1 h with ⟨a', rfl, hB⟩ | ⟨_ | ⟨y, c⟩, hA, hpost⟩
  · exact .inr ⟨a', rfl, hB⟩
  · exact .inr ⟨[], by simpa using hA.symm, by simpa using hpost.symm⟩
  · obtain ⟨rfl, rfl⟩ := List.cons.inj hpost
    exact .inl ⟨c, hA, rfl⟩

/-- `k` claims, for consecutive sequences from `i` with consecutive nonces from `n`. -/
def consecutive (i n : UInt64) : Nat → List (UInt64 × UInt64)
  | 0 => []
  | k + 1 => (i, n) :: consecutive (i + 1) (n + 1) k

namespace LoopRun

variable {cfg : Config} {isInturn : Bool} {endSeq i : UInt64} {a : BSCAssembler}
  {its : List Iteration}

/-- The claims of the loop are for consecutive sequences from `i`, with consecutive nonces from
the one the loop began with. -/
theorem claimsOf_eventsOf (h : LoopRun cfg isInturn endSeq i a its) :
    ∃ k, claimsOf (eventsOf its) = consecutive i a.relayerNonce k := by
  induction h with
  | nil => exact ⟨0, rfl⟩
  | last it hseq hnonce _ hspec =>
    rcases hspec.claims with hc | hc
    · exact ⟨0, by simp [hc, consecutive]⟩
    · exact ⟨1, by simp [hc, hseq, hnonce, consecutive]⟩
  | next it hseq hnonce _ _ hdone _ ih =>
    obtain ⟨k, hk⟩ := ih
    refine ⟨k + 1, ?_⟩
    rw [eventsOf_cons, claimsOf_append, hdone.claimed, hk, hdone.nonce, hseq, hnonce]
    rfl

/-- Every iteration that another follows is `Completed`. -/
theorem completed_of_append (h : LoopRun cfg isInturn endSeq i a its) {pre post : List Iteration}
    {it : Iteration} (heq : its = pre ++ it :: post) (hpost : post ≠ []) : Completed it := by
  induction h generalizing pre with
  | nil => simp at heq
  | last it' =>
    rcases pre with _ | ⟨_, _ | _⟩ <;> simp_all
  | next it' _ _ _ _ hdone _ ih =>
    rcases pre with _ | ⟨p, pre⟩
    · simp only [List.nil_append, List.cons.injEq] at heq
      exact heq.1 ▸ hdone
    · simp only [List.cons_append, List.cons.injEq] at heq
      exact ih heq.2

/-- **Every claim of the loop keeps the offset the loop began with**: its nonce less its sequence
is `a.relayerNonce - i`, and nothing before it in the loop reads a nonce or a sequence. -/
theorem claim_offset (h : LoopRun cfg isInturn endSeq i a its) {pre post : List Event}
    {e : Event} {c : UInt64 × UInt64} (heq : eventsOf its = pre ++ e :: post)
    (hc : e.claim? = some c) : NoCursorRead pre ∧ c.2 - c.1 = a.relayerNonce - i := by
  induction h generalizing pre with
  | nil => simp at heq
  | @last i a it hseq hnonce _ hspec =>
    obtain ⟨hpre, rfl⟩ := hspec.claim_split (by simpa using heq) hc
    exact ⟨hpre, by rw [hseq, hnonce]⟩
  | @next i a it _ hseq hnonce _ hspec hdone _ ih =>
    -- the loop after a `Completed` iteration begins one on in both
    have hnext : it.after.relayerNonce - (i + 1) = a.relayerNonce - i := by
      rw [hdone.nonce, hnonce, UInt64.add_one_sub_add_one]
    have hread := hspec.unread_of_completed hdone
    rw [eventsOf_cons] at heq
    rcases append_eq_append_cons heq with ⟨c', hit, -⟩ | ⟨a', rfl, hrest⟩
    · -- the claim lies in this iteration
      obtain ⟨hpre, rfl⟩ := hspec.claim_split hit hc
      exact ⟨hpre, by rw [hseq, hnonce]⟩
    · -- the claim lies further in the loop
      obtain ⟨hpre, hoff⟩ := ih hrest
      exact ⟨hread.append hpre, hoff.trans hnext⟩

/-- **A gap ends the loop**: after a read that found no package, the loop reads and claims
nothing. -/
theorem gap_last (h : LoopRun cfg isInturn endSeq i a its) {pre post : List Event} {j : UInt64}
    (heq : eventsOf its = pre ++ .packages j (.ok []) :: post) :
    post.filterMap Event.read? = [] ∧ claimsOf post = [] := by
  induction h generalizing pre with
  | nil => simp at heq
  | last it _ _ _ hspec =>
    rw [eventsOf_cons, eventsOf_nil, List.append_nil] at heq
    obtain ⟨rfl, hr, hc⟩ := hspec.of_empty_read heq
    rw [heq] at hc
    exact ⟨hr, by simpa [Event.claim?] using hc⟩
  | next it _ _ _ hspec hdone _ ih =>
    rw [eventsOf_cons] at heq
    rcases append_eq_append_cons heq with ⟨c, hit, -⟩ | ⟨a', rfl, hrest⟩
    · -- an iteration that another follows claimed, so it found no gap
      obtain ⟨-, -, hc⟩ := hspec.of_empty_read hit
      simp [hdone.claimed] at hc
    · exact ih hrest

theorem spec_of_mem (h : LoopRun cfg isInturn endSeq i a its) {it : Iteration} (hit : it ∈ its) :
    ∃ a', IterationSpec cfg isInturn a' it := by
  induction h with
  | nil => simp at hit
  | last it' _ _ _ hspec => exact ⟨_, (List.mem_singleton.1 hit) ▸ hspec⟩
  | next it' _ _ _ hspec _ _ ih =>
    rcases List.mem_cons.1 hit with rfl | hit
    · exact ⟨_, hspec⟩
    · exact ih hit

theorem seq_le (h : LoopRun cfg isInturn endSeq i a its) {it : Iteration} (hit : it ∈ its) :
    it.seq ≤ endSeq := by
  induction h with
  | nil => simp at hit
  | last it' hseq _ hle => exact (List.mem_singleton.1 hit) ▸ hseq ▸ hle
  | next it' hseq _ hle _ _ _ ih =>
    rcases List.mem_cons.1 hit with rfl | hit
    · exact hseq ▸ hle
    · exact ih hit

/-- Below the largest `uint64`, the loop visits `i, i + 1, …` as natural numbers, without
wrapping. -/
theorem seqs_eq_range' (h : LoopRun cfg isInturn endSeq i a its) (hb : endSeq.toNat < 2 ^ 64 - 1) :
    its.map (·.seq.toNat) = List.range' i.toNat its.length := by
  induction h with
  | nil => rfl
  | last it hseq => simp [hseq]
  | @next i _ it _ hseq _ hle _ _ _ ih =>
    have hle : i.toNat ≤ endSeq.toNat := hle
    have hsucc := toNat_add_one_of_lt (show i.toNat < 2 ^ 64 - 1 by omega)
    simp only [List.map_cons, List.length_cons, ih, hsucc, hseq]
    rfl

/-- The loop reads each of its iterations' sequences once, in order, and nothing else. -/
theorem reads_eq (h : LoopRun cfg isInturn endSeq i a its) :
    (eventsOf its).filterMap Event.read? = its.map (·.seq) := by
  induction h with
  | nil => rfl
  | last it _ _ _ hspec => simp [hspec.reads]
  | next it _ _ _ hspec _ _ ih => simp [List.filterMap_append, hspec.reads, ih]

/-- The loop keeps the gauge in step with the alert set. -/
theorem gauge_iff (h : LoopRun cfg isInturn endSeq i a its) {l : List Event}
    (hl : lastHasTxDelay l = true ↔ a.alertSet ≠ []) :
    lastHasTxDelay (l ++ eventsOf its) = true ↔ (lastAfter a its).alertSet ≠ [] := by
  induction h generalizing l with
  | nil => simpa using hl
  | last it _ _ _ hspec => simpa using hspec.delay.gauge_iff hl
  | next it _ _ _ hspec _ _ ih => simpa using ih (hspec.delay.gauge_iff hl)

/-- The loop only adds to the alert set. -/
theorem mem_alertSet (h : LoopRun cfg isInturn endSeq i a its) {x : UInt64} (hx : x ∈ a.alertSet) :
    x ∈ (lastAfter a its).alertSet := by
  induction h with
  | nil => exact hx
  | last it _ _ _ hspec => exact hspec.delay.mem_alertSet hx
  | next it _ _ _ hspec _ _ ih => exact ih (hspec.delay.mem_alertSet hx)

/-- The loop never clears the gauge. -/
theorem no_clear (h : LoopRun cfg isInturn endSeq i a its) :
    ∀ e ∈ eventsOf its, e.hasTxDelay? ≠ some false := by
  induction h with
  | nil => simp
  | last it _ _ _ hspec => simpa using hspec.delay.no_clear
  | next it _ _ _ hspec _ _ ih =>
    exact fun e he => (List.mem_append.1 he).elim (hspec.delay.no_clear e) (ih e)

/-- An alert the loop adds was found delayed by one of its reads. -/
theorem flagged (h : LoopRun cfg isInturn endSeq i a its) {x : UInt64}
    (hx : x ∈ (lastAfter a its).alertSet) :
    x ∈ a.alertSet ∨ FoundDelayed cfg.txDelayAlertThreshHold (eventsOf its) x := by
  induction h with
  | nil => exact .inl hx
  | last it _ _ _ hspec => simpa using hspec.flagged x (by simpa using hx)
  | next it _ _ _ hspec _ _ ih =>
    rcases ih hx with hx | hf
    · exact (hspec.flagged x hx).imp_right (·.mono (List.prefix_append _ _).isInfix)
    · exact .inr (hf.mono (List.suffix_append _ _).isInfix)

theorem hasRetrieved_lastAfter (h : LoopRun cfg isInturn endSeq i a its) :
    (lastAfter a its).inturnRelayerSequenceStatus.hasRetrieved =
      a.inturnRelayerSequenceStatus.hasRetrieved := by
  induction h with
  | nil => rfl
  | last it _ _ _ hspec => exact hspec.hasRetrieved
  | next it _ _ _ hspec _ _ ih => exact ih.trans hspec.hasRetrieved

/-- A stand-by loop leaves the in-turn cursor where it was. -/
theorem nextDeliverySeq_lastAfter (h : LoopRun cfg false endSeq i a its) :
    (lastAfter a its).inturnRelayerSequenceStatus.nextDeliverySeq =
      a.inturnRelayerSequenceStatus.nextDeliverySeq := by
  induction h with
  | nil => rfl
  | last it _ _ _ hspec => exact hspec.standBy rfl
  | next it _ _ _ hspec _ _ ih => exact ih.trans (hspec.standBy rfl)

/-- **An in-turn loop that starts at the cursor's sequence keeps the lockstep**: each
`Completed` iteration moves the nonce and the sequence on by one together, and the next one
starts at the sequence the cursor then holds. -/
theorem cursorFollows (h : LoopRun cfg true endSeq i a its)
    (hi : a.inturnRelayerSequenceStatus.nextDeliverySeq = i) :
    CursorFollows a (eventsOf its) (lastAfter a its) := by
  induction h with
  | nil => exact .refl _
  | last it hseq _ _ hspec =>
    simpa using (hspec.cursor rfl).follows (hi.trans hseq.symm) hspec.hasRetrieved
  | next it hseq _ _ hspec hdone _ ih =>
    have hnext := hspec.delivered rfl hdone.written
    exact ((hspec.cursor rfl).follows (hi.trans hseq.symm) hspec.hasRetrieved).trans
      (ih (by rw [hnext, hseq]))

end LoopRun

section
variable (env : Env) (setup : Setup)

theorem deliverPackages_spec (isInturn : Bool) (channelId : UInt8) (endSeq : UInt64) (fuel : Nat)
    (i : UInt64) (w : World) :
    let r := deliverPackages env setup isInturn channelId endSeq fuel i w
    ∃ its, LoopRun setup.config isInturn endSeq i w.asm its ∧ its.length ≤ fuel ∧
      (worldOf r).log = w.log ++ eventsOf its ∧ (worldOf r).asm = lastAfter w.asm its ∧
      ∀ pre j post, eventsOf its = pre ++ .packages j (.ok []) :: post → ∃ w', r = .ok () w' := by
  induction fuel generalizing i w with
  | zero => exact ⟨[], .nil _ _, le_refl _, by simp [deliverPackages], rfl, by simp⟩
  | succ fuel ih =>
    generalize hr : deliverPackages env setup isInturn channelId endSeq (fuel + 1) i w = r
    simp only [deliverPackages] at hr
    by_cases hle : i ≤ endSeq
    swap
    · rw [if_neg hle, pure_apply] at hr
      subst hr; exact ⟨[], .nil _ _, Nat.zero_le _, by simp, rfl, by simp⟩
    rw [if_pos hle] at hr
    obtain ⟨events, hlog, hspec, hdone, hgap⟩ := deliverPackage_spec env setup isInturn channelId i w
    rcases hd : deliverPackage env setup isInturn channelId i w with ⟨b, w₁⟩ | ⟨e, w₁⟩
    all_goals simp only [hd, worldOf_ok, worldOf_error] at hlog hspec
    · rw [bind_of_ok hd] at hr
      cases b
      · simp only [Bool.false_eq_true, if_false, pure_apply] at hr
        subst hr
        exact ⟨[⟨i, w.asm.relayerNonce, events, w₁.asm⟩], .last _ rfl rfl hle hspec, by simp,
          by simp [hlog], rfl, fun _ _ _ _ => ⟨_, rfl⟩⟩
      · simp only [if_true] at hr
        subst hr
        obtain ⟨its, hrun, hlen, hlog', hasm', hgap'⟩ := ih (i + 1) w₁
        refine ⟨⟨i, w.asm.relayerNonce, events, w₁.asm⟩ :: its,
          .next _ rfl rfl hle hspec (hdone w₁ hd) hrun, by simpa using hlen,
          by simp [hlog', hlog], hasm', fun pre j post h => ?_⟩
        rw [eventsOf_cons] at h
        rcases append_eq_append_cons h with ⟨c, hit, -⟩ | ⟨a', rfl, hrest⟩
        · -- an iteration that went on to the next sequence found no gap
          obtain ⟨rfl, -, -⟩ := hspec.of_empty_read hit
          obtain ⟨w', hw'⟩ := hgap j c hit
          rw [hd] at hw'; cases hw'
        · exact hgap' a' j post hrest
    · rw [bind_of_error hd] at hr
      subst hr
      refine ⟨[⟨i, w.asm.relayerNonce, events, w₁.asm⟩], .last _ rfl rfl hle hspec, by simp,
        by simp [hlog], rfl, fun pre j post h => ?_⟩
      rw [eventsOf_cons, eventsOf_nil, List.append_nil] at h
      -- an iteration that failed found no gap
      obtain ⟨rfl, -, -⟩ := hspec.of_empty_read h
      obtain ⟨w', hw'⟩ := hgap j post h
      rw [hd] at hw'; cases hw'

end

end GreenfieldRelayer
