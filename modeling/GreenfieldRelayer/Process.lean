import GreenfieldRelayer.Loop

/-!
# GreenfieldRelayer — one pass of `process`

The spec lemmas of the steps before the loop, each saying everything the step can log and
leave, and the cut of a whole pass at the loop:

* **`decideRole_spec`**, **`updateMetrics_spec`**: quiet, no read of the cursor, and the
  assembler as it was;
* **`establishCursor_spec`**: quiet; a stand-by pass clears the retrieval flag and keeps the
  in-turn cursor, starting at the sequence it read together with the nonce it holds; an
  in-turn pass that gets a start sequence has the cursor at it, and a cursor it establishes
  holds the pair it read together (`CursorFollows`);
* **`selectEndSequence_spec`**: one read, the `AllVoted` height (never `-1` when it goes on)
  or `next_send_sequence`;
* **`prepare_spec`**: their composition, with the window a pass enters the loop with;
* **`reconcileAlerts_spec`**: nothing, or `SetHasTxDelay(false)` with the set emptied, only
  when the set is non-empty and the start is past its largest member;
* **`process_cases`**: a pass stops in `prepare`, or enters the loop after the reconciliation
  and runs a `LoopRun` to the end of the pass, returning no error when the loop found a gap;
  **`process_loop_event`** places in that `LoopRun` every event only the loop writes;
* **`process_cursorFollows`**: a pass keeps `relayerNonce - NextDeliverySeq` in step with the
  nonce and sequence it last read together.
-/

namespace GreenfieldRelayer

section

variable (env : Env) (setup : Setup)

/-! ## Up to the loop -/

theorem establishCursor_spec (isInturn : Bool) (ir : QueryInturnRelayerResponse) (w : World) :
    let r := establishCursor env setup isInturn ir w
    ∃ δ, (worldOf r).log = w.log ++ δ ∧ Quiet δ ∧
      (worldOf r).asm.alertSet = w.asm.alertSet ∧ (worldOf r).asm.blsPubKey = w.asm.blsPubKey ∧
      (isInturn = false → (worldOf r).asm.inturnRelayerSequenceStatus =
        { w.asm.inturnRelayerSequenceStatus with hasRetrieved := false }) ∧
      (isInturn = true → ∀ s w', r = .ok (some s) w' →
        w'.asm.inturnRelayerSequenceStatus = { hasRetrieved := true, nextDeliverySeq := s }) ∧
      (isInturn = false → ∀ s w', r = .ok (some s) w' →
        ∃ n, LastReadTogether n s δ ∧ w'.asm.relayerNonce = n) ∧
      CursorFollows w.asm δ (worldOf r).asm ∧
      (NoCursorRead δ → (worldOf r).asm.relayerNonce = w.asm.relayerNonce ∧
        ((worldOf r).asm.inturnRelayerSequenceStatus.hasRetrieved = true →
          (worldOf r).asm.inturnRelayerSequenceStatus = w.asm.inturnRelayerSequenceStatus)) := by
  generalize hr : establishCursor env setup isInturn ir w = r
  cases isInturn
  · simp only [establishCursor, Bool.false_eq_true, if_false, modifyAsm_bind_apply, emit_bind_apply,
      getNextDeliveryOracleSequence, getNonce, askE_bind_apply] at hr
    split at hr
    next s _ =>
      split at hr
      next n _ =>
        subst hr
        exact ⟨[.sleep setup.config.greenfieldSequenceUpdateLatency,
          .nextDeliveryOracleSequence setup.config.bscChainId.toUInt16 (.ok s), .nonce (.ok n)],
          by simp, by simp [Quiet, Event.quiet], rfl, rfl, fun _ => rfl, nofun,
          by rintro - s' w' ⟨⟩; exact ⟨n, ⟨[_], _, [], rfl, .inl ⟨_, rfl⟩, .nil⟩, rfl⟩,
          .of_not_retrieved (by simp), fun hu => (hu.not_mem (e := .nonce (.ok n)) rfl (by simp)).elim⟩
      next e _ =>
        subst hr
        exact ⟨[.sleep setup.config.greenfieldSequenceUpdateLatency,
          .nextDeliveryOracleSequence setup.config.bscChainId.toUInt16 (.ok s), .nonce (.error e)],
          by simp, by simp [Quiet, Event.quiet], rfl, rfl, fun _ => rfl, nofun,
          by rintro - s' w' ⟨⟩, .of_not_retrieved (by simp), fun hu => (hu.not_mem
            (e := .nextDeliveryOracleSequence setup.config.bscChainId.toUInt16 (.ok s)) rfl (by simp)).elim⟩
    next e _ =>
      subst hr
      exact ⟨[.sleep setup.config.greenfieldSequenceUpdateLatency,
        .nextDeliveryOracleSequence setup.config.bscChainId.toUInt16 (.error e)],
        by simp, by simp [Quiet, Event.quiet], rfl, rfl, fun _ => rfl, nofun,
        by rintro - s' w' ⟨⟩, .of_not_retrieved (by simp), fun _ => ⟨rfl, by simp⟩⟩
  · simp only [establishCursor, if_true, getAsm_bind_apply] at hr
    cases hret : w.asm.inturnRelayerSequenceStatus.hasRetrieved
    · simp only [hret, Bool.not_false, if_true, timeNow, ask_bind_apply] at hr
      generalize env.now w.log = t at hr
      split at hr
      · split at hr <;> (simp only [throw_bind_apply, pure_bind, pure_apply] at hr; subst hr)
        · exact ⟨[.now t], by simp, by simp [Quiet, Event.quiet], rfl, rfl, nofun, nofun, nofun,
            .of_not_retrieved hret, fun _ => ⟨rfl, fun _ => rfl⟩⟩
        · exact ⟨[.now t], by simp, by simp [Quiet, Event.quiet], rfl, rfl, nofun, by simp, nofun,
            .of_not_retrieved hret, fun _ => ⟨rfl, fun _ => rfl⟩⟩
      · simp only [pure_bind, getNextDeliveryOracleSequence, getNonce, askE_bind_apply] at hr
        split at hr
        next s _ =>
          split at hr
          next n _ =>
            simp only [modifyAsm_bind_apply, getAsm_bind_apply, pure_apply] at hr
            subst hr
            refine ⟨[.now t, .nextDeliveryOracleSequence setup.config.bscChainId.toUInt16 (.ok s),
              .nonce (.ok n)], by simp, by simp [Quiet, Event.quiet], rfl, rfl, nofun,
              by rintro - s' w' ⟨⟩; rfl, nofun,
              fun _ => .inr (.inl ⟨n, s, ?_, by simp [BSCAssembler.nonceOffset]⟩),
              fun hu => (hu.not_mem (e := .nonce (.ok n)) rfl (by simp)).elim⟩
            exact ⟨[.now t], _, [], rfl, .inl ⟨_, rfl⟩, .nil⟩
          next e _ =>
            subst hr
            exact ⟨[.now t, .nextDeliveryOracleSequence setup.config.bscChainId.toUInt16 (.ok s),
              .nonce (.error e)], by simp, by simp [Quiet, Event.quiet], rfl, rfl, nofun, by simp,
              nofun, .of_not_retrieved hret, fun hu => (hu.not_mem
                (e := .nextDeliveryOracleSequence setup.config.bscChainId.toUInt16 (.ok s)) rfl (by simp)).elim⟩
        next e _ =>
          subst hr
          exact ⟨[.now t, .nextDeliveryOracleSequence setup.config.bscChainId.toUInt16 (.error e)],
            by simp, by simp [Quiet, Event.quiet], rfl, rfl, nofun, by simp, nofun,
            .of_not_retrieved hret, fun _ => ⟨rfl, fun _ => rfl⟩⟩
    · simp only [hret, Bool.not_true, Bool.false_eq_true, if_false, pure_bind, getAsm_bind_apply,
        pure_apply] at hr
      subst hr
      refine ⟨[], by simp, Quiet.nil, rfl, rfl, nofun, ?_, nofun, .refl _, fun _ => ⟨rfl, fun _ => rfl⟩⟩
      rintro - s w' ⟨⟩
      rw [← hret]

theorem decideRole_spec (w : World) :
    ∃ δ, worldOf (decideRole env w) = ⟨w.asm, w.log ++ δ⟩ ∧ Quiet δ ∧ NoCursorRead δ := by
  simp only [decideRole, getInturnRelayer, askE_bind_apply]
  split
  next ir _ =>
    simp only [liftExcept_bind_apply]
    split
    next key _ =>
      exact ⟨[.inturnRelayer (.ok ir), .setInturnRelayerMetrics (w.asm.blsPubKey == key)
        ir.relayInterval.start ir.relayInterval.end'], by simp, by simp [Quiet, Event.quiet],
        by simp [NoCursorRead, Event.cursorRead]⟩
    next e _ => exact ⟨[.inturnRelayer (.ok ir)], by simp, by simp [Quiet, Event.quiet],
      by simp [NoCursorRead, Event.cursorRead]⟩
  next e _ => exact ⟨[.inturnRelayer (.error e)], by simp, by simp [Quiet, Event.quiet],
    by simp [NoCursorRead, Event.cursorRead]⟩

/-- `decideRole` over an in-turn relayer whose key decodes: the role is the comparison of the
keys. -/
theorem decideRole_of_decode {w : World} {ir : QueryInturnRelayerResponse} {key : List UInt8}
    (hir : env.getInturnRelayer w.log = .ok ir) (hkey : decodeString ir.blsPubKey = .ok key) :
    decideRole env w = .ok (w.asm.blsPubKey == key, ir) ⟨w.asm, w.log ++
      [.inturnRelayer (.ok ir), .setInturnRelayerMetrics (w.asm.blsPubKey == key)
        ir.relayInterval.start ir.relayInterval.end']⟩ := by
  simp only [decideRole, getInturnRelayer, askE_bind_apply, hir, liftExcept_bind_apply, hkey,
    Except.mapError, getAsm_bind_apply, emit_bind_apply, pure_apply, List.append_assoc,
    List.singleton_append]

theorem updateMetrics_spec (channelId : UInt8) (s : UInt64) (w : World) :
    ∃ δ, worldOf (updateMetrics env channelId s w) = ⟨w.asm, w.log ++ δ⟩ ∧ Quiet δ ∧
      NoCursorRead δ := by
  simp only [updateMetrics, getNextSendSequence, emit_bind_apply, askE_bind_apply]
  split
  next n _ => exact ⟨[.setNextReceiveSequence channelId s, .nextSendSequence (.ok n),
    .setNextSendSequence channelId n], by simp, by simp [Quiet, Event.quiet],
    by simp [NoCursorRead, Event.cursorRead]⟩
  next e _ => exact ⟨[.setNextReceiveSequence channelId s, .nextSendSequence (.error e)], by simp,
    by simp [Quiet, Event.quiet], by simp [NoCursorRead, Event.cursorRead]⟩

theorem selectEndSequence_spec (isInturn : Bool) (w : World) :
    let r := selectEndSequence env isInturn w
    ∃ ev, worldOf r = ⟨w.asm, w.log ++ [ev]⟩ ∧ ev.quiet ∧ ev.cursorRead = false ∧
      ∀ E w', r = .ok (some E) w' →
      (isInturn = true → ev = .latestOracleSequence .allVoted (.ok E) ∧ E ≠ -1) ∧
      (isInturn = false → ∃ e, ev = .nextSendSequence (.ok e) ∧ E = e.toBitVec) := by
  generalize hr : selectEndSequence env isInturn w = r
  cases isInturn
  · simp only [selectEndSequence, Bool.false_eq_true, if_false, getNextSendSequence,
      askE_bind_apply, pure_apply] at hr
    split at hr
    next e _ => subst hr; exact ⟨_, rfl, rfl, rfl, by rintro E w' ⟨⟩; exact ⟨nofun, fun _ => ⟨e, rfl, rfl⟩⟩⟩
    next e _ => subst hr; exact ⟨_, rfl, rfl, rfl, nofun⟩
  · simp only [selectEndSequence, if_true, getLatestOracleSequenceByStatus, askE_bind_apply] at hr
    split at hr
    next E _ =>
      by_cases h : E = -1
      · simp only [h, if_true, pure_bind, pure_apply] at hr
        subst hr; exact ⟨_, rfl, rfl, rfl, nofun⟩
      · simp only [h, if_false, pure_apply] at hr
        subst hr; exact ⟨_, rfl, rfl, rfl, by rintro E w' ⟨⟩; exact ⟨fun _ => ⟨rfl, h⟩, nofun⟩⟩
    next e _ => subst hr; exact ⟨_, rfl, rfl, rfl, nofun⟩

theorem prepare_spec (channelId : UInt8) (w : World) :
    let r := prepare env setup channelId w
    ∃ δ, (worldOf r).log = w.log ++ δ ∧ Quiet δ ∧
      (worldOf r).asm.alertSet = w.asm.alertSet ∧ (worldOf r).asm.blsPubKey = w.asm.blsPubKey ∧
      (∀ ir w₁, decideRole env w = .ok (false, ir) w₁ → (worldOf r).asm.inturnRelayerSequenceStatus =
        { w.asm.inturnRelayerSequenceStatus with hasRetrieved := false }) ∧
      (∀ win w', r = .ok (some win) w' → (∃ ir w₁, decideRole env w = .ok (win.isInturn, ir) w₁) ∧
        (win.isInturn = true → w'.asm.inturnRelayerSequenceStatus = ⟨true, win.startSeq⟩ ∧
          δ.getLast? = some (.latestOracleSequence .allVoted (.ok win.endSequence)) ∧
          win.endSequence ≠ -1) ∧
        (win.isInturn = false → ∃ e, δ.getLast? = some (.nextSendSequence (.ok e)) ∧
          win.endSequence = e.toBitVec) ∧
        (win.isInturn = false → ∃ n, LastReadTogether n win.startSeq δ ∧ w'.asm.relayerNonce = n)) ∧
      CursorFollows w.asm δ (worldOf r).asm ∧
      (NoCursorRead δ → (worldOf r).asm.relayerNonce = w.asm.relayerNonce ∧
        ((worldOf r).asm.inturnRelayerSequenceStatus.hasRetrieved = true →
          (worldOf r).asm.inturnRelayerSequenceStatus = w.asm.inturnRelayerSequenceStatus)) := by
  generalize hr : prepare env setup channelId w = r
  obtain ⟨δ₁, hw₁, hq₁, hu₁⟩ := decideRole_spec env w
  simp only [prepare] at hr
  rcases hd : decideRole env w with ⟨⟨b, ir⟩, w₁⟩ | ⟨e, w₁⟩
  all_goals simp only [hd, worldOf_ok, worldOf_error] at hw₁; subst hw₁
  swap
  · rw [bind_of_error hd] at hr; subst hr
    exact ⟨δ₁, rfl, hq₁, rfl, rfl, by simp [hd], by simp, .of_unread hu₁ rfl rfl, fun _ => ⟨rfl, fun _ => rfl⟩⟩
  rw [bind_of_ok hd] at hr
  have hc := establishCursor_spec env setup b ir ⟨w.asm, w.log ++ δ₁⟩
  rcases hcur : establishCursor env setup b ir ⟨w.asm, w.log ++ δ₁⟩ with ⟨o, w₂⟩ | ⟨e, w₂⟩
  all_goals simp only [hcur, worldOf_ok, worldOf_error] at hc
  all_goals obtain ⟨δ₂, hl₂, hq₂, ha₂, hb₂, hsb₂, hit₂, hsr₂, hcf₂, hk₂⟩ := hc
  all_goals have hcf := (CursorFollows.of_unread hu₁ rfl rfl).trans hcf₂
  -- without a read, the cursor stays where `establishCursor` left it
  all_goals have hk : ∀ δ', NoCursorRead (δ₁ ++ δ₂ ++ δ') → w₂.asm.relayerNonce = w.asm.relayerNonce ∧
      (w₂.asm.inturnRelayerSequenceStatus.hasRetrieved = true →
        w₂.asm.inturnRelayerSequenceStatus = w.asm.inturnRelayerSequenceStatus) :=
    fun δ' hu => hk₂ fun e he => hu e (by simp [he])
  swap
  · rw [bind_of_error hcur] at hr; subst hr
    exact ⟨δ₁ ++ δ₂, by simp [hl₂], hq₁.append hq₂, ha₂, hb₂,
      fun ir' w' h => hsb₂ (by cases h; rfl), by simp, hcf, fun hu => hk [] (by simpa using hu)⟩
  rw [bind_of_ok hcur] at hr
  rcases o with _ | s
  · simp only [pure_apply] at hr; subst hr
    exact ⟨δ₁ ++ δ₂, by simp [hl₂], hq₁.append hq₂, ha₂, hb₂,
      fun ir' w' h => hsb₂ (by cases h; rfl), by simp, hcf, fun hu => hk [] (by simpa using hu)⟩
  dsimp only at hr
  obtain ⟨δ₃, hw₃, hq₃, hu₃⟩ := updateMetrics_spec env channelId s w₂
  have hcf₃ := hcf.trans (CursorFollows.of_unread hu₃ rfl rfl)
  rcases hm : updateMetrics env channelId s w₂ with ⟨u, w₃⟩ | ⟨e, w₃⟩
  all_goals simp only [hm, worldOf_ok, worldOf_error] at hw₃; subst hw₃
  swap
  · rw [bind_of_error hm] at hr; subst hr
    exact ⟨δ₁ ++ δ₂ ++ δ₃, by simp [hl₂], (hq₁.append hq₂).append hq₃, ha₂, hb₂,
      fun ir' w' h => hsb₂ (by cases h; rfl), by simp, hcf₃, hk δ₃⟩
  rw [bind_of_ok hm] at hr
  obtain ⟨ev, hw₄, hq₄, hu₄, hend⟩ := selectEndSequence_spec env b ⟨w₂.asm, w₂.log ++ δ₃⟩
  have hu₄' : NoCursorRead [ev] := by simpa [NoCursorRead] using hu₄
  have hcf₄ := hcf₃.trans (CursorFollows.of_unread hu₄' rfl rfl)
  have hq : Quiet (δ₁ ++ δ₂ ++ δ₃ ++ [ev]) :=
    ((hq₁.append hq₂).append hq₃).append (by simpa [Quiet] using hq₄)
  rcases hs : selectEndSequence env b ⟨w₂.asm, w₂.log ++ δ₃⟩ with ⟨o, w₄⟩ | ⟨e, w₄⟩
  all_goals simp only [hs, worldOf_ok, worldOf_error] at hw₄; subst hw₄
  swap
  · rw [bind_of_error hs] at hr; subst hr
    exact ⟨_, by simp [hl₂], hq, ha₂, hb₂, fun ir' w' h => hsb₂ (by cases h; rfl), by simp, hcf₄,
      fun hu => hk (δ₃ ++ [ev]) (by simpa using hu)⟩
  rw [bind_of_ok hs] at hr
  rcases o with _ | E
  · simp only [pure_apply] at hr; subst hr
    exact ⟨_, by simp [hl₂], hq, ha₂, hb₂, fun ir' w' h => hsb₂ (by cases h; rfl), by simp, hcf₄,
      fun hu => hk (δ₃ ++ [ev]) (by simpa using hu)⟩
  simp only [pure_apply] at hr; subst hr
  obtain ⟨hin, hsb⟩ := hend E _ hs
  refine ⟨_, by simp [hl₂], hq, ha₂, hb₂, fun ir' w' h => hsb₂ (by cases h; rfl), ?_, hcf₄,
    fun hu => hk (δ₃ ++ [ev]) (by simpa using hu)⟩
  rintro win w' ⟨⟩
  refine ⟨⟨ir, _, rfl⟩, fun h => ?_, fun h => ?_, fun h => ?_⟩
  · obtain ⟨rfl, hE⟩ := hin h
    exact ⟨hit₂ h s w₂ rfl, by simp, hE⟩
  · obtain ⟨e, rfl, rfl⟩ := hsb h
    exact ⟨e, by simp, rfl⟩
  · obtain ⟨n, hl, hn⟩ := hsr₂ h s w₂ rfl
    exact ⟨n, ((hl.append_left δ₁).append_right hu₃).append_right hu₄', hn⟩
theorem reconcileAlerts_spec (startSeq : UInt64) (w : World) :
    ∃ δ a', reconcileAlerts startSeq w = .ok () ⟨a', w.log ++ δ⟩ ∧
      ((δ = [] ∧ a' = w.asm) ∨ (δ = [.setHasTxDelay false] ∧ a' = w.asm.clearAlerts ∧
        w.asm.alertSet ≠ [] ∧ startSeq > maxTxSeqOfAlert w.asm.alertSet)) := by
  simp only [reconcileAlerts, getAsm_bind_apply]
  by_cases hne : w.asm.alertSet ≠ []
  · by_cases hgt : startSeq > maxTxSeqOfAlert w.asm.alertSet
    · refine ⟨[.setHasTxDelay false], w.asm.clearAlerts, ?_, .inr ⟨rfl, rfl, hne, hgt⟩⟩
      simp [hne, hgt]
    · simp only [hne, hgt, if_true, if_false, pure_apply, ne_eq, not_false_eq_true]
      exact ⟨[], _, by simp, .inl ⟨rfl, rfl⟩⟩
  · simp only [hne, if_false, pure_apply]
    exact ⟨[], _, by simp, .inl ⟨rfl, rfl⟩⟩

/-- The fold of `maxTxSeqOfAlert`, from any start, is at least the start and every member. -/
theorem le_foldl_maxTxSeq (l : List UInt64) (m : UInt64) :
    m.toNat ≤ (l.foldl (fun m k => if k > m then k else m) m).toNat ∧
      ∀ k ∈ l, k.toNat ≤ (l.foldl (fun m k => if k > m then k else m) m).toNat := by
  induction l generalizing m with
  | nil => simp
  | cons x l ih =>
    obtain ⟨h₁, h₂⟩ := ih (if x > m then x else m)
    have hm : m.toNat ≤ (if x > m then x else m).toNat ∧ x.toNat ≤ (if x > m then x else m).toNat := by
      split
      · next h => exact ⟨Nat.le_of_lt h, le_refl _⟩
      · next h => exact ⟨le_refl _, Nat.le_of_not_lt h⟩
    refine ⟨hm.1.trans h₁, ?_⟩
    rintro k (_ | ⟨_, hk⟩)
    · exact hm.2.trans h₁
    · exact h₂ k hk

/-- The largest flagged sequence bounds every flagged one. -/
theorem le_maxTxSeqOfAlert {l : List UInt64} {k : UInt64} (hk : k ∈ l) :
    k.toNat ≤ (maxTxSeqOfAlert l).toNat :=
  (le_foldl_maxTxSeq l 0).2 k hk

theorem process_cases (channelId : UInt8) (w : World) :
    let r := process env setup channelId w
    (worldOf r = worldOf (prepare env setup channelId w) ∧
      ∀ win w', prepare env setup channelId w ≠ .ok (some win) w') ∨
    ∃ win w₁ δ a' its, prepare env setup channelId w = .ok (some win) w₁ ∧
      reconcileAlerts win.startSeq w₁ = .ok () ⟨a', w₁.log ++ δ⟩ ∧
      ((δ = [] ∧ a' = w₁.asm) ∨ (δ = [.setHasTxDelay false] ∧ a' = w₁.asm.clearAlerts ∧
        w₁.asm.alertSet ≠ [] ∧ win.startSeq > maxTxSeqOfAlert w₁.asm.alertSet)) ∧
      LoopRun setup.config win.isInturn (UInt64.mk win.endSequence) win.startSeq a' its ∧
      (worldOf r).log = w₁.log ++ δ ++ eventsOf its ∧ (worldOf r).asm = lastAfter a' its ∧
      ∀ pre j post, eventsOf its = pre ++ .packages j (.ok []) :: post → ∃ w', r = .ok () w' := by
  simp only [process]
  rcases hp : prepare env setup channelId w with ⟨_ | win, w₁⟩ | ⟨e, w₁⟩
  · rw [bind_of_ok hp]; exact .inl ⟨rfl, by simp⟩
  · rw [bind_of_ok hp]
    obtain ⟨δ, a', hrec, hδ⟩ := reconcileAlerts_spec win.startSeq w₁
    dsimp only
    rw [bind_of_ok hrec]
    obtain ⟨its, hrun, -, hlog, hasm, hgap⟩ := deliverPackages_spec env setup win.isInturn channelId
      (UInt64.mk win.endSequence) (2 ^ 64) win.startSeq ⟨a', w₁.log ++ δ⟩
    exact .inr ⟨win, w₁, δ, a', its, rfl, hrec, hδ, hrun, hlog, hasm, hgap⟩
  · rw [bind_of_error hp]; exact .inl ⟨rfl, by simp⟩

/-- An event of a pass that is not quiet and sets no delay gauge comes from the loop: it follows
the events of `prepare` and of the reconciliation. -/
theorem process_loop_event (channelId : UInt8) (w : World) {pre post : List Event} {e : Event}
    (hq : e.quiet = false) (hd : e.hasTxDelay? = none)
    (heq : (worldOf (process env setup channelId w)).log = w.log ++ pre ++ e :: post) :
    ∃ win w₁ δ₁ δ₂ a' its pre', prepare env setup channelId w = .ok (some win) w₁ ∧
      w₁.log = w.log ++ δ₁ ∧
      ((δ₂ = [] ∧ a' = w₁.asm) ∨ (δ₂ = [.setHasTxDelay false] ∧ a' = w₁.asm.clearAlerts ∧
        w₁.asm.alertSet ≠ [] ∧ win.startSeq > maxTxSeqOfAlert w₁.asm.alertSet)) ∧
      LoopRun setup.config win.isInturn (UInt64.mk win.endSequence) win.startSeq a' its ∧
      pre = δ₁ ++ δ₂ ++ pre' ∧ eventsOf its = pre' ++ e :: post ∧
      (∀ pre j post, eventsOf its = pre ++ .packages j (.ok []) :: post →
        ∃ w', process env setup channelId w = .ok () w') := by
  obtain ⟨δ₁, hl₁, hq₁, -⟩ := prepare_spec env setup channelId w
  rcases process_cases env setup channelId w with
    ⟨hr, -⟩ | ⟨win, w₁, δ₂, a', its, hp, -, hδ₂, hrun, hlog, -, hgap⟩
  · -- a pass that stops in `prepare` writes only quiet events
    rw [hr, hl₁, List.append_assoc] at heq
    have he := List.append_cancel_left heq ▸ List.mem_append_right pre (List.mem_cons_self e post)
    exact absurd (hq₁ e he) (by simp [hq])
  simp only [hp, worldOf_ok] at hl₁
  rw [hlog, hl₁, List.append_assoc w.log, List.append_assoc w.log, List.append_assoc w.log] at heq
  rcases append_eq_append_cons (List.append_cancel_left heq) with ⟨c, hA, -⟩ | ⟨pre', rfl, hrest⟩
  · have he : e ∈ δ₁ ++ δ₂ := by simp [hA]
    rcases List.mem_append.1 he with he | he
    · exact absurd (hq₁ e he) (by simp [hq])
    · -- the reconciliation writes at most the gauge
      rcases hδ₂ with ⟨rfl, -⟩ | ⟨rfl, -⟩
      · exact absurd he (List.not_mem_nil e)
      · rw [List.mem_singleton.1 he] at hd; cases hd
  exact ⟨win, w₁, δ₁, δ₂, a', its, pre', hp, hl₁, hδ₂, hrun, rfl, hrest, hgap⟩

/-- **A pass keeps the lockstep of the cursor**: where it leaves a retrieved cursor, its offset
is the one the pass began with and the pass read no nonce or sequence, or it is the offset of
the pair the pass read together last, or the pass half-failed a calibration. -/
theorem process_cursorFollows (channelId : UInt8) (w : World) :
    ∃ δ, (worldOf (process env setup channelId w)).log = w.log ++ δ ∧
      CursorFollows w.asm δ (worldOf (process env setup channelId w)).asm := by
  obtain ⟨δ₁, hl₁, -, -, -, hsb₁, hwin, hcf₁, -⟩ := prepare_spec env setup channelId w
  rcases process_cases env setup channelId w with
    ⟨hr, -⟩ | ⟨win, w₁, δ₂, a', its, hp, -, hδ₂, hrun, hlog, hasm, -⟩
  · -- the pass stopped in `prepare`
    rw [hr]; exact ⟨δ₁, hl₁, hcf₁⟩
  simp only [hp, worldOf_ok] at hl₁ hsb₁ hcf₁
  -- the reconciliation reads nothing and leaves the cursor
  have ha' : a'.inturnRelayerSequenceStatus = w₁.asm.inturnRelayerSequenceStatus ∧
      a'.relayerNonce = w₁.asm.relayerNonce := by
    rcases hδ₂ with ⟨-, rfl⟩ | ⟨-, rfl, -, -⟩ <;> simp
  have hu₂ : NoCursorRead δ₂ := by
    rcases hδ₂ with ⟨rfl, -⟩ | ⟨rfl, -⟩ <;> simp [NoCursorRead, Event.cursorRead]
  have hcf₂ : CursorFollows w.asm (δ₁ ++ δ₂) a' := hcf₁.trans
    (.of_unread hu₂ (by rw [ha'.1]) (by simp only [BSCAssembler.nonceOffset, ha'.1, ha'.2]))
  obtain ⟨⟨ir, w₂, hd⟩, hin, -⟩ := hwin win w₁ hp
  have hloop : CursorFollows a' (eventsOf its) (lastAfter a' its) := by
    cases hturn : win.isInturn <;> rw [hturn] at hrun
    · -- stand-by: the retrieval flag is down, and the loop keeps it down
      refine .of_not_retrieved ?_
      rw [hrun.hasRetrieved_lastAfter, ha'.1, hsb₁ ir w₂ (hturn ▸ hd)]
    · -- in turn: the loop starts at the cursor's sequence
      exact hrun.cursorFollows (by rw [ha'.1, (hin hturn).1])
  refine ⟨δ₁ ++ δ₂ ++ eventsOf its, by simp [hlog, hl₁], ?_⟩
  rw [hasm]
  exact hcf₂.trans hloop

end

end GreenfieldRelayer

