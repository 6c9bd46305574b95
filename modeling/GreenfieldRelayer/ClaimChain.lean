import GreenfieldRelayer.Runs

/-!
# GreenfieldRelayer — claims chained across passes

The claims of one pass are consecutive (`process_claim_discipline`), and the cursor keeps its
offset over runs (`cursor_lockstep`). This module follows the claims themselves across passes.
Between two successive claims with no successful read of the nonce or of the next delivery
sequence between them, the second is the first again, or the first moved on by one in sequence
and nonce once the store took the first. So, until the relayer reads the chain again, no
sequence is skipped, and none the store took is claimed again.

The crux is that nothing in the assembler records whether a claim went through. `processPkgs`
moves the in-turn cursor only after the store took the write, the loop moves the nonce only
after `processPkgs` returned, and a calibration whose first read fails leaves both. So the
assembler a pass begins with is tied to the log of the passes before it, and the invariant is
stated between the two.

* **`chainStep`** is a monitor over the log: after a read it expects nothing; after a claim it
  expects that claim again, or the next one once a write went through. **`chainedFrom`** checks
  every claim against it, and **`claimsChained_of_chainedFrom`** reads the check as
  `ClaimsChained`.
* **`IterationSpec.chain`**: one iteration passes the check from a state that expects its own
  claim, and leaves a state that expects the next one, or nothing after a read.
* **`LoopRun.chain`**: so does the loop, and in turn it leaves a state that expects the cursor.
* **`prepare_chainInv`**, then **`process_chainInv`**: `prepare`, and so a whole pass, keeps
  `ChainInv`: its log passes the check, and a retrieved cursor is the claim the log expects next.
* **`claims_chained`**: every run from a new assembler, by induction on the passes.
-/

namespace GreenfieldRelayer

/-! ## The monitor -/

/-- The claim expected after the claim `c`: `c` again, or `c` moved on by one once the store
took it. -/
def expected : (UInt64 × UInt64) × Bool → UInt64 × UInt64
  | (c, false) => c
  | (c, true) => (c.1 + 1, c.2 + 1)

/-- One event of the log, as the monitor sees it: a claim is expected again until a write goes
through, and a read of the nonce or the sequence forgets it. -/
def chainStep (s : Option ((UInt64 × UInt64) × Bool)) (e : Event) :
    Option ((UInt64 × UInt64) × Bool) :=
  match e.claim? with
  | some c => some (c, false)
  | none => if e.cursorRead then none else if e.writeOk then s.map fun p => (p.1, true) else s

/-- The event, if it is a claim, is the one the state expects. -/
def fitsChain (s : Option ((UInt64 × UInt64) × Bool)) (e : Event) : Bool :=
  match e.claim?, s with
  | some c, some p => c == expected p
  | _, _ => true

/-- Every claim of the log is the one the monitor expects, from state `s`. -/
def chainedFrom : Option ((UInt64 × UInt64) × Bool) → List Event → Bool
  | _, [] => true
  | s, e :: es => fitsChain s e && chainedFrom (chainStep s e) es

/-- The state expects the claim `c`, or nothing. -/
def Agrees (s : Option ((UInt64 × UInt64) × Bool)) (c : UInt64 × UInt64) : Prop :=
  ∀ p, s = some p → expected p = c

/-- The claim an in-turn assembler sends next: its cursor's sequence with its nonce. -/
def cursorOf (a : BSCAssembler) : UInt64 × UInt64 :=
  (a.inturnRelayerSequenceStatus.nextDeliverySeq, a.relayerNonce)

@[simp] theorem chainedFrom_nil (s : Option ((UInt64 × UInt64) × Bool)) : chainedFrom s [] = true :=
  rfl

@[simp] theorem chainedFrom_cons (s : Option ((UInt64 × UInt64) × Bool)) (e : Event) (es : List Event) :
    chainedFrom s (e :: es) = (fitsChain s e && chainedFrom (chainStep s e) es) := rfl

theorem chainedFrom_append (s : Option ((UInt64 × UInt64) × Bool)) (l₁ l₂ : List Event) :
    chainedFrom s (l₁ ++ l₂) = (chainedFrom s l₁ && chainedFrom (l₁.foldl chainStep s) l₂) := by
  induction l₁ generalizing s with
  | nil => rfl
  | cons e l ih => simp [ih, Bool.and_assoc]

theorem agrees_none (c : UInt64 × UInt64) : Agrees none c := nofun

theorem expected_eq (c : UInt64 × UInt64) (b : Bool) :
    expected (c, b) = if b then (c.1 + 1, c.2 + 1) else c := by
  cases b <;> rfl

theorem claimsOf_cons_eq_nil {e : Event} {l : List Event} (h : claimsOf (e :: l) = []) :
    e.claim? = none ∧ claimsOf l = [] := by
  cases hc : e.claim? <;> simp_all

/-- A claim is neither a read nor a write. -/
theorem Event.cursorRead_writeOk_of_claim {e : Event} {c : UInt64 × UInt64} (h : e.claim? = some c) :
    e.cursorRead = false ∧ e.writeOk = false := by
  cases e <;> simp_all [Event.claim?, Event.cursorRead, Event.writeOk]

theorem noCursorRead_iff_any {δ : List Event} : NoCursorRead δ ↔ δ.any Event.cursorRead = false := by
  simp [NoCursorRead]

/-! ## Stretches with no claim -/

section

variable {δ : List Event}

/-- Over a stretch with no claim, the monitor forgets its claim at a read and records a write. -/
theorem foldl_chainStep_of_unclaimed (h : claimsOf δ = []) (s : Option ((UInt64 × UInt64) × Bool)) :
    δ.foldl chainStep s = if δ.any Event.cursorRead then none
      else s.map fun p => (p.1, p.2 || δ.any Event.writeOk) := by
  induction δ generalizing s with
  | nil => cases s <;> simp
  | cons e δ ih =>
    obtain ⟨he, hδ⟩ := claimsOf_cons_eq_nil h
    simp only [List.foldl_cons, chainStep, he, ih hδ, List.any_cons]
    cases e.cursorRead <;> cases e.writeOk <;> cases s <;> simp

theorem chainedFrom_of_unclaimed (h : claimsOf δ = []) (s : Option ((UInt64 × UInt64) × Bool)) :
    chainedFrom s δ = true := by
  induction δ generalizing s with
  | nil => rfl
  | cons e δ ih =>
    obtain ⟨he, hδ⟩ := claimsOf_cons_eq_nil h
    simp [fitsChain, he, ih hδ]

/-- A stretch with no claim, no write and no read leaves the monitor as it was. -/
theorem foldl_chainStep_of_idle (h : claimsOf δ = []) (hu : NoCursorRead δ)
    (hw : δ.any Event.writeOk = false) (s : Option ((UInt64 × UInt64) × Bool)) :
    δ.foldl chainStep s = s := by
  rw [foldl_chainStep_of_unclaimed h, noCursorRead_iff_any.1 hu, hw]
  cases s <;> simp

theorem foldl_chainStep_of_quiet (h : Quiet δ) (hu : NoCursorRead δ)
    (s : Option ((UInt64 × UInt64) × Bool)) : δ.foldl chainStep s = s :=
  foldl_chainStep_of_idle h.claimsOf_eq hu
    (List.any_eq_false.2 fun e he => by simp [Event.writeOk_of_quiet (h e he)]) s

/-- A stretch with no claim and a read leaves the monitor expecting nothing. -/
theorem foldl_chainStep_of_read (h : claimsOf δ = []) (hr : ¬ NoCursorRead δ)
    (s : Option ((UInt64 × UInt64) × Bool)) : δ.foldl chainStep s = none := by
  rw [foldl_chainStep_of_unclaimed h, if_pos]
  simpa [noCursorRead_iff_any] using hr

end

/-- Between two successive claims of `log` with no read of the nonce or the sequence between
them, the second is the first again, or the first moved on by one in sequence and nonce once a
write of the store went through between them. -/
def ClaimsChained (log : List Event) : Prop :=
  ∀ A e₁ M e₂ B c₁ c₂, log = A ++ e₁ :: (M ++ e₂ :: B) → e₁.claim? = some c₁ →
    e₂.claim? = some c₂ → claimsOf M = [] → NoCursorRead M →
    c₂ = if M.any Event.writeOk then (c₁.1 + 1, c₁.2 + 1) else c₁

/-- **The monitor's check is `ClaimsChained`.** -/
theorem claimsChained_of_chainedFrom {log : List Event} (h : chainedFrom none log = true) :
    ClaimsChained log := by
  intro A e₁ M e₂ B c₁ c₂ hlog h₁ h₂ hM hu
  subst hlog
  have hfold : M.foldl chainStep (some (c₁, false)) = some (c₁, M.any Event.writeOk) := by
    simp [foldl_chainStep_of_unclaimed hM, noCursorRead_iff_any.1 hu]
  simp only [chainedFrom_append, chainedFrom_cons, chainStep, h₁, hfold, fitsChain, h₂,
    Bool.and_eq_true, beq_iff_eq] at h
  exact h.2.2.2.1.trans (expected_eq _ _)

/-! ## One iteration -/

namespace IterationSpec

variable {cfg : Config} {isInturn : Bool} {a : BSCAssembler} {it : Iteration}

/-- An iteration with no claim writes nothing: a write carries the hash of its claim. -/
theorem any_writeOk_of_unclaimed (h : IterationSpec cfg isInturn a it)
    (hc : claimsOf it.events = []) : it.events.any Event.writeOk = false := by
  refine List.any_eq_false.2 fun e he hw => ?_
  obtain ⟨⟨ids, txHash⟩, hwr⟩ := Option.isSome_iff_exists.1 (Event.write?_isSome_of_writeOk hw)
  obtain ⟨-, -, -, -, msg, opt, resp, hb, -⟩ := h.writes e he ids txHash hwr
  have : (msg.sequence, opt.nonce) ∈ claimsOf it.events :=
    List.mem_filterMap.2 ⟨_, hb, rfl⟩
  simp [hc] at this

/-- **One iteration keeps the chain**: from a state that expects its own claim, or nothing, it
passes the check and leaves a state that expects the next claim if a write went through, its
own claim again if none did, and nothing after a read. -/
theorem chain (h : IterationSpec cfg isInturn a it) {s : Option ((UInt64 × UInt64) × Bool)}
    (hs : Agrees s (it.seq, it.nonce)) :
    chainedFrom s it.events = true ∧
      Agrees (it.events.foldl chainStep s)
        (if it.events.any Event.writeOk then (it.seq + 1, it.nonce + 1) else (it.seq, it.nonce)) ∧
      (it.events.any Event.cursorRead = true → it.events.foldl chainStep s = none) := by
  rcases h.claims with hc | hc
  · -- no claim: at most a read
    have hw := h.any_writeOk_of_unclaimed hc
    rw [foldl_chainStep_of_unclaimed hc, hw]
    refine ⟨chainedFrom_of_unclaimed hc s, ?_, fun hr => by simp [hr]⟩
    split
    · exact agrees_none _
    · simpa using hs
  · -- the claim, with no write and no read before it
    obtain ⟨pre, e, post, hev, hpre, he, hpost⟩ := List.filterMap_eq_cons_iff.1 hc
    replace hpre : claimsOf pre = [] := List.filterMap_eq_nil_iff.2 hpre
    obtain ⟨hu, -⟩ := h.claim_split hev he
    obtain ⟨A, B, hAB, hA, hB⟩ := h.claimFirst
    have hnw : pre.any Event.writeOk = false := by
      rcases append_eq_append_cons (hAB.symm.trans hev) with ⟨c, rfl, -⟩ | ⟨B', -, hB'⟩
      · exact List.any_eq_false.2 fun x hx hw => by
          simp [Event.writeOk_of_write? (hA x (by simp [hx]))] at hw
      · simp [hB', he] at hB
    obtain ⟨hre, hwe⟩ := Event.cursorRead_writeOk_of_claim he
    have hs' : pre.foldl chainStep s = s := foldl_chainStep_of_idle hpre hu hnw s
    have hfit : fitsChain s e = true := by
      cases s with
      | none => simp [fitsChain, he]
      | some p => simp [fitsChain, he, hs p rfl]
    rw [hev, chainedFrom_append, List.foldl_append, hs', chainedFrom_cons, List.foldl_cons,
      foldl_chainStep_of_unclaimed hpost]
    simp only [chainStep, he, List.any_append, List.any_cons, hnw, hwe, hre,
      noCursorRead_iff_any.1 hu, Bool.false_or]
    refine ⟨by simp [chainedFrom_of_unclaimed hpre, hfit, chainedFrom_of_unclaimed hpost], ?_,
      fun hr => by simp [hr]⟩
    split
    · exact agrees_none _
    · rintro p ⟨⟩
      exact expected_eq _ _

/-- **An in-turn iteration at the cursor leaves the monitor expecting the cursor.** -/
theorem chain_after (h : IterationSpec cfg true a it)
    (hseq : a.inturnRelayerSequenceStatus.nextDeliverySeq = it.seq) (hnonce : it.nonce = a.relayerNonce)
    {s : Option ((UInt64 × UInt64) × Bool)} (hs : Agrees s (it.seq, it.nonce)) :
    Agrees (it.events.foldl chainStep s) (cursorOf it.after) := by
  obtain ⟨-, hag, hrd⟩ := h.chain hs
  by_cases hw : ∃ e ∈ it.events, e.writeOk
  · -- the store took the claim: both moved on
    rw [List.any_eq_true.2 hw, if_pos rfl] at hag
    rwa [cursorOf, h.delivered rfl hw, h.advanced hw]
  by_cases hr : it.events.any Event.cursorRead = true
  · rw [hrd hr]; exact agrees_none _
  · -- neither moved
    obtain ⟨hn, hsq⟩ := h.kept hw (noCursorRead_iff_any.2 (by simpa using hr))
    rw [show it.events.any Event.writeOk = false from List.any_eq_false.2 fun e he hwe => hw ⟨e, he, hwe⟩,
      if_neg Bool.false_ne_true] at hag
    rwa [cursorOf, hn, hsq, hseq, ← hnonce]

end IterationSpec

/-! ## The loop -/

namespace LoopRun

variable {cfg : Config} {isInturn : Bool} {endSeq i : UInt64} {a : BSCAssembler} {its : List Iteration}

/-- **The loop keeps the chain**: from a state that expects its first claim, or nothing, the
loop passes the check; in turn, from the cursor, it leaves a state that expects the cursor. -/
theorem chain (h : LoopRun cfg isInturn endSeq i a its) {s : Option ((UInt64 × UInt64) × Bool)}
    (hs : Agrees s (i, a.relayerNonce)) :
    chainedFrom s (eventsOf its) = true ∧
      (isInturn = true → a.inturnRelayerSequenceStatus.nextDeliverySeq = i →
        Agrees ((eventsOf its).foldl chainStep s) (cursorOf (lastAfter a its))) := by
  induction h generalizing s with
  | nil => exact ⟨rfl, fun _ hi => by simpa [cursorOf, hi] using hs⟩
  | last it hseq hnonce _ hspec =>
    have hs' : Agrees s (it.seq, it.nonce) := by rwa [hseq, hnonce]
    refine ⟨by simpa using (hspec.chain hs').1, fun hin hi => ?_⟩
    subst hin
    simpa using hspec.chain_after (hi.trans hseq.symm) hnonce hs'
  | @next i _ it _ hseq hnonce _ hspec hdone _ ih =>
    have hs' : Agrees s (it.seq, it.nonce) := by rwa [hseq, hnonce]
    obtain ⟨hc, hag, -⟩ := hspec.chain hs'
    rw [List.any_eq_true.2 hdone.written, if_pos rfl, hseq, ← hdone.nonce] at hag
    obtain ⟨hc', hend⟩ := ih hag
    refine ⟨by simp [chainedFrom_append, hc, hc'], fun hin _ => ?_⟩
    subst hin
    simpa using hend rfl ((hspec.delivered rfl hdone.written).trans (by rw [hseq]))

end LoopRun

/-! ## Passes and runs -/

/-- A world whose log passes the check, and whose retrieved cursor is the claim its log
expects next. -/
def ChainInv (w : World) : Prop :=
  chainedFrom none w.log = true ∧ (w.asm.inturnRelayerSequenceStatus.hasRetrieved = true →
    Agrees (w.log.foldl chainStep none) (cursorOf w.asm))

section

variable (env : Env) (setup : Setup)

/-- **`prepare` keeps `ChainInv`.** It claims nothing, and either reads the nonce or the
sequence, after which the monitor expects nothing, or keeps the nonce and a retrieved cursor. -/
theorem prepare_chainInv (channelId : UInt8) (w : World) (hw : ChainInv w) :
    ChainInv (worldOf (prepare env setup channelId w)) := by
  obtain ⟨δ, hl, hq, -, -, -, -, -, hk⟩ := prepare_spec env setup channelId w
  rw [ChainInv, hl, chainedFrom_append, hw.1, chainedFrom_of_unclaimed hq.claimsOf_eq,
    List.foldl_append]
  refine ⟨rfl, fun hret => ?_⟩
  by_cases hu : NoCursorRead δ
  · obtain ⟨hn, hst⟩ := hk hu
    rw [foldl_chainStep_of_quiet hq hu, cursorOf, hn, hst hret]
    exact hw.2 (hst hret ▸ hret)
  · rw [foldl_chainStep_of_read hq.claimsOf_eq hu]
    exact agrees_none _

/-- **A pass keeps `ChainInv`.** After `prepare`, the reconciliation writes at most the gauge;
the loop begins in turn at the cursor, and in stand-by after a read. -/
theorem process_chainInv (channelId : UInt8) (w : World) (hw : ChainInv w) :
    ChainInv (worldOf (process env setup channelId w)) := by
  have hw₁ := prepare_chainInv env setup channelId w hw
  obtain ⟨δ₁, hl₁, hq₁, -, -, hsb, hwin, -, -⟩ := prepare_spec env setup channelId w
  rcases process_cases env setup channelId w with
    ⟨hr, -⟩ | ⟨win, w₁, δ₂, a', its, hp, -, hδ₂, hrun, hlog, hasm, -⟩
  · rwa [hr]
  simp only [hp, worldOf_ok] at hl₁ hw₁ hsb
  obtain ⟨⟨ir, w₀, hd⟩, hin, -, hsr⟩ := hwin win w₁ hp
  -- the reconciliation writes at most the gauge, and keeps the cursor
  obtain ⟨hf₂, hc₂, hn₂, hst₂⟩ : (∀ s, δ₂.foldl chainStep s = s) ∧ claimsOf δ₂ = [] ∧
      a'.relayerNonce = w₁.asm.relayerNonce ∧
      a'.inturnRelayerSequenceStatus = w₁.asm.inturnRelayerSequenceStatus := by
    rcases hδ₂ with ⟨rfl, rfl⟩ | ⟨rfl, rfl, -⟩
    · exact ⟨fun _ => rfl, rfl, rfl, rfl⟩
    · exact ⟨fun _ => rfl, rfl, by simp, by simp⟩
  have hstart : Agrees ((w₁.log ++ δ₂).foldl chainStep none) (win.startSeq, a'.relayerNonce) := by
    rw [List.foldl_append, hf₂]
    cases hturn : win.isInturn
    · obtain ⟨n, hl, -⟩ := hsr hturn
      rw [hl₁, List.foldl_append, foldl_chainStep_of_read hq₁.claimsOf_eq hl.not_noCursorRead]
      exact agrees_none _
    · obtain ⟨hst, -⟩ := hin hturn
      simpa [cursorOf, hst, hn₂] using hw₁.2 (by simp [hst])
  obtain ⟨hcl, hend⟩ := hrun.chain hstart
  refine ⟨?_, fun hret => ?_⟩
  · rw [hlog, chainedFrom_append, chainedFrom_append, hcl, chainedFrom_of_unclaimed hc₂, hw₁.1]
    rfl
  rw [hasm] at hret ⊢
  rw [hrun.hasRetrieved_lastAfter, hst₂] at hret
  cases hturn : win.isInturn
  · -- a stand-by pass clears the flag
    rw [hsb ir w₀ (hturn ▸ hd)] at hret
    exact absurd hret Bool.false_ne_true
  · obtain ⟨hst, -⟩ := hin hturn
    rw [hlog, List.foldl_append]
    exact hend hturn (by rw [hst₂, hst])

/-- Every run from a new assembler keeps `ChainInv`. -/
theorem chainInv_runPasses (key : List UInt8) (n : Nat) :
    ChainInv (runPasses env setup n (freshWorld key)) := by
  induction n with
  | zero => exact ⟨rfl, nofun⟩
  | succ n ih => exact process_chainInv env setup _ _ ih

/-- **Claims are chained over every run.** Over any run of passes from a new assembler, in
either role and with any answers, between two successive claims with no successful read of the
nonce or the next delivery sequence between them, the second is the first moved on by one in
sequence and nonce if the store took the first, and the first again otherwise. -/
theorem claims_chained (key : List UInt8) (n : Nat) :
    ClaimsChained (runPasses env setup n (freshWorld key)).log :=
  claimsChained_of_chainedFrom (chainInv_runPasses env setup key n).1

end

/-- Where the calibration fails at its first read, nothing is read before the next pass, which
sends the rejected claim again with the same nonce. -/
example : claimsOf (runPasses { halfCalibratedScene.env with getNonceOnNextBlock := fun _ => .error (.call "rpc") }
    halfCalibratedScene.setup 2 (freshWorld [10])).log = [(5, 10), (5, 10)] := by
  rfl

end GreenfieldRelayer
