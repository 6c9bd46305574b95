import GreenfieldRelayer.Runs

/-!
# GreenfieldRelayer — why a sequence is in the alert set

Lines 162-166 raise the delay gauge and add `i` to the alert set when the first package read at
`i` is older than the alert threshold, and lines 139-150 clear both once the window has moved
past every alert. `delay_alert_consistency` keeps the gauge in step with the set; this module
says which sequences are in it. Over every run, the set is exactly the sequences found delayed
since the gauge was last cleared: a raised gauge is never a false alarm, and no delay found is
missed.

* **`FoundSinceClear`**: after the last `SetHasTxDelay(false)` of the log, the packages of `x`
  were read and the first found older than the threshold (`FoundDelayed`);
* **`IterationSpec.flagged`** and **`LoopRun.flagged`**: an alert an iteration, or the loop,
  adds was found delayed by its own read, and the loop never clears the gauge
  (`LoopRun.no_clear`); **`process_alertsFound`**: a pass keeps `AlertsFound`;
* **`IterationSpec.found`** and **`LoopRun.found`**: conversely, each delay a read found is
  flagged, since the age of the first package is measured right after the read
  (`IterationSpec.measured`), so that a log never ends on an unmeasured read
  (`NoPendingRead`); **`process_alertsComplete`**: a pass keeps `AlertsComplete`;
* **`alertsExact_runPasses`**: every run from a fresh assembler keeps both, by induction on
  the passes; **`alertSet_iff_found`** and **`delay_alarm_justified`** follow, with the gauge
  in step with the set (`gauge_iff_runPasses`).
-/

namespace GreenfieldRelayer

/-- Since the gauge was last cleared, `x` was found delayed: the log splits where no
`SetHasTxDelay(false)` follows, and after the split the packages of `x` were read and the first
was found older than `threshold`. -/
def FoundSinceClear (threshold : Nat) (log : List Event) (x : UInt64) : Prop :=
  ∃ pre post, log = pre ++ post ∧ (∀ e ∈ post, e.hasTxDelay? ≠ some false) ∧
    FoundDelayed threshold post x

/-- Every member of the alert set was found delayed since the gauge was last cleared. -/
def AlertsFound (threshold : Nat) (w : World) : Prop :=
  ∀ x ∈ w.asm.alertSet, FoundSinceClear threshold w.log x

/-- A read that found packages: lines 162-166 measure the age of the first right after it. -/
def Event.pending : Event → Bool
  | .packages _ (.ok (_ :: _)) => true
  | _ => false

/-- The log does not end on a read that found packages. -/
def NoPendingRead (log : List Event) : Prop := ∀ e ∈ log.getLast?, e.pending = false

/-- Every sequence found delayed since the gauge was last cleared is in the alert set, and the
log does not end on a read whose age is still to be measured. -/
def AlertsComplete (threshold : Nat) (w : World) : Prop :=
  NoPendingRead w.log ∧ ∀ x, FoundSinceClear threshold w.log x → x ∈ w.asm.alertSet

section

variable {t : Nat} {l δ : List Event} {x : UInt64}

theorem FoundSinceClear.append (h : FoundSinceClear t l x)
    (hδ : ∀ e ∈ δ, e.hasTxDelay? ≠ some false) : FoundSinceClear t (l ++ δ) x :=
  let ⟨pre, post, hl, hpost, hf⟩ := h
  ⟨pre, post ++ δ, by simp [hl], fun e he => (List.mem_append.1 he).elim (hpost e) (hδ e),
    hf.mono (List.prefix_append _ _).isInfix⟩

theorem FoundSinceClear.of_found (h : FoundDelayed t δ x)
    (hδ : ∀ e ∈ δ, e.hasTxDelay? ≠ some false) (l : List Event) : FoundSinceClear t (l ++ δ) x :=
  ⟨l, δ, rfl, hδ, h⟩

theorem Event.pending_of_read? {e : Event} (h : e.read? = none) : e.pending = false := by
  cases e <;> first | rfl | cases h

namespace NoPendingRead

theorem nil : NoPendingRead [] := fun _ h => nomatch h

theorem append (hl : NoPendingRead l) (hδ : NoPendingRead δ) : NoPendingRead (l ++ δ) := by
  intro e he
  rw [List.getLast?_append] at he
  cases h : δ.getLast? with
  | none => rw [h, Option.none_or] at he; exact hl e he
  | some y => rw [h] at he; exact hδ e (h ▸ he)

theorem of_unread (hδ : ∀ e ∈ δ, e.read? = none) : NoPendingRead δ :=
  fun e he => Event.pending_of_read? (hδ e (List.mem_of_mem_getLast? he))

theorem right (h : NoPendingRead (l ++ δ)) : NoPendingRead δ :=
  fun e he => h e (by simp [List.getLast?_append, Option.mem_def.1 he])

end NoPendingRead

/-- A pair in `l ++ δ` lies in `l`, in `δ`, or across the join. -/
theorem pair_infix_append {α : Type} {a b : α} {l δ : List α} (h : [a, b] <:+: l ++ δ) :
    [a, b] <:+: l ∨ [a, b] <:+: δ ∨ l.getLast? = some a := by
  obtain ⟨s, t, hst⟩ := h
  have h' : l ++ δ = s ++ a :: b :: t := by simpa using hst.symm
  rcases append_eq_append_cons h' with ⟨_ | ⟨b', c⟩, hl, hc⟩ | ⟨a', -, hδ⟩
  · exact .inr (.inr (by simp [hl]))
  · obtain ⟨rfl, rfl⟩ := List.cons.inj hc
    exact .inl ⟨s, c, by simp [hl]⟩
  · exact .inr (.inl ⟨a', t, by simp [hδ]⟩)

theorem FoundDelayed.of_unread (hδ : ∀ e ∈ δ, e.read? = none) : ¬ FoundDelayed t δ x :=
  fun ⟨_, _, _, hi, _⟩ => by simpa [Event.read?] using hδ _ (hi.subset (List.mem_cons_self _ _))

theorem FoundDelayed.not_nil : ¬ FoundDelayed t [] x :=
  FoundDelayed.of_unread fun _ h => absurd h (List.not_mem_nil _)

/-- A delay found in `l ++ δ` was found in `l` or in `δ`, when `l` ends on no pending read. -/
theorem FoundDelayed.of_append (hl : NoPendingRead l) (h : FoundDelayed t (l ++ δ) x) :
    FoundDelayed t l x ∨ FoundDelayed t δ x := by
  obtain ⟨pkg, pkgs, d, hi, hd⟩ := h
  rcases pair_infix_append hi with hi | hi | hlast
  · exact .inl ⟨pkg, pkgs, d, hi, hd⟩
  · exact .inr ⟨pkg, pkgs, d, hi, hd⟩
  · exact absurd (hl _ hlast) (by simp [Event.pending])

theorem FoundSinceClear.of_append (hl : NoPendingRead l) (h : FoundSinceClear t (l ++ δ) x) :
    FoundSinceClear t l x ∨ FoundDelayed t δ x := by
  obtain ⟨pre, post, heq, hpost, hf⟩ := h
  rcases List.append_eq_append_iff.1 heq with ⟨a', -, hδ⟩ | ⟨c', hl', rfl⟩
  · exact .inr (hf.mono (hδ ▸ (List.suffix_append _ _).isInfix))
  · rw [hl'] at hl
    exact (FoundDelayed.of_append hl.right hf).imp_left fun hf =>
      ⟨pre, c', hl', fun e he => hpost e (List.mem_append_left _ he), hf⟩

theorem FoundSinceClear.of_append_unread (hl : NoPendingRead l) (hδ : ∀ e ∈ δ, e.read? = none)
    (h : FoundSinceClear t (l ++ δ) x) : FoundSinceClear t l x :=
  (h.of_append hl).resolve_right (FoundDelayed.of_unread hδ)

/-- Nothing was found since a clear that ends the log. -/
theorem FoundSinceClear.not_of_clear : ¬ FoundSinceClear t (l ++ [.setHasTxDelay false]) x := by
  rintro ⟨pre, post, heq, hpost, hf⟩
  rcases post.eq_nil_or_concat with rfl | ⟨L, b, rfl⟩
  · exact FoundDelayed.not_nil hf
  · rw [List.concat_eq_append, ← List.append_assoc] at heq
    obtain ⟨-, hb⟩ := List.append_inj' heq rfl
    obtain rfl := List.singleton_inj.1 hb
    exact hpost (.setHasTxDelay false) (by simp) rfl

end

namespace IterationSpec

variable {cfg : Config} {isInturn : Bool} {a : BSCAssembler} {it : Iteration}

/-- An iteration does not end on its read when that read found packages. -/
theorem noPending (h : IterationSpec cfg isInturn a it) : NoPendingRead it.events := by
  obtain ⟨r, rest, hev, hrest⟩ := h.read
  rw [hev]
  rcases rest with _ | ⟨e, rest⟩
  · -- the read ends the iteration, so it found no package
    rintro _ ⟨⟩
    rcases r with _ | _ | ⟨pkg, pkgs⟩
    · rfl
    · rfl
    · obtain ⟨d, rest', h', -⟩ := h.measured pkg pkgs [] hev
      cases h'
  · intro e' he'
    exact NoPendingRead.of_unread hrest e' (by simpa using he')

/-- A delay the iteration's read found is flagged by the iteration. -/
theorem found (h : IterationSpec cfg isInturn a it) {x : UInt64}
    (hx : FoundDelayed cfg.txDelayAlertThreshHold it.events x) : x ∈ it.after.alertSet := by
  obtain ⟨pkg, pkgs, d, ⟨s, t, hst⟩, hd⟩ := hx
  obtain ⟨r, rest, hev, hrest⟩ := h.read
  rw [hev] at hst
  rcases s with _ | ⟨y, s⟩
  · -- the pair is the read that opens the iteration and the age measured after it
    simp only [List.nil_append, List.cons_append, List.singleton_append, List.cons.injEq,
      Event.packages.injEq] at hst
    obtain ⟨⟨rfl, rfl⟩, rfl⟩ := hst
    obtain ⟨d', rest', h', hd'⟩ := h.measured pkg pkgs _ hev
    cases h'
    exact hd' hd
  · -- a second read inside the iteration
    simp only [List.cons_append, List.append_assoc, List.cons.injEq] at hst
    have := hrest (.packages x (.ok (pkg :: pkgs))) (by rw [← hst.2]; simp)
    simp [Event.read?] at this

end IterationSpec

namespace LoopRun

variable {cfg : Config} {isInturn : Bool} {endSeq i : UInt64} {a : BSCAssembler}
  {its : List Iteration}

theorem noPending (h : LoopRun cfg isInturn endSeq i a its) : NoPendingRead (eventsOf its) := by
  induction h with
  | nil => exact .nil
  | last it _ _ _ hspec => simpa using hspec.noPending
  | next it _ _ _ hspec _ _ ih => exact hspec.noPending.append ih

/-- Every delay the loop's reads found is flagged when the loop ends. -/
theorem found (h : LoopRun cfg isInturn endSeq i a its) {x : UInt64}
    (hx : FoundDelayed cfg.txDelayAlertThreshHold (eventsOf its) x) :
    x ∈ (lastAfter a its).alertSet := by
  induction h with
  | nil => exact absurd hx FoundDelayed.not_nil
  | last it _ _ _ hspec => simpa using hspec.found (by simpa using hx)
  | next it _ _ _ hspec _ hrest ih =>
    rw [eventsOf_cons] at hx
    rcases FoundDelayed.of_append hspec.noPending hx with hx | hx
    · exact hrest.mem_alertSet (hspec.found hx)
    · exact ih hx

end LoopRun

section

variable (env : Env) (setup : Setup)

/-- **A pass keeps `AlertsFound`.** `prepare` touches neither the set nor the gauge, the
reconciliation keeps the set or clears it, and the loop adds only alerts its reads found and
never clears the gauge. -/
theorem process_alertsFound (channelId : UInt8) (w : World)
    (hw : AlertsFound setup.config.txDelayAlertThreshHold w) :
    AlertsFound setup.config.txDelayAlertThreshHold (worldOf (process env setup channelId w)) := by
  obtain ⟨δ₁, hl₁, hq₁, ha₁, -⟩ := prepare_spec env setup channelId w
  have hq₁' : ∀ e ∈ δ₁, e.hasTxDelay? ≠ some false := fun e he => by
    simp [Event.hasTxDelay?_of_quiet (hq₁ e he)]
  intro x hx
  rcases process_cases env setup channelId w with
    ⟨hr, -⟩ | ⟨win, w₁, δ₂, a', its, hp, -, hδ₂, hrun, hlog, hasm, -⟩
  · rw [hr, ha₁] at hx
    rw [hr, hl₁]
    exact (hw x hx).append hq₁'
  simp only [hp, worldOf_ok] at hl₁ ha₁
  rw [hasm] at hx
  rw [hlog]
  rcases hrun.flagged hx with hx | hf
  · -- an alert from before the pass, which the reconciliation did not clear
    rcases hδ₂ with ⟨rfl, rfl⟩ | ⟨-, rfl, -⟩
    · rw [List.append_nil, hl₁]
      exact ((hw x (ha₁ ▸ hx)).append hq₁').append hrun.no_clear
    · simp at hx
  · exact .of_found hf hrun.no_clear _

end

/-- A stand-by pass that finds the package at `5` older than the threshold raises the gauge and
alerts for `5`. -/
example :
    let w := (runPasses { edgeScene.env with since := fun _ _ => 400000000000 } edgeScene.setup 1
      (freshWorld [10]))
    lastHasTxDelay w.log = true ∧ w.asm.alertSet = [5] := by
  decide

section

variable (env : Env) (setup : Setup)

/-- **A pass keeps `AlertsComplete`.** `prepare` reads no package, the reconciliation keeps
the set or clears it with the gauge, and the loop flags every delay its reads find and ends on
no pending read. -/
theorem process_alertsComplete (channelId : UInt8) (w : World)
    (hw : AlertsComplete setup.config.txDelayAlertThreshHold w) :
    AlertsComplete setup.config.txDelayAlertThreshHold (worldOf (process env setup channelId w)) := by
  obtain ⟨δ₁, hl₁, hq₁, ha₁, -⟩ := prepare_spec env setup channelId w
  have hr₁ : ∀ e ∈ δ₁, e.read? = none := fun e he => Event.read?_of_quiet (hq₁ e he)
  have hprep : AlertsComplete setup.config.txDelayAlertThreshHold
      (worldOf (prepare env setup channelId w)) := by
    rw [AlertsComplete, hl₁, ha₁]
    exact ⟨hw.1.append (.of_unread hr₁), fun x hx => hw.2 x (hx.of_append_unread hw.1 hr₁)⟩
  rcases process_cases env setup channelId w with
    ⟨hr, -⟩ | ⟨win, w₁, δ₂, a', its, hp, -, hδ₂, hrun, hlog, hasm, -⟩
  · rwa [hr]
  simp only [hp, worldOf_ok] at hprep
  have hpend : NoPendingRead (w₁.log ++ δ₂) := hprep.1.append (.of_unread (by
    rcases hδ₂ with ⟨rfl, -⟩ | ⟨rfl, -⟩ <;> simp [Event.read?]))
  rw [AlertsComplete, hlog, hasm]
  refine ⟨hpend.append hrun.noPending, fun x hx => ?_⟩
  rcases hx.of_append hpend with hx | hx
  · -- found before the loop: the reconciliation kept the set
    rcases hδ₂ with ⟨rfl, rfl⟩ | ⟨rfl, -⟩
    · rw [List.append_nil] at hx
      exact hrun.mem_alertSet (hprep.2 x hx)
    · exact absurd hx FoundSinceClear.not_of_clear
  · exact hrun.found hx

/-- The run lemma: every run from a fresh assembler keeps `AlertsFound` and `AlertsComplete`,
so the alert set is exactly the sequences found delayed since the last clear. -/
theorem alertsExact_runPasses (key : List UInt8) (n : Nat) :
    AlertsFound setup.config.txDelayAlertThreshHold (runPasses env setup n (freshWorld key)) ∧
      AlertsComplete setup.config.txDelayAlertThreshHold (runPasses env setup n (freshWorld key)) := by
  induction n with
  | zero =>
    refine ⟨by simp [AlertsFound, runPasses, freshWorld, newBSCAssembler], .nil,
      fun x ⟨pre, post, h, _, hf⟩ => ?_⟩
    obtain ⟨-, rfl⟩ := List.append_eq_nil.1 h.symm
    exact (FoundDelayed.not_nil hf).elim
  | succ n ih =>
    exact ⟨process_alertsFound env setup _ _ ih.1, process_alertsComplete env setup _ _ ih.2⟩

/-- **The alert set is exactly what was found delayed.** Over any run of passes from a fresh
assembler, in either role and with any answers and clock readings, a sequence is in the alert
set exactly when, since the gauge was last cleared, its packages were read and the first was
found older than the threshold; and the last value written to the gauge is `true` exactly when
some sequence was. The set and the gauge are functions of the log: no alarm is false, and no
delay found is missed. -/
theorem alertSet_iff_found (key : List UInt8) (n : Nat) :
    (∀ x, x ∈ (runPasses env setup n (freshWorld key)).asm.alertSet ↔
      FoundSinceClear setup.config.txDelayAlertThreshHold (runPasses env setup n (freshWorld key)).log x) ∧
    (lastHasTxDelay (runPasses env setup n (freshWorld key)).log = true ↔
      ∃ x, FoundSinceClear setup.config.txDelayAlertThreshHold
        (runPasses env setup n (freshWorld key)).log x) := by
  obtain ⟨hf, -, hc⟩ := alertsExact_runPasses env setup key n
  refine ⟨fun x => ⟨hf x, hc x⟩, (gauge_iff_runPasses env setup key n).trans
    ⟨fun h => ?_, fun ⟨x, hx⟩ => List.ne_nil_of_mem (hc x hx)⟩⟩
  obtain ⟨x, hx⟩ := List.exists_mem_of_ne_nil _ h
  exact ⟨x, hf x hx⟩

/-- **The delay gauge raises no false alarm.** Over any run of passes from a fresh assembler, in
either role and with any answers and clock readings, every member of the alert set was found
delayed since the gauge was last cleared: after the last `SetHasTxDelay(false)`, its packages
were read and the first was older than the threshold. So when the last value written to the
gauge is `true`, some sequence of the set was found delayed since the last clear. -/
theorem delay_alarm_justified (key : List UInt8) (n : Nat) :
    AlertsFound setup.config.txDelayAlertThreshHold (runPasses env setup n (freshWorld key)) ∧
      (lastHasTxDelay (runPasses env setup n (freshWorld key)).log = true →
        ∃ x ∈ (runPasses env setup n (freshWorld key)).asm.alertSet,
          FoundSinceClear setup.config.txDelayAlertThreshHold
            (runPasses env setup n (freshWorld key)).log x) := by
  obtain ⟨hf, -⟩ := alertsExact_runPasses env setup key n
  refine ⟨hf, fun hg => ?_⟩
  obtain ⟨x, hx⟩ := List.exists_mem_of_ne_nil _ ((gauge_iff_runPasses env setup key n).1 hg)
  exact ⟨x, hx, hf x hx⟩

end

end GreenfieldRelayer
