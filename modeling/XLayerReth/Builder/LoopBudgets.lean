import XLayerReth.Builder.Runs

/-!
# The budgets of the transaction loop

`run_tx_loop` checks the limits of the block before a candidate is executed and commits at the very
end, so a candidate that is turned away on the way leaves no trace but, perhaps, the flag that the
gasless budget is spent.

* `Passes`, `considerTx_spec` — a candidate is appended exactly if it passes every check of the
  loop.
* `LoopRun`, `runTxLoop_loopRun` — a round takes its candidates so, one after the other.
* `TransactionLimits.Hold` — gas, DA bytes and DA footprint are within the limits of a round.
* `PathRelation` — a relation kept by everything that a turn adds holds along a whole block.
* `Exec.KeepsBudget` — such a relation: what happens to the gasless budget of the block.

The counters have 64 bits and the checks saturate, so that a limit of `2 ^ 64 - 1` is no limit.
-/

set_option autoImplicit false

namespace XLayerReth.Builder

open RcsFilter

/-! ## Limits of 64 bits -/

/-- A 64-bit counter is within its limit; the greatest limit bounds nothing. -/
def Within (value limit : Nat) : Prop := limit < 2 ^ 64 - 1 → value ≤ limit

theorem Within.of_saturatingAdd {a b c limit : Nat} (h : saturatingAdd a b ≤ limit) (hc : c ≤ b) :
    Within (a + c) limit := by
  intro hlimit
  unfold saturatingAdd at h
  omega

theorem saturatingAdd_mono {a a' : Nat} (h : a ≤ a') (b : Nat) :
    saturatingAdd a b ≤ saturatingAdd a' b := by
  unfold saturatingAdd
  omega

theorem saturatingMul_mono {a a' : Nat} (h : a ≤ a') (b : Nat) :
    saturatingMul a b ≤ saturatingMul a' b := by
  unfold saturatingMul
  have := Nat.mul_le_mul_right b h
  omega

/-- Also when the sum saturates: then only a factor of zero is within the limit. -/
theorem Within.of_saturatingMul {a b scalar limit : Nat}
    (h : saturatingMul (saturatingAdd a b) scalar ≤ limit) : Within ((a + b) * scalar) limit := by
  intro hlimit
  unfold saturatingMul saturatingAdd at h
  by_cases hsum : a + b ≤ 2 ^ 64 - 1
  · rw [Nat.min_eq_left hsum] at h
    omega
  · rw [Nat.min_eq_right (by omega : 2 ^ 64 - 1 ≤ a + b)] at h
    rcases Nat.eq_zero_or_pos scalar with hzero | hpos
    · simp [hzero]
    · have hle : 2 ^ 64 - 1 ≤ (2 ^ 64 - 1) * scalar := Nat.le_mul_of_pos_right _ hpos
      omega

/-- The accounting of a block is within the limits of a round.  Without a limit of its own the DA
    footprint has that of the gas. -/
structure TransactionLimits.Hold (limits : TransactionLimits) (info : ExecutionInfo) : Prop where
  gas : Within info.cumulativeGasUsed limits.blockGas
  da : ∀ limit ∈ limits.blockDa, Within info.cumulativeDaBytesUsed limit
  daFootprint : ∀ scalar ∈ info.daFootprintScalar,
    Within (info.cumulativeDaBytesUsed * scalar) (limits.blockDaFootprint.getD limits.blockGas)

theorem any_exceeded {α : Type} {o : Option α} {f g : α → Nat} :
    o.any (fun x => decide (f x > g x)) = true ↔ ¬ ∀ x ∈ o, f x ≤ g x := by
  cases o <;> simp

/-- What `is_tx_over_limits` lets through. -/
theorem isTxOverLimits_eq_ok {info : ExecutionInfo} {txDaSize blockGasLimit txGasLimit : Nat}
    {txDataLimit blockDataLimit daFootprintGasScalar blockDaFootprintLimit : Option Nat} :
    info.isTxOverLimits txDaSize blockGasLimit txDataLimit blockDataLimit txGasLimit
        daFootprintGasScalar blockDaFootprintLimit = .ok () ↔
      (∀ limit ∈ txDataLimit, txDaSize ≤ limit) ∧
      (∀ limit ∈ blockDataLimit, saturatingAdd info.cumulativeDaBytesUsed txDaSize ≤ limit) ∧
      (∀ scalar ∈ daFootprintGasScalar,
        saturatingMul (saturatingAdd info.cumulativeDaBytesUsed txDaSize) scalar ≤
          blockDaFootprintLimit.getD blockGasLimit) ∧
      saturatingAdd info.cumulativeGasUsed txGasLimit ≤ blockGasLimit := by
  unfold ExecutionInfo.isTxOverLimits
  simp only [Option.any_map, any_exceeded]
  constructor
  · intro h
    split_ifs at h with hdata hda hfootprint hgas
    exact ⟨hdata, hda, hfootprint, by omega⟩
  · rintro ⟨hdata, hda, hfootprint, hgas⟩
    rw [if_neg (not_not.mpr hdata), if_neg (not_not.mpr hda), if_neg (not_not.mpr hfootprint),
      if_neg (by omega)]

section

variable {Db Changes Env : Type} {P : Platform Db Changes Env} {ctx : BuilderCtx Env}

variable (P ctx) in
/-- The EVM charges a transaction at most its gas limit. -/
def GasBounded (tx : Tx) : Prop :=
  ∀ db gasless result changes, P.transact ctx.evmEnv db tx gasless = .ok (result, changes) →
    result.gasUsed ≤ tx.gasLimit

/-! ## One candidate -/

/-- The gasless budget is spent. -/
def Exec.exhaustGasless (x : Exec Db Changes) : Exec Db Changes :=
  { x with info := { x.info with gaslessBudgetExhausted := true } }

/-- What a candidate that was not accepted leaves behind. -/
def LeftAlone (x x' : Exec Db Changes) : Prop := x' = x ∨ x' = x.exhaustGasless

/-- What a candidate that was executed has to meet to be committed: the gas cap, the gasless budget,
    the bridge, and the verdict of the filter on what was captured. -/
structure MayCommit (ctx : BuilderCtx Env) (info : ExecutionInfo) (v : Verdicts) (gasless : Bool)
    (result : ExecutionResult) (capture : CaptureOutcome) : Prop where
  gasCap : ∀ limit ∈ ctx.maxGasPerTxn, result.gasUsed ≤ limit
  budget : gasless = true → ∀ limit ∈ ctx.gaslessBlockGasLimit,
    saturatingAdd info.cumulativeGaslessGasUsed result.gasUsed ≤ limit
  notIntercepted : interceptBridgeTransactionIfNeed result.logs ctx.bridgeInterceptConfig = false
  screened : ctx.filter.isSome = true →
    screenDecision v capture = .allow ∨ screenDecision v capture = .auditApproved

variable (P ctx) in
/-- A candidate passes every check of `run_tx_loop`, with the answer that the EVM gives to it. -/
structure Passes (limits : TransactionLimits) (s : LoopState Db Changes) (cv : Candidate × Verdicts)
    (gasless : Bool) (result : ExecutionResult) (changes : Changes) (capture : CaptureOutcome) :
    Prop where
  conditional : cv.1.conditionalMatches = true
  interop : ctx.interopFeature = true → ∀ deadline ∈ cv.1.interopDeadline,
    P.isValidInterop deadline ctx.timestamp = true
  checks : PassesChecks ctx limits s.exec.info cv.1
  notCancelled : cv.2.cancelled = false
  preScreen : ctx.filter.isSome = true → cv.2.preScreen = .execute
  executed : (transactMaybeGasless P ctx s.exec.db s.inspector cv.1.tx.tx).1 =
    .ok (result, changes, gasless, capture)
  mayCommit : MayCommit ctx s.exec.info cv.2 gasless result capture

/-- A candidate is executed exactly if it passes what is checked before. -/
theorem beforeExecution_eq_none {limits : TransactionLimits} {s : LoopState Db Changes}
    {c : Candidate} {v : Verdicts} :
    beforeExecution P ctx limits s c v = none ↔
      c.conditionalMatches = true ∧
      (ctx.interopFeature = true → ∀ deadline ∈ c.interopDeadline,
        P.isValidInterop deadline ctx.timestamp = true) ∧
      PassesChecks ctx limits s.exec.info c ∧ v.cancelled = false ∧
      (ctx.filter.isSome = true → v.preScreen = .execute) := by
  constructor
  · intro h
    have hchecks := beforeExecution_passes h
    unfold beforeExecution at h
    dsimp only at h
    rw [hchecks.fits] at h
    split_ifs at h with hconditional hinterop htype hcancelled hdefer hdrop hspent
    refine ⟨by simpa using hconditional, ?_, hchecks, by simpa using hcancelled, fun hfilter => ?_⟩
    · intro hfeature deadline hdeadline
      rw [Option.mem_def] at hdeadline
      simpa [hfeature, hdeadline] using hinterop
    · cases hpre : v.preScreen with
      | execute => rfl
      | defer => exact absurd (by simp [hfilter, hpre]) hdefer
      | drop => exact absurd (by simp [hfilter, hpre]) hdrop
  · rintro ⟨hconditional, hinterop, hchecks, hcancelled, hpreScreen⟩
    have hvalid : (ctx.interopFeature &&
        c.interopDeadline.any (fun d => !P.isValidInterop d ctx.timestamp)) = false := by
      cases hfeature : ctx.interopFeature with
      | false => rfl
      | true =>
        cases hdeadline : c.interopDeadline with
        | none => rfl
        | some deadline => simp [hinterop hfeature deadline hdeadline]
    have hexecute : ∀ pre : PreScreen, pre ≠ .execute →
        (ctx.filter.isSome && decide (v.preScreen = pre)) = false := by
      intro pre hne
      cases hfilter : ctx.filter.isSome with
      | false => rfl
      | true => simpa [hpreScreen hfilter] using hne.symm
    have hpriced : (s.exec.info.gaslessBudgetExhausted &&
        decide (c.tx.tx.maxFeePerGas = 0)) = false := by
      cases hspent : s.exec.info.gaslessBudgetExhausted with
      | false => rfl
      | true => simpa using hchecks.priced hspent
    unfold beforeExecution
    simp only [hconditional, hvalid, hchecks.fits, hchecks.notBlob, hchecks.notDeposit, hcancelled,
      hexecute .defer (by decide), hexecute .drop (by decide), hpriced, Bool.not_true, Bool.or_self,
      Bool.false_eq_true, if_false]

variable (P ctx) in
/-- **After the execution**: the transaction is appended exactly if it may be committed; if not, the
    block is as before, but that the budget may be found spent. -/
theorem afterExecution_cases (s : LoopState Db Changes) (c : Candidate) (v : Verdicts)
    (result : ExecutionResult) (changes : Changes) (gasless : Bool) (capture : CaptureOutcome) :
    let s' := afterExecution P ctx s c v result changes gasless capture
    (MayCommit ctx s.exec.info v gasless result capture ∧ s'.exec = s.exec.appendPool P ctx
      ⟨.pool, c.tx, gasless, none, result, changes, c.estimatedDaSize⟩) ∨
    (¬ MayCommit ctx s.exec.info v gasless result capture ∧ LeftAlone s.exec s'.exec) := by
  unfold afterExecution
  dsimp only
  split_ifs with hcap hspent hbridge hfilter
  · refine .inr ⟨fun h => ?_, .inl rfl⟩
    exact any_exceeded.mp hcap h.gasCap
  · refine .inr ⟨fun h => ?_, .inr rfl⟩
    obtain ⟨hgasless, hover⟩ := Bool.and_eq_true_iff.mp hspent
    exact any_exceeded.mp hover (h.budget hgasless)
  · refine .inr ⟨fun h => ?_, .inl rfl⟩
    rw [h.notIntercepted] at hbridge
    cases hbridge
  all_goals
    have hgasCap : ∀ limit ∈ ctx.maxGasPerTxn, result.gasUsed ≤ limit := by
      by_contra hover
      exact hcap (any_exceeded.mpr hover)
    have hbudget : gasless = true → ∀ limit ∈ ctx.gaslessBlockGasLimit,
        saturatingAdd s.exec.info.cumulativeGaslessGasUsed result.gasUsed ≤ limit := by
      intro hgasless
      by_contra hover
      exact hspent (by rw [hgasless, Bool.true_and]; exact any_exceeded.mpr hover)
    have hnotIntercepted := Bool.eq_false_iff.mpr hbridge
  · -- the verdict of the filter
    have hturnedAway : ∀ screen, screenDecision v capture = screen → screen ≠ .allow →
        screen ≠ .auditApproved → ¬ MayCommit ctx s.exec.info v gasless result capture := by
      intro screen hscreen hallow happroved h
      rcases h.screened hfilter with heq | heq
      · exact hallow (hscreen.symm.trans heq)
      · exact happroved (hscreen.symm.trans heq)
    cases hscreen : screenDecision v capture with
    | allow => exact .inl ⟨⟨hgasCap, hbudget, hnotIntercepted, fun _ => .inl hscreen⟩, rfl⟩
    | auditApproved => exact .inl ⟨⟨hgasCap, hbudget, hnotIntercepted, fun _ => .inr hscreen⟩, rfl⟩
    | deny => exact .inr ⟨hturnedAway _ hscreen (by decide) (by decide), .inl rfl⟩
    | drop => exact .inr ⟨hturnedAway _ hscreen (by decide) (by decide), .inl rfl⟩
    | auditPending => exact .inr ⟨hturnedAway _ hscreen (by decide) (by decide), .inl rfl⟩
  · exact .inl ⟨⟨hgasCap, hbudget, hnotIntercepted, fun h => absurd h hfilter⟩, rfl⟩

variable (P ctx) in
/-- **One candidate**: it is appended exactly if it passes every check; if not, the block is as
    before, but that the budget may be found spent, or the round stops. -/
theorem considerTx_spec (limits : TransactionLimits) (s : LoopState Db Changes)
    (cv : Candidate × Verdicts) :
    (∃ gasless result changes capture s', Passes P ctx limits s cv gasless result changes capture ∧
      considerTx P ctx limits s cv = .ok s' ∧ s'.exec = s.exec.appendPool P ctx
        ⟨.pool, cv.1.tx, gasless, none, result, changes, cv.1.estimatedDaSize⟩) ∨
    ((∀ gasless result changes capture,
        ¬ Passes P ctx limits s cv gasless result changes capture) ∧
      ∀ s', considerTx P ctx limits s cv = .ok s' → LeftAlone s.exec s'.exec) := by
  obtain ⟨c, v⟩ := cv
  cases hbefore : beforeExecution P ctx limits s c v with
  | some stopped =>
    refine .inr ⟨fun gasless result changes capture h => ?_, fun s' hs => ?_⟩
    · have hnone := beforeExecution_eq_none.mpr
        ⟨h.conditional, h.interop, h.checks, h.notCancelled, h.preScreen⟩
      rw [hbefore] at hnone
      cases hnone
    · simp only [considerTx, hbefore] at hs
      subst hs
      exact .inl (beforeExecution_turnsAway hbefore).1
  | none =>
    obtain ⟨hconditional, hinterop, hchecks, hcancelled, hpreScreen⟩ :=
      beforeExecution_eq_none.mp hbefore
    cases ht : transactMaybeGasless P ctx s.exec.db s.inspector c.tx.tx with
    | mk answer inspector =>
      cases answer with
      | error e =>
        refine .inr ⟨fun gasless result changes capture h => ?_, fun s' hs => ?_⟩
        · have hexecuted := h.executed
          rw [ht] at hexecuted
          cases hexecuted
        · simp only [considerTx, hbefore, ht] at hs
          cases e with
          | invalidTx nonceTooLow =>
            cases hs
            cases nonceTooLow <;> exact .inl rfl
          | fatal => cases hs
      | ok answer =>
        obtain ⟨result, changes, gasless, capture⟩ := answer
        have hconsider : considerTx P ctx limits s (c, v) = .ok (afterExecution P ctx
            { s with inspector := inspector } c v result changes gasless capture) := by
          simp only [considerTx, hbefore, ht]
        rcases afterExecution_cases P ctx { s with inspector := inspector } c v result changes
          gasless capture with ⟨hmayCommit, happended⟩ | ⟨hnot, halone⟩
        · exact .inl ⟨gasless, result, changes, capture, _, ⟨hconditional, hinterop, hchecks,
            hcancelled, hpreScreen, congrArg Prod.fst ht, hmayCommit⟩, hconsider, happended⟩
        · refine .inr ⟨fun gasless' result' changes' capture' h => ?_, fun s' hs => ?_⟩
          · have hexecuted := h.executed
            rw [ht] at hexecuted
            cases hexecuted
            exact hnot h.mayCommit
          · rw [hconsider] at hs
            cases hs
            exact halone

variable (P ctx) in
/-- A candidate was accepted: it passed the limits and the budget, the EVM executed it, and it was
    appended and committed once. -/
structure Accepted (limits : TransactionLimits) (c : Candidate) (gasless : Bool)
    (result : ExecutionResult) (changes : Changes) (x x' : Exec Db Changes) : Prop where
  fits : x.info.isTxOverLimits c.estimatedDaSize limits.blockGas ctx.maxDaTxSize limits.blockDa
    c.tx.tx.gasLimit x.info.daFootprintScalar limits.blockDaFootprint = .ok ()
  notBlob : c.tx.tx.isEip4844 = false
  notDeposit : c.tx.tx.isDeposit = false
  priced : x.info.gaslessBudgetExhausted = true → c.tx.tx.maxFeePerGas ≠ 0
  isGasless : isGasless P ctx x.db c.tx.tx = .ok gasless
  transact : P.transact ctx.evmEnv x.db c.tx.tx gasless = .ok (result, changes)
  budget : gasless = true → ∀ limit ∈ ctx.gaslessBlockGasLimit,
    saturatingAdd x.info.cumulativeGaslessGasUsed result.gasUsed ≤ limit
  appended : x' = x.appendPool P ctx
    ⟨.pool, c.tx, gasless, none, result, changes, c.estimatedDaSize⟩

/-- What one candidate does to the block: nothing, the budget is found spent, or it is accepted. -/
theorem considerTx_cases {limits : TransactionLimits} {s s' : LoopState Db Changes}
    {cv : Candidate × Verdicts} (h : considerTx P ctx limits s cv = .ok s') :
    s'.exec = s.exec ∨ s'.exec = s.exec.exhaustGasless ∨
      ∃ gasless result changes,
        Accepted P ctx limits cv.1 gasless result changes s.exec s'.exec := by
  rcases considerTx_spec P ctx limits s cv with
    ⟨gasless, result, changes, capture, s₁, hpasses, hs₁, happended⟩ | ⟨-, halone⟩
  · rw [h] at hs₁
    cases hs₁
    obtain ⟨hfits, hblob, hdeposit, hpriced⟩ := hpasses.checks
    obtain ⟨hgasless, htransact⟩ := transactMaybeGasless_answer hpasses.executed
    exact .inr (.inr ⟨gasless, result, changes, hfits, hblob, hdeposit, hpriced, hgasless,
      htransact, hpasses.mayCommit.budget, happended⟩)
  · exact (halone s' h).imp_right .inl

/-! ## The limits of a round -/

/-- An accepted candidate stays within the limits, whatever was used before it. -/
theorem Accepted.limits_hold {limits : TransactionLimits} {c : Candidate} {gasless : Bool}
    {result : ExecutionResult} {changes : Changes} {x x' : Exec Db Changes}
    (h : Accepted P ctx limits c gasless result changes x x') (hgas : GasBounded P ctx c.tx.tx) :
    limits.Hold x'.info := by
  obtain ⟨-, hda, hfootprint, hblock⟩ := isTxOverLimits_eq_ok.mp h.fits
  have hused := hgas _ _ _ _ h.transact
  rw [h.appended]
  exact
    { gas := Within.of_saturatingAdd hblock hused
      da := fun limit hlimit => Within.of_saturatingAdd (hda limit hlimit) (Nat.le_refl _)
      daFootprint := fun scalar hscalar => Within.of_saturatingMul (hfootprint scalar hscalar) }

theorem considerTx_limits {limits : TransactionLimits} {s s' : LoopState Db Changes}
    {cv : Candidate × Verdicts} (hgas : GasBounded P ctx cv.1.tx.tx)
    (h : considerTx P ctx limits s cv = .ok s') (hs : limits.Hold s.exec.info) :
    limits.Hold s'.exec.info := by
  rcases considerTx_cases h with hsame | hspent | ⟨gasless, result, changes, haccepted⟩
  · rw [hsame]
    exact hs
  · rw [hspent]
    exact ⟨hs.gas, hs.da, hs.daFootprint⟩
  · exact haccepted.limits_hold hgas

theorem runTxLoop_limits {limits : TransactionLimits} :
    ∀ {candidates : List (Candidate × Verdicts)} {s : LoopState Db Changes},
      (∀ cv ∈ candidates, GasBounded P ctx cv.1.tx.tx) → limits.Hold s.exec.info →
      limits.Hold (runTxLoop P ctx limits s candidates).1.exec.info
  | [], _, _, hs => hs
  | cv :: rest, s, hgas, hs => by
    unfold runTxLoop
    split
    · rename_i s' hstep
      exact runTxLoop_limits (fun cv' hcv => hgas cv' (List.mem_cons_of_mem _ hcv))
        (considerTx_limits (hgas cv List.mem_cons_self) hstep hs)
    · exact hs

/-! ## Along a block -/

variable (P ctx) in
/-- A relation between an execution and a later one that everything a turn adds keeps. -/
structure PathRelation (R : Exec Db Changes → Exec Db Changes → Prop) : Prop where
  refl : ∀ x, R x x
  trans : ∀ {x x' x''}, R x x' → R x' x'' → R x x''
  builder : ∀ x (c : Committed Changes), c.source = .builder → R x (x.append P ctx c)
  exhausted : ∀ x, R x x.exhaustGasless
  accepted : ∀ {limits c gasless result changes x x'},
    Accepted P ctx limits c gasless result changes x x' → R x x'

namespace PathRelation

variable {R : Exec Db Changes → Exec Db Changes → Prop}

theorem addBuilderTxs (hR : PathRelation P ctx R) (topOfBlock : Bool) (x : Exec Db Changes)
    (simulated : Option (List BuilderTransactionCtx)) :
    R x (addBuilderTxs P ctx topOfBlock x simulated).1 := by
  obtain ⟨bs, cs, -, hcs, -, hresult⟩ := addBuilderTxs_appends P ctx topOfBlock x simulated
  rw [hresult]
  clear hresult
  induction hcs generalizing x with
  | nil => exact hR.refl x
  | cons hb _ ih => exact hR.trans (hR.builder x _ hb.source) (ih _)

theorem considerTx (hR : PathRelation P ctx R) {limits : TransactionLimits}
    {s s' : LoopState Db Changes} {cv : Candidate × Verdicts}
    (h : considerTx P ctx limits s cv = .ok s') : R s.exec s'.exec := by
  rcases considerTx_cases h with hsame | hspent | ⟨gasless, result, changes, haccepted⟩
  · rw [hsame]
    exact hR.refl _
  · rw [hspent]
    exact hR.exhausted _
  · exact hR.accepted haccepted

theorem runTxLoop (hR : PathRelation P ctx R) {limits : TransactionLimits} :
    ∀ (candidates : List (Candidate × Verdicts)) (s : LoopState Db Changes),
      R s.exec (runTxLoop P ctx limits s candidates).1.exec
  | [], s => hR.refl _
  | cv :: rest, s => by
    unfold Builder.runTxLoop
    split
    · rename_i s' hs
      exact hR.trans (hR.considerTx hs) (hR.runTxLoop rest s')
    · exact hR.refl _

/-- A turn, up to any point of its round. -/
theorem turnRound (hR : PathRelation P ctx R) (s : BuildState Db Changes) (t : Turn)
    (limits : TransactionLimits) (candidates : List (Candidate × Verdicts)) :
    R s.exec (executeBestTransactions P ctx limits (turnTop P ctx s t).1 candidates).1.exec :=
  hR.trans (hR.addBuilderTxs true s.exec t.topSimulated)
    (hR.runTxLoop candidates ⟨_, ctx.filter.map RcsInspector.new, [], []⟩)

theorem turnBottom (hR : PathRelation P ctx R) (s : BuildState Db Changes) (t : Turn) :
    R s.exec (turnBottom P ctx s t) :=
  hR.trans (hR.turnRound s t _ t.candidates) (hR.addBuilderTxs false _ t.bottomSimulated)

theorem turns (hR : PathRelation P ctx R) {s s' : BuildState Db Changes} {turns : List Turn}
    (h : TurnsFrom P ctx s turns s') : R s.exec s'.exec := by
  induction h with
  | start => exact hR.refl _
  | turn _ _ hturn ih =>
    obtain ⟨payload, flashblock, fb, -, -, -, rfl⟩ := buildNextFlashblock_built hturn
    exact hR.trans ih (hR.turnBottom _ _)

end PathRelation

/-! ## The gasless budget of a block -/

variable (ctx) in
/-- The gasless gas of a block is within its budget. -/
def GaslessWithin (info : ExecutionInfo) : Prop :=
  ∀ limit ∈ ctx.gaslessBlockGasLimit, Within info.cumulativeGaslessGasUsed limit

variable (ctx) in
/-- What every path does to the gasless budget: it is kept, once spent it stays spent, and then the
    pool adds only priced transactions. -/
structure Exec.KeepsBudget (x x' : Exec Db Changes) : Prop where
  within : GaslessWithin ctx x.info → GaslessWithin ctx x'.info
  spent : x.info.gaslessBudgetExhausted = true → x'.info.gaslessBudgetExhausted = true
  priced : ∃ cs, x'.history = x.history ++ cs ∧ (x.info.gaslessBudgetExhausted = true →
    ∀ c ∈ cs, c.source = .pool → c.tx.tx.maxFeePerGas ≠ 0)

variable {x x' x'' : Exec Db Changes}

theorem Exec.KeepsBudget.trans (h : x.KeepsBudget ctx x') (h' : x'.KeepsBudget ctx x'') :
    x.KeepsBudget ctx x'' := by
  obtain ⟨cs, hcs, hpriced⟩ := h.priced
  obtain ⟨cs', hcs', hpriced'⟩ := h'.priced
  refine ⟨h'.within ∘ h.within, h'.spent ∘ h.spent, cs ++ cs', ?_, fun hspent c hc => ?_⟩
  · rw [hcs', hcs, List.append_assoc]
  · rcases List.mem_append.mp hc with hc | hc
    · exact hpriced hspent c hc
    · exact hpriced' (h.spent hspent) c hc

/-- An accepted candidate is within the budget, and priced once it is spent. -/
theorem Accepted.keepsBudget {limits : TransactionLimits} {c : Candidate} {gasless : Bool}
    {result : ExecutionResult} {changes : Changes}
    (h : Accepted P ctx limits c gasless result changes x x') : x.KeepsBudget ctx x' := by
  rw [h.appended]
  refine ⟨fun hx limit hlimit => ?_, id, [_], rfl, fun hspent c' hc' _ => ?_⟩
  · cases hgasless : gasless with
    | false => exact hx limit hlimit
    | true => exact Within.of_saturatingAdd (h.budget hgasless limit hlimit) (Nat.le_refl _)
  · rw [List.mem_singleton.mp hc']
    exact h.priced hspent

variable (P ctx) in
theorem keepsBudget_path : PathRelation P ctx (fun x x' => Exec.KeepsBudget ctx x x') where
  refl x := ⟨id, id, [], by simp, fun _ => by simp⟩
  trans := Exec.KeepsBudget.trans
  builder x c hsource := by
    refine ⟨id, id, [c], rfl, fun _ c' hc' hpool => ?_⟩
    rw [List.mem_singleton.mp hc', hsource] at hpool
    cases hpool
  exhausted x := ⟨id, fun _ => rfl, [], by simp [Exec.exhaustGasless], fun _ => by simp⟩
  accepted := Accepted.keepsBudget

/-- No gasless gas was used when the loop starts. -/
theorem FallbackRun.gaslessWithin {builder : BuilderConfig} {config : FlashblocksConfig}
    {i : RunInputs Db} (r : FallbackRun P builder config i) : GaslessWithin r.ctx r.exec.info := by
  have hpre : GaslessWithin r.ctx r.pre.info := by
    obtain ⟨db₁, hdb⟩ := executePreSteps_changes r.preSteps
    refine executePreSteps_rule (fun x => GaslessWithin r.ctx x.info) ?_ ?_ hdb r.preSteps ?_
    · exact fun x c hx _ _ _ => hx
    · exact fun x _ hx => hx
    · exact fun limit _ _ => Nat.zero_le limit
  unfold FallbackRun.exec executeFallback
  split
  · refine executeCachedFlashblocksTransactions_rule (fun x => GaslessWithin r.ctx x.info) ?_ hpre _
    intro x c gasless result changes x' hx h
    rw [h.appended]
    exact hx
  · split_ifs
    · exact hpre
    · exact ((keepsBudget_path P r.ctx).addBuilderTxs false r.pre i.simulated).within hpre

variable (P ctx) in
/-- One element more in each list and one commit, those of the EVM's answer. -/
structure AppendedOnce (c : Candidate) (gasless : Bool) (result : ExecutionResult)
    (changes : Changes) (x x' : Exec Db Changes) : Prop where
  transaction : x'.info.executedTransactions = x.info.executedTransactions ++ [c.tx.tx]
  sender : x'.info.executedSenders = x.info.executedSenders ++ [c.tx.signer]
  receipt : x'.info.receipts = x.info.receipts ++
    [buildReceipt ctx.isCanyonActive c.tx.tx.txType result x'.info.cumulativeGasUsed none]
  commit : x'.db = P.commit x.db changes
  gas : x'.info.cumulativeGasUsed = x.info.cumulativeGasUsed + result.gasUsed
  gaslessGas : x'.info.cumulativeGaslessGasUsed =
    x.info.cumulativeGaslessGasUsed + if gasless then result.gasUsed else 0
  da : x'.info.cumulativeDaBytesUsed = x.info.cumulativeDaBytesUsed + c.estimatedDaSize

/-- **A candidate that passes every check** is appended and committed once. -/
theorem Passes.appendedOnce {limits : TransactionLimits} {s : LoopState Db Changes}
    {cv : Candidate × Verdicts} {gasless : Bool} {result : ExecutionResult} {changes : Changes}
    {capture : CaptureOutcome} (h : Passes P ctx limits s cv gasless result changes capture) :
    ∃ s', considerTx P ctx limits s cv = .ok s' ∧
      AppendedOnce P ctx cv.1 gasless result changes s.exec s'.exec := by
  rcases considerTx_spec P ctx limits s cv with
    ⟨gasless', result', changes', capture', s', hpasses, hs', happended⟩ | ⟨hnot, -⟩
  · -- there is one answer of the EVM
    cases hpasses.executed.symm.trans h.executed
    refine ⟨s', hs', ?_⟩
    rw [happended]
    exact ⟨rfl, rfl, rfl, rfl, rfl, rfl, rfl⟩
  · exact absurd h (hnot _ _ _ _)

variable (P ctx) in
/-- What an iteration makes of a candidate: appended once if it passes every check, and left alone
    if it does not. -/
def Considered (limits : TransactionLimits) (s : LoopState Db Changes) (cv : Candidate × Verdicts)
    (s' : LoopState Db Changes) : Prop :=
  (∃ gasless result changes capture, Passes P ctx limits s cv gasless result changes capture ∧
    AppendedOnce P ctx cv.1 gasless result changes s.exec s'.exec) ∨
  ((∀ gasless result changes capture,
      ¬ Passes P ctx limits s cv gasless result changes capture) ∧ LeftAlone s.exec s'.exec)

variable (P ctx) in
/-- A round, one candidate after the other, up to the end or to one at which the round stops. -/
inductive LoopRun (limits : TransactionLimits) :
    LoopState Db Changes → List (Candidate × Verdicts) → LoopState Db Changes → Prop where
  | exhausted {s : LoopState Db Changes} : LoopRun limits s [] s
  | stopped {s : LoopState Db Changes} {cv : Candidate × Verdicts}
      {rest : List (Candidate × Verdicts)} {stop : LoopEnd} :
      considerTx P ctx limits s cv = .error stop →
      (∀ gasless result changes capture,
        ¬ Passes P ctx limits s cv gasless result changes capture) →
      LoopRun limits s (cv :: rest) s
  | next {s s' s'' : LoopState Db Changes} {cv : Candidate × Verdicts}
      {rest : List (Candidate × Verdicts)} :
      considerTx P ctx limits s cv = .ok s' → Considered P ctx limits s cv s' →
      LoopRun limits s' rest s'' → LoopRun limits s (cv :: rest) s''

theorem considerTx_considered {limits : TransactionLimits} {s s' : LoopState Db Changes}
    {cv : Candidate × Verdicts} (h : considerTx P ctx limits s cv = .ok s') :
    Considered P ctx limits s cv s' := by
  rcases considerTx_spec P ctx limits s cv with
    ⟨gasless, result, changes, capture, -, hpasses, -⟩ | ⟨hnot, halone⟩
  · obtain ⟨s₁, hok, happended⟩ := hpasses.appendedOnce
    rw [h] at hok
    cases hok
    exact .inl ⟨gasless, result, changes, capture, hpasses, happended⟩
  · exact .inr ⟨hnot, halone s' h⟩

/-- **The round** takes the candidates one by one, and stops only at one that does not pass. -/
theorem runTxLoop_loopRun (limits : TransactionLimits) :
    ∀ (candidates : List (Candidate × Verdicts)) (s : LoopState Db Changes),
      LoopRun P ctx limits s candidates (runTxLoop P ctx limits s candidates).1
  | [], _ => .exhausted
  | cv :: rest, s => by
    cases h : considerTx P ctx limits s cv with
    | error stop =>
      simp only [runTxLoop, h]
      refine .stopped h fun gasless result changes capture hpasses => ?_
      obtain ⟨s', hok, -⟩ := hpasses.appendedOnce
      rw [h] at hok
      cases hok
    | ok s' =>
      simp only [runTxLoop, h]
      exact .next h (considerTx_considered h) (runTxLoop_loopRun limits rest s')

/-- If the budget is spent at `x`, it is at `x'`, and what the pool added between is priced. -/
def PricedOnceSpent (x x' : Exec Db Changes) : Prop :=
  x.info.gaslessBudgetExhausted = true → x'.info.gaslessBudgetExhausted = true ∧
    ∃ cs, x'.history = x.history ++ cs ∧ ∀ c ∈ cs, c.source = .pool → c.tx.tx.maxFeePerGas ≠ 0

theorem Exec.KeepsBudget.pricedOnceSpent (h : x.KeepsBudget ctx x') : PricedOnceSpent x x' := by
  intro hspent
  obtain ⟨cs, hcs, hpriced⟩ := h.priced
  exact ⟨h.spent hspent, cs, hcs, hpriced hspent⟩

/-- **Transaction-loop budgets**: for every list of candidates whose executions use at most their
    gas limit, every verdict and every limit,

    * a candidate that passes every check, the verdict of the filter among them, is appended and
      committed once, with the answer of the EVM to it; any other leaves the accounting and the
      database alone, but for the flag; and the round takes the candidates one by one, up to the end
      or to one that does not pass, at which it stops and leaves everything as it is;
    * limits that hold before the round hold after it;
    * at any candidate of any round of a block the gasless gas is within its budget;
    * from where the budget is spent, in the same round and over all later turns, the pool adds only
      priced transactions. -/
theorem runTxLoop_budgets (P : Platform Db Changes Env) (ctx : BuilderCtx Env)
    (limits : TransactionLimits) (candidates : List (Candidate × Verdicts))
    (hgas : ∀ cv ∈ candidates, GasBounded P ctx cv.1.tx.tx) :
    (∀ (s : LoopState Db Changes) (cv : Candidate × Verdicts),
      (∀ gasless result changes capture,
        Passes P ctx limits s cv gasless result changes capture →
          ∃ s', considerTx P ctx limits s cv = .ok s' ∧
            AppendedOnce P ctx cv.1 gasless result changes s.exec s'.exec) ∧
      ((∀ gasless result changes capture,
        ¬ Passes P ctx limits s cv gasless result changes capture) →
          ∀ s', considerTx P ctx limits s cv = .ok s' → LeftAlone s.exec s'.exec)) ∧
    (∀ s : LoopState Db Changes,
      LoopRun P ctx limits s candidates (runTxLoop P ctx limits s candidates).1) ∧
    (∀ s : LoopState Db Changes, limits.Hold s.exec.info →
      limits.Hold (runTxLoop P ctx limits s candidates).1.exec.info) ∧
    (∀ (builder : BuilderConfig) (config : FlashblocksConfig) (i : RunInputs Db)
      (r : FallbackRun P builder config i) (turns : List Turn) (s : BuildState Db Changes)
      (t : Turn), TurnsFrom P r.ctx r.start turns s →
        GaslessWithin r.ctx
          (executeBestTransactions P r.ctx limits (turnTop P r.ctx s t).1 candidates).1.exec.info) ∧
    (∀ s : LoopState Db Changes,
      PricedOnceSpent s.exec (runTxLoop P ctx limits s candidates).1.exec) ∧
    (∀ (s s' : BuildState Db Changes) (turns : List Turn) (t : Turn),
      TurnsFrom P ctx s turns s' → PricedOnceSpent s.exec
        (executeBestTransactions P ctx limits (turnTop P ctx s' t).1 candidates).1.exec) := by
  refine ⟨fun s cv => ⟨fun _ _ _ _ h => h.appendedOnce, fun hnot s' h => ?_⟩,
    runTxLoop_loopRun limits candidates, fun s => runTxLoop_limits hgas,
    fun builder config i r turns s t h => ?_, fun s => ?_, fun s s' turns t h => ?_⟩
  · rcases considerTx_considered h with ⟨_, _, _, _, hpasses, -⟩ | ⟨-, halone⟩
    · exact absurd hpasses (hnot _ _ _ _)
    · exact halone
  · have hpath := keepsBudget_path P r.ctx
    exact (hpath.trans (hpath.turns h) (hpath.turnRound s t limits candidates)).within
      r.gaslessWithin
  · exact ((keepsBudget_path P ctx).runTxLoop candidates s).pricedOnceSpent
  · have hpath := keepsBudget_path P ctx
    exact (hpath.trans (hpath.turns h) (hpath.turnRound s' t limits candidates)).pricedOnceSpent

end

namespace Sample

/-- The context of the sample attributes. -/
def context : BuilderCtx (Header × NextBlockEnvAttributes) :=
  config.context parent 9 attributes (attributes.blockEnvAttributes parent [])
    (parent, attributes.blockEnvAttributes parent [])

/-- A round with one transfer, whose gas limit is the gas it uses. -/
def transfers : List (Candidate × Verdicts) := [(transfer 7, ⟨false, .execute, fun _ => .allow⟩)]

theorem transfer_gasBounded (maxFeePerGas : Nat) :
    GasBounded platform context (transfer maxFeePerGas).tx.tx := by
  intro db gasless result changes h
  simp only [platform] at h
  split_ifs at h
  cases h
  exact Nat.le_refl _

/-- A block of 21000 gas is filled, and not overfilled, by one transfer. -/
theorem transfers_budgets :
    (∀ cv ∈ transfers, GasBounded platform context cv.1.tx.tx) ∧
      (⟨21000, none, none⟩ : TransactionLimits).Hold (runTxLoop platform context
        ⟨21000, none, none⟩ ⟨⟨ExecutionInfo.new, 0, []⟩, none, [], []⟩ transfers).1.exec.info := by
  have hgas : ∀ cv ∈ transfers, GasBounded platform context cv.1.tx.tx := by
    intro cv hcv
    rw [List.mem_singleton.mp hcv]
    exact transfer_gasBounded 7
  refine ⟨hgas, (runTxLoop_budgets platform context ⟨21000, none, none⟩ transfers hgas).2.2.1 _ ?_⟩
  exact ⟨fun _ => Nat.zero_le _, by simp, by simp [ExecutionInfo.new]⟩

end Sample

end XLayerReth.Builder
