import XLayerReth.Builder.Preconfirmation

/-!
# Runs of `build_payload`

The vocabulary in which facts about whole runs are stated.

* `FallbackRun` — a run in which the fallback block was built, with everything on the way to it.
* `turnTop`, `turnRound`, `turnBottom` — the three places of a turn where transactions are added;
  `buildNextFlashblock_built` inverts a turn that was built.
* `TurnsFrom` — the states of a run at the start of a turn, and `flashblocksLoop_turns`, which says
  that the loop goes through them.
-/

set_option autoImplicit false

namespace XLayerReth.Builder

open RcsFilter

section

variable {Db Changes Env : Type}

/-! ## The fallback block -/

/-- A run of `build_payload` in which the fallback block was built. -/
structure FallbackRun (P : Platform Db Changes Env) (builder : BuilderConfig)
    (config : FlashblocksConfig) (i : RunInputs Db) where
  ctx : BuilderCtx Env
  db : Db
  pre : Exec Db Changes
  payload : BuiltPayload
  flashblock : Flashblock
  fb : FlashblocksState
  context : getOpPayloadBuilderCtx P builder i.parent i.parentHash i.attributes = some ctx
  state : i.state = some db
  preSteps : executePreSteps P ctx db = .ok pre
  built : tryBuildBlock P ctx i.buildError (executeFallback P ctx i pre).info
    (executeFallback P ctx i pre).db
    (FlashblocksState.new config.flashblocksPerBlock config.disableStateRoot) true =
      .ok (payload, flashblock, fb)

namespace FallbackRun

variable {P : Platform Db Changes Env} {builder : BuilderConfig} {config : FlashblocksConfig}
  {i : RunInputs Db}

variable (P builder config i) in
/-- The run of the given inputs, if its fallback block is built. -/
def ofInputs : Option (FallbackRun P builder config i) :=
  match context : getOpPayloadBuilderCtx P builder i.parent i.parentHash i.attributes with
  | none => none
  | some ctx =>
    match state : i.state with
    | none => none
    | some db =>
      match preSteps : executePreSteps P ctx db with
      | .error _ => none
      | .ok pre =>
        match built : tryBuildBlock P ctx i.buildError (executeFallback P ctx i pre).info
            (executeFallback P ctx i pre).db
            (FlashblocksState.new config.flashblocksPerBlock config.disableStateRoot) true with
        | .error _ => none
        | .ok (payload, flashblock, fb) =>
          some ⟨ctx, db, pre, payload, flashblock, fb, context, state, preSteps, built⟩

/-- The execution the fallback block was built from. -/
def exec (r : FallbackRun P builder config i) : Exec Db Changes := executeFallback P r.ctx i r.pre

/-- Whether the run replays a cached sequence of flashblocks. -/
def rebuilds (r : FallbackRun P builder config i) : Bool :=
  (cachedSequence r.ctx i.cachedTxs).isSome

/-- The loop starts here, once the fallback was published. -/
def start (r : FallbackRun P builder config i) : BuildState Db Changes where
  exec := r.exec
  fbState := firstFbState P r.ctx r.fb r.exec.info.daFootprintScalar
    (i.targetFlashblocks config)
  bestPayload := (r.payload, r.exec.db)
  published := [r.flashblock]
  sent := [r.flashblock]

theorem start_eq (r : FallbackRun P builder config i) {scheduler : Timing.FlashblockScheduler}
    (hok : i.scheduler config = .ok scheduler) :
    r.start =
      ⟨r.exec, firstFbState P r.ctx r.fb r.exec.info.daFootprintScalar scheduler.targetFlashblocks,
        (r.payload, r.exec.db), [r.flashblock], [r.flashblock]⟩ := by
  unfold start RunInputs.targetFlashblocks
  rw [hok]

/-- What is left of the run after the fallback block. -/
theorem buildPayload_eq (r : FallbackRun P builder config i) :
    buildPayload P builder config i =
      if r.rebuilds then
        .resolved P config i.resolve [] [] (r.payload, r.exec.db) r.payload
      else if !i.sends then .failed [] []
      else if r.ctx.attributes.noTxPool then
        .resolved P config i.resolve [] [r.flashblock] (r.payload, r.exec.db) r.payload
      else
        buildFlashblocks P r.ctx config i r.exec r.payload r.flashblock r.fb [r.flashblock] := by
  simp only [buildPayload, r.context, r.state, r.preSteps, buildPayloadFrom, r.built]
  unfold rebuilds exec
  cases (cachedSequence r.ctx i.cachedTxs).isSome with
  | true => simp
  | false => simp

end FallbackRun

/-! ## One turn -/

variable (P : Platform Db Changes Env) (ctx : BuilderCtx Env)

/-- A turn after the builder transactions at its top. -/
def turnTop (s : BuildState Db Changes) (t : Turn) :
    Exec Db Changes × Option (List BuilderTransactionCtx) :=
  addBuilderTxs P ctx true s.exec t.topSimulated

/-- The limits of its round over the pool. -/
def turnTransactionLimits (s : BuildState Db Changes) (t : Turn) : TransactionLimits :=
  let top := turnTop P ctx s t
  let limits := turnLimits s.fbState top.1.info.daFootprintScalar (top.2.getD [])
  ⟨min limits.1 (ctx.blockGasLimit P), limits.2.1, limits.2.2⟩

/-- The turn after its round. -/
def turnRound (s : BuildState Db Changes) (t : Turn) : LoopState Db Changes × LoopEnd :=
  executeBestTransactions P ctx (turnTransactionLimits P ctx s t) (turnTop P ctx s t).1 t.candidates

/-- The turn after the builder transactions at its bottom, when the block is built. -/
def turnBottom (s : BuildState Db Changes) (t : Turn) : Exec Db Changes :=
  (addBuilderTxs P ctx false (turnRound P ctx s t).1.exec t.bottomSimulated).1

/-- The block of a turn, if the turn gets that far. -/
structure TurnBuilds (s : BuildState Db Changes) (t : Turn) (payload : BuiltPayload)
    (flashblock : Flashblock) (fb : FlashblocksState) : Prop where
  ended : (turnRound P ctx s t).2 ≠ .evmError
  notCancelled : t.blockCancelled = false
  block : tryBuildBlock P ctx t.buildError (turnBottom P ctx s t).info (turnBottom P ctx s t).db
    s.fbState (!s.fbState.disableStateRoot || ctx.attributes.noTxPool) =
      .ok (payload, flashblock, fb)

theorem buildNextFlashblock_eq (s : BuildState Db Changes) (t : Turn) :
    buildNextFlashblock P ctx s t =
      if (turnRound P ctx s t).2 = .evmError then
        ({ s with exec := (turnRound P ctx s t).1.exec }, .failed)
      else if t.blockCancelled then
        ({ s with exec := (turnRound P ctx s t).1.exec }, .cancelled)
      else
        finishFlashblock P ctx { s with exec := turnBottom P ctx s t } t
          (turnTransactionLimits P ctx s t).blockDa
          (turnTransactionLimits P ctx s t).blockDaFootprint := rfl

/-- The flashblock of a turn, as it is published. -/
def Flashblock.atIndex (flashblock : Flashblock) (index : Nat) : Flashblock :=
  { flashblock with index := index, base := none }

variable {P ctx}

/-- A turn that was built: its block was published, sent and taken as the best payload. -/
theorem buildNextFlashblock_built {s s' : BuildState Db Changes} {t : Turn}
    (h : buildNextFlashblock P ctx s t = (s', .built)) :
    ∃ payload flashblock fb, TurnBuilds P ctx s t payload flashblock fb ∧
      t.publishes = true ∧ t.sends = true ∧
      s' =
        { exec := turnBottom P ctx s t
          fbState := nextFbState fb (turnTransactionLimits P ctx s t).blockDa
            (turnTransactionLimits P ctx s t).blockDaFootprint
          bestPayload := (payload, (turnBottom P ctx s t).db)
          published := s.published ++ [flashblock.atIndex fb.flashblockIndex]
          sent := s.sent ++ [flashblock.atIndex fb.flashblockIndex] } := by
  rw [buildNextFlashblock_eq] at h
  split_ifs at h with hround hcancelled
  · cases h
  · cases h
  · unfold finishFlashblock at h
    dsimp only at h
    split at h
    · cases h
    · rename_i payload flashblock fb hbuild
      split_ifs at h with hpublishes hsends
      · cases h
      · cases h
      · simp only [Prod.mk.injEq, and_true] at h
        exact ⟨payload, flashblock, fb, ⟨hround, by simpa using hcancelled, hbuild⟩,
          by simpa using hpublishes, by simpa using hsends, h.symm⟩

/-! ## Turn after turn -/

variable (P ctx) in
/-- The states of a run at the start of a turn: `s'` is reached from `s` by turns that were built,
    none of them beyond the target. -/
inductive TurnsFrom (s : BuildState Db Changes) : List Turn → BuildState Db Changes → Prop where
  | start : TurnsFrom s [] s
  | turn {turns : List Turn} {s₁ s₂ : BuildState Db Changes} {t : Turn} :
      TurnsFrom s turns s₁ →
      s₁.fbState.flashblockIndex ≤ s₁.fbState.targetFlashblockCount →
      buildNextFlashblock P ctx s₁ t = (s₂, .built) → TurnsFrom s (turns ++ [t]) s₂

theorem TurnsFrom.cons {s s₁ s₂ : BuildState Db Changes} {t : Turn} {turns : List Turn}
    (hindex : s.fbState.flashblockIndex ≤ s.fbState.targetFlashblockCount)
    (hturn : buildNextFlashblock P ctx s t = (s₁, .built)) (h : TurnsFrom P ctx s₁ turns s₂) :
    TurnsFrom P ctx s (t :: turns) s₂ := by
  induction h with
  | start => exact .turn .start hindex hturn
  | turn _ hindex' hturn' ih => exact .turn ih hindex' hturn'

variable (P ctx) in
/-- A fact about each turn that a run begins, and about the state it begins in. -/
def EachTurn (start : BuildState Db Changes) (turns : List Turn)
    (fact : BuildState Db Changes → Turn → Prop) : Prop :=
  ∀ done t s, done ++ [t] <+: turns → TurnsFrom P ctx start done s →
    s.fbState.flashblockIndex ≤ s.fbState.targetFlashblockCount → fact s t

theorem eachTurn_singleton {start : BuildState Db Changes} {t : Turn}
    {fact : BuildState Db Changes → Turn → Prop} (h : fact start t) :
    EachTurn P ctx start [t] fact := by
  intro done t' s hstarts hdone _
  have hlength := hstarts.length_le
  cases hdone with
  | start =>
    have ht : t' = t := by simpa using hstarts
    rw [ht]
    exact h
  | turn _ _ _ => simp at hlength

/-- **Run rule**: what holds at the start, and is kept by every turn that is built, holds at the
    start of every turn. -/
theorem TurnsFrom.rule {start : BuildState Db Changes} {turns : List Turn}
    {fact : BuildState Db Changes → Turn → Prop} (hfact : EachTurn P ctx start turns fact)
    (motive : Nat → BuildState Db Changes → Prop) (hstart : motive 0 start)
    (step : ∀ n s t s', motive n s → fact s t →
      s.fbState.flashblockIndex ≤ s.fbState.targetFlashblockCount →
      buildNextFlashblock P ctx s t = (s', .built) → motive (n + 1) s')
    {done : List Turn} {s : BuildState Db Changes} (h : TurnsFrom P ctx start done s)
    (hstarts : done <+: turns) : motive done.length s := by
  induction h with
  | start => exact hstart
  | @turn done s₁ s₂ t hdone hindex hturn ih =>
    rw [List.length_append]
    exact step _ s₁ t s₂ (ih ((List.prefix_append _ _).trans hstarts))
      (hfact _ t s₁ hstarts hdone hindex) hindex hturn

variable (P ctx) in
/-- The loop goes through turns that are built, up to its end or to one that is not. -/
theorem flashblocksLoop_turns : ∀ (turns : List Turn) (s : BuildState Db Changes),
    ∃ done s₁, TurnsFrom P ctx s done s₁ ∧ done <+: turns ∧
      (flashblocksLoop P ctx s turns = s₁ ∨
        ∃ t turnEnd, done ++ [t] <+: turns ∧
          s₁.fbState.flashblockIndex ≤ s₁.fbState.targetFlashblockCount ∧
          buildNextFlashblock P ctx s₁ t = (flashblocksLoop P ctx s turns, turnEnd) ∧
          turnEnd ≠ .built)
  | [], s => ⟨[], s, .start, List.prefix_refl _, .inl rfl⟩
  | t :: turns, s => by
    by_cases hindex : s.fbState.flashblockIndex > s.fbState.targetFlashblockCount
    · exact ⟨[], s, .start, List.nil_prefix, .inl (by simp [flashblocksLoop, hindex])⟩
    · have hle : s.fbState.flashblockIndex ≤ s.fbState.targetFlashblockCount := by omega
      cases hturn : buildNextFlashblock P ctx s t with
      | mk s' turnEnd =>
        -- a turn that is not built is the last one
        have last : turnEnd ≠ .built → flashblocksLoop P ctx s (t :: turns) = s' := by
          intro hend
          cases turnEnd with
          | built => exact absurd rfl hend
          | cancelled => simp [flashblocksLoop, hindex, hturn]
          | failed => simp [flashblocksLoop, hindex, hturn]
        cases turnEnd with
        | built =>
          have hloop : flashblocksLoop P ctx s (t :: turns) = flashblocksLoop P ctx s' turns := by
            simp [flashblocksLoop, hindex, hturn]
          obtain ⟨done, s₁, hdone, hstarts, hrest⟩ := flashblocksLoop_turns turns s'
          refine ⟨t :: done, s₁, hdone.cons hle hturn, by simpa using hstarts, ?_⟩
          rw [hloop]
          rcases hrest with heq | ⟨t', turnEnd, hpre, hle', hturn', hend⟩
          · exact .inl heq
          · exact .inr ⟨t', turnEnd, by simpa using hpre, hle', hturn', hend⟩
        | cancelled =>
          exact ⟨[], s, .start, List.nil_prefix, .inr ⟨t, .cancelled, by simp, hle,
            by rw [last (by decide), hturn], by decide⟩⟩
        | failed =>
          exact ⟨[], s, .start, List.nil_prefix, .inr ⟨t, .failed, by simp, hle,
            by rw [last (by decide), hturn], by decide⟩⟩

end

end XLayerReth.Builder
