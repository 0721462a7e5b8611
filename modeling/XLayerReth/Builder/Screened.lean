import XLayerReth.Builder.CaptureIsolation
import XLayerReth.Builder.LoopBudgets
import XLayerReth.Lib.Simulation
import XLayerReth.RcsFilter.HandleSafety

/-!
# The builder beside the filter

The loop of `build_payload` and the filter it screens with, as one system: the builder considers
one candidate after another, and while one of its `screen_tx` calls is open, and at any other time,
the workers of the filter, rule installs, cleanups and further calls go on in any order.

* `screenedLogs` — the logs of a candidate that `run_tx_loop` hands to `screen_tx`, if the candidate
  gets that far.
* `Sequencer`, `Sequencer.step` — the filter, the block so far and the flashblock in progress, and
  what one of them does.
* `Released` — a call of the filter for the very transaction and the very execution that is in the
  block let it pass.

Principal results: `Sequencer.run_inv` (whatever is interleaved, the block is one that the loop of
`build_payload` builds from the verdicts it was given) and `published_released` (every transaction
of the pool in a published flashblock was released by the filter, on its own complete capture).
-/

set_option autoImplicit false

namespace XLayerReth.Builder

open RcsFilter Lib

section

variable {Db Changes Env : Type} (P : Platform Db Changes Env) (ctx : BuilderCtx Env)

/-! ## What a candidate asks the filter -/

/-- The `ScreenInput` of a transaction with its captured logs. -/
def screenInput (c : Recovered) (logs : List Log) : ScreenInput where
  txHash := c.tx.hash
  origin := c.signer
  txTo := c.tx.recipient
  nonce := c.tx.nonce
  value := c.tx.value.toNat
  blockHeight := P.number ctx.evmEnv
  logs := logs

/-- The logs that `run_tx_loop` hands to `screen_tx`: those of a complete capture, of a candidate
    that passed every check before it. -/
def screenedLogs (limits : TransactionLimits) (s : LoopState Db Changes) (c : Candidate)
    (cancelled : Bool) (pre : PreScreen) : Option (List Log) :=
  match beforeExecution P ctx limits s c ⟨cancelled, pre, fun _ => .deny⟩ with
  | some _ => none
  | none =>
    match (transactMaybeGasless P ctx s.exec.db s.inspector c.tx.tx).1 with
    | .ok (result, _, gasless, .complete logs) =>
      if ctx.maxGasPerTxn.any (fun limit => result.gasUsed > limit) then none
      else if gasless && ctx.gaslessBlockGasLimit.any (fun limit =>
          saturatingAdd s.exec.info.cumulativeGaslessGasUsed result.gasUsed > limit) then none
      else if interceptBridgeTransactionIfNeed result.logs ctx.bridgeInterceptConfig then none
      else if ctx.filter.isSome then some logs
      else none
    | _ => none

/-! ## The system -/

/-- An open `screen_tx` call of the builder. -/
structure Screening where
  candidate : Candidate
  cancelled : Bool
  preScreen : PreScreen
  call : Nat
  logs : List Log

/-- A flashblock in progress, with the candidates considered so far and what was said of them. -/
structure FlashblockWork (Db Changes : Type) where
  turn : Turn
  limits : TransactionLimits
  loop : LoopState Db Changes
  screening : Option Screening
  ended : Option LoopEnd

/-- The filter, the block so far, the flashblock in progress, and how the last flashblock ended if
    it was the last one. -/
structure Sequencer (Db Changes : Type) where
  filter : RcsFilter.State
  build : BuildState Db Changes
  work : Option (FlashblockWork Db Changes)
  closed : Option TurnEnd

/-- One atomic action. -/
inductive SequencerAct where
  /-- Any action of the filter. -/
  | filter (a : Act)
  /-- The scheduler starts a flashblock; the candidates of the turn are left out. -/
  | startTurn (t : Turn)
  /-- The pool iterator yields a candidate: it is checked, executed, and either done with or handed
      to `screen_tx`. -/
  | consider (c : Candidate) (cancelled : Bool)
  /-- `screen_tx` has returned. -/
  | resume
  /-- The pool iterator yields no more, or the round was stopped. -/
  | finishTurn

/-- The state in which a flashblock starts its round over the pool. -/
def startLoop (s : BuildState Db Changes) (t : Turn) : LoopState Db Changes :=
  ⟨(turnTop P ctx s t).1, ctx.filter.map RcsInspector.new, [], []⟩

/-- `build_next_flashblock` up to its round over the pool. -/
def FlashblockWork.start (s : BuildState Db Changes) (t : Turn) : FlashblockWork Db Changes where
  turn := { t with candidates := [] }
  limits := turnTransactionLimits P ctx s t
  loop := startLoop P ctx s t
  screening := none
  ended := none

/-- The rest of an iteration of `run_tx_loop`, with the verdicts known. -/
def FlashblockWork.judge (w : FlashblockWork Db Changes) (c : Candidate) (v : Verdicts) :
    FlashblockWork Db Changes :=
  let w := { w with
    turn := { w.turn with candidates := w.turn.candidates ++ [(c, v)] }
    screening := none }
  match considerTx P ctx w.limits w.loop (c, v) with
  | .ok loop => { w with loop := loop }
  | .error e => { w with ended := some e }

/-- The rest of `build_next_flashblock` after the round over the pool. -/
def FlashblockWork.finish (w : FlashblockWork Db Changes) (s : BuildState Db Changes) :
    BuildState Db Changes × TurnEnd :=
  if w.ended = some .evmError then ({ s with exec := w.loop.exec }, .failed)
  else if w.turn.blockCancelled then ({ s with exec := w.loop.exec }, .cancelled)
  else
    let bottom := addBuilderTxs P ctx false w.loop.exec w.turn.bottomSimulated
    finishFlashblock P ctx { s with exec := bottom.1 } w.turn w.limits.blockDa
      w.limits.blockDaFootprint

/-- What the builder does when the iterator yields a candidate. -/
def Sequencer.consider (s : Sequencer Db Changes) (w : FlashblockWork Db Changes) (c : Candidate)
    (cancelled : Bool) : Sequencer Db Changes :=
  let pre := preScreen s.filter.pool c.tx.tx.hash
  match screenedLogs P ctx w.limits w.loop c cancelled pre with
  | some logs =>
    { s with
      filter := { s.filter with
        calls := s.filter.calls ++ [Call.start (screenInput P ctx c.tx logs)] }
      work := some { w with screening := some ⟨c, cancelled, pre, s.filter.calls.length, logs⟩ } }
  | none => { s with work := some (w.judge P ctx c ⟨cancelled, pre, fun _ => .deny⟩) }

/-- The flashblock in progress is done with; a turn that is not built is the last one. -/
def Sequencer.finishTurn (s : Sequencer Db Changes) (w : FlashblockWork Db Changes) :
    Sequencer Db Changes :=
  let finished := w.finish P ctx s.build
  { s with
    build := finished.1
    work := none
    closed := if finished.2 = .built then none else some finished.2 }

/-- One step; `none` when the action is not enabled. -/
def Sequencer.step (env : RcsFilter.Env) (s : Sequencer Db Changes) :
    SequencerAct → Option (Sequencer Db Changes)
  | .filter a => (RcsFilter.step env s.filter a).map (fun filter => { s with filter := filter })
  | .startTurn t =>
    if s.work.isNone && s.closed.isNone &&
        s.build.fbState.flashblockIndex ≤ s.build.fbState.targetFlashblockCount then
      some { s with work := some (.start P ctx s.build t) }
    else none
  | .consider c cancelled =>
    s.work.bind (fun w =>
      if w.screening.isSome || w.ended.isSome then none else some (s.consider P ctx w c cancelled))
  | .resume =>
    s.work.bind (fun w => w.screening.bind (fun q =>
      ((s.filter.calls[q.call]?).bind Call.result).map (fun r =>
        { s with
          work := some (w.judge P ctx q.candidate ⟨q.cancelled, q.preScreen, fun _ => r⟩) })))
  | .finishTurn =>
    s.work.bind (fun w => if w.screening.isSome then none else some (s.finishTurn P ctx w))

/-- A run of the system. -/
def Sequencer.run (env : RcsFilter.Env) (s : Sequencer Db Changes) (acts : List SequencerAct) :
    Option (Sequencer Db Changes) :=
  runFrom (Sequencer.step P ctx env) s acts

/-- The system when the fallback block was published. -/
def Sequencer.start (filter : RcsFilter.State) (build : BuildState Db Changes) :
    Sequencer Db Changes :=
  ⟨filter, build, none, none⟩

end

section

variable {Db Changes Env : Type} {P : Platform Db Changes Env} {ctx : BuilderCtx Env}

/-! ## One candidate -/

/-- With the filter enabled a candidate adds nothing to the block, or it adds itself after a
    complete capture whose logs were screened and let pass. -/
theorem considerTx_adds {limits : TransactionLimits} {s s' : LoopState Db Changes} {c : Candidate}
    {v : Verdicts} (hfilter : ctx.filter.isSome = true)
    (hinspector : s.inspector = ctx.filter.map RcsInspector.new)
    (h : considerTx P ctx limits s (c, v) = .ok s') :
    s'.exec.history = s.exec.history ∨
      ∃ committed logs, s'.exec.history = s.exec.history ++ [committed] ∧ committed.tx = c.tx ∧
        captureAlone ctx.filter committed.result = .complete logs ∧
        screenedLogs P ctx limits s c v.cancelled v.preScreen = some logs ∧
        (v.screenTx logs = .allow ∨ v.screenTx logs = .auditApproved) := by
  unfold considerTx at h
  dsimp only at h
  cases hbefore : beforeExecution P ctx limits s c v with
  | some stopped =>
    rw [hbefore] at h
    dsimp only at h
    subst h
    exact .inl (congrArg Exec.history (beforeExecution_turnsAway hbefore).1)
  | none =>
    have hbefore' : beforeExecution P ctx limits s c ⟨v.cancelled, v.preScreen, fun _ => .deny⟩ =
        none := hbefore
    rw [hbefore] at h
    dsimp only at h
    split at h
    · cases h
      split <;> exact .inl rfl
    · cases h
    · rename_i result changes gasless capture inspector ht
      cases h
      have ht₁ : (transactMaybeGasless P ctx s.exec.db s.inspector c.tx.tx).1 =
          .ok (result, changes, gasless, capture) := congrArg Prod.fst ht
      have halone : capture = captureAlone ctx.filter result :=
        transactMaybeGasless_alone (hinspector ▸ ht₁)
      unfold afterExecution
      dsimp only
      split_ifs with hgas hbudget hbridge
      · exact .inl rfl
      · exact .inl rfl
      · exact .inl rfl
      · cases hcapture : capture with
        | complete logs =>
          have hlogs : screenedLogs P ctx limits s c v.cancelled v.preScreen = some logs := by
            unfold screenedLogs
            rw [hbefore', ht₁, hcapture]
            simp only [if_neg hgas, if_neg hbudget, if_neg hbridge, if_pos hfilter]
          have hcomplete : captureAlone ctx.filter result = .complete logs := by
            rw [← halone, hcapture]
          cases hverdict : v.screenTx logs with
          | allow =>
            simp only [screenDecision, hverdict]
            exact .inr ⟨_, logs, rfl, rfl, hcomplete, hlogs, .inl hverdict⟩
          | auditApproved =>
            simp only [screenDecision, hverdict]
            exact .inr ⟨_, logs, rfl, rfl, hcomplete, hlogs, .inr hverdict⟩
          | deny | drop | auditPending =>
            simp only [screenDecision, hverdict]
            exact .inl rfl
        | passthrough | limitExceeded _ _ | invariantViolation _ => exact .inl rfl

/-! ## What was released -/

variable (P ctx) in
/-- The filter has let the transaction pass, with the complete capture of this very execution. -/
def PassedBy (filter : RcsFilter.State) (c : Committed Changes) : Prop :=
  ∃ call ∈ filter.calls, ∃ logs, captureAlone ctx.filter c.result = .complete logs ∧
    call.input = screenInput P ctx c.tx logs ∧
    (call.result = some .allow ∨ call.result = some .auditApproved)

variable (P ctx) in
/-- The transaction was there before, is one of the builder, or was let pass. -/
def Vetted (before : List (Committed Changes)) (filter : RcsFilter.State) (c : Committed Changes) :
    Prop :=
  c ∈ before ∨ c.source = .builder ∨ PassedBy P ctx filter c

variable (P ctx) in
/-- **Released**: a call for this very execution returned `Allow` with the evidence of `Cleared`, or
    `AuditApproved` with that of `Confirmed`. -/
def Released (env : RcsFilter.Env) (filter : RcsFilter.State) (c : Committed Changes) : Prop :=
  ∃ call ∈ filter.calls, ∃ logs, captureAlone ctx.filter c.result = .complete logs ∧
    call.input = screenInput P ctx c.tx logs ∧
    ((call.result = some .allow ∧ Cleared env call) ∨
      (call.result = some .auditApproved ∧ Confirmed env call))

theorem PassedBy.released {env : RcsFilter.Env} {acts : List Act} {filter : RcsFilter.State}
    {c : Committed Changes} (hrun : RcsFilter.run env .new acts = some filter)
    (h : PassedBy P ctx filter c) : Released P ctx env filter c := by
  obtain ⟨call, hcall, logs, hlogs, hinput, hallow | happroved⟩ := h
  · exact ⟨call, hcall, logs, hlogs, hinput,
      .inl ⟨hallow, cleared_of_result hrun hcall hallow⟩⟩
  · exact ⟨call, hcall, logs, hlogs, hinput,
      .inr ⟨happroved, confirmed_of_result hrun hcall happroved⟩⟩

/-- A call that has returned stays as it is. -/
theorem returned_step {env : RcsFilter.Env} {f f' : RcsFilter.State} {a : Act} {call : Call}
    {r : Screen} (h : RcsFilter.step env f a = some f') (hcall : call ∈ f.calls)
    (hr : call.result = some r) : call ∈ f'.calls := by
  obtain ⟨n, hn⟩ := List.mem_iff_getElem?.mp hcall
  rcases step_call h hn with hsame | ⟨now, next, -, hadvance, -⟩
  · exact List.mem_of_getElem? hsame
  · simp [Call.advance, result_eq_some hr] at hadvance

theorem Vetted.step {env : RcsFilter.Env} {before : List (Committed Changes)}
    {f f' : RcsFilter.State} {a : Act} {c : Committed Changes} (h : Vetted P ctx before f c)
    (hstep : RcsFilter.step env f a = some f') :
    Vetted P ctx before f' c := by
  rcases h with h | h | ⟨call, hcall, logs, hlogs, hinput, hr⟩
  · exact .inl h
  · exact .inr (.inl h)
  · refine .inr (.inr ⟨call, ?_, logs, hlogs, hinput, hr⟩)
    rcases hr with hr | hr
    · exact returned_step hstep hcall hr
    · exact returned_step hstep hcall hr

/-- The call of an index keeps its input. -/
theorem input_step {env : RcsFilter.Env} {f f' : RcsFilter.State} {a : Act} {n : Nat} {call : Call}
    (h : RcsFilter.step env f a = some f') (hn : f.calls[n]? = some call) :
    ∃ call', f'.calls[n]? = some call' ∧ call'.input = call.input := by
  rcases step_call h hn with hsame | ⟨now, next, -, hadvance, -, hnext⟩
  · exact ⟨call, hsame, rfl⟩
  · exact ⟨next.2, hnext, (advance_sections hadvance).1⟩

/-! ## The round so far -/

theorem runTxLoop_ok {limits : TransactionLimits} {s' : LoopState Db Changes} :
    ∀ {cvs : List (Candidate × Verdicts)} {s : LoopState Db Changes},
      cvs.foldlM (considerTx P ctx limits) s = .ok s' →
      runTxLoop P ctx limits s cvs = (s', .exhausted)
  | [], s, h => by
    cases h
    rfl
  | cv :: rest, s, h => by
    rw [foldlM_cons] at h
    unfold runTxLoop
    cases hstep : considerTx P ctx limits s cv with
    | error e =>
      rw [hstep] at h
      cases h
    | ok next =>
      rw [hstep] at h
      exact runTxLoop_ok h

theorem runTxLoop_error {limits : TransactionLimits} {s' : LoopState Db Changes}
    {cv : Candidate × Verdicts} {e : LoopEnd} (he : considerTx P ctx limits s' cv = .error e) :
    ∀ {cvs : List (Candidate × Verdicts)} {s : LoopState Db Changes},
      cvs.foldlM (considerTx P ctx limits) s = .ok s' →
      runTxLoop P ctx limits s (cvs ++ [cv]) = (s', e)
  | [], s, h => by
    cases h
    simp [runTxLoop, he]
  | cv' :: rest, s, h => by
    rw [foldlM_cons] at h
    rw [List.cons_append]
    unfold runTxLoop
    cases hstep : considerTx P ctx limits s cv' with
    | error e' =>
      rw [hstep] at h
      cases h
    | ok next =>
      rw [hstep] at h
      exact runTxLoop_error he h

variable (P ctx) in
/-- The flashblock in progress is `run_tx_loop` on the candidates considered so far, with the
    verdicts they were given; an open call is one of the filter's. -/
structure FlashblockWork.Inv (before : List (Committed Changes)) (filter : RcsFilter.State)
    (build : BuildState Db Changes) (w : FlashblockWork Db Changes) : Prop where
  limits : w.limits = turnTransactionLimits P ctx build w.turn
  round : runTxLoop P ctx w.limits (startLoop P ctx build w.turn) w.turn.candidates =
    (w.loop, w.ended.getD .exhausted)
  going : w.ended = none → w.turn.candidates.foldlM (considerTx P ctx w.limits)
    (startLoop P ctx build w.turn) = .ok w.loop
  inspector : w.loop.inspector = ctx.filter.map RcsInspector.new
  screening : ∀ q ∈ w.screening, w.ended = none ∧
    screenedLogs P ctx w.limits w.loop q.candidate q.cancelled q.preScreen = some q.logs ∧
    ∃ call, filter.calls[q.call]? = some call ∧
      call.input = screenInput P ctx q.candidate.tx q.logs
  vetted : ctx.filter.isSome = true → ∀ c ∈ w.loop.exec.history, Vetted P ctx before filter c

/-- Builder transactions need no verdict. -/
theorem addBuilderTxs_vetted {before : List (Committed Changes)} {filter : RcsFilter.State}
    {x : Exec Db Changes}
    (h : ∀ c ∈ x.history, Vetted P ctx before filter c) (topOfBlock : Bool)
    (simulated : Option (List BuilderTransactionCtx)) :
    ∀ c ∈ (addBuilderTxs P ctx topOfBlock x simulated).1.history, Vetted P ctx before filter c := by
  obtain ⟨bs, cs, -, hcs, -, hresult⟩ := addBuilderTxs_appends P ctx topOfBlock x simulated
  rw [hresult]
  clear hresult
  induction hcs generalizing x with
  | nil => exact h
  | cons hb _ ih =>
    refine ih (fun c hc => ?_)
    rcases List.mem_append.mp hc with hc | hc
    · exact h c hc
    · rw [List.mem_singleton.mp hc]
      exact .inr (.inl hb.source)

theorem FlashblockWork.inv_start {before : List (Committed Changes)} {filter : RcsFilter.State}
    {build : BuildState Db Changes} (t : Turn)
    (h : ctx.filter.isSome = true → ∀ c ∈ build.exec.history, Vetted P ctx before filter c) :
    (FlashblockWork.start P ctx build t).Inv P ctx before filter build where
  limits := rfl
  round := rfl
  going _ := rfl
  inspector := rfl
  screening q hq := by cases hq
  vetted hfilter := addBuilderTxs_vetted (h hfilter) true t.topSimulated

/-- A step of the filter. -/
theorem FlashblockWork.Inv.filter_step {env : RcsFilter.Env} {before : List (Committed Changes)}
    {f f' : RcsFilter.State} {a : Act} {build : BuildState Db Changes}
    {w : FlashblockWork Db Changes} (h : w.Inv P ctx before f build)
    (hstep : RcsFilter.step env f a = some f') : w.Inv P ctx before f' build where
  limits := h.limits
  round := h.round
  going := h.going
  inspector := h.inspector
  screening q hq := by
    obtain ⟨hended, hlogs, call, hcall, hinput⟩ := h.screening q hq
    obtain ⟨call', hcall', hinput'⟩ := input_step hstep hcall
    exact ⟨hended, hlogs, call', hcall', hinput'.trans hinput⟩
  vetted hfilter c hc := (h.vetted hfilter c hc).step hstep

/-- **One candidate is judged**: where the verdict lets it pass, a call has returned that verdict
    for it and its logs. -/
theorem FlashblockWork.Inv.judge {before : List (Committed Changes)} {filter : RcsFilter.State}
    {build : BuildState Db Changes}
    {w : FlashblockWork Db Changes} {c : Candidate} {v : Verdicts}
    (h : w.Inv P ctx before filter build)
    (hended : w.ended = none)
    (hverdict : ∀ logs, screenedLogs P ctx w.limits w.loop c v.cancelled v.preScreen = some logs →
      v.screenTx logs = .allow ∨ v.screenTx logs = .auditApproved →
      ∃ call ∈ filter.calls, call.input = screenInput P ctx c.tx logs ∧
        call.result = some (v.screenTx logs)) :
    (w.judge P ctx c v).Inv P ctx before filter build := by
  have hgoing := h.going hended
  unfold FlashblockWork.judge
  dsimp only
  cases hstep : considerTx P ctx w.limits w.loop (c, v) with
  | error e =>
    exact
      { limits := h.limits
        round := runTxLoop_error hstep hgoing
        going := fun hnone => by cases hnone
        inspector := h.inspector
        screening := fun q hq => by cases hq
        vetted := h.vetted }
  | ok loop =>
    have hfold : (w.turn.candidates ++ [(c, v)]).foldlM (considerTx P ctx w.limits)
        (startLoop P ctx build w.turn) = .ok loop := by
      rw [foldlM_append, hgoing]
      show (considerTx P ctx w.limits w.loop (c, v)).bind (fun s => .ok s) = .ok loop
      rw [hstep]
      rfl
    refine
      { limits := h.limits
        round := ?_
        going := fun _ => hfold
        inspector := considerTx_inspector h.inspector hstep
        screening := fun q hq => by cases hq
        vetted := fun hfilter => ?_ }
    · show runTxLoop P ctx w.limits _ _ = (loop, w.ended.getD .exhausted)
      rw [hended]
      exact runTxLoop_ok hfold
    · show ∀ c' ∈ loop.exec.history, Vetted P ctx before filter c'
      rcases considerTx_adds hfilter h.inspector hstep with hsame |
        ⟨committed, logs, hhistory, htx, hcapture, hlogs, hpass⟩
      · rw [hsame]
        exact h.vetted hfilter
      · intro c' hc'
        rw [hhistory] at hc'
        rcases List.mem_append.mp hc' with hc' | hc'
        · exact h.vetted hfilter c' hc'
        · rw [List.mem_singleton.mp hc']
          obtain ⟨call, hcall, hinput, hresult⟩ := hverdict logs hlogs hpass
          refine .inr (.inr ⟨call, hcall, logs, hcapture, htx ▸ hinput, ?_⟩)
          rcases hpass with hpass | hpass
          · exact .inl (hpass ▸ hresult)
          · exact .inr (hpass ▸ hresult)

/-- The rest of the turn is that of `build_next_flashblock`. -/
theorem FlashblockWork.Inv.finish_eq {before : List (Committed Changes)} {filter : RcsFilter.State}
    {build : BuildState Db Changes}
    {w : FlashblockWork Db Changes} (h : w.Inv P ctx before filter build) :
    w.finish P ctx build = buildNextFlashblock P ctx build w.turn := by
  have hround : turnRound P ctx build w.turn = (w.loop, w.ended.getD .exhausted) := by
    unfold turnRound executeBestTransactions
    rw [← h.limits]
    exact h.round
  have hended : w.ended.getD .exhausted = .evmError ↔ w.ended = some .evmError := by
    cases w.ended with
    | none => simp
    | some e => simp
  rw [buildNextFlashblock_eq]
  unfold FlashblockWork.finish turnBottom
  rw [hround]
  simp only [hended, h.limits]

theorem FlashblockWork.Inv.finish_vetted {before : List (Committed Changes)}
    {filter : RcsFilter.State} {build : BuildState Db Changes}
    {w : FlashblockWork Db Changes} (h : w.Inv P ctx before filter build)
    (hfilter : ctx.filter.isSome = true) :
    ∀ c ∈ (w.finish P ctx build).1.exec.history, Vetted P ctx before filter c := by
  unfold FlashblockWork.finish
  split_ifs
  · exact h.vetted hfilter
  · exact h.vetted hfilter
  · dsimp only
    rw [(finishFlashblock_cases _ _ _ _ (Prod.eta _).symm).1]
    exact addBuilderTxs_vetted (h.vetted hfilter) false w.turn.bottomSimulated

/-! ## Runs of the system -/

variable (P ctx) in
/-- The block so far is that of turns of the loop, and what it has from the pool was let pass. -/
structure Sequencer.Inv (start : BuildState Db Changes) (s : Sequencer Db Changes) : Prop where
  turns : s.closed = none → ∃ turns, TurnsFrom P ctx start turns s.build
  last : ∀ e, s.closed = some e → e ≠ .built ∧ ∃ turns t s₁, TurnsFrom P ctx start turns s₁ ∧
    s₁.fbState.flashblockIndex ≤ s₁.fbState.targetFlashblockCount ∧
    buildNextFlashblock P ctx s₁ t = (s.build, e)
  work : ∀ w ∈ s.work, s.closed = none ∧
    s.build.fbState.flashblockIndex ≤ s.build.fbState.targetFlashblockCount ∧
    w.Inv P ctx start.exec.history s.filter s.build
  vetted : ctx.filter.isSome = true → ∀ c ∈ s.build.exec.history,
    Vetted P ctx start.exec.history s.filter c

theorem Sequencer.inv_start (filter : RcsFilter.State) (start : BuildState Db Changes) :
    (Sequencer.start filter start).Inv P ctx start where
  turns _ := ⟨[], .start⟩
  last e he := by cases he
  work w hw := by cases hw
  vetted _ _ hc := .inl hc

/-- A flashblock in progress is replaced. -/
theorem Sequencer.Inv.withWork {start : BuildState Db Changes} {s : Sequencer Db Changes}
    {w w' : FlashblockWork Db Changes} (h : s.Inv P ctx start) (hw : s.work = some w)
    (hw' : w'.Inv P ctx start.exec.history s.filter s.build) :
    ({ s with work := some w' }).Inv P ctx start where
  turns := h.turns
  last := h.last
  work w'' hw'' := by
    cases hw''
    obtain ⟨hopen, hindex, -⟩ := h.work w hw
    exact ⟨hopen, hindex, hw'⟩
  vetted := h.vetted

theorem Sequencer.Inv.filter_step {env : RcsFilter.Env} {start : BuildState Db Changes}
    {s : Sequencer Db Changes} {a : Act} {f' : RcsFilter.State} (h : s.Inv P ctx start)
    (hstep : RcsFilter.step env s.filter a = some f') :
    ({ s with filter := f' }).Inv P ctx start where
  turns := h.turns
  last := h.last
  work w hw := by
    obtain ⟨hopen, hindex, hinv⟩ := h.work w hw
    exact ⟨hopen, hindex, hinv.filter_step hstep⟩
  vetted hfilter c hc := (h.vetted hfilter c hc).step hstep

/-- The builder considers a candidate: a call of the filter is opened, or the candidate is done
    with. -/
theorem Sequencer.Inv.consider (env : RcsFilter.Env) {start : BuildState Db Changes}
    {s : Sequencer Db Changes} {w : FlashblockWork Db Changes} (h : s.Inv P ctx start)
    (hw : s.work = some w) (hended : w.ended = none) (c : Candidate) (cancelled : Bool) :
    (s.consider P ctx w c cancelled).Inv P ctx start := by
  have hinv := (h.work w hw).2.2
  unfold Sequencer.consider
  dsimp only
  split
  · rename_i logs hlogs
    have hscreen : RcsFilter.step env s.filter (.screen (screenInput P ctx c.tx logs)) =
        some { s.filter with
          calls := s.filter.calls ++ [Call.start (screenInput P ctx c.tx logs)] } := rfl
    have hafter := h.filter_step hscreen
    refine hafter.withWork hw ?_
    have hwork := (hafter.work w hw).2.2
    exact
      { limits := hwork.limits
        round := hwork.round
        going := hwork.going
        inspector := hwork.inspector
        vetted := hwork.vetted
        screening := fun q hq => by
          cases hq
          exact ⟨hended, hlogs, _, List.getElem?_concat_length, rfl⟩ }
  · rename_i hlogs
    refine h.withWork hw (hinv.judge hended (fun logs hlogs' => ?_))
    rw [hlogs] at hlogs'
    cases hlogs'

theorem Sequencer.Inv.resume {start : BuildState Db Changes} {s : Sequencer Db Changes}
    {w : FlashblockWork Db Changes} {q : Screening} {call : Call} {r : Screen}
    (h : s.Inv P ctx start) (hw : s.work = some w) (hq : w.screening = some q)
    (hcall : s.filter.calls[q.call]? = some call) (hr : call.result = some r) :
    ({ s with
      work := some (w.judge P ctx q.candidate ⟨q.cancelled, q.preScreen, fun _ => r⟩) }).Inv
        P ctx start := by
  have hinv := (h.work w hw).2.2
  obtain ⟨hended, hlogs, call', hcall', hinput⟩ := hinv.screening q hq
  rw [hcall, Option.some.injEq] at hcall'
  subst hcall'
  refine h.withWork hw (hinv.judge hended (fun logs hlogs' _ => ?_))
  rw [hlogs, Option.some.injEq] at hlogs'
  subst hlogs'
  exact ⟨call, List.mem_of_getElem? hcall, hinput, hr⟩

theorem Sequencer.Inv.finishTurn {start : BuildState Db Changes} {s : Sequencer Db Changes}
    {w : FlashblockWork Db Changes} (h : s.Inv P ctx start) (hw : s.work = some w) :
    (s.finishTurn P ctx w).Inv P ctx start := by
  obtain ⟨hopen, hindex, hinv⟩ := h.work w hw
  obtain ⟨turns, hturns⟩ := h.turns hopen
  have hfinish := hinv.finish_eq
  have hvetted := fun hfilter => hinv.finish_vetted hfilter
  unfold Sequencer.finishTurn
  cases hend : w.finish P ctx s.build with
  | mk build turnEnd =>
    rw [hend] at hfinish hvetted
    refine
      { turns := fun hnone => ?_
        last := fun e he => ?_
        work := fun w' hw' => by cases hw'
        vetted := hvetted }
    · have hbuilt : turnEnd = .built := by
        by_contra hne
        simp [hne] at hnone
      exact ⟨turns ++ [w.turn], .turn hturns hindex (hbuilt ▸ hfinish.symm)⟩
    · by_cases hbuilt : turnEnd = .built
      · simp [hbuilt] at he
      · simp only [if_neg hbuilt, Option.some.injEq] at he
        subst he
        exact ⟨hbuilt, turns, w.turn, s.build, hturns, hindex, hfinish.symm⟩

theorem Sequencer.Inv.step {env : RcsFilter.Env} {start : BuildState Db Changes}
    {s s' : Sequencer Db Changes} {a : SequencerAct} (h : s.Inv P ctx start)
    (hstep : s.step P ctx env a = some s') : s'.Inv P ctx start := by
  cases a with
  | filter a =>
    obtain ⟨f', hf, rfl⟩ := Option.map_eq_some_iff.mp hstep
    exact h.filter_step hf
  | startTurn t =>
    simp only [Sequencer.step] at hstep
    split_ifs at hstep with henabled
    cases hstep
    simp only [Bool.and_eq_true, Option.isNone_iff_eq_none, decide_eq_true_eq] at henabled
    obtain ⟨⟨-, hopen⟩, hindex⟩ := henabled
    exact
      { turns := h.turns
        last := h.last
        work := fun w hw => by
          cases hw
          exact ⟨hopen, hindex, FlashblockWork.inv_start t h.vetted⟩
        vetted := h.vetted }
  | consider c cancelled =>
    obtain ⟨w, hw, hstep⟩ := Option.bind_eq_some_iff.mp hstep
    split_ifs at hstep with hbusy
    cases hstep
    simp only [Bool.or_eq_true, not_or, Bool.not_eq_true, Option.isSome_eq_false_iff,
      Option.isNone_iff_eq_none] at hbusy
    exact h.consider env hw hbusy.2 c cancelled
  | resume =>
    obtain ⟨w, hw, hstep⟩ := Option.bind_eq_some_iff.mp hstep
    obtain ⟨q, hq, hstep⟩ := Option.bind_eq_some_iff.mp hstep
    obtain ⟨r, hr, rfl⟩ := Option.map_eq_some_iff.mp hstep
    obtain ⟨call, hcall, hr⟩ := Option.bind_eq_some_iff.mp hr
    exact h.resume hw hq hcall hr
  | finishTurn =>
    obtain ⟨w, hw, hstep⟩ := Option.bind_eq_some_iff.mp hstep
    split_ifs at hstep with hbusy
    cases hstep
    exact h.finishTurn hw

theorem Sequencer.run_inv {env : RcsFilter.Env} {filter : RcsFilter.State}
    {start : BuildState Db Changes} {acts : List SequencerAct} {s : Sequencer Db Changes}
    (hrun : (Sequencer.start filter start).run P ctx env acts = some s) : s.Inv P ctx start :=
  runFrom_induction (fun _ s => s.Inv P ctx start) (Sequencer.inv_start filter start)
    (fun _ _ _ _ _ hinv hstep => hinv.step hstep) acts s hrun

/-- The filter only does what it can do by itself. -/
theorem filter_simulated (env : RcsFilter.Env) :
    Simulates (Sequencer.step P ctx env) (RcsFilter.step env) (fun s f => f = s.filter) := by
  refine Simulates.ofMap Sequencer.filter (fun s a s' hstep => ?_)
  cases a with
  | filter a =>
    obtain ⟨f', hf, rfl⟩ := Option.map_eq_some_iff.mp hstep
    exact ⟨[a], (runFrom_singleton _ _).trans hf⟩
  | startTurn t =>
    simp only [Sequencer.step] at hstep
    split_ifs at hstep
    cases hstep
    exact ⟨[], rfl⟩
  | consider c cancelled =>
    obtain ⟨w, hw, hstep⟩ := Option.bind_eq_some_iff.mp hstep
    split_ifs at hstep
    cases hstep
    unfold Sequencer.consider
    dsimp only
    split
    · rename_i logs _
      exact ⟨[.screen (screenInput P ctx c.tx logs)], rfl⟩
    · exact ⟨[], rfl⟩
  | resume =>
    obtain ⟨w, hw, hstep⟩ := Option.bind_eq_some_iff.mp hstep
    obtain ⟨q, hq, hstep⟩ := Option.bind_eq_some_iff.mp hstep
    obtain ⟨r, hr, rfl⟩ := Option.map_eq_some_iff.mp hstep
    exact ⟨[], rfl⟩
  | finishTurn =>
    obtain ⟨w, hw, hstep⟩ := Option.bind_eq_some_iff.mp hstep
    split_ifs at hstep
    cases hstep
    exact ⟨[], rfl⟩

/-! ## What the block shows -/

/-- The loop goes through turns that are built. -/
theorem TurnsFrom.loop_eq {start s : BuildState Db Changes} {turns : List Turn}
    (h : TurnsFrom P ctx start turns s) (more : List Turn) :
    flashblocksLoop P ctx start (turns ++ more) = flashblocksLoop P ctx s more := by
  induction h generalizing more with
  | start => rfl
  | @turn turns s₁ s₂ t _ hindex hturn ih =>
    rw [List.append_assoc, ih, List.singleton_append, flashblocksLoop,
      if_neg (Nat.not_lt.mpr hindex), hturn]

/-- Every published transaction was executed, and every executed one is on record. -/
structure BuildState.Shows (s : BuildState Db Changes) : Prop where
  recorded : s.exec.info.executedTransactions = s.exec.history.map (fun c => c.tx.tx)
  published : ∀ flashblock ∈ s.published, ∀ bytes ∈ flashblock.transactions,
    ∃ tx ∈ s.exec.info.executedTransactions, tx.encoded = bytes

theorem BuildState.Shows.turn {s s' : BuildState Db Changes} {t : Turn} {turnEnd : TurnEnd}
    (h : s.Shows) (hturn : buildNextFlashblock P ctx s t = (s', turnEnd)) : s'.Shows := by
  obtain ⟨hreaches, hcases⟩ := buildNextFlashblock_cases s t hturn
  have hgrows := hreaches.prefix_transactions.subset
  have hbefore : ∀ flashblock ∈ s.published, ∀ bytes ∈ flashblock.transactions,
      ∃ tx ∈ s'.exec.info.executedTransactions, tx.encoded = bytes := by
    intro flashblock hflashblock bytes hbytes
    obtain ⟨tx, htx, heq⟩ := h.published flashblock hflashblock bytes hbytes
    exact ⟨tx, hgrows htx, heq⟩
  refine ⟨?_, ?_⟩
  · obtain ⟨cs, hcs⟩ := hreaches
    rw [hcs.transactions, hcs.history, h.recorded, List.map_append]
  · rcases hcases with hsilent | hpublished
    · rw [hsilent.published]
      exact hbefore
    · obtain ⟨new, hlist, htransactions⟩ := hpublished.flashblock
      intro flashblock hflashblock bytes hbytes
      rw [hlist] at hflashblock
      rcases List.mem_append.mp hflashblock with hflashblock | hflashblock
      · exact hbefore flashblock hflashblock bytes hbytes
      · rw [List.mem_singleton.mp hflashblock, htransactions] at hbytes
        obtain ⟨tx, htx, heq⟩ := List.mem_map.mp hbytes
        exact ⟨tx, List.mem_of_mem_drop htx, heq⟩

theorem TurnsFrom.shows {start s : BuildState Db Changes} {turns : List Turn}
    (h : TurnsFrom P ctx start turns s) (hstart : start.Shows) : s.Shows := by
  induction h with
  | start => exact hstart
  | turn _ _ hturn ih => exact ih.turn hturn

/-- The block so far is one that the loop builds. -/
theorem Sequencer.Inv.loop_eq {start : BuildState Db Changes} {s : Sequencer Db Changes}
    (h : s.Inv P ctx start) : ∃ turns, flashblocksLoop P ctx start turns = s.build := by
  cases hclosed : s.closed with
  | none =>
    obtain ⟨turns, hturns⟩ := h.turns hclosed
    refine ⟨turns, ?_⟩
    have heq := hturns.loop_eq []
    rwa [List.append_nil] at heq
  | some e =>
    obtain ⟨hne, turns, t, s₁, hturns, hindex, hlast⟩ := h.last e hclosed
    refine ⟨turns ++ [t], ?_⟩
    rw [hturns.loop_eq, flashblocksLoop, if_neg (Nat.not_lt.mpr hindex), hlast]
    cases e with
    | built => exact absurd rfl hne
    | cancelled => rfl
    | failed => rfl

theorem Sequencer.Inv.shows {start : BuildState Db Changes} {s : Sequencer Db Changes}
    (h : s.Inv P ctx start) (hstart : start.Shows) : s.build.Shows := by
  cases hclosed : s.closed with
  | none =>
    obtain ⟨turns, hturns⟩ := h.turns hclosed
    exact hturns.shows hstart
  | some e =>
    obtain ⟨-, turns, t, s₁, hturns, -, hlast⟩ := h.last e hclosed
    exact (hturns.shows hstart).turn hlast

/-- The fallback block shows what it executed. -/
theorem FallbackRun.start_shows {builder : BuilderConfig} {config : FlashblocksConfig}
    {i : RunInputs Db} (r : FallbackRun P builder config i) : r.start.Shows := by
  obtain ⟨db₁, -, cs, hcs⟩ : ∃ db₁,
      P.applyPreExecutionChanges r.ctx.parent r.ctx.blockEnvAttributes r.db = some db₁ ∧
        (⟨ExecutionInfo.new, db₁, []⟩ : Exec Db Changes).Reaches P r.ctx r.exec := by
    obtain ⟨db₁, hdb, hreaches⟩ := executePreSteps_reaches r.preSteps
    refine ⟨db₁, hdb, hreaches.trans ?_⟩
    unfold FallbackRun.exec executeFallback
    split
    · exact executeCachedFlashblocksTransactions_reaches _ _
    · split_ifs
      · exact .refl _
      · exact addBuilderTxs_reaches false _ _
  refine ⟨?_, ?_⟩
  · show r.exec.info.executedTransactions = r.exec.history.map (fun c => c.tx.tx)
    rw [hcs.transactions, hcs.history]
    rfl
  · intro flashblock hflashblock bytes hbytes
    have heq : flashblock = r.flashblock := List.mem_singleton.mp hflashblock
    rw [heq, (tryBuildBlock_eq_ok r.built).2.1] at hbytes
    obtain ⟨tx, htx, henc⟩ := List.mem_map.mp hbytes
    exact ⟨tx, List.mem_of_mem_drop htx, henc⟩

/-- With the filter enabled the fallback block has no transaction of the pool, and none that was
    executed elsewhere. -/
theorem FallbackRun.start_sources {builder : BuilderConfig} {config : FlashblocksConfig}
    {i : RunInputs Db} (r : FallbackRun P builder config i) (hfilter : r.ctx.filter.isSome = true) :
    ∀ c ∈ r.start.exec.history, c.source = .sequencer ∨ c.source = .builder := by
  have hpre : ∀ c ∈ r.pre.history, c.source = .sequencer ∨ c.source = .builder := by
    obtain ⟨db₁, hdb⟩ := executePreSteps_changes r.preSteps
    refine executePreSteps_rule
      (fun x => ∀ c ∈ x.history, c.source = .sequencer ∨ c.source = .builder)
      (fun x c hx hsource _ _ c' hc' => ?_) (fun x _ hx => hx) hdb r.preSteps
      (fun c hc => by cases hc)
    rcases List.mem_append.mp hc' with hc' | hc'
    · exact hx c' hc'
    · rw [List.mem_singleton.mp hc']
      exact .inl hsource
  have hcached : cachedSequence r.ctx i.cachedTxs = none := by simp [cachedSequence, hfilter]
  show ∀ c ∈ (executeFallback P r.ctx i r.pre).history, _
  unfold executeFallback
  rw [hcached]
  dsimp only
  split_ifs
  · exact hpre
  · obtain ⟨bs, cs, -, hcs, -, hresult⟩ :=
      addBuilderTxs_appends P r.ctx false r.pre i.simulated
    rw [hresult]
    clear hresult
    have hbuilder : ∀ c ∈ cs, c.source = .builder := by
      intro c hc
      obtain ⟨b, -, hb⟩ := BuilderTransactionCtx.forall_committedAs hcs c hc
      exact hb.source
    have hfold : ∀ (cs : List (Committed Changes)) (x : Exec Db Changes),
        (cs.foldl (Exec.append P r.ctx) x).history = x.history ++ cs := by
      intro cs
      induction cs with
      | nil => simp
      | cons c cs ih =>
        intro x
        rw [List.foldl_cons, ih]
        simp [Exec.append]
    intro c hc
    rw [hfold] at hc
    rcases List.mem_append.mp hc with hc | hc
    · exact hpre c hc
    · exact .inr (hbuilder c hc)

/-! ## Packaging safety, end to end -/

/-- **Every transaction of the pool in a published flashblock was released by the filter**, whatever
    is interleaved with the building: the block is one that the loop of `build_payload` builds, and
    each published transaction is one of the sequencer, one of the builder, or one for which a
    `screen_tx` call, made with the complete capture of the very execution that is in the block,
    returned `Allow` or `AuditApproved` with the evidence for it. -/
theorem published_released (env : RcsFilter.Env) (builder : BuilderConfig)
    (config : FlashblocksConfig) (i : RunInputs Db) (r : FallbackRun P builder config i)
    (hfilter : r.ctx.filter.isSome = true) (before : List Act) (filter : RcsFilter.State)
    (hbefore : RcsFilter.run env .new before = some filter) (acts : List SequencerAct)
    (s : Sequencer Db Changes)
    (hrun : (Sequencer.start filter r.start).run P r.ctx env acts = some s) :
    (∃ turns, flashblocksLoop P r.ctx r.start turns = s.build) ∧
    ∀ flashblock ∈ s.build.published, ∀ bytes ∈ flashblock.transactions,
      ∃ c ∈ s.build.exec.history, c.tx.tx.encoded = bytes ∧
        (c.source = .sequencer ∨ c.source = .builder ∨ Released P r.ctx env s.filter c) := by
  have hinv : s.Inv P r.ctx r.start := Sequencer.run_inv hrun
  have hreached : ∃ acts, RcsFilter.run env .new acts = some s.filter := by
    obtain ⟨more, hmore⟩ := (filter_simulated env).run_map hrun
    refine ⟨before ++ more, ?_⟩
    rw [RcsFilter.run_append, hbefore, Option.bind_some, run_eq_runFrom]
    exact hmore
  obtain ⟨all, hall⟩ := hreached
  refine ⟨hinv.loop_eq, fun flashblock hflashblock bytes hbytes => ?_⟩
  have hshows := hinv.shows r.start_shows
  obtain ⟨tx, htx, heq⟩ := hshows.published flashblock hflashblock bytes hbytes
  rw [hshows.recorded] at htx
  obtain ⟨c, hc, rfl⟩ := List.mem_map.mp htx
  refine ⟨c, hc, heq, ?_⟩
  rcases hinv.vetted hfilter c hc with hstart | hbuilder | hpassed
  · rcases r.start_sources hfilter c hstart with hsource | hsource
    · exact .inl hsource
    · exact .inr (.inl hsource)
  · exact .inr (.inl hbuilder)
  · exact .inr (.inr (hpassed.released hall))

end

namespace Sample

/-- Every transaction moves 5 tokens, and the filter allows for one native transfer. -/
def screenedRun : FallbackRun moving { config with filter := some 1 } synchronous (run none) :=
  (FallbackRun.ofInputs _ _ _ _).get (by decide +kernel)

/-- One transfer is considered, and screened under rules that are not loaded yet, while the timeout
    worker ticks. -/
def screenedActs : List SequencerAct :=
  [.startTurn ⟨some [], [], false, some [], none, true, true⟩, .consider (transfer 7) false,
    .filter (.callStep 0 0), .filter (.timeoutTick 1), .filter (.callStep 0 1),
    .filter (.callStep 0 1), .resume, .finishTurn]

theorem screenedRun_released :
    ∃ s, (Sequencer.start .new screenedRun.start).run moving screenedRun.ctx transferEnv
        screenedActs = some s ∧
      s.build.published.map (fun flashblock => flashblock.transactions.length) = [1, 1] ∧
      ∀ flashblock ∈ s.build.published, ∀ bytes ∈ flashblock.transactions,
        ∃ c ∈ s.build.exec.history, c.tx.tx.encoded = bytes ∧ (c.source = .sequencer ∨
          c.source = .builder ∨ Released moving screenedRun.ctx transferEnv s.filter c) := by
  have hrun : ((Sequencer.start .new screenedRun.start).run moving screenedRun.ctx transferEnv
      screenedActs).map (fun s => s.build.published.map
        (fun flashblock => flashblock.transactions.length)) = some [1, 1] := by decide
  obtain ⟨s, hs, hpublished⟩ := Option.map_eq_some_iff.mp hrun
  exact ⟨s, hs, hpublished, (published_released transferEnv _ _ _ screenedRun (by decide)
    [] .new rfl screenedActs s hs).2⟩

end Sample

end XLayerReth.Builder
