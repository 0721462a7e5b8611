import XLayerReth.Builder.ExecutionSpec
import XLayerReth.Builder.Payload

/-!
# Preconfirmed transactions

A published flashblock shows its transactions to users before the block is final.  The invariant of
a run is that the flashblocks published so far spell out the transactions of the best payload: each
turn publishes the transactions added since the last one, and takes the block it published as the
best payload.

* `BuildState.Consistent` — the invariant, kept by every turn that succeeds.
* `resolveBestPayload_cases` — what is stored: the best payload, or the fallback.
* `buildPayload_preconfirmed` — what users were shown is what the stored payload begins with, unless
  the state root has to be calculated at the end and cannot be.
-/

set_option autoImplicit false

namespace XLayerReth.Builder

open RcsFilter

/-- The transactions shown to users, in order. -/
def preconfirmed (published : List Flashblock) : List (List UInt8) :=
  published.flatMap Flashblock.transactions

/-- The transactions of the block, as they are published. -/
def BuiltPayload.encodedTransactions (payload : BuiltPayload) : List (List UInt8) :=
  payload.transactions.map Tx.encoded

@[simp]
theorem preconfirmed_append (published : List Flashblock) (flashblock : Flashblock) :
    preconfirmed (published ++ [flashblock]) =
      preconfirmed published ++ flashblock.transactions := by
  simp [preconfirmed]

section

variable {Db Changes Env : Type} {P : Platform Db Changes Env} {ctx : BuilderCtx Env}

/-! ## One block -/

/-- A block was built: its header, its payload and its flashblock. -/
theorem tryBuildBlock_built {buildError : Option BuildError} {info : ExecutionInfo} {db : Db}
    {fb fb' : FlashblocksState} {calculateStateRoot : Bool} {payload : BuiltPayload}
    {flashblock : Flashblock}
    (h : tryBuildBlock P ctx buildError info db fb calculateStateRoot =
      .ok (payload, flashblock, fb')) :
    ∃ header beaconRoot, buildHeader P ctx info db calculateStateRoot = .ok header ∧
      payload = ⟨header, P.blockHash header, info.executedTransactions, info.executedSenders,
        info.totalFees, info.receipts⟩ ∧
      flashblock = buildFlashblock P ctx info header fb.lastFlashblockTxIndex beaconRoot ∧
      fb' = { fb with lastFlashblockTxIndex := info.executedTransactions.length } := by
  unfold tryBuildBlock at h
  cases buildError with
  | some e => cases h
  | none =>
    cases hbuild : buildBlock P ctx info db (some fb) calculateStateRoot with
    | error e => simp [hbuild] at h
    | ok block =>
      obtain ⟨payload₁, flashblock₁, fb₁⟩ := block
      simp only [hbuild, Except.ok.injEq, Prod.mk.injEq] at h
      obtain ⟨rfl, rfl, rfl⟩ := h
      obtain ⟨header, beaconRoot, hheader, -, rfl, rfl, rfl⟩ := buildBlock_eq_ok.mp hbuild
      exact ⟨header, beaconRoot, hheader, rfl, rfl, rfl⟩

/-- A block has all executed transactions, and its flashblock those that are new. -/
theorem tryBuildBlock_eq_ok {buildError : Option BuildError} {info : ExecutionInfo} {db : Db}
    {fb fb' : FlashblocksState} {calculateStateRoot : Bool} {payload : BuiltPayload}
    {flashblock : Flashblock}
    (h : tryBuildBlock P ctx buildError info db fb calculateStateRoot =
      .ok (payload, flashblock, fb')) :
    payload.transactions = info.executedTransactions ∧
      flashblock.transactions =
        (info.executedTransactions.drop fb.lastFlashblockTxIndex).map Tx.encoded ∧
      fb'.lastFlashblockTxIndex = info.executedTransactions.length := by
  obtain ⟨header, beaconRoot, -, rfl, rfl, rfl⟩ := tryBuildBlock_built h
  exact ⟨rfl, rfl, rfl⟩

/-! ## The loop -/

/-- What was published is the best payload, and nothing of it was taken back. -/
structure BuildState.Consistent (s : BuildState Db Changes) : Prop where
  shown : preconfirmed s.published = s.bestPayload.1.encodedTransactions
  executed : s.bestPayload.1.transactions <+: s.exec.info.executedTransactions
  lastIndex : s.fbState.lastFlashblockTxIndex = s.bestPayload.1.transactions.length

/-- How a turn ends: nothing was published, or the new transactions were, and then only a failed
    send keeps the block from being the best payload. -/
structure TurnPublished (s s' : BuildState Db Changes) (t : Turn) (turnEnd : TurnEnd) : Prop where
  publishes : t.publishes = true
  flashblock : ∃ flashblock, s'.published = s.published ++ [flashblock] ∧
    flashblock.transactions =
      (s'.exec.info.executedTransactions.drop s.fbState.lastFlashblockTxIndex).map Tx.encoded
  taken : t.sends = true → turnEnd = .built ∧
    s'.bestPayload.1.transactions = s'.exec.info.executedTransactions ∧
    s'.fbState.lastFlashblockTxIndex = s'.exec.info.executedTransactions.length

/-- Nothing was published and the best payload is kept. -/
structure TurnSilent (s s' : BuildState Db Changes) (turnEnd : TurnEnd) : Prop where
  ended : turnEnd ≠ .built
  published : s'.published = s.published
  bestPayload : s'.bestPayload = s.bestPayload

theorem finishFlashblock_cases (s : BuildState Db Changes) (t : Turn)
    (targetDa targetDaFootprint : Option Nat) {s' : BuildState Db Changes} {turnEnd : TurnEnd}
    (h : finishFlashblock P ctx s t targetDa targetDaFootprint = (s', turnEnd)) :
    s'.exec = s.exec ∧ (TurnSilent s s' turnEnd ∨ TurnPublished s s' t turnEnd) := by
  unfold finishFlashblock at h
  dsimp only at h
  split at h
  · cases h
    exact ⟨rfl, .inl ⟨by decide, rfl, rfl⟩⟩
  · rename_i payload flashblock fb hbuild
    obtain ⟨hpayload, hnew, hindex⟩ := tryBuildBlock_eq_ok hbuild
    split_ifs at h with hpublishes hsends
    · cases h
      exact ⟨rfl, .inl ⟨by decide, rfl, rfl⟩⟩
    · cases h
      refine ⟨rfl, .inr ⟨by simpa using hpublishes, ⟨_, rfl, hnew⟩, fun hsent => ?_⟩⟩
      simp [hsent] at hsends
    · cases h
      exact ⟨rfl, .inr ⟨by simpa using hpublishes, ⟨_, rfl, hnew⟩, fun _ =>
        ⟨rfl, hpayload, hindex⟩⟩⟩

theorem buildNextFlashblock_cases (s : BuildState Db Changes) (t : Turn)
    {s' : BuildState Db Changes} {turnEnd : TurnEnd}
    (h : buildNextFlashblock P ctx s t = (s', turnEnd)) :
    s.exec.Reaches P ctx s'.exec ∧ (TurnSilent s s' turnEnd ∨ TurnPublished s s' t turnEnd) := by
  unfold buildNextFlashblock at h
  dsimp only at h
  have hround : ∀ limits, s.exec.Reaches P ctx (executeBestTransactions P ctx limits
      (addBuilderTxs P ctx true s.exec t.topSimulated).1 t.candidates).1.exec := fun limits =>
    (addBuilderTxs_reaches true s.exec t.topSimulated).trans
      (executeBestTransactions_reaches limits _ t.candidates)
  split_ifs at h
  · cases h
    exact ⟨hround _, .inl ⟨by decide, rfl, rfl⟩⟩
  · cases h
    exact ⟨hround _, .inl ⟨by decide, rfl, rfl⟩⟩
  · obtain ⟨hexec, hcases⟩ := finishFlashblock_cases _ _ _ _ h
    refine ⟨?_, ?_⟩
    · rw [hexec]
      exact (hround _).trans (addBuilderTxs_reaches false _ t.bottomSimulated)
    · rcases hcases with hsilent | hpublished
      · exact .inl ⟨hsilent.ended, hsilent.published, hsilent.bestPayload⟩
      · exact .inr ⟨hpublished.publishes, hpublished.flashblock, hpublished.taken⟩

/-- What a turn does to the invariant: what was published stays the best payload, and a turn that
    succeeds keeps all of it. -/
theorem BuildState.Consistent.turn {s s' : BuildState Db Changes} {t : Turn} {turnEnd : TurnEnd}
    (hs : s.Consistent) (h : buildNextFlashblock P ctx s t = (s', turnEnd))
    (hsends : t.publishes = true → t.sends = true) :
    preconfirmed s'.published = s'.bestPayload.1.encodedTransactions ∧
      s.published <+: s'.published ∧ (turnEnd = .built → s'.Consistent) := by
  obtain ⟨hreach, hsilent | hpublished⟩ := buildNextFlashblock_cases s t h
  · rw [hsilent.published, hsilent.bestPayload]
    exact ⟨hs.shown, List.prefix_refl _, fun hbuilt => absurd hbuilt hsilent.ended⟩
  · obtain ⟨flashblock, hlist, hnew⟩ := hpublished.flashblock
    obtain ⟨-, hpayload, hindex⟩ := hpublished.taken (hsends hpublished.publishes)
    -- the best payload is what was executed up to the last index
    have hbefore : s.bestPayload.1.transactions =
        s'.exec.info.executedTransactions.take s.fbState.lastFlashblockTxIndex := by
      rw [hs.lastIndex]
      exact List.prefix_iff_eq_take.mp (hs.executed.trans hreach.prefix_transactions)
    have hshown : preconfirmed s'.published = s'.bestPayload.1.encodedTransactions := by
      rw [hlist, preconfirmed_append, hs.shown, hnew, BuiltPayload.encodedTransactions,
        BuiltPayload.encodedTransactions, hbefore, hpayload, ← List.map_append,
        List.take_append_drop]
    refine ⟨hshown, hlist ▸ List.prefix_append _ _, fun _ => ⟨hshown, ?_, ?_⟩⟩
    · rw [hpayload]
    · rw [hindex, hpayload]

variable (P ctx) in
/-- Over the whole loop, what was published is the best payload. -/
theorem flashblocksLoop_shown : ∀ {turns : List Turn} {s : BuildState Db Changes}, s.Consistent →
    (∀ t ∈ turns, t.publishes = true → t.sends = true) →
    preconfirmed (flashblocksLoop P ctx s turns).published =
        (flashblocksLoop P ctx s turns).bestPayload.1.encodedTransactions ∧
      s.published <+: (flashblocksLoop P ctx s turns).published := by
  intro turns
  induction turns with
  | nil => intro s hs _; exact ⟨hs.shown, List.prefix_refl _⟩
  | cons t turns ih =>
    intro s hs hsends
    unfold flashblocksLoop
    split_ifs
    · exact ⟨hs.shown, List.prefix_refl _⟩
    · cases hturn : buildNextFlashblock P ctx s t with
      | mk s' turnEnd =>
        obtain ⟨hshown, hgrows, hbuilt⟩ := hs.turn hturn (hsends t List.mem_cons_self)
        cases turnEnd with
        | built =>
          obtain ⟨hrest, hrestGrows⟩ := ih (hbuilt rfl)
            (fun t' ht' => hsends t' (List.mem_cons_of_mem _ ht'))
          exact ⟨hrest, hgrows.trans hrestGrows⟩
        | cancelled => exact ⟨hshown, hgrows⟩
        | failed => exact ⟨hshown, hgrows⟩

/-! ## The resolution -/

variable (P) in
/-- The best payload has no state root, it has to be calculated now, and cannot be. -/
def StateRootFails (config : FlashblocksConfig) (r : ResolveInputs)
    (bestPayload : BuiltPayload × Db) : Prop :=
  bestPayload.1.header.stateRoot = 0 ∧ config.disableAsyncCalculateStateRoot = true ∧
    (r.stateAvailable = false ∨ r.stateRootError.isSome = true ∨ P.stateRoot bestPayload.2 = none)

/-- What is stored: the transactions of the best payload, or the fallback if the state root
    fails. -/
theorem resolveBestPayload_cases {config : FlashblocksConfig} {r : ResolveInputs}
    {bestPayload : BuiltPayload × Db} {fallbackPayload payload : BuiltPayload}
    (h : resolveBestPayload P config r bestPayload fallbackPayload = some payload) :
    (¬ StateRootFails P config r bestPayload ∧
      payload.transactions = bestPayload.1.transactions) ∨
    (StateRootFails P config r bestPayload ∧ payload = fallbackPayload) := by
  unfold resolveBestPayload at h
  have hcell : r.cellFilled = false := by
    by_contra hfilled
    simp [hfilled] at h
  simp only [hcell, Bool.false_eq_true, if_false] at h
  by_cases hroot : bestPayload.1.header.stateRoot = 0
  · rw [if_neg (not_not_intro hroot)] at h
    unfold StateRootFails
    cases hsync : config.disableAsyncCalculateStateRoot with
    | false =>
      simp only [hsync, Bool.false_eq_true, if_false, ite_self, Option.some.injEq] at h
      exact .inl ⟨by simp, by rw [← h]⟩
    | true =>
      simp only [hsync, if_true] at h
      cases hstate : r.stateAvailable with
      | false =>
        simp only [hstate, Bool.not_false, if_true, Option.some.injEq] at h
        exact .inr ⟨⟨hroot, rfl, .inl rfl⟩, h.symm⟩
      | true =>
        simp only [hstate, Bool.not_true, Bool.false_eq_true, if_false] at h
        cases herror : r.stateRootError with
        | some e =>
          simp only [herror, Option.some.injEq] at h
          exact .inr ⟨⟨hroot, rfl, .inr (.inl rfl)⟩, h.symm⟩
        | none =>
          simp only [herror, resolveZeroStateRoot] at h
          cases hcalculated : P.stateRoot bestPayload.2 with
          | none =>
            simp only [hcalculated, Option.some.injEq] at h
            exact .inr ⟨⟨hroot, rfl, .inr (.inr rfl)⟩, h.symm⟩
          | some root =>
            simp only [hcalculated, Option.some.injEq] at h
            exact .inl ⟨by simp, by rw [← h]; rfl⟩
  · rw [if_pos hroot, Option.some.injEq] at h
    exact .inl ⟨fun hfails => hroot hfails.1, by rw [← h]⟩

/-! ## The whole run -/

/-- The payload that a run stored, seen from the flashblocks it published. -/
def Preconfirms (P : Platform Db Changes Env) (config : FlashblocksConfig) (r : ResolveInputs)
    (outcome : RunOutcome Db) (payload : BuiltPayload) : Prop :=
  ∃ bestPayload fallbackPayload,
    outcome.resolvedFrom = some (bestPayload, fallbackPayload) ∧
    (¬ StateRootFails P config r bestPayload →
      preconfirmed outcome.published <+: payload.encodedTransactions) ∧
    (StateRootFails P config r bestPayload → payload = fallbackPayload ∧
      preconfirmed (outcome.published.take 1) <+: payload.encodedTransactions)

/-- A run that is resolved, from what is known of its best payload and its fallback. -/
theorem RunOutcome.resolved_preconfirms {config : FlashblocksConfig} {r : ResolveInputs}
    {published sent : List Flashblock} {bestPayload : BuiltPayload × Db}
    {fallbackPayload payload : BuiltPayload}
    (hbest : preconfirmed published <+: bestPayload.1.encodedTransactions)
    (hfallback : preconfirmed (published.take 1) <+: fallbackPayload.encodedTransactions)
    (h : (RunOutcome.resolved P config r published sent bestPayload fallbackPayload).stored =
      some payload) :
    Preconfirms P config r
      (RunOutcome.resolved P config r published sent bestPayload fallbackPayload) payload := by
  refine ⟨bestPayload, fallbackPayload, rfl, ?_⟩
  rcases resolveBestPayload_cases h with ⟨hok, htransactions⟩ | ⟨hfails, hpayload⟩
  · refine ⟨fun _ => ?_, fun hfails => absurd hfails hok⟩
    rw [BuiltPayload.encodedTransactions, htransactions]
    exact hbest
  · refine ⟨fun hok => absurd hfails hok, fun _ => ⟨hpayload, ?_⟩⟩
    rw [hpayload]
    exact hfallback

/-- With the pool in use, from a fallback payload whose flashblock shows all of it. -/
theorem buildFlashblocks_preconfirms {config : FlashblocksConfig} {i : RunInputs Db}
    {x : Exec Db Changes} {fallbackPayload payload : BuiltPayload} {flashblock : Flashblock}
    {fb : FlashblocksState} {sent : List Flashblock}
    (hpayload : fallbackPayload.transactions = x.info.executedTransactions)
    (hfirst : flashblock.transactions = fallbackPayload.encodedTransactions)
    (hindex : fb.lastFlashblockTxIndex = x.info.executedTransactions.length)
    (hsends : ∀ t ∈ i.turns, t.publishes = true → t.sends = true)
    (h : (buildFlashblocks P ctx config i x fallbackPayload flashblock fb sent).stored =
      some payload) :
    Preconfirms P config i.resolve
      (buildFlashblocks P ctx config i x fallbackPayload flashblock fb sent) payload := by
  have hshown : preconfirmed [flashblock] = fallbackPayload.encodedTransactions := by
    simp [preconfirmed, hfirst]
  have hstarts : preconfirmed [flashblock] <+: fallbackPayload.encodedTransactions :=
    hshown ▸ List.prefix_refl _
  revert h
  unfold buildFlashblocks
  split
  · intro h
    cases h
  · split
    · intro h
      cases h
    · rename_i scheduler _
      split_ifs
      · exact RunOutcome.resolved_preconfirms hstarts hstarts
      · intro h
        cases h
      · have hstart : (⟨x, firstFbState P ctx fb x.info.daFootprintScalar
            scheduler.targetFlashblocks, (fallbackPayload, x.db), [flashblock], sent⟩ :
            BuildState Db Changes).Consistent :=
          ⟨hshown, hpayload ▸ List.prefix_refl _, by rw [hpayload]; exact hindex⟩
        obtain ⟨hloop, hgrows⟩ := flashblocksLoop_shown P ctx hstart hsends
        have hhead := List.prefix_iff_eq_take.mp hgrows
        exact RunOutcome.resolved_preconfirms (hloop ▸ List.prefix_refl _) (hhead ▸ hstarts)
      · intro h
        cases h

theorem buildPayloadFrom_preconfirms {config : FlashblocksConfig} {i : RunInputs Db}
    {x : Exec Db Changes} {payload : BuiltPayload}
    (hsends : ∀ t ∈ i.turns, t.publishes = true → t.sends = true)
    (h : (buildPayloadFrom P ctx config i x).stored = some payload) :
    Preconfirms P config i.resolve (buildPayloadFrom P ctx config i x) payload := by
  revert h
  unfold buildPayloadFrom
  dsimp only
  generalize executeFallback P ctx i x = x'
  split
  · intro h
    cases h
  · rename_i fallbackPayload flashblock fb hbuild
    obtain ⟨hpayload, hnew, hindex⟩ := tryBuildBlock_eq_ok hbuild
    have hfirst : flashblock.transactions = fallbackPayload.encodedTransactions := by
      rw [hnew, BuiltPayload.encodedTransactions, hpayload]
      rfl
    generalize (if (cachedSequence ctx i.cachedTxs).isSome = true then ([] : List Flashblock)
      else [flashblock]) = sent
    split_ifs
    · intro h
      cases h
    · exact RunOutcome.resolved_preconfirms List.nil_prefix List.nil_prefix
    · exact buildFlashblocks_preconfirms hpayload hfirst hindex hsends

/-- **Preconfirmations hold**: in every run in which each flashblock that was published was also
    sent, the stored payload begins with the transactions of the published flashblocks.  Only if the
    state root of the best payload has to be calculated at the end and cannot be, the fallback
    payload is stored, which begins with those of the first flashblock. -/
theorem buildPayload_preconfirmed (P : Platform Db Changes Env) (builder : BuilderConfig)
    (config : FlashblocksConfig) (i : RunInputs Db) (payload : BuiltPayload)
    (hsends : ∀ t ∈ i.turns, t.publishes = true → t.sends = true)
    (h : (buildPayload P builder config i).stored = some payload) :
    Preconfirms P config i.resolve (buildPayload P builder config i) payload := by
  revert h
  unfold buildPayload
  split
  · intro h
    cases h
  · split
    · intro h
      cases h
    · split
      · intro h
        cases h
      · exact buildPayloadFrom_preconfirms hsends

end

/-! ## Two runs -/

namespace Sample

/-- The clock when there is time for so many flashblocks, one each 200 ms, up to 5 of them. -/
def clockBefore (flashblocks : Nat) : Timing.SystemTime :=
  ⟨1000 * 10 ^ 9 - (min flashblocks 5 : Nat) * (200 * 10 ^ 6), by omega, by omega⟩

/-- A fallback block with the deposit and one flashblock with a transfer; the state root is left
    for the end. -/
def run (stateRootError : Option BuildError) : RunInputs Nat where
  parent := parent
  parentHash := 9
  attributes := attributes
  state := some 0
  cachedTxs := none
  simulated := some []
  buildError := none
  sends := true
  publishes := true
  referenceSystem := clockBefore 1
  referenceInstant := 0
  contextRemade := true
  turns := [⟨some [], [(transfer 7, ⟨false, .execute, fun _ => .allow⟩)], false, some [], none,
    true, true⟩]
  resolve := ⟨false, true, stateRootError⟩

/-- A flashblock each 200 ms of a second; the state root is calculated at the end, before the
    payload is stored. -/
def synchronous : FlashblocksConfig := ⟨⟨1000, 200, 0, 0⟩, true, true⟩

/-- The state root can be calculated: both transactions are in the stored payload. -/
theorem run_preconfirmed :
    (∀ t ∈ (run none).turns, t.publishes = true → t.sends = true) ∧
      ∃ payload, (buildPayload platform config synchronous (run none)).stored = some payload ∧
        Preconfirms platform synchronous (run none).resolve
          (buildPayload platform config synchronous (run none)) payload :=
  ⟨by decide, _, rfl,
    buildPayload_preconfirmed platform config synchronous (run none) _ (by decide) rfl⟩

/-- **It cannot**: the transfer was published, and the fallback payload is stored without it. -/
theorem run_drops_preconfirmed :
    ¬ ∀ payload, (buildPayload platform config synchronous
        (run (some .stateRootFailed))).stored = some payload →
      preconfirmed (buildPayload platform config synchronous
        (run (some .stateRootFailed))).published <+: payload.encodedTransactions := by
  intro h
  have hstarts := h _ rfl
  revert hstarts
  decide

end Sample

end XLayerReth.Builder
