import XLayerReth.Lib.Batches

/-!
# The export command

Model of `ExportCommand::execute` in `export.rs`, over what the database, the file system and the
interrupt signal do (`ExportEnv`).

* `batch`, `exportBatch`, `exportLoop` — the arithmetic of one batch, the body of the loop, and the
  loop with a bound on the number of its iterations; `execute` is the whole command.
* `Exports` — the command ends without an overflow, and the file holds exactly the requested blocks.
* `Fits` — the condition on the arguments under which it does.

All arithmetic wraps, as in the release build, and `overflowed` records whether any of it did; the
debug build panics where the flag is set.

Principal results: `export_exact_iff`, `exportLoop_zero_batch` (batches of size zero never end) and
`export_same_file` (the file does not depend on the batch size).
-/

set_option autoImplicit false

namespace XLayerReth.Tools

open Lib

/-- `ExportCommand`. -/
structure ExportCommand where
  outputPath : String
  startBlock : UInt64
  endBlock : Option UInt64
  batchSize : UInt64

inductive ExportError where
  | latestUnknown
  | endBeyondLatest (endBlock latestBlock : UInt64)
  | startBelowGenesis (startBlock genesis : UInt64)
  | startBeyondEnd (startBlock endBlock : UInt64)
  | interruptHandler
  | createFile (outputPath : String)
  | provider (error : String)
  | write (currentBlock batchEnd : UInt64)
  | flush
  | interrupted (exportedBlocks totalBlocks : UInt64)
  deriving DecidableEq

/-- The text of an error. -/
def ExportError.text : ExportError → String
  | .latestUnknown => "Failed to get latest block number"
  | .endBeyondLatest endBlock latestBlock =>
    s!"End block ({endBlock}) is greater than latest block ({latestBlock})"
  | .startBelowGenesis startBlock genesis =>
    s!"Start block ({startBlock}) is less than genesis block ({genesis})"
  | .startBeyondEnd startBlock endBlock =>
    s!"Start block ({startBlock}) is greater than end block ({endBlock})"
  | .interruptHandler => "Failed to set interrupt handler"
  | .createFile outputPath => s!"Failed to create output file: {outputPath}"
  | .provider error => error
  | .write currentBlock batchEnd =>
    s!"Failed to write block range {currentBlock} to {batchEnd} to file"
  | .flush => "Failed to flush output file"
  | .interrupted exportedBlocks totalBlocks =>
    s!"Export was interrupted. Exported {exportedBlocks}/{totalBlocks} blocks"

/-- What the command meets. -/
structure ExportEnv (Block : Type) where
  lastBlockNumber : Option UInt64
  genesisBlockNumber : UInt64
  /-- `block_range(a..=b)`. -/
  blockRange : UInt64 → UInt64 → Except String (List Block)
  /-- The RLP of a block. -/
  encode : Block → List UInt8
  handlerSet : Bool
  /-- What is at the output path before. -/
  file : Option (List UInt8)
  created : Bool
  /-- The write of each batch: how many bytes were written before it failed, if it failed. -/
  writeAll : Nat → Option Nat
  flushed : Bool
  /-- The interrupt flag, as it is read before each batch and at the end. -/
  shutdown : Nat → Bool
  removed : Bool

/-! ## One batch -/

/-- The numbers of one iteration. -/
structure Batch where
  batchEnd : UInt64
  exportedBlocks : UInt64
  nextBlock : UInt64
  overflowed : Bool

/-- `min(current_block + batch_size - 1, end_block)`, `exported_blocks += batch_end - current_block
+ 1` and `current_block = batch_end + 1`. -/
def batch (batchSize endBlock currentBlock exportedBlocks : UInt64) : Batch :=
  let sum := overflowingAdd currentBlock batchSize
  let last := overflowingSub sum.1 1
  let batchEnd := min last.1 endBlock
  let span := overflowingSub batchEnd currentBlock
  let count := overflowingAdd span.1 1
  let exported := overflowingAdd exportedBlocks count.1
  let next := overflowingAdd batchEnd 1
  { batchEnd := batchEnd
    exportedBlocks := exported.1
    nextBlock := next.1
    overflowed := sum.2 || last.2 || span.2 || count.2 || exported.2 || next.2 }

/-- The state of the loop, and what was given to the writer. -/
structure Progress where
  currentBlock : UInt64
  exportedBlocks : UInt64
  batches : Nat
  written : List UInt8
  overflowed : Bool

/-- `total_blocks`, and whether it overflows. -/
def totalBlocks (startBlock endBlock : UInt64) : UInt64 × Bool :=
  let span := overflowingSub endBlock startBlock
  let total := overflowingAdd span.1 1
  (total.1, span.2 || total.2)

/-- The state before the loop. -/
def Progress.start (startBlock endBlock : UInt64) : Progress where
  currentBlock := startBlock
  exportedBlocks := 0
  batches := 0
  written := []
  overflowed := (totalBlocks startBlock endBlock).2

section

variable {Block : Type} (env : ExportEnv Block) (batchSize endBlock : UInt64)

/-- The body of the loop; an error leaves what was written. -/
def exportBatch (p : Progress) : Except (ExportError × List UInt8) Progress :=
  let b := batch batchSize endBlock p.currentBlock p.exportedBlocks
  match env.blockRange p.currentBlock b.batchEnd with
  | .error e => .error (.provider e, p.written)
  | .ok blocks =>
    let blocksRlp := blocks.flatMap env.encode
    match env.writeAll p.batches with
    | some bytes => .error (.write p.currentBlock b.batchEnd, p.written ++ blocksRlp.take bytes)
    | none => .ok
        { currentBlock := b.nextBlock
          exportedBlocks := b.exportedBlocks
          batches := p.batches + 1
          written := p.written ++ blocksRlp
          overflowed := p.overflowed || b.overflowed }

/-- `while current_block <= end_block && !shutdown`. -/
def continues (p : Progress) : Bool := p.currentBlock ≤ endBlock && !env.shutdown p.batches

/-- The loop, for at most so many iterations. -/
def exportLoop : Nat → Progress → Option (Except (ExportError × List UInt8) Progress)
  | 0, p => if continues env endBlock p then none else some (.ok p)
  | fuel + 1, p =>
    if continues env endBlock p then
      match exportBatch env batchSize endBlock p with
      | .error e => some (.error e)
      | .ok p' => exportLoop fuel p'
    else some (.ok p)

/-- The loop, the flush, and the check for an interrupt. -/
def exportBlocks (startBlock : UInt64) (fuel : Nat) :
    Option (Except (ExportError × List UInt8) Progress) :=
  let loop := exportLoop env batchSize endBlock fuel (.start startBlock endBlock)
  loop.map (fun outcome => outcome.bind (fun p =>
    if env.flushed = false then .error (.flush, p.written)
    else if env.shutdown (p.batches + 1) then
      .error (.interrupted p.exportedBlocks (totalBlocks startBlock endBlock).1, p.written)
    else .ok p))

end

/-- What the command returns, with the state of its loop at the end, and what is at the output path
then. -/
structure Report where
  result : Except ExportError Progress
  file : Option (List UInt8)

section

variable {Block : Type} (cmd : ExportCommand) (env : ExportEnv Block)

/-- A request that is refused before the file is touched. -/
def refused (error : ExportError) : Report := ⟨.error error, env.file⟩

/-- An incomplete file is removed. -/
def report : Except (ExportError × List UInt8) Progress → Report
  | .error (error, written) => ⟨.error error, if env.removed then none else some written⟩
  | .ok p => ⟨.ok p, some p.written⟩

/-- `execute`, with at most so many iterations of the loop. -/
def execute (fuel : Nat) : Option Report :=
  match env.lastBlockNumber with
  | none => some (refused env .latestUnknown)
  | some latestBlock =>
    let endBlock := cmd.endBlock.getD latestBlock
    if latestBlock < endBlock then some (refused env (.endBeyondLatest endBlock latestBlock))
    else if cmd.startBlock < env.genesisBlockNumber then
      some (refused env (.startBelowGenesis cmd.startBlock env.genesisBlockNumber))
    else if endBlock < cmd.startBlock then
      some (refused env (.startBeyondEnd cmd.startBlock endBlock))
    else if env.handlerSet = false then some (refused env .interruptHandler)
    else if env.created = false then some (refused env (.createFile cmd.outputPath))
    else (exportBlocks env cmd.batchSize endBlock cmd.startBlock fuel).map (report env)

end

/-! ## The numbers of a batch -/

section

variable {batchSize endBlock currentBlock exportedBlocks : UInt64}

/-- Without overflow a batch is not empty, and a whole one would fit. -/
theorem batch_spec (hle : currentBlock.toNat ≤ endBlock.toNat)
    (h : (batch batchSize endBlock currentBlock exportedBlocks).overflowed = false) :
    0 < batchSize.toNat ∧ currentBlock.toNat + batchSize.toNat < 2 ^ 64 ∧
      (batch batchSize endBlock currentBlock exportedBlocks).batchEnd.toNat =
        min (currentBlock.toNat + batchSize.toNat - 1) endBlock.toNat ∧
      (batch batchSize endBlock currentBlock exportedBlocks).nextBlock.toNat =
        min (currentBlock.toNat + batchSize.toNat) (endBlock.toNat + 1) := by
  simp only [batch, Bool.or_eq_false_iff, overflowingAdd_fits, overflowingSub_fits] at h ⊢
  obtain ⟨⟨⟨⟨⟨hsum, hlast⟩, hspan⟩, -⟩, -⟩, hnext⟩ := h
  rw [toNat_overflowingAdd hsum] at hlast
  have hone : (1 : UInt64).toNat = 1 := rfl
  have hend := toNat_min (overflowingSub (overflowingAdd currentBlock batchSize).1 1).1 endBlock
  rw [toNat_overflowingSub (by rw [toNat_overflowingAdd hsum]; exact hlast),
    toNat_overflowingAdd hsum, hone] at hend
  rw [hend] at hspan
  rw [toNat_overflowingAdd hnext, hend, hone]
  rw [hone] at hlast
  omega

/-- If a whole batch fits, and the count does, nothing overflows. -/
theorem batch_fits (hle : currentBlock.toNat ≤ endBlock.toNat) (hsize : 0 < batchSize.toNat)
    (hfit : currentBlock.toNat + batchSize.toNat < 2 ^ 64)
    (hcount : exportedBlocks.toNat + (endBlock.toNat + 1 - currentBlock.toNat) < 2 ^ 64) :
    (batch batchSize endBlock currentBlock exportedBlocks).overflowed = false ∧
      (batch batchSize endBlock currentBlock exportedBlocks).exportedBlocks.toNat +
          currentBlock.toNat =
        exportedBlocks.toNat +
          (batch batchSize endBlock currentBlock exportedBlocks).nextBlock.toNat := by
  have hone : (1 : UInt64).toNat = 1 := rfl
  have hsum := toNat_overflowingAdd hfit
  have hlast : (1 : UInt64).toNat ≤ (overflowingAdd currentBlock batchSize).1.toNat := by omega
  have hend := toNat_min (overflowingSub (overflowingAdd currentBlock batchSize).1 1).1 endBlock
  rw [toNat_overflowingSub hlast, hsum] at hend
  simp only [batch, Bool.or_eq_false_iff, overflowingAdd_fits, overflowingSub_fits]
  generalize hbatchEnd : min (overflowingSub (overflowingAdd currentBlock batchSize).1 1).1
    endBlock =
    batchEnd at hend ⊢
  have hspan : currentBlock.toNat ≤ batchEnd.toNat := by omega
  have hspan' := toNat_overflowingSub hspan
  have hcount₁ : (overflowingSub batchEnd currentBlock).1.toNat + (1 : UInt64).toNat < 2 ^ 64 := by
    omega
  have hcount₁' := toNat_overflowingAdd hcount₁
  have hcount₂ : exportedBlocks.toNat +
      (overflowingAdd (overflowingSub batchEnd currentBlock).1 1).1.toNat < 2 ^ 64 := by
    omega
  have hnext : batchEnd.toNat + (1 : UInt64).toNat < 2 ^ 64 := by omega
  rw [toNat_overflowingAdd hcount₂, toNat_overflowingAdd hnext]
  refine ⟨⟨⟨⟨⟨⟨hfit, hlast⟩, hspan⟩, hcount₁⟩, hcount₂⟩, hnext⟩, ?_⟩
  omega

end

/-! ## The loop -/

section

variable {Block : Type} {env : ExportEnv Block} {batchSize endBlock : UInt64} {p p' : Progress}

/-- What an iteration does, if it succeeds. -/
theorem exportBatch_eq_ok :
    exportBatch env batchSize endBlock p = .ok p' ↔
      ∃ blocks, env.blockRange p.currentBlock
          (batch batchSize endBlock p.currentBlock p.exportedBlocks).batchEnd = .ok blocks ∧
        env.writeAll p.batches = none ∧
        p' = ⟨(batch batchSize endBlock p.currentBlock p.exportedBlocks).nextBlock,
          (batch batchSize endBlock p.currentBlock p.exportedBlocks).exportedBlocks, p.batches + 1,
          p.written ++ blocks.flatMap env.encode,
          p.overflowed ||
            (batch batchSize endBlock p.currentBlock p.exportedBlocks).overflowed⟩ := by
  unfold exportBatch
  dsimp only
  generalize batch batchSize endBlock p.currentBlock p.exportedBlocks = b
  cases hrange : env.blockRange p.currentBlock b.batchEnd with
  | error e => simp
  | ok blocks =>
    cases hwrite : env.writeAll p.batches with
    | some bytes => simp
    | none => simp [eq_comm]

theorem exportLoop_stop (h : continues env endBlock p = false) (fuel : Nat) :
    exportLoop env batchSize endBlock fuel p = some (.ok p) := by
  cases fuel with
  | zero =>
    rw [exportLoop, h]
    rfl
  | succ fuel =>
    rw [exportLoop, h]
    rfl

theorem exportLoop_next (h : continues env endBlock p = true)
    (hbatch : exportBatch env batchSize endBlock p = .ok p') (fuel : Nat) :
    exportLoop env batchSize endBlock (fuel + 1) p = exportLoop env batchSize endBlock fuel p' := by
  rw [exportLoop, h, hbatch]
  rfl

/-- A loop that ended well either stopped at once or went on from a successful iteration. -/
theorem exportLoop_cases {fuel : Nat}
    (h : exportLoop env batchSize endBlock fuel p = some (.ok p')) :
    (continues env endBlock p = false ∧ p' = p) ∨
      ∃ n p₁, fuel = n + 1 ∧ continues env endBlock p = true ∧
        exportBatch env batchSize endBlock p = .ok p₁ ∧
        exportLoop env batchSize endBlock n p₁ = some (.ok p') := by
  by_cases hcont : continues env endBlock p = true
  · cases fuel with
    | zero =>
      rw [exportLoop, hcont] at h
      cases h
    | succ n =>
      cases hbatch : exportBatch env batchSize endBlock p with
      | error e =>
        rw [exportLoop, hcont, hbatch] at h
        cases h
      | ok p₁ => exact .inr ⟨n, p₁, rfl, hcont, rfl, (exportLoop_next hcont hbatch n).symm.trans h⟩
  · have hstop : continues env endBlock p = false := by simpa using hcont
    rw [exportLoop_stop hstop] at h
    cases h
    exact .inl ⟨hstop, rfl⟩

theorem continues_of_le (hquiet : ∀ n, env.shutdown n = false)
    (h : p.currentBlock.toNat ≤ endBlock.toNat) : continues env endBlock p = true := by
  simp [continues, hquiet, UInt64.le_iff_toNat_le, h]

theorem exportLoop_past (h : endBlock.toNat < p.currentBlock.toNat) (fuel : Nat) :
    exportLoop env batchSize endBlock fuel p = some (.ok p) := by
  apply exportLoop_stop
  simp [continues, UInt64.lt_iff_toNat_lt, h]

/-- A bound that lets the loop end does not change how it ends. -/
theorem exportLoop_unique {x y : Progress} : ∀ (n m : Nat) (p : Progress),
    exportLoop env batchSize endBlock n p = some (.ok x) →
    exportLoop env batchSize endBlock m p = some (.ok y) → x = y := by
  intro n
  induction n with
  | zero =>
    intro m p hx hy
    rcases exportLoop_cases hx with ⟨hstop, rfl⟩ | ⟨n, p₁, hn, -⟩
    · rw [exportLoop_stop hstop] at hy
      cases hy
      rfl
    · cases hn
  | succ n ih =>
    intro m p hx hy
    rcases exportLoop_cases hx with ⟨hstop, rfl⟩ | ⟨n', p₁, hn, hcont, hbatch, hx⟩
    · rw [exportLoop_stop hstop] at hy
      cases hy
      rfl
    · cases hn
      rcases exportLoop_cases hy with ⟨hstop, -⟩ | ⟨m', p₂, -, -, hbatch', hy⟩
      · rw [hcont] at hstop
        cases hstop
      · cases hbatch.symm.trans hbatch'
        exact ih m' p₁ hx hy

/-- The flag stays set. -/
theorem overflowed_of_exportLoop : ∀ (fuel : Nat) (p : Progress),
    exportLoop env batchSize endBlock fuel p = some (.ok p') → p'.overflowed = false →
      p.overflowed = false := by
  intro fuel
  induction fuel with
  | zero =>
    intro p h hflag
    rcases exportLoop_cases h with ⟨-, rfl⟩ | ⟨n, p₁, hn, -⟩
    · exact hflag
    · cases hn
  | succ fuel ih =>
    intro p h hflag
    rcases exportLoop_cases h with ⟨-, rfl⟩ | ⟨n, p₁, hn, -, hbatch, hloop⟩
    · exact hflag
    · cases hn
      obtain ⟨blocks, -, -, rfl⟩ := exportBatch_eq_ok.mp hbatch
      exact (Bool.or_eq_false_iff.mp (ih _ hloop hflag)).1

/-- **A loop that ends without an overflow has room for whole batches**, by induction on the
    iterations: every batch starts below the same rounded end. -/
theorem fits_of_exportLoop (hquiet : ∀ n, env.shutdown n = false) : ∀ (fuel : Nat) (p : Progress),
    exportLoop env batchSize endBlock fuel p = some (.ok p') → p'.overflowed = false →
      p.currentBlock.toNat ≤ endBlock.toNat →
      0 < batchSize.toNat ∧
        roundedEnd batchSize.toNat p.currentBlock.toNat endBlock.toNat < 2 ^ 64 := by
  intro fuel
  induction fuel with
  | zero =>
    intro p h _ hle
    rcases exportLoop_cases h with ⟨hstop, -⟩ | ⟨n, p₁, hn, -⟩
    · rw [continues_of_le hquiet hle] at hstop
      cases hstop
    · cases hn
  | succ fuel ih =>
    intro p h hflag hle
    rcases exportLoop_cases h with ⟨hstop, -⟩ | ⟨n, p₁, hn, -, hbatch, hloop⟩
    · rw [continues_of_le hquiet hle] at hstop
      cases hstop
    · cases hn
      obtain ⟨blocks, -, -, rfl⟩ := exportBatch_eq_ok.mp hbatch
      have hclean := overflowed_of_exportLoop fuel _ hloop hflag
      obtain ⟨hsize, hfit, -, hnext⟩ := batch_spec hle (Bool.or_eq_false_iff.mp hclean).2
      refine ⟨hsize, ?_⟩
      by_cases hlast : p.currentBlock.toNat + batchSize.toNat ≤ endBlock.toNat
      · have hnext' := hnext.trans (Nat.min_eq_left (by omega))
        have hrest := (ih _ hloop hflag (by rw [hnext']; exact hlast)).2
        rwa [hnext', roundedEnd_next hsize hlast] at hrest
      · rwa [roundedEnd_last (by omega) hle]

end

/-! ## What is promised -/

section

variable {Block : Type} (cmd : ExportCommand) (env : ExportEnv Block) (blockAt : Nat → Block)
variable (latestBlock endBlock : UInt64)

/-- So many blocks, encoded one after the other. -/
def rlpBlocks (first count : Nat) : List UInt8 :=
  (List.range' first count).flatMap (fun n => env.encode (blockAt n))

theorem rlpBlocks_zero (first : Nat) : rlpBlocks env blockAt first 0 = [] := rfl

theorem rlpBlocks_append (first m n : Nat) :
    rlpBlocks env blockAt first (m + n) =
      rlpBlocks env blockAt first m ++ rlpBlocks env blockAt (first + m) n := by
  unfold rlpBlocks
  rw [← List.range'_append_1, List.flatMap_append]

/-- The requested blocks are there, the database returns what it is asked for, and neither the file
system nor the operator interferes. -/
structure Undisturbed : Prop where
  latest : env.lastBlockNumber = some latestBlock
  end_eq : cmd.endBlock.getD latestBlock = endBlock
  genesis_le : env.genesisBlockNumber ≤ cmd.startBlock
  start_le : cmd.startBlock ≤ endBlock
  end_le : endBlock ≤ latestBlock
  blockRange_eq : ∀ a b, a ≤ b → b ≤ latestBlock → env.blockRange a b =
    .ok ((List.range' a.toNat (b.toNat + 1 - a.toNat)).map blockAt)
  handlerSet : env.handlerSet = true
  created : env.created = true
  writes : ∀ n, env.writeAll n = none
  flushed : env.flushed = true
  noInterrupt : ∀ n, env.shutdown n = false

/-- The command ends, nothing overflowed, and the file holds exactly the requested blocks. -/
def Exports : Prop :=
  ∃ fuel r p, execute cmd env fuel = some r ∧ r.result = .ok p ∧ p.overflowed = false ∧
    r.file = some (rlpBlocks env blockAt cmd.startBlock.toNat
      (endBlock.toNat + 1 - cmd.startBlock.toNat))

/-- Batches are not empty, and the last one would not leave the 64 bits if it were a whole one. -/
def Fits : Prop :=
  cmd.batchSize ≠ 0 ∧
    roundedEnd cmd.batchSize.toNat cmd.startBlock.toNat endBlock.toNat < 2 ^ 64

instance : Decidable (Fits cmd endBlock) :=
  inferInstanceAs (Decidable (cmd.batchSize ≠ 0 ∧
    roundedEnd cmd.batchSize.toNat cmd.startBlock.toNat endBlock.toNat < 2 ^ 64))

end

section

variable {Block : Type} {cmd : ExportCommand} {env : ExportEnv Block} {blockAt : Nat → Block}
variable {latestBlock endBlock : UInt64}

theorem Undisturbed.execute_eq (h : Undisturbed cmd env blockAt latestBlock endBlock)
    (fuel : Nat) :
    execute cmd env fuel =
      (exportBlocks env cmd.batchSize endBlock cmd.startBlock fuel).map (report env) := by
  have hlatest : ¬ latestBlock < endBlock := UInt64.not_lt.mpr h.end_le
  have hgenesis : ¬ cmd.startBlock < env.genesisBlockNumber := UInt64.not_lt.mpr h.genesis_le
  have hstart : ¬ endBlock < cmd.startBlock := UInt64.not_lt.mpr h.start_le
  unfold execute
  rw [h.latest]
  dsimp only
  rw [h.end_eq, if_neg hlatest, if_neg hgenesis, if_neg hstart, h.handlerSet, h.created,
    if_neg (by decide), if_neg (by decide)]

/-- The command returns what its loop ends with. -/
theorem Undisturbed.execute_ok_iff (h : Undisturbed cmd env blockAt latestBlock endBlock)
    {fuel : Nat} {r : Report} {p : Progress} :
    (execute cmd env fuel = some r ∧ r.result = .ok p) ↔
      exportLoop env cmd.batchSize endBlock fuel (.start cmd.startBlock endBlock) = some (.ok p) ∧
        r = ⟨.ok p, some p.written⟩ := by
  rw [h.execute_eq, exportBlocks]
  cases hloop : exportLoop env cmd.batchSize endBlock fuel (.start cmd.startBlock endBlock) with
  | none => simp
  | some outcome =>
    cases outcome with
    | error e =>
      simp only [Except.bind, Option.map_some, report, Option.some.injEq]
      constructor
      · rintro ⟨rfl, hr⟩
        cases hr
      · rintro ⟨hp, -⟩
        cases hp
    | ok p₁ =>
      simp only [Except.bind, h.flushed, h.noInterrupt, Option.map_some, report, Option.some.injEq,
        Except.ok.injEq, Bool.true_eq_false, Bool.false_eq_true, if_false]
      constructor
      · rintro ⟨rfl, hr⟩
        cases hr
        exact ⟨rfl, rfl⟩
      · rintro ⟨rfl, rfl⟩
        exact ⟨rfl, rfl⟩

/-- An iteration over a whole batch that fits writes exactly its blocks. -/
theorem Undisturbed.exportBatch_eq (h : Undisturbed cmd env blockAt latestBlock endBlock)
    {p : Progress} (hle : p.currentBlock.toNat ≤ endBlock.toNat) (hflag : p.overflowed = false)
    (hok : (batch cmd.batchSize endBlock p.currentBlock p.exportedBlocks).overflowed = false) :
    ∃ p', exportBatch env cmd.batchSize endBlock p = .ok p' ∧ p'.overflowed = false ∧
      p'.currentBlock.toNat =
        min (p.currentBlock.toNat + cmd.batchSize.toNat) (endBlock.toNat + 1) ∧
      p'.exportedBlocks =
        (batch cmd.batchSize endBlock p.currentBlock p.exportedBlocks).exportedBlocks ∧
      p'.written = p.written ++ rlpBlocks env blockAt p.currentBlock.toNat
        (p'.currentBlock.toNat - p.currentBlock.toNat) := by
  obtain ⟨hsize, hfit, hend, hnext⟩ := batch_spec hle hok
  have hrange := h.blockRange_eq p.currentBlock
    (batch cmd.batchSize endBlock p.currentBlock p.exportedBlocks).batchEnd
    (UInt64.le_iff_toNat_le.mpr (by omega))
    (UInt64.le_iff_toNat_le.mpr (by
      have := UInt64.le_iff_toNat_le.mp h.end_le
      omega))
  refine ⟨_, exportBatch_eq_ok.mpr ⟨_, hrange, h.writes _, rfl⟩, ?_, hnext, rfl, ?_⟩
  · dsimp only
    rw [hflag, hok]
    rfl
  · dsimp only [rlpBlocks]
    rw [List.flatMap_map]
    congr 3
    omega

/-- **The loop over whole batches that fit**, by induction on the iterations: it writes the blocks
    from the current one to the end. -/
theorem Undisturbed.exportLoop_eq (h : Undisturbed cmd env blockAt latestBlock endBlock)
    (hsize : 0 < cmd.batchSize.toNat) : ∀ (fuel : Nat) (p : Progress),
    endBlock.toNat + 1 - p.currentBlock.toNat ≤ fuel →
    (p.currentBlock.toNat ≤ endBlock.toNat →
      roundedEnd cmd.batchSize.toNat p.currentBlock.toNat endBlock.toNat < 2 ^ 64) →
    p.exportedBlocks.toNat + (endBlock.toNat + 1 - p.currentBlock.toNat) < 2 ^ 64 →
    p.overflowed = false →
      ∃ p', exportLoop env cmd.batchSize endBlock fuel p = some (.ok p') ∧ p'.overflowed = false ∧
        p'.written = p.written ++ rlpBlocks env blockAt p.currentBlock.toNat
          (endBlock.toNat + 1 - p.currentBlock.toNat) := by
  intro fuel
  induction fuel with
  | zero =>
    intro p hfuel _ _ hflag
    refine ⟨p, exportLoop_past (by omega) 0, hflag, ?_⟩
    rw [Nat.le_zero.mp hfuel, rlpBlocks_zero, List.append_nil]
  | succ fuel ih =>
    intro p hfuel hfits hcount hflag
    by_cases hle : p.currentBlock.toNat ≤ endBlock.toNat
    · have hbound := hfits hle
      have hfit : p.currentBlock.toNat + cmd.batchSize.toNat < 2 ^ 64 :=
        Nat.lt_of_le_of_lt (add_le_roundedEnd _ _ _) hbound
      obtain ⟨hok, hexported⟩ := batch_fits hle hsize hfit hcount
      obtain ⟨p₁, hbatch, hflag₁, hnext, hcount₁, hwritten₁⟩ := h.exportBatch_eq hle hflag hok
      obtain ⟨-, -, -, hnext'⟩ := batch_spec hle hok
      rw [hnext', ← hcount₁] at hexported
      have hcont : continues env endBlock p = true := continues_of_le h.noInterrupt hle
      have hfits₁ : p₁.currentBlock.toNat ≤ endBlock.toNat →
          roundedEnd cmd.batchSize.toNat p₁.currentBlock.toNat endBlock.toNat < 2 ^ 64 := by
        intro hle₁
        have hnext₁ : p₁.currentBlock.toNat = p.currentBlock.toNat + cmd.batchSize.toNat := by
          omega
        rw [hnext₁, roundedEnd_next hsize (by omega)]
        exact hbound
      obtain ⟨p', hloop, hflag', hwritten⟩ := ih p₁ (by omega) hfits₁ (by omega) hflag₁
      refine ⟨p', (exportLoop_next hcont hbatch fuel).trans hloop, hflag', ?_⟩
      have hsplit : endBlock.toNat + 1 - p.currentBlock.toNat =
          (p₁.currentBlock.toNat - p.currentBlock.toNat) +
            (endBlock.toNat + 1 - p₁.currentBlock.toNat) := by omega
      have hfirst : p.currentBlock.toNat + (p₁.currentBlock.toNat - p.currentBlock.toNat) =
          p₁.currentBlock.toNat := by omega
      rw [hwritten, hwritten₁, List.append_assoc, hsplit, rlpBlocks_append, hfirst]
    · refine ⟨p, exportLoop_past (by omega) _, hflag, ?_⟩
      rw [Nat.sub_eq_zero_of_le (by omega), rlpBlocks_zero, List.append_nil]

/-- The first block of a well-formed request, and the number of blocks before the loop. -/
theorem Undisturbed.start_clean (h : Undisturbed cmd env blockAt latestBlock endBlock)
    (hfits : Fits cmd endBlock) :
    0 < cmd.batchSize.toNat ∧
      (Progress.start cmd.startBlock endBlock).overflowed = false ∧
      endBlock.toNat + 1 - cmd.startBlock.toNat < 2 ^ 64 := by
  have hsize : 0 < cmd.batchSize.toNat :=
    Nat.pos_of_ne_zero (fun hzero => hfits.1 (UInt64.toNat_inj.mp hzero))
  have hend := lt_roundedEnd hsize cmd.startBlock.toNat endBlock.toNat
  have hbound := hfits.2
  have hle := UInt64.le_iff_toNat_le.mp h.start_le
  have hspan := toNat_overflowingSub hle
  have hone : (1 : UInt64).toNat = 1 := rfl
  refine ⟨hsize, ?_, by omega⟩
  simp only [Progress.start, totalBlocks, Bool.or_eq_false_iff, overflowingAdd_fits,
    overflowingSub_fits]
  exact ⟨hle, by omega⟩

theorem Undisturbed.fits_of_execute (h : Undisturbed cmd env blockAt latestBlock endBlock)
    {fuel : Nat} {r : Report} {p : Progress} (hexec : execute cmd env fuel = some r)
    (hresult : r.result = .ok p) (hflag : p.overflowed = false) : Fits cmd endBlock := by
  obtain ⟨hloop, -⟩ := h.execute_ok_iff.mp ⟨hexec, hresult⟩
  obtain ⟨hsize, hbound⟩ := fits_of_exportLoop h.noInterrupt fuel _ hloop hflag
    (UInt64.le_iff_toNat_le.mp h.start_le)
  refine ⟨fun hzero => ?_, hbound⟩
  rw [hzero] at hsize
  exact absurd hsize (by decide)

theorem Undisturbed.exports_of_fits (h : Undisturbed cmd env blockAt latestBlock endBlock)
    (hfits : Fits cmd endBlock) : Exports cmd env blockAt endBlock := by
  obtain ⟨hsize, hclean, hcount⟩ := h.start_clean hfits
  obtain ⟨p, hloop, hflag, hwritten⟩ := h.exportLoop_eq hsize
    (endBlock.toNat + 1 - cmd.startBlock.toNat) (.start cmd.startBlock endBlock)
    (Nat.le_refl _) (fun _ => hfits.2) (by
      show (0 : UInt64).toNat + _ < _
      rw [UInt64.toNat_zero, Nat.zero_add]
      exact hcount) hclean
  obtain ⟨hexec, hresult⟩ := h.execute_ok_iff.mpr ⟨hloop, rfl⟩
  refine ⟨_, _, p, hexec, hresult, hflag, ?_⟩
  rw [hwritten]
  rfl

/-- **The file of an export that did not overflow**, whatever bound lets its loop end. -/
theorem Undisturbed.file_of_execute (h : Undisturbed cmd env blockAt latestBlock endBlock)
    {fuel : Nat} {r : Report} {p : Progress} (hexec : execute cmd env fuel = some r)
    (hresult : r.result = .ok p) (hflag : p.overflowed = false) :
    r.file = some (rlpBlocks env blockAt cmd.startBlock.toNat
      (endBlock.toNat + 1 - cmd.startBlock.toNat)) := by
  obtain ⟨fuel', r', p', hexec', hresult', -, hfile⟩ :=
    h.exports_of_fits (h.fits_of_execute hexec hresult hflag)
  obtain ⟨hloop, rfl⟩ := h.execute_ok_iff.mp ⟨hexec, hresult⟩
  obtain ⟨hloop', rfl⟩ := h.execute_ok_iff.mp ⟨hexec', hresult'⟩
  rw [exportLoop_unique fuel fuel' _ hloop hloop']
  exact hfile

/-- **The file does not depend on the batch size**, as long as nothing overflows. -/
theorem export_same_file {cmd' : ExportCommand}
    (h : Undisturbed cmd env blockAt latestBlock endBlock)
    (h' : Undisturbed cmd' env blockAt latestBlock endBlock)
    (hstart : cmd'.startBlock = cmd.startBlock) {fuel fuel' : Nat} {r r' : Report} {p p' : Progress}
    (hexec : execute cmd env fuel = some r ∧ r.result = .ok p ∧ p.overflowed = false)
    (hexec' : execute cmd' env fuel' = some r' ∧ r'.result = .ok p' ∧ p'.overflowed = false) :
    r'.file = r.file := by
  rw [h.file_of_execute hexec.1 hexec.2.1 hexec.2.2,
    h'.file_of_execute hexec'.1 hexec'.2.1 hexec'.2.2, hstart]

/-- **An export is exact exactly when its batches fit.**  The command ends, nothing overflows and
    the file holds the blocks from the start to the end, each once and in ascending order, if and
    only if the batch size is not zero and the last batch, taken whole, stays below `2 ^ 64`. -/
theorem export_exact_iff (h : Undisturbed cmd env blockAt latestBlock endBlock) :
    Exports cmd env blockAt endBlock ↔ Fits cmd endBlock := by
  constructor
  · rintro ⟨fuel, r, p, hexec, hresult, hflag, -⟩
    exact h.fits_of_execute hexec hresult hflag
  · exact h.exports_of_fits

/-- Seven blocks in batches of three. -/
def smallExport : ExportCommand := ⟨"blocks.rlp", 5, some 11, 3⟩

/-- A chain of twenty blocks, whose encodings are their numbers. -/
def smallChain : ExportEnv Nat where
  lastBlockNumber := some 20
  genesisBlockNumber := 0
  blockRange a b := .ok (List.range' a.toNat (b.toNat + 1 - a.toNat))
  encode n := [UInt8.ofNat n]
  handlerSet := true
  file := none
  created := true
  writeAll _ := none
  flushed := true
  shutdown _ := false
  removed := true

theorem smallChain_undisturbed (startBlock endBlock batchSize : UInt64)
    (hstart : startBlock ≤ endBlock) (hend : endBlock ≤ 20) :
    Undisturbed ⟨"blocks.rlp", startBlock, some endBlock, batchSize⟩ smallChain id 20 endBlock where
  latest := rfl
  end_eq := rfl
  genesis_le := UInt64.le_iff_toNat_le.mpr (Nat.zero_le _)
  start_le := hstart
  end_le := hend
  blockRange_eq a b _ _ := by
    rw [List.map_id]
    rfl
  handlerSet := rfl
  created := rfl
  writes _ := rfl
  flushed := rfl
  noInterrupt _ := rfl

theorem export_exact_small : Fits smallExport 11 ∧ Exports smallExport smallChain id 11 :=
  ⟨by decide,
    (export_exact_iff (smallChain_undisturbed 5 11 3 (by decide) (by decide))).mpr (by decide)⟩

/-- **Batches of size zero never end** in the release build, unless the export starts with block
    0: the end of each batch wraps to the block before the current one, which the loop then takes
    for done. -/
theorem exportLoop_zero_batch (h : Undisturbed cmd env blockAt latestBlock endBlock)
    (hempty : ∀ a b, b < a → env.blockRange a b = .ok []) (hpos : 0 < cmd.startBlock) :
    ∀ (fuel : Nat) (p : Progress), p.currentBlock = cmd.startBlock →
      exportLoop env 0 endBlock fuel p = none := by
  have hbefore : cmd.startBlock - 1 < cmd.startBlock := by
    have hpos' : 0 < cmd.startBlock.toNat := UInt64.lt_iff_toNat_lt.mp hpos
    have hone : 1 ≤ cmd.startBlock := UInt64.le_iff_toNat_le.mpr hpos'
    rw [UInt64.lt_iff_toNat_lt, UInt64.toNat_sub_of_le _ _ hone]
    exact Nat.sub_lt hpos' (by decide)
  intro fuel
  induction fuel with
  | zero =>
    intro p hp
    have hcont : continues env endBlock p = true :=
      continues_of_le h.noInterrupt (hp ▸ UInt64.le_iff_toNat_le.mp h.start_le)
    rw [exportLoop, hcont]
    rfl
  | succ fuel ih =>
    intro p hp
    have hcont : continues env endBlock p = true :=
      continues_of_le h.noInterrupt (hp ▸ UInt64.le_iff_toNat_le.mp h.start_le)
    have hend :
        (batch 0 endBlock p.currentBlock p.exportedBlocks).batchEnd = cmd.startBlock - 1 := by
      show min (p.currentBlock + 0 - 1) endBlock = _
      rw [UInt64.add_zero, hp]
      exact if_pos (UInt64.le_trans (UInt64.le_of_lt hbefore) h.start_le)
    have hnext : (batch 0 endBlock p.currentBlock p.exportedBlocks).nextBlock = cmd.startBlock := by
      show (batch 0 endBlock p.currentBlock p.exportedBlocks).batchEnd + 1 = _
      rw [hend, UInt64.sub_add_cancel]
    have hrange := hempty p.currentBlock
      (batch 0 endBlock p.currentBlock p.exportedBlocks).batchEnd (by rw [hend, hp]; exact hbefore)
    rw [exportLoop_next hcont (exportBatch_eq_ok.mpr ⟨_, hrange, h.writes _, rfl⟩)]
    exact ih _ hnext

/-- Batches of size zero from block 5 on never end.  With batches of size `u64::MAX` from block 2
    on, the first batch ends at block 0 and the second one starts again at block 1, so that the
    file holds a block that was not asked for. -/
theorem zero_and_huge_batches :
    (∀ fuel, execute ⟨"blocks.rlp", 5, some 11, 0⟩ smallChain fuel = none) ∧
    (¬ Exports ⟨"blocks.rlp", 5, some 11, 0⟩ smallChain id 11) ∧
    (execute ⟨"blocks.rlp", 2, some 3, 18446744073709551615⟩ smallChain 2).map Report.file =
      some (some [1, 2, 3]) ∧
    (¬ Exports ⟨"blocks.rlp", 2, some 3, 18446744073709551615⟩ smallChain id 3) := by
  have hzero := smallChain_undisturbed 5 11 0 (by decide) (by decide)
  have hhuge := smallChain_undisturbed 2 3 18446744073709551615 (by decide) (by decide)
  have hempty : ∀ a b, b < a → smallChain.blockRange a b = .ok [] := by
    intro a b hlt
    have hlt' := UInt64.lt_iff_toNat_lt.mp hlt
    show Except.ok (List.range' a.toNat (b.toNat + 1 - a.toNat)) = _
    rw [Nat.sub_eq_zero_of_le hlt']
    rfl
  refine ⟨fun fuel => ?_, ?_, rfl, ?_⟩
  · rw [hzero.execute_eq, exportBlocks, exportLoop_zero_batch hzero hempty (by decide) fuel _ rfl]
    rfl
  · rintro ⟨fuel, r, p, hexec, hresult, hflag, -⟩
    exact absurd (hzero.fits_of_execute hexec hresult hflag) (by decide)
  · rintro ⟨fuel, r, p, hexec, hresult, hflag, -⟩
    exact absurd (hhuge.fits_of_execute hexec hresult hflag) (by decide)

end

end XLayerReth.Tools
