import XLayerReth.Lib.Loops
import XLayerReth.MigrateV2.Changesets

/-!
# The migration from storage v1 to v2

Model of `MigrateV2Command::execute`.

* `Db`, `Statics`, `Store` — the database, the static-file segments, the RocksDB tables and the
  three directories `db`, `db_compact` and `db_pre_compact`.
* `Step`, `schedule` — the separately committed steps, in the order `execute` takes them.
* `step` — what one step does to the store; each failure of the source is an error here.
* `preflight`, `execute` — Phase 0, and the whole command.

A step is what one commit makes durable, so a crash or an error leaves the store as it is after
some first steps of the schedule.  The types reth keeps to itself are the fields of a `Schema`; the
segment writers and the copying of receipts are fields of `Env`.

Principal results: `runSteps_append_ok` (a run goes through every stop on the way) and
`rollback_restores` (a failed second rename leaves the store as it was before the swap).
-/

set_option autoImplicit false

namespace XLayerReth.MigrateV2

open Lib RcsFilter

/-! ## The store -/

/-- The types the migration passes on without looking inside. -/
structure Schema where
  AccountBeforeTx : Type
  StorageKey : Type
  StorageValue : Type
  /-- Keys and values of the tables that are copied or cleared as they are. -/
  Key : Type
  Value : Type
  /-- The `Receipts` table, and one receipt. -/
  Receipts : Type
  Receipt : Type
  /-- The stage-specific part of a checkpoint. -/
  StageUnit : Type
  /-- A static-file segment with entries of the given type. -/
  Segment : Type → Type
  decEqKey : DecidableEq Key

instance (σ : Schema) : DecidableEq σ.Key := σ.decEqKey

/-- The recomputable tables besides the two changeset tables. -/
inductive PlainTable where
  | transactionSenders
  | transactionHashNumbers
  | accountsHistory
  | storagesHistory
  | plainAccountState
  | plainStorageState
  | accountsTrie
  | storagesTrie
  deriving DecidableEq

/-- The tables that `clear_recomputable_tables` clears. -/
inductive TableId where
  | accountChangeSets
  | storageChangeSets
  | plain (t : PlainTable)
  deriving DecidableEq

/-- The index tables that are copied to RocksDB. -/
inductive IndexTable where
  | transactionHashNumbers
  | accountsHistory
  | storagesHistory
  deriving DecidableEq

def IndexTable.source : IndexTable → PlainTable
  | .transactionHashNumbers => .transactionHashNumbers
  | .accountsHistory => .accountsHistory
  | .storagesHistory => .storagesHistory

inductive StageId where
  | senderRecovery
  | execution
  | merkleExecute
  | merkleUnwind
  | other (name : String)
  deriving DecidableEq

inductive PruneSegment where
  | accountHistory
  | storageHistory
  | receipts

structure StorageSettings where
  isV2 : Bool
  deriving DecidableEq

structure StageCheckpoint (D : Type) where
  blockNumber : Nat
  stageCheckpoint : Option D

/-- A table in key order. -/
structure OrderedTable (κ ν : Type) [LinearOrder κ] where
  rows : List (κ × ν)
  sorted : rows.Pairwise (fun x y => x.1 ≤ y.1)

def OrderedTable.empty {κ ν : Type} [LinearOrder κ] : OrderedTable κ ν := ⟨[], List.Pairwise.nil⟩

theorem OrderedTable.eq_empty {κ ν : Type} [LinearOrder κ] {t : OrderedTable κ ν} :
    t = .empty ↔ t.rows = [] := by
  obtain ⟨rows, sorted⟩ := t
  simp [OrderedTable.empty]

/-- A cursor on which every read succeeds. -/
def OrderedTable.cursor {κ ν : Type} [LinearOrder κ] (t : OrderedTable κ ν) : Cursor κ ν :=
  ⟨t.rows, t.sorted, none, none⟩

/-- The MDBX database. -/
structure Db (σ : Schema) where
  storageSettings : Option StorageSettings
  stageCheckpoints : StageId → Option (StageCheckpoint σ.StageUnit)
  /-- `StageCheckpointProgresses`. -/
  progresses : StageId → Option (List UInt8)
  pruneCheckpoints : PruneSegment → Option PruneCheckpoint
  accountChangeSets : OrderedTable Nat σ.AccountBeforeTx
  storageChangeSets : OrderedTable BlockNumberAddress (StorageEntry σ.StorageKey σ.StorageValue)
  tables : PlainTable → List (σ.Key × σ.Value)
  receipts : σ.Receipts

/-- The static-file segments the migration writes to. -/
structure Statics (σ : Schema) where
  accountChangeSets : σ.Segment σ.AccountBeforeTx
  storageChangeSets : σ.Segment (StorageBeforeTx σ.StorageKey σ.StorageValue)
  receipts : σ.Segment σ.Receipt
  transactionSenders : σ.Segment Address

structure Store (σ : Schema) where
  statics : Statics σ
  rocksdb : IndexTable → σ.Key → Option σ.Value
  /-- The directory at `db_path`. -/
  db : Option (Db σ)
  dbCompact : Option (Db σ)
  dbPreCompact : Option (Db σ)

/-- What the command takes from its environment: the chain, the configuration and reth. -/
structure Env (σ : Schema) where
  genesisBlock : Nat
  /-- `!prune_modes.receipts_log_filter.is_empty()`. -/
  receiptsLogFilter : Bool
  writer : (α : Type) → SegmentWriter α (σ.Segment α)
  /-- `copy_to_static_files` for the blocks from the first number to the second. -/
  copyToStaticFiles : σ.Receipts → Nat → Nat → σ.Segment σ.Receipt →
    Except String (σ.Segment σ.Receipt)
  /-- What `init` makes of a missing database. -/
  createDb : Except String (Db σ)

variable {σ : Schema}

/-- `get_highest_static_file_block(segment).is_some()`. -/
def Env.hasBlocks (env : Env σ) {α : Type} (segment : σ.Segment α) : Bool :=
  ((env.writer α).currentBlockNumber segment).isSome

/-! ## The database operations -/

def Db.isV2 (db : Db σ) : Bool := (db.storageSettings.map (fun s => s.isV2)).getD false

/-- The block of the `Execution` checkpoint. -/
def Db.tip (db : Db σ) : Nat :=
  ((db.stageCheckpoints .execution).map (fun c => c.blockNumber)).getD 0

def Db.flip (db : Db σ) : Db σ := { db with storageSettings := some ⟨true⟩ }

/-- `tx.clear::<T>()`. -/
def Db.clear (db : Db σ) : TableId → Db σ
  | .accountChangeSets => { db with accountChangeSets := .empty }
  | .storageChangeSets => { db with storageChangeSets := .empty }
  | .plain t => { db with tables := Function.update db.tables t [] }

def Db.saveStageCheckpoint (db : Db σ) (stage : StageId) (c : StageCheckpoint σ.StageUnit) : Db σ :=
  { db with stageCheckpoints := Function.update db.stageCheckpoints stage (some c) }

def Db.saveStageCheckpointProgress (db : Db σ) (stage : StageId) (p : List UInt8) : Db σ :=
  { db with progresses := Function.update db.progresses stage (some p) }

/-- The stages whose checkpoints are reset. -/
def resetStages : List StageId := [.senderRecovery, .merkleExecute, .merkleUnwind]

/-- The stages go back to the block before genesis, in one transaction. -/
def Db.resetCheckpoints (db : Db σ) (genesisBlock : Nat) : Db σ :=
  (resetStages.foldl (fun db stage => db.saveStageCheckpoint stage ⟨genesisBlock - 1, none⟩) db)
    |>.saveStageCheckpointProgress .merkleExecute []

/-! ## Receipts, indices and senders -/

/-- `migrate_receipts`. -/
def migrateReceipts (env : Env σ) (db : Db σ) (tip : Nat) (segment : σ.Segment σ.Receipt) :
    Except String (σ.Segment σ.Receipt) :=
  let sw := env.writer σ.Receipt
  let existing := sw.currentBlockNumber segment
  if env.receiptsLogFilter then .ok segment
  else if existing.any (fun b => tip ≤ b) then .ok segment
  else do
    let first :=
      max (firstBlock (db.pruneCheckpoints .receipts) (existing.elim 0 (· + 1))) env.genesisBlock
    let segment ← if first > env.genesisBlock then
        fillGap sw env.genesisBlock first segment >>= sw.commit
      else .ok segment
    let segment ← env.copyToStaticFiles db.receipts first tip segment
    sw.commit segment

/-- `copy_table_to_rocksdb`: the target is cleared, then every row is put. -/
def copyTableToRocksdb (rows : List (σ.Key × σ.Value)) : σ.Key → Option σ.Value :=
  rows.foldl (fun target kv => Function.update target kv.1 (some kv.2)) (fun _ => none)

/-- The `TransactionSenders` segment is brought to the genesis block when that is not block 0. -/
def bridgeSenders (env : Env σ) (segment : σ.Segment Address) : Except String (σ.Segment Address) :=
  let sw := env.writer Address
  if env.genesisBlock > 0 ∧ sw.currentBlockNumber segment = none then
    sw.incrementBlock env.genesisBlock segment >>= sw.commit
  else .ok segment

/-! ## The steps -/

/-- The separately committed steps of `execute`. -/
inductive Step where
  | accountChangeSets
  | storageChangeSets
  | receipts
  | copyIndex (t : IndexTable)
  | flip
  | clear (t : TableId)
  | resetCheckpoints
  | bridgeSenders
  | compact
  /-- `rename(db, db_pre_compact)`. -/
  | renameBackup
  /-- `rename(db_compact, db)`. -/
  | renameCompact
  | removeBackup
  deriving DecidableEq

/-- Phases 1 to 2.5: everything before the metadata flip. -/
def copySteps : List Step :=
  [.accountChangeSets, .storageChangeSets, .receipts,
    .copyIndex .transactionHashNumbers, .copyIndex .accountsHistory, .copyIndex .storagesHistory]

/-- Phase 4. -/
def clearSteps : List Step :=
  [.clear .accountChangeSets, .clear .storageChangeSets,
    .clear (.plain .transactionSenders),
    .clear (.plain .transactionHashNumbers), .clear (.plain .accountsHistory),
    .clear (.plain .storagesHistory),
    .clear (.plain .plainAccountState), .clear (.plain .plainStorageState),
    .clear (.plain .accountsTrie), .clear (.plain .storagesTrie),
    .resetCheckpoints, .bridgeSenders]

/-- Phase 5. -/
def swapSteps : List Step := [.compact, .renameBackup, .renameCompact, .removeBackup]

def schedule : List Step := copySteps ++ .flip :: clearSteps ++ swapSteps

/-- A step that reads or writes the open database. -/
def Store.withDb (s : Store σ) (f : Db σ → Except String (Store σ)) : Except String (Store σ) :=
  match s.db with
  | none => .error "no database"
  | some db => f db

/-- One step of `execute` on a chain with the given tip. -/
def step (env : Env σ) (tip : Nat) (s : Store σ) : Step → Except String (Store σ)
  | .accountChangeSets => s.withDb (fun db => do
      let w ← migrateAccountChangesets (env.writer _) (db.pruneCheckpoints .accountHistory)
        db.accountChangeSets.cursor tip env.genesisBlock s.statics.accountChangeSets
      return { s with statics.accountChangeSets := w })
  | .storageChangeSets => s.withDb (fun db => do
      let w ← migrateStorageChangesets (env.writer _) (db.pruneCheckpoints .storageHistory)
        db.storageChangeSets.cursor tip env.genesisBlock s.statics.storageChangeSets
      return { s with statics.storageChangeSets := w })
  | .receipts => s.withDb (fun db => do
      let w ← migrateReceipts env db tip s.statics.receipts
      return { s with statics.receipts := w })
  | .copyIndex t => s.withDb (fun db =>
      .ok { s with
        rocksdb := Function.update s.rocksdb t (copyTableToRocksdb (db.tables t.source)) })
  | .flip => s.withDb (fun db => .ok { s with db := some db.flip })
  | .clear t => s.withDb (fun db => .ok { s with db := some (db.clear t) })
  | .resetCheckpoints =>
    s.withDb (fun db => .ok { s with db := some (db.resetCheckpoints env.genesisBlock) })
  | .bridgeSenders => do
      let w ← bridgeSenders env s.statics.transactionSenders
      return { s with statics.transactionSenders := w }
  -- `mdbx_env_copy` copies the content and refuses an existing file
  | .compact => s.withDb (fun db =>
      if s.dbCompact.isSome then .error "mdbx_env_copy failed"
      else .ok { s with dbCompact := some db })
  -- a directory is not renamed onto one that is not empty
  | .renameBackup =>
      if s.dbPreCompact.isSome then .error "Directory not empty"
      else s.withDb (fun db => .ok { s with db := none, dbPreCompact := some db })
  | .renameCompact =>
      match s.dbCompact with
      | none => .error "No such file or directory"
      | some db =>
        if s.db.isSome then .error "Directory not empty"
        else .ok { s with db := some db, dbCompact := none }
  | .removeBackup => .ok { s with dbPreCompact := none }

/-- The error branch of the second rename: the backup is moved back to `db_path`. -/
def rollback (s : Store σ) : Store σ := { s with db := s.dbPreCompact, dbPreCompact := none }

def runSteps (env : Env σ) (tip : Nat) (steps : List Step) (s : Store σ) :
    Except String (Store σ) :=
  steps.foldlM (step env tip) s

/-! ## The command -/

/-- `env.init`: the database at `db_path` is opened, or created when there is none. -/
def init (env : Env σ) (s : Store σ) : Except String (Db σ) :=
  match s.db with
  | some db => .ok db
  | none => env.createDb

/-- Phase 0 on an open database: the tip of a migration that may start, or `none` when there is
nothing to do. -/
def preflight (env : Env σ) (statics : Statics σ) (db : Db σ) : Except String (Option Nat) :=
  if db.isV2 then .ok none
  else if db.tip < env.genesisBlock then
    .error ("Invalid chain state: execution checkpoint " ++ toString db.tip ++
      " is before genesis block " ++ toString env.genesisBlock)
  else if env.hasBlocks statics.accountChangeSets then
    .error ("Static file segment AccountChangeSets already contains data. " ++
      "Cannot migrate — target must be empty.")
  else if env.hasBlocks statics.storageChangeSets then
    .error ("Static file segment StorageChangeSets already contains data. " ++
      "Cannot migrate — target must be empty.")
  else .ok (some db.tip)

/-- `MigrateV2Command::execute`: the store it leaves when it returns `Ok`. -/
def execute (env : Env σ) (s : Store σ) : Except String (Store σ) := do
  let db ← init env s
  let s := { s with db := some db }
  match ← preflight env s.statics db with
  | none => return s
  | some tip => runSteps env tip schedule s

/-! ## Running steps -/

theorem runSteps_append (env : Env σ) (tip : Nat) (l₁ l₂ : List Step) (s : Store σ) :
    runSteps env tip (l₁ ++ l₂) s = (runSteps env tip l₁ s).bind (runSteps env tip l₂) :=
  foldlM_append (step env tip) l₁ l₂ s

theorem runSteps_cons (env : Env σ) (tip : Nat) (st : Step) (l : List Step) (s : Store σ) :
    runSteps env tip (st :: l) s = (step env tip s st).bind (runSteps env tip l) := rfl

theorem runSteps_cons_ok {env : Env σ} {tip : Nat} {st : Step} {l : List Step} {s s' : Store σ}
    (h : runSteps env tip (st :: l) s = .ok s') :
    ∃ s₁, step env tip s st = .ok s₁ ∧ runSteps env tip l s₁ = .ok s' := by
  rw [runSteps_cons] at h
  cases hstep : step env tip s st with
  | error e =>
    rw [hstep] at h
    cases h
  | ok s₁ => exact ⟨s₁, rfl, by rwa [hstep] at h⟩

/-- A run to the end goes through every stop on the way. -/
theorem runSteps_append_ok {env : Env σ} {tip : Nat} {l₁ l₂ : List Step} {s final : Store σ}
    (h : runSteps env tip (l₁ ++ l₂) s = .ok final) :
    ∃ mid, runSteps env tip l₁ s = .ok mid ∧ runSteps env tip l₂ mid = .ok final := by
  rw [runSteps_append] at h
  cases hrun : runSteps env tip l₁ s with
  | error e =>
    rw [hrun] at h
    cases h
  | ok mid => exact ⟨mid, rfl, by rwa [hrun] at h⟩

/-- A database step that succeeds found a database. -/
theorem withDb_ok {s s' : Store σ} {f : Db σ → Except String (Store σ)} (h : s.withDb f = .ok s') :
    ∃ db, s.db = some db ∧ f db = .ok s' := by
  unfold Store.withDb at h
  cases hdb : s.db with
  | none => simp [hdb] at h
  | some db => exact ⟨db, rfl, by simpa [hdb] using h⟩

theorem withDb_some {s : Store σ} {db : Db σ} (hdb : s.db = some db)
    (f : Db σ → Except String (Store σ)) : s.withDb f = f db := by
  rw [Store.withDb, hdb]

theorem eq_with_db {s : Store σ} {db : Db σ} (hdb : s.db = some db) :
    { s with db := some db } = s := by
  cases s
  cases hdb
  rfl

theorem execute_eq {env : Env σ} {s : Store σ} {db : Db σ} (hdb : s.db = some db) :
    execute env s = (preflight env s.statics db).bind (fun tip =>
      match tip with
      | none => .ok s
      | some tip => runSteps env tip schedule s) := by
  simp only [execute, init, hdb, bind, Except.bind, eq_with_db hdb]
  rfl

/-- A failed second rename leaves the store as the compaction left it. -/
theorem rollback_restores {env : Env σ} {tip : Nat} {s s' : Store σ}
    (h : step env tip s .renameBackup = .ok s') : rollback s' = s := by
  simp only [step] at h
  split at h
  · cases h
  · rename_i hpre
    obtain ⟨db, hdb, hok⟩ := withDb_ok h
    cases hok
    have hnone : s.dbPreCompact = none := by simpa using hpre
    cases s
    cases hdb
    cases hnone
    rfl

end XLayerReth.MigrateV2
