import XLayerReth.MigrateV2.Migration

/-!
# Running the migration again after a stop

`execute` stops, by an error or a crash, after some first steps of the schedule.  This module says
for every such stop what a second `execute` makes of the store.

* `effect`, `Idle` — what a step does to the database and the senders segment, and when it does
  nothing.
* `SameStore` — the static segments, the RocksDB tables and the database at `db_path` agree.
* `RerunSafe` — the stops from which a second run ends in the same store.

Up to the flip the database is not touched, but from the first committed changeset segment on the
preflight of a second run refuses the store: its target is no longer empty (`rerun_before_flip`).
From the flip on a second run finds v2 and returns at once, whatever is still to be cleared
(`rerun_after_flip`).  Between the two renames there is no database at `db_path` at all.

Principal result: `rerun_same_store_iff`.
-/

set_option autoImplicit false

namespace XLayerReth.MigrateV2

open Lib RcsFilter

variable {σ : Schema} {env : Env σ} {tip : Nat}

/-! ## The database and the senders segment -/

/-- What a step does to the open database and the `TransactionSenders` segment. -/
def effect (env : Env σ) (v : Db σ × σ.Segment Address) : Step → Db σ × σ.Segment Address
  | .flip => (v.1.flip, v.2)
  | .clear t => (v.1.clear t, v.2)
  | .resetCheckpoints => (v.1.resetCheckpoints env.genesisBlock, v.2)
  | .bridgeSenders => (v.1, (bridgeSenders env v.2).toOption.getD v.2)
  | _ => v

/-- The table has no rows. -/
def Db.isEmpty (db : Db σ) : TableId → Prop
  | .accountChangeSets => db.accountChangeSets.rows = []
  | .storageChangeSets => db.storageChangeSets.rows = []
  | .plain t => db.tables t = []

/-- The stages to rebuild already stand before genesis. -/
def Db.checkpointsReset (db : Db σ) (genesisBlock : Nat) : Prop :=
  (∀ stage ∈ resetStages, db.stageCheckpoints stage = some ⟨genesisBlock - 1, none⟩) ∧
    db.progresses .merkleExecute = some []

/-- The step finds its work done. -/
def Idle (env : Env σ) (st : Step) (v : Db σ × σ.Segment Address) : Prop :=
  match st with
  | .flip => v.1.storageSettings = some ⟨true⟩
  | .clear t => v.1.isEmpty t
  | .resetCheckpoints => v.1.checkpointsReset env.genesisBlock
  | .bridgeSenders => env.genesisBlock = 0 ∨ env.hasBlocks v.2 = true
  | _ => True

theorem flip_eq_self (db : Db σ) : db.flip = db ↔ db.storageSettings = some ⟨true⟩ := by
  cases db
  simp [Db.flip, eq_comm]

theorem clear_eq_self (db : Db σ) (t : TableId) : db.clear t = db ↔ db.isEmpty t := by
  cases db with
  | mk settings checkpoints progresses prune accounts storages tables receipts =>
    cases t with
    | accountChangeSets =>
      simp [Db.clear, Db.isEmpty, ← OrderedTable.eq_empty, eq_comm]
    | storageChangeSets =>
      simp [Db.clear, Db.isEmpty, ← OrderedTable.eq_empty, eq_comm]
    | plain t => simp [Db.clear, Db.isEmpty, eq_comm]

theorem resetCheckpoints_checkpoints (db : Db σ) (g : Nat) (stage : StageId) :
    (db.resetCheckpoints g).stageCheckpoints stage =
      if stage ∈ resetStages then some ⟨g - 1, none⟩ else db.stageCheckpoints stage := by
  by_cases h1 : stage = .senderRecovery
  · subst h1
    rfl
  · by_cases h2 : stage = .merkleExecute
    · subst h2
      rfl
    · by_cases h3 : stage = .merkleUnwind
      · subst h3
        rfl
      · simp [Db.resetCheckpoints, resetStages, Db.saveStageCheckpoint,
          Db.saveStageCheckpointProgress,
          h1, h2, h3]

theorem resetCheckpoints_progresses (db : Db σ) (g : Nat) :
    (db.resetCheckpoints g).progresses =
      Function.update db.progresses .merkleExecute (some []) := rfl

/-- A reset touches the checkpoints and the progress, and nothing else. -/
theorem resetCheckpoints_eq (db : Db σ) (g : Nat) :
    db.resetCheckpoints g = { db with
      stageCheckpoints := (db.resetCheckpoints g).stageCheckpoints
      progresses := (db.resetCheckpoints g).progresses } := rfl

theorem resetCheckpoints_eq_self (db : Db σ) (g : Nat) :
    db.resetCheckpoints g = db ↔ db.checkpointsReset g := by
  constructor
  · intro h
    refine ⟨fun stage hstage => ?_, ?_⟩
    · rw [← h, resetCheckpoints_checkpoints, if_pos hstage]
    · rw [← h, resetCheckpoints_progresses, Function.update_self]
  · rintro ⟨hstages, hprogress⟩
    have hcheckpoints : (db.resetCheckpoints g).stageCheckpoints = db.stageCheckpoints := by
      funext stage
      rw [resetCheckpoints_checkpoints]
      split
      · rename_i hstage
        exact (hstages stage hstage).symm
      · rfl
    have hprogresses : (db.resetCheckpoints g).progresses = db.progresses := by
      rw [resetCheckpoints_progresses, ← hprogress, Function.update_eq_self]
    rw [resetCheckpoints_eq, hcheckpoints, hprogresses]

/-- Bridging brings an empty segment of a chain with a later genesis to the genesis block. -/
theorem bridgeSenders_ok (hsw : LawfulWriter (env.writer Address) env.genesisBlock)
    (w : σ.Segment Address) :
    ∃ w', bridgeSenders env w = .ok w' ∧ (env.genesisBlock = 0 ∨ env.hasBlocks w' = true) ∧
      (env.genesisBlock = 0 ∨ env.hasBlocks w = true → w' = w) := by
  unfold bridgeSenders
  by_cases hbridge : env.genesisBlock > 0 ∧ (env.writer Address).currentBlockNumber w = none
  · obtain ⟨w₁, hinc, hcur, -⟩ := hsw.incrementBlock_next w
    obtain ⟨w₂, hcommit, hcur₂, -⟩ := hsw.commit_ok w₁
    have hnext : (env.writer Address).nextBlock env.genesisBlock w = env.genesisBlock := by
      rw [SegmentWriter.nextBlock, hbridge.2]
    rw [hnext] at hinc hcur
    refine ⟨w₂, ?_, ?_, ?_⟩
    · simp only [if_pos hbridge, hinc, bind, Except.bind, hcommit]
    · exact .inr (by simp [Env.hasBlocks, hcur₂, hcur])
    · rintro (h | h)
      · omega
      · simp [Env.hasBlocks, hbridge.2] at h
  · refine ⟨w, if_neg hbridge, ?_, fun _ => rfl⟩
    by_cases hg : env.genesisBlock = 0
    · exact .inl hg
    · refine .inr ?_
      have hcur : (env.writer Address).currentBlockNumber w ≠ none := fun h => hbridge ⟨by omega, h⟩
      simpa [Env.hasBlocks, Option.isSome_iff_ne_none] using hcur

section Effect

variable (hsw : LawfulWriter (env.writer Address) env.genesisBlock)
include hsw

theorem effect_eq_self (st : Step) (v : Db σ × σ.Segment Address) :
    effect env v st = v ↔ Idle env st v := by
  obtain ⟨db, w⟩ := v
  cases st with
  | flip => simp [effect, Idle, flip_eq_self]
  | clear t => simp [effect, Idle, clear_eq_self]
  | resetCheckpoints => simp [effect, Idle, resetCheckpoints_eq_self]
  | bridgeSenders =>
    obtain ⟨w', hok, hdone, hsame⟩ := bridgeSenders_ok hsw w
    simp only [effect, hok, Idle, Prod.mk.injEq, true_and, Except.toOption, Option.getD_some]
    exact ⟨fun h => h ▸ hdone, hsame⟩
  | _ => simp [effect, Idle]

/-- A step leaves its own work done. -/
theorem idle_effect_self (st : Step) (v : Db σ × σ.Segment Address) :
    Idle env st (effect env v st) := by
  obtain ⟨db, w⟩ := v
  cases st with
  | flip => rfl
  | clear t =>
    cases t with
    | accountChangeSets => rfl
    | storageChangeSets => rfl
    | plain t => simp [effect, Idle, Db.clear, Db.isEmpty]
  | resetCheckpoints =>
    refine ⟨fun stage hstage => ?_, ?_⟩
    · exact (resetCheckpoints_checkpoints db env.genesisBlock stage).trans (if_pos hstage)
    · show (db.resetCheckpoints env.genesisBlock).progresses .merkleExecute = some []
      rw [resetCheckpoints_progresses, Function.update_self]
  | bridgeSenders =>
    obtain ⟨w', hok, hdone, -⟩ := bridgeSenders_ok hsw w
    simpa only [effect, Idle, hok, Except.toOption, Option.getD_some] using hdone
  | _ => trivial

end Effect

/-- A step says nothing about the work of another step. -/
theorem idle_effect_of_ne {st st' : Step} (hne : st ≠ st') (v : Db σ × σ.Segment Address) :
    Idle env st (effect env v st') ↔ Idle env st v := by
  obtain ⟨db, w⟩ := v
  cases st with
  | flip =>
    cases st' with
    | flip => exact absurd rfl hne
    | clear t => cases t <;> rfl
    | _ => rfl
  | clear t =>
    cases st' with
    | clear t' =>
      have hne' : t ≠ t' := fun h => hne (congrArg Step.clear h)
      cases t with
      | accountChangeSets =>
        cases t' with
        | accountChangeSets => exact absurd rfl hne'
        | _ => rfl
      | storageChangeSets =>
        cases t' with
        | storageChangeSets => exact absurd rfl hne'
        | _ => rfl
      | plain t =>
        cases t' with
        | plain t' =>
          have hplain : t ≠ t' := fun h => hne' (congrArg TableId.plain h)
          simp [effect, Idle, Db.clear, Db.isEmpty, Function.update_of_ne hplain]
        | _ => rfl
    | _ => cases t <;> rfl
  | resetCheckpoints =>
    cases st' with
    | resetCheckpoints => exact absurd rfl hne
    | clear t => cases t <;> rfl
    | _ => rfl
  | bridgeSenders =>
    cases st' with
    | bridgeSenders => exact absurd rfl hne
    | _ => rfl
  | _ => rfl

theorem idle_foldl_effect {st : Step} : ∀ {l : List Step}, st ∉ l → ∀ v : Db σ × σ.Segment Address,
    (Idle env st (l.foldl (effect env) v) ↔ Idle env st v)
  | [], _, _ => Iff.rfl
  | st' :: l, h, v => by
    rw [List.mem_cons, not_or] at h
    rw [List.foldl_cons, idle_foldl_effect h.2, idle_effect_of_ne h.1]

/-- The swap has no work on the content of the database. -/
theorem idle_of_mem_swapSteps {st : Step} (h : st ∈ swapSteps) (v : Db σ × σ.Segment Address) :
    Idle env st v := by
  simp only [swapSteps, List.mem_cons, List.not_mem_nil, or_false] at h
  rcases h with rfl | rfl | rfl | rfl <;> trivial

/-- The remaining steps change nothing exactly when each of them finds its work done. -/
theorem foldl_effect_eq_self (hsw : LawfulWriter (env.writer Address) env.genesisBlock)
    (l : List Step) (v : Db σ × σ.Segment Address) :
    l.foldl (effect env) v = v ↔ ∀ st ∈ l, Idle env st v := by
  apply foldl_eq_self_iff (effect_eq_self hsw) (idle_effect_self hsw)
  intro st st' v h
  by_cases hst : st = st'
  · exact hst ▸ idle_effect_self hsw st v
  · exact (idle_effect_of_ne hst v).mpr h

/-! ## What the steps do to the store -/

/-- The part of a step that later steps and a second run see: the database and the senders. -/
theorem step_effect {s s' : Store σ} {db : Db σ} {st : Step} (hst : st ∉ swapSteps)
    (hdb : s.db = some db) (h : step env tip s st = .ok s') :
    ∃ db', s'.db = some db' ∧
      (db', s'.statics.transactionSenders) = effect env (db, s.statics.transactionSenders) st := by
  cases st with
  | accountChangeSets | storageChangeSets | receipts =>
    simp only [step, withDb_some hdb, bind, Except.bind] at h
    split at h
    · cases h
    · cases h
      exact ⟨db, hdb, rfl⟩
  | copyIndex t =>
    simp only [step, withDb_some hdb] at h
    cases h
    exact ⟨db, hdb, rfl⟩
  | flip | clear _ | resetCheckpoints =>
    simp only [step, withDb_some hdb] at h
    cases h
    exact ⟨_, rfl, rfl⟩
  | bridgeSenders =>
    simp only [step, bind, Except.bind] at h
    split at h
    · cases h
    · rename_i w hw
      cases h
      refine ⟨db, hdb, ?_⟩
      simp [effect, hw, Except.toOption]
  | compact | renameBackup | renameCompact | removeBackup => exact absurd (by decide) hst

/-- From the flip on, a step leaves the RocksDB tables and the other segments alone. -/
theorem step_frame {s s' : Store σ} {st : Step} (hst : st ∉ copySteps)
    (h : step env tip s st = .ok s') :
    s'.rocksdb = s.rocksdb ∧
      s'.statics = { s.statics with transactionSenders := s'.statics.transactionSenders } := by
  cases st with
  | accountChangeSets | storageChangeSets | receipts => exact absurd (by decide) hst
  | copyIndex t => exact absurd (by cases t <;> decide) hst
  | flip | clear _ | resetCheckpoints =>
    obtain ⟨db, -, hok⟩ := withDb_ok h
    cases hok
    exact ⟨rfl, rfl⟩
  | bridgeSenders =>
    simp only [step, bind, Except.bind] at h
    split at h
    · cases h
    · cases h
      exact ⟨rfl, rfl⟩
  | compact =>
    obtain ⟨db, -, hok⟩ := withDb_ok h
    split at hok
    · cases hok
    · cases hok
      exact ⟨rfl, rfl⟩
  | renameBackup =>
    simp only [step] at h
    split at h
    · cases h
    · obtain ⟨db, -, hok⟩ := withDb_ok h
      cases hok
      exact ⟨rfl, rfl⟩
  | renameCompact =>
    simp only [step] at h
    split at h
    · cases h
    · split at h
      · cases h
      · cases h
        exact ⟨rfl, rfl⟩
  | removeBackup =>
    cases h
    exact ⟨rfl, rfl⟩

theorem runSteps_effect {l : List Step} {s s' : Store σ} {db : Db σ} (hl : ∀ st ∈ l, st ∉ swapSteps)
    (hdb : s.db = some db) (h : runSteps env tip l s = .ok s') :
    ∃ db', s'.db = some db' ∧ (db', s'.statics.transactionSenders) =
      l.foldl (effect env) (db, s.statics.transactionSenders) := by
  induction l generalizing s db with
  | nil =>
    cases h
    exact ⟨db, hdb, rfl⟩
  | cons st l ih =>
    obtain ⟨s₁, hstep, hrest⟩ := runSteps_cons_ok h
    obtain ⟨db₁, hdb₁, hv₁⟩ := step_effect (hl st (List.mem_cons_self ..)) hdb hstep
    obtain ⟨db', hdb', hv'⟩ := ih (fun x hx => hl x (List.mem_cons_of_mem _ hx)) hdb₁ hrest
    refine ⟨db', hdb', ?_⟩
    rw [hv', hv₁, List.foldl_cons]

theorem runSteps_frame {l : List Step} {s s' : Store σ} (hl : ∀ st ∈ l, st ∉ copySteps)
    (h : runSteps env tip l s = .ok s') :
    s'.rocksdb = s.rocksdb ∧
      s'.statics = { s.statics with transactionSenders := s'.statics.transactionSenders } := by
  induction l generalizing s with
  | nil =>
    cases h
    exact ⟨rfl, rfl⟩
  | cons st l ih =>
    obtain ⟨s₁, hstep, hrest⟩ := runSteps_cons_ok h
    obtain ⟨hrocks₁, hstatics₁⟩ := step_frame (hl st (List.mem_cons_self ..)) hstep
    obtain ⟨hrocks, hstatics⟩ := ih (fun x hx => hl x (List.mem_cons_of_mem _ hx)) hrest
    refine ⟨hrocks.trans hrocks₁, ?_⟩
    rw [hstatics, hstatics₁]

/-! ## Up to the flip -/

theorem foldl_effect_copy : ∀ {l : List Step}, (∀ st ∈ l, st ∈ copySteps) →
    ∀ v : Db σ × σ.Segment Address, l.foldl (effect env) v = v
  | [], _, _ => rfl
  | st :: l, h, v => by
    have hst : effect env v st = v := by
      have := h st (List.mem_cons_self ..)
      simp only [copySteps, List.mem_cons, List.not_mem_nil, or_false] at this
      rcases this with rfl | rfl | rfl | rfl | rfl | rfl <;> rfl
    rw [List.foldl_cons, hst]
    exact foldl_effect_copy (fun x hx => h x (List.mem_cons_of_mem _ hx)) v

/-- Before the flip the database stays as it was. -/
theorem runSteps_copy_db {l : List Step} {s s' : Store σ} {db : Db σ}
    (hl : ∀ st ∈ l, st ∈ copySteps)
    (hdb : s.db = some db) (h : runSteps env tip l s = .ok s') : s'.db = some db := by
  have hswap : ∀ st ∈ l, st ∉ swapSteps := by
    intro st hst
    exact (by decide : ∀ st ∈ copySteps, st ∉ swapSteps) st (hl st hst)
  obtain ⟨db', hdb', hv⟩ := runSteps_effect hswap hdb h
  rw [foldl_effect_copy hl] at hv
  rw [hdb', (Prod.mk.inj hv).1]

theorem step_accountChangeSets {s s' : Store σ} {st : Step} (hst : st ≠ .accountChangeSets)
    (h : step env tip s st = .ok s') :
    s'.statics.accountChangeSets = s.statics.accountChangeSets := by
  by_cases hcopy : st ∈ copySteps
  · cases st with
    | accountChangeSets => exact absurd rfl hst
    | storageChangeSets | receipts =>
      obtain ⟨db, -, hok⟩ := withDb_ok h
      simp only [bind, Except.bind] at hok
      split at hok
      · cases hok
      · cases hok
        rfl
    | copyIndex t =>
      obtain ⟨db, -, hok⟩ := withDb_ok h
      cases hok
      rfl
    | _ => simp [copySteps] at hcopy
  · rw [(step_frame hcopy h).2]

theorem runSteps_accountChangeSets {l : List Step} {s s' : Store σ}
    (hl : Step.accountChangeSets ∉ l)
    (h : runSteps env tip l s = .ok s') :
    s'.statics.accountChangeSets = s.statics.accountChangeSets := by
  induction l generalizing s with
  | nil =>
    cases h
    rfl
  | cons st l ih =>
    rw [List.mem_cons, not_or] at hl
    obtain ⟨s₁, hstep, hrest⟩ := runSteps_cons_ok h
    rw [ih hl.2 hrest, step_accountChangeSets (Ne.symm hl.1) hstep]

/-- Once the account changesets are committed their segment has blocks: it holds at least
    genesis. -/
theorem accountChangeSets_hasBlocks
    (hsw : LawfulWriter (env.writer σ.AccountBeforeTx) env.genesisBlock) {s s' : Store σ}
    (hfresh : env.hasBlocks s.statics.accountChangeSets = false) (htip : env.genesisBlock ≤ tip)
    (h : step env tip s .accountChangeSets = .ok s') :
    env.hasBlocks s'.statics.accountChangeSets = true := by
  obtain ⟨db, -, hok⟩ := withDb_ok h
  have hnone : (env.writer _).currentBlockNumber s.statics.accountChangeSets = none := by
    simpa [Env.hasBlocks] using hfresh
  obtain ⟨w, hw, hblocks⟩ := migrateChangesets_ok (accountChangeSets_lawful _) hsw
    (rfl : db.accountChangeSets.cursor.seekError = none)
    (db.pruneCheckpoints .accountHistory) tip hnone
  simp only [migrateAccountChangesets, hw, bind, Except.bind] at hok
  cases hok
  show env.hasBlocks w = true
  by_contra hempty
  have hcur : (env.writer _).currentBlockNumber w = none := by simpa [Env.hasBlocks] using hempty
  -- either the tip is copied or the whole chain up to it is a gap
  have htop := hblocks tip
  rw [hsw.blocks_fresh w hcur] at htop
  by_cases hfirst : firstBlock (db.pruneCheckpoints .accountHistory) env.genesisBlock ≤ tip
  · rw [if_pos ⟨hfirst, Nat.le_refl tip⟩] at htop
    cases htop
  · rw [if_neg (fun h => hfirst h.1), if_pos ⟨htip, by omega⟩] at htop
    cases htop

/-- The preflight accepted the store: it is v1 and both changeset segments are empty. -/
theorem preflight_some {statics : Statics σ} {db : Db σ}
    (h : preflight env statics db = .ok (some tip)) :
    db.isV2 = false ∧ tip = db.tip ∧ env.genesisBlock ≤ db.tip ∧
      env.hasBlocks statics.accountChangeSets = false := by
  unfold preflight at h
  split at h
  · cases h
  · rename_i hv2
    split at h
    · cases h
    · rename_i htip
      split at h
      · cases h
      · rename_i hacc
        split at h
        · cases h
        · cases h
          exact ⟨by simpa using hv2, rfl, by omega, by simpa using hacc⟩

/-- A v1 store whose account segment has blocks is refused. -/
theorem preflight_refuses {statics : Statics σ} {db : Db σ} (hv2 : db.isV2 = false)
    (hacc : env.hasBlocks statics.accountChangeSets = true) :
    ∃ e, preflight env statics db = .error e := by
  unfold preflight
  rw [hv2, hacc]
  by_cases htip : db.tip < env.genesisBlock
  · exact ⟨_, by rw [if_neg (by simp), if_pos htip]⟩
  · exact ⟨_, by rw [if_neg (by simp), if_neg htip, if_pos rfl]⟩

/-- **A stop between the first commit and the flip**: the database is untouched and still v1, and a
second run refuses the store. -/
theorem rerun_before_flip (hsw : LawfulWriter (env.writer σ.AccountBeforeTx) env.genesisBlock)
    {s mid : Store σ} {db : Db σ} {done : List Step} (hdb : s.db = some db)
    (hpre : preflight env s.statics db = .ok (some tip)) (hdone : done ≠ [])
    (hcopy : done <+: copySteps)
    (hmid : runSteps env tip done s = .ok mid) :
    mid.db = some db ∧ ∃ e, execute env mid = .error e := by
  obtain ⟨hv2, rfl, htip, hacc⟩ := preflight_some hpre
  have hmem : ∀ st ∈ done, st ∈ copySteps := fun st hst => hcopy.subset hst
  have hmiddb := runSteps_copy_db hmem hdb hmid
  obtain ⟨rest, hrest⟩ := hcopy
  obtain ⟨st, done', rfl⟩ := List.exists_cons_of_ne_nil hdone
  obtain ⟨rfl, hdone'⟩ : st = .accountChangeSets ∧ Step.accountChangeSets ∉ done' := by
    rw [List.cons_append, copySteps, List.cons.injEq] at hrest
    refine ⟨hrest.1, fun h => ?_⟩
    have : Step.accountChangeSets ∈ done' ++ rest := List.mem_append_left _ h
    rw [hrest.2] at this
    exact absurd this (by decide)
  obtain ⟨s₁, hstep, hrun⟩ := runSteps_cons_ok hmid
  have hblocks : env.hasBlocks mid.statics.accountChangeSets = true := by
    rw [runSteps_accountChangeSets hdone' hrun]
    exact accountChangeSets_hasBlocks hsw hacc htip hstep
  obtain ⟨e, he⟩ := preflight_refuses hv2 hblocks
  refine ⟨hmiddb, e, ?_⟩
  rw [execute_eq hmiddb, he]
  rfl

/-! ## The swap -/

/-- The four steps of the swap, run from a store that they succeed on, give that store back: the
copy at `db_path` has the content of the database it replaces. -/
theorem runSteps_swap {s final : Store σ} {db : Db σ} (hdb : s.db = some db)
    (h : runSteps env tip swapSteps s = .ok final) :
    s.dbCompact = none ∧ s.dbPreCompact = none ∧ final = s := by
  obtain ⟨statics, rocksdb, _, dbCompact, dbPreCompact⟩ := s
  cases hdb
  cases dbCompact with
  | some _ => cases h
  | none =>
    cases dbPreCompact with
    | some _ => cases h
    | none =>
      cases h
      exact ⟨rfl, rfl, rfl⟩

/-- The stops of the swap: the database is at `db_path` except between the two renames. -/
theorem runSteps_swap_stops {s mid : Store σ} {db : Db σ} (hdb : s.db = some db)
    (hc : s.dbCompact = none) (hp : s.dbPreCompact = none) {d rest : List Step}
    (hd : swapSteps = d ++ rest) (hmid : runSteps env tip d s = .ok mid) :
    mid.statics = s.statics ∧ mid.rocksdb = s.rocksdb ∧
      mid.db = if rest.head? = some .renameCompact then none else some db := by
  have hstart : s = ⟨s.statics, s.rocksdb, some db, none, none⟩ := by
    obtain ⟨statics, rocksdb, db, dbCompact, dbPreCompact⟩ := s
    cases hdb
    cases hc
    cases hp
    rfl
  rw [hstart] at hmid
  match d, hd with
  | [], hd =>
    cases hd
    cases hmid
    exact ⟨rfl, rfl, rfl⟩
  | [_], hd =>
    cases hd
    cases hmid
    exact ⟨rfl, rfl, rfl⟩
  | [_, _], hd =>
    cases hd
    cases hmid
    exact ⟨rfl, rfl, rfl⟩
  | [_, _, _], hd =>
    cases hd
    cases hmid
    exact ⟨rfl, rfl, rfl⟩
  | [_, _, _, _], hd =>
    cases hd
    cases hmid
    exact ⟨rfl, rfl, rfl⟩
  | _ :: _ :: _ :: _ :: _ :: _, hd => cases hd

/-! ## From the flip on -/

/-- The static segments, the RocksDB tables and the database at `db_path` agree. -/
def SameStore (s t : Store σ) : Prop := s.statics = t.statics ∧ s.rocksdb = t.rocksdb ∧ s.db = t.db

theorem execute_v2 {s : Store σ} {db : Db σ} (hdb : s.db = some db) (hv2 : db.isV2 = true) :
    execute env s = .ok s := by
  rw [execute_eq hdb, preflight, if_pos hv2]
  rfl

/-- Later steps do not undo the flip. -/
theorem isV2_foldl_effect {l : List Step} (v : Db σ × σ.Segment Address) (h : Idle env .flip v) :
    (l.foldl (effect env) v).1.isV2 = true := by
  have hidle : Idle env .flip (l.foldl (effect env) v) := by
    induction l generalizing v with
    | nil => exact h
    | cons st l ih =>
      apply ih
      by_cases hst : Step.flip = st
      · subst hst
        rfl
      · exact (idle_effect_of_ne hst v).mpr h
  have hsettings : (l.foldl (effect env) v).1.storageSettings = some ⟨true⟩ := hidle
  rw [Db.isV2, hsettings]
  rfl

/-- The database an uninterrupted run leaves at `db_path`. -/
def migrated (env : Env σ) (db : Db σ) : Db σ :=
  ([TableId.accountChangeSets, .storageChangeSets, .plain .transactionSenders,
      .plain .transactionHashNumbers, .plain .accountsHistory, .plain .storagesHistory,
      .plain .plainAccountState, .plain .plainStorageState, .plain .accountsTrie,
      .plain .storagesTrie].foldl Db.clear db.flip).resetCheckpoints env.genesisBlock

theorem foldl_effect_main (db : Db σ) (w : σ.Segment Address) :
    ((copySteps ++ .flip :: clearSteps).foldl (effect env) (db, w)).1 = migrated env db := rfl

/-- **A stop from the flip on, with the database at `db_path`**: a second run returns `Ok` at once,
so it ends in the same store exactly when the remaining steps find their work done. -/
theorem rerun_after_flip (hsw : LawfulWriter (env.writer Address) env.genesisBlock)
    {s mid final : Store σ} {db : Db σ} {done rest : List Step} (hdb : s.db = some db)
    (hsched : copySteps ++ .flip :: clearSteps = (copySteps ++ .flip :: done) ++ rest)
    (hmid : runSteps env tip (copySteps ++ .flip :: done) s = .ok mid)
    (hfinal : runSteps env tip (rest ++ swapSteps) mid = .ok final) :
    execute env mid = .ok mid ∧
      (SameStore mid final ↔
        ∀ st ∈ rest, Idle env st (db, s.statics.transactionSenders)) := by
  have hmain : ∀ st ∈ (copySteps ++ .flip :: done) ++ rest, st ∉ swapSteps := by
    rw [← hsched]
    decide
  obtain ⟨dbm, hdbm, hvm⟩ :=
    runSteps_effect (fun st hst => hmain st (List.mem_append_left _ hst)) hdb hmid
  have hv2 : dbm.isV2 = true := by
    have hfst := congrArg Prod.fst hvm
    rw [List.foldl_append, List.foldl_cons] at hfst
    rw [show dbm = _ from hfst]
    exact isV2_foldl_effect _ rfl
  refine ⟨execute_v2 hdbm hv2, ?_⟩
  -- the rest of the main steps, and the swap, which gives its store back
  obtain ⟨last, hlast, hswap⟩ := runSteps_append_ok hfinal
  obtain ⟨dbl, hdbl, hvl⟩ :=
    runSteps_effect (fun st hst => hmain st (List.mem_append_right _ hst)) hdbm hlast
  obtain ⟨-, -, rfl⟩ := runSteps_swap hdbl hswap
  have hclear : rest <:+ clearSteps := by
    rw [List.append_assoc, List.append_cancel_left_eq, List.cons_append, List.cons.injEq] at hsched
    exact ⟨done, hsched.2.symm⟩
  have hcopy : ∀ st ∈ rest, st ∉ copySteps := by
    intro st hst
    exact (by decide : ∀ st ∈ clearSteps, st ∉ copySteps) st (hclear.subset hst)
  obtain ⟨hrocks, hstatics⟩ := runSteps_frame hcopy hlast
  have hsame : SameStore mid final ↔
      (dbl, final.statics.transactionSenders) = (dbm, mid.statics.transactionSenders) := by
    constructor
    · rintro ⟨hst, -, hdb'⟩
      rw [hdbm, hdbl] at hdb'
      rw [hst, Option.some.inj hdb']
    · intro hv
      obtain ⟨hd, hw⟩ := Prod.mk.inj hv
      refine ⟨?_, hrocks.symm, ?_⟩
      · rw [hstatics, hw]
      · rw [hdbm, hdbl, hd]
  rw [hsame, hvl, foldl_effect_eq_self hsw, hvm]
  -- no step of the rest was taken before
  have hdisjoint : ∀ st ∈ rest, st ∉ copySteps ++ .flip :: done := by
    have hnodup : ((copySteps ++ .flip :: done) ++ rest).Nodup := by
      rw [← hsched]
      decide
    intro st hst hmem
    exact (List.nodup_append.mp hnodup).2.2 st hmem st hst rfl
  constructor
  · intro h st hst
    exact (idle_foldl_effect (hdisjoint st hst) _).mp (h st hst)
  · intro h st hst
    exact (idle_foldl_effect (hdisjoint st hst) _).mpr (h st hst)

/-- **A stop in the swap**: a second run ends in the same store, except between the two renames,
where it takes what `init` makes of the missing database. -/
theorem rerun_in_swap (hsw : ∀ α, LawfulWriter (env.writer α) env.genesisBlock)
    {s mid final : Store σ} {db : Db σ} {d rest : List Step} (hdb : s.db = some db)
    (hpre : preflight env s.statics db = .ok (some tip)) (hswap : swapSteps = d ++ rest)
    (hmid : runSteps env tip ((copySteps ++ .flip :: clearSteps) ++ d) s = .ok mid)
    (hfinal : runSteps env tip rest mid = .ok final) :
    (∃ again, execute env mid = .ok again ∧ SameStore again final) ↔
      (rest.head? = some .renameCompact → env.createDb = .ok (migrated env db)) := by
  obtain ⟨last, hlast, hd⟩ := runSteps_append_ok hmid
  obtain ⟨dbl, hdbl, hvl⟩ := runSteps_effect (by decide) hdb hlast
  have hmig : dbl = migrated env db := (congrArg Prod.fst hvl).trans (foldl_effect_main db _)
  have hv2 : (migrated env db).isV2 = true := rfl
  have hall : runSteps env tip swapSteps last = .ok final := by
    rw [hswap, runSteps_append, hd]
    exact hfinal
  obtain ⟨hc, hp, rfl⟩ := runSteps_swap hdbl hall
  obtain ⟨hstatics, hrocks, hmiddb⟩ := runSteps_swap_stops hdbl hc hp hswap hd
  subst hmig
  by_cases hhead : rest.head? = some .renameCompact
  · rw [if_pos hhead] at hmiddb
    -- there is no database: `init` creates one
    have hacc : env.hasBlocks mid.statics.accountChangeSets = true := by
      obtain ⟨-, rfl, htip, hfresh⟩ := preflight_some hpre
      obtain ⟨s₁, hstep, hrun⟩ := runSteps_cons_ok hlast
      rw [hstatics, runSteps_accountChangeSets (by decide) hrun]
      exact accountChangeSets_hasBlocks (hsw _) hfresh htip hstep
    simp only [hhead, true_implies, execute, init, hmiddb, bind, Except.bind]
    cases hcreate : env.createDb with
    | error e => simp
    | ok new =>
      by_cases hnew : new.isV2 = true
      · simp only [preflight, hnew, if_true, Except.ok.injEq]
        constructor
        · rintro ⟨again, hagain, -, -, hdb'⟩
          cases hagain
          rw [hdbl] at hdb'
          exact Option.some.inj hdb'
        · rintro rfl
          exact ⟨_, rfl, hstatics, hrocks, hdbl.symm⟩
      · obtain ⟨e, he⟩ := preflight_refuses (by simpa using hnew) hacc
        simp only [he]
        constructor
        · rintro ⟨again, hagain, -⟩
          cases hagain
        · intro h
          cases h
          exact absurd hv2 hnew
  · rw [if_neg hhead] at hmiddb
    refine ⟨fun _ h => absurd h hhead, fun _ => ⟨mid, execute_v2 hmiddb hv2, hstatics, hrocks, ?_⟩⟩
    rw [hmiddb, hdbl]

/-! ## Every stop -/

/-- The stops from which a second run ends in the same store: nothing was committed yet, or the flip
was and every remaining step finds its work done; and between the two renames `init` would have to
make the migrated database out of nothing. -/
def RerunSafe (env : Env σ) (db : Db σ) (senders : σ.Segment Address) (done rest : List Step) :
    Prop :=
  done = [] ∨
    (Step.flip ∉ rest ∧ (∀ st ∈ rest, Idle env st (db, senders)) ∧
      (rest.head? = some .renameCompact → env.createDb = .ok (migrated env db)))

/-- The schedule is cut before the flip, between the flip and the swap, or in the swap. -/
theorem schedule_cut {done rest : List Step} (h : schedule = done ++ rest) :
    (done <+: copySteps ∧ Step.flip ∈ rest) ∨
    (∃ d r, done = copySteps ++ .flip :: d ∧ rest = r ++ swapSteps ∧ clearSteps = d ++ r) ∨
    (∃ d, done = (copySteps ++ .flip :: clearSteps) ++ d ∧ swapSteps = d ++ rest) := by
  rw [schedule] at h
  rcases List.append_eq_append_iff.mp h with ⟨d, hd, hswap⟩ | ⟨r, hmain, hrest⟩
  · exact .inr (.inr ⟨d, hd, hswap⟩)
  · rcases List.append_eq_append_iff.mp hmain with ⟨d, hd, hclear⟩ | ⟨r', hcopy, hr⟩
    · cases d with
      | nil =>
        refine .inl ⟨⟨[], by simpa using hd⟩, ?_⟩
        rw [hrest, ← List.nil_append r, ← hclear]
        simp
      | cons st d =>
        rw [List.cons_append, List.cons.injEq] at hclear
        obtain ⟨rfl, hclear⟩ := hclear
        exact .inr (.inl ⟨d, r, hd, hrest, hclear⟩)
    · refine .inl ⟨⟨r', hcopy.symm⟩, ?_⟩
      rw [hrest, hr]
      simp

/-- After the flip only clearing steps and the swap are left. -/
theorem clear_rest {d r : List Step} (h : clearSteps = d ++ r) :
    Step.flip ∉ r ++ swapSteps ∧ (r ++ swapSteps).head? ≠ some .renameCompact := by
  refine ⟨fun hmem => ?_, fun hhead => ?_⟩
  · have hflip : Step.flip ∈ (d ++ r) ++ swapSteps := by
      rw [List.append_assoc]
      exact List.mem_append_right d hmem
    rw [← h] at hflip
    exact absurd hflip (by decide)
  · cases r with
    | nil => exact absurd hhead (by decide)
    | cons st r =>
      rw [List.cons_append, List.head?_cons, Option.some.injEq] at hhead
      have hrename : Step.renameCompact ∈ clearSteps := by
        rw [h, hhead]
        simp
      exact absurd hrename (by decide)

/-- **Running the migration again.**  For every v1 store the preflight accepts and every stop of an
otherwise successful run, a second `execute` returns `Ok` and ends in the store of the uninterrupted
run exactly when `RerunSafe` holds; and a stop before the flip leaves the database as it was, at
v1. -/
theorem rerun_same_store_iff (hsw : ∀ α, LawfulWriter (env.writer α) env.genesisBlock)
    {s mid final : Store σ} {db : Db σ} {done rest : List Step} (hdb : s.db = some db)
    (hpre : preflight env s.statics db = .ok (some tip)) (hfinal : execute env s = .ok final)
    (hsched : schedule = done ++ rest) (hmid : runSteps env tip done s = .ok mid) :
    ((∃ again, execute env mid = .ok again ∧ SameStore again final) ↔
      RerunSafe env db s.statics.transactionSenders done rest) ∧
    (Step.flip ∈ rest → mid.db = some db ∧ db.isV2 = false) := by
  have hrun : runSteps env tip rest mid = .ok final := by
    rw [execute_eq hdb, hpre] at hfinal
    obtain ⟨m, hm, hrun⟩ := runSteps_append_ok (hsched ▸ hfinal)
    cases hm.symm.trans hmid
    exact hrun
  rcases schedule_cut hsched with ⟨hcopy, hflip⟩ | ⟨d, r, rfl, rfl, hclear⟩ | ⟨d, rfl, hswap⟩
  · by_cases hdone : done = []
    · subst hdone
      cases hmid
      refine ⟨⟨fun _ => .inl rfl, fun _ => ⟨final, hfinal, rfl, rfl, rfl⟩⟩, fun _ => ⟨hdb, ?_⟩⟩
      exact (preflight_some hpre).1
    · obtain ⟨hmiddb, e, he⟩ := rerun_before_flip (hsw _) hdb hpre hdone hcopy hmid
      refine ⟨⟨?_, ?_⟩, fun _ => ⟨hmiddb, (preflight_some hpre).1⟩⟩
      · rintro ⟨again, hagain, -⟩
        rw [he] at hagain
        cases hagain
      · rintro (h | ⟨h, -⟩)
        · exact absurd h hdone
        · exact absurd hflip h
  · obtain ⟨hnoflip, hhead⟩ := clear_rest hclear
    obtain ⟨hagain, hsame⟩ := rerun_after_flip (hsw _) hdb
      (by rw [hclear, List.append_assoc, List.cons_append]) hmid hrun
    refine ⟨⟨?_, ?_⟩, fun h => absurd h hnoflip⟩
    · rintro ⟨again, hok, hstore⟩
      cases hagain.symm.trans hok
      refine .inr ⟨hnoflip, fun st hst => ?_, fun h => absurd h hhead⟩
      rcases List.mem_append.mp hst with hst | hst
      · exact hsame.mp hstore st hst
      · exact idle_of_mem_swapSteps hst _
    · rintro (h | ⟨-, hidle, -⟩)
      · exact absurd h (by simp)
      · exact ⟨mid, hagain, hsame.mpr (fun st hst => hidle st (List.mem_append_left _ hst))⟩
  · have hrest : ∀ st ∈ rest, st ∈ swapSteps := by
      intro st hst
      rw [hswap]
      exact List.mem_append_right d hst
    have hnoflip : Step.flip ∉ rest := fun h => absurd (hrest _ h) (by decide)
    rw [rerun_in_swap hsw hdb hpre hswap hmid hrun]
    refine ⟨⟨fun h => .inr ⟨hnoflip, fun st hst => idle_of_mem_swapSteps (hrest st hst) _, h⟩, ?_⟩,
      fun h => absurd h hnoflip⟩
    · rintro (h | ⟨-, -, h⟩)
      · exact absurd h (by simp [copySteps])
      · exact h

/-! ## A store with two blocks -/

abbrev sampleSchema : Schema where
  AccountBeforeTx := Nat
  StorageKey := Nat
  StorageValue := Nat
  Key := Nat
  Value := Nat
  Receipts := Nat → List Nat
  Receipt := Nat
  StageUnit := Nat
  Segment α := List (List α)
  decEqKey := inferInstance

/-- A chain from block 3; a missing database under existing static files is an error. -/
def sampleEnv : Env sampleSchema where
  genesisBlock := 3
  receiptsLogFilter := false
  writer α := listSegment α 3
  copyToStaticFiles receipts first tip segment :=
    (List.range' first (tip + 1 - first)).foldlM
      (fun segment b => (listSegment Nat 3).append (receipts b) b segment) segment
  createDb := .error "Genesis header found on static files, but database is uninitialized."

def sampleDb : Db sampleSchema where
  storageSettings := none
  stageCheckpoints _ := some ⟨5, some 1⟩
  progresses _ := none
  pruneCheckpoints _ := none
  accountChangeSets := ⟨[(4, 10), (5, 11)], by decide⟩
  storageChangeSets := ⟨[(⟨4, 7⟩, ⟨0, 5⟩)], by decide⟩
  tables _ := [(1, 2)]
  receipts b := [b]

def sampleStore : Store sampleSchema where
  statics := ⟨[], [], [], []⟩
  rocksdb _ _ := none
  db := some sampleDb
  dbCompact := none
  dbPreCompact := none

/-- A crash after the senders are bridged is made good by a second run. -/
theorem rerun_after_bridge :
    ∃ mid final, execute sampleEnv sampleStore = .ok final ∧
      runSteps sampleEnv 5 (copySteps ++ .flip :: clearSteps) sampleStore = .ok mid ∧
      ∃ again, execute sampleEnv mid = .ok again ∧ SameStore again final := by
  refine ⟨_, _, rfl, rfl, ?_⟩
  refine (@rerun_same_store_iff _ sampleEnv 5 (fun α => listSegment_lawful α 3) sampleStore _ _
    sampleDb (copySteps ++ .flip :: clearSteps) swapSteps rfl rfl rfl rfl rfl).1.mpr
    (.inr ⟨by decide, ?_, ?_⟩)
  · exact fun st hst => idle_of_mem_swapSteps hst _
  · intro h
    exact absurd h (by decide)

/-- A crash after the account changesets, and one after the flip: the second run refuses the first
store, and takes the second as done although nothing is cleared. -/
theorem rerun_lost :
    ∃ copied flipped final, execute sampleEnv sampleStore = .ok final ∧
      runSteps sampleEnv 5 [.accountChangeSets] sampleStore = .ok copied ∧
      execute sampleEnv copied =
        .error ("Static file segment AccountChangeSets already contains " ++
        "data. Cannot migrate — target must be empty.") ∧
      runSteps sampleEnv 5 (copySteps ++ [.flip]) sampleStore = .ok flipped ∧
      execute sampleEnv flipped = .ok flipped ∧ ¬ SameStore flipped final := by
  refine ⟨_, _, _, rfl, rfl, rfl, rfl, rfl, ?_⟩
  rintro ⟨-, -, hdb⟩
  have haccounts := congrArg (fun db => db.map (fun db => db.accountChangeSets.rows)) hdb
  cases haccounts

end XLayerReth.MigrateV2
