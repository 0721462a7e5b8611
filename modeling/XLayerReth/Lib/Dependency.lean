import Mathlib.Data.Finset.Card
import Mathlib.Data.Finset.Range
import Mathlib.Logic.Relation
import Mathlib.Order.Nat
import Mathlib.Data.Nat.Find

/-!
# Progress through a dependency graph

Tasks `0 … size - 1` with edges from smaller to larger indices.  A `Progress` records which tasks
have been started and which are done; by its fields a task is started only when all its direct
predecessors are done.

* `Progress.start`, `Progress.finish` — the two moves.
* `Progress.waiting` — the number of direct predecessors that are not done.

Principal results: `before_done` (whatever must come before a started task is done) and
`exists_enabled` (as long as tasks are left and none is running, one is enabled).
-/

set_option autoImplicit false

namespace XLayerReth.Lib

/-- A dependency graph; every edge comes from a smaller index. -/
structure Dag where
  size : Nat
  pred : Nat → Finset Nat
  pred_lt : ∀ {i j : Nat}, j ∈ pred i → j < i

/-- `j` must come before `i`: there is a path of edges from `j` to `i`. -/
def Dag.Before (G : Dag) : Nat → Nat → Prop :=
  Relation.TransGen (fun j i => j ∈ G.pred i)

/-- Started and done tasks. -/
structure Progress (G : Dag) where
  started : Finset Nat
  done : Finset Nat
  started_lt : ∀ {i : Nat}, i ∈ started → i < G.size
  done_started : ∀ {i : Nat}, i ∈ done → i ∈ started
  pred_done : ∀ {i : Nat}, i ∈ started → G.pred i ⊆ done

namespace Progress

variable {G : Dag}

/-- A task that can be started now. -/
def Enabled (P : Progress G) (i : Nat) : Prop :=
  i < G.size ∧ i ∉ P.started ∧ G.pred i ⊆ P.done

/-- The number of direct predecessors that are not done. -/
def waiting (P : Progress G) (i : Nat) : Nat := (G.pred i \ P.done).card

/-- Nothing has been started. -/
def new (G : Dag) : Progress G where
  started := ∅
  done := ∅
  started_lt h := absurd h (Finset.notMem_empty _)
  done_started h := absurd h (Finset.notMem_empty _)
  pred_done h := absurd h (Finset.notMem_empty _)

/-- Start an enabled task. -/
def start (P : Progress G) (i : Nat) (h : P.Enabled i) : Progress G where
  started := insert i P.started
  done := P.done
  started_lt := by
    intro j hj
    rcases Finset.mem_insert.mp hj with rfl | hj
    · exact h.1
    · exact P.started_lt hj
  done_started hj := Finset.mem_insert_of_mem (P.done_started hj)
  pred_done := by
    intro j hj
    rcases Finset.mem_insert.mp hj with rfl | hj
    · exact h.2.2
    · exact P.pred_done hj

/-- Finish a running task. -/
def finish (P : Progress G) (i : Nat) (h : i ∈ P.started) : Progress G where
  started := P.started
  done := insert i P.done
  started_lt := P.started_lt
  done_started := by
    intro j hj
    rcases Finset.mem_insert.mp hj with rfl | hj
    · exact h
    · exact P.done_started hj
  pred_done hj := (P.pred_done hj).trans (Finset.subset_insert _ _)

@[simp] theorem started_new : (new G).started = ∅ := rfl

@[simp] theorem done_new : (new G).done = ∅ := rfl

@[simp] theorem started_start {P : Progress G} {i : Nat} (h : P.Enabled i) :
    (P.start i h).started = insert i P.started := rfl

@[simp] theorem done_start {P : Progress G} {i : Nat} (h : P.Enabled i) :
    (P.start i h).done = P.done := rfl

@[simp] theorem started_finish {P : Progress G} {i : Nat} (h : i ∈ P.started) :
    (P.finish i h).started = P.started := rfl

@[simp] theorem done_finish {P : Progress G} {i : Nat} (h : i ∈ P.started) :
    (P.finish i h).done = insert i P.done := rfl

/-- Starting a task disables nothing but the task itself. -/
theorem enabled_start {P : Progress G} {i k : Nat} (h : P.Enabled i) :
    (P.start i h).Enabled k ↔ P.Enabled k ∧ k ≠ i := by
  unfold Enabled
  rw [started_start, done_start, Finset.mem_insert, not_or]
  constructor
  · rintro ⟨hlt, ⟨hne, hns⟩, hpred⟩
    exact ⟨⟨hlt, hns, hpred⟩, hne⟩
  · rintro ⟨⟨hlt, hns, hpred⟩, hne⟩
    exact ⟨hlt, ⟨hne, hns⟩, hpred⟩

/-- Finishing a task enables nothing but direct successors of it. -/
theorem enabled_finish {P : Progress G} {i k : Nat} (h : i ∈ P.started) (hd : i ∉ P.done) :
    P.Enabled k ↔ (P.finish i h).Enabled k ∧ i ∉ G.pred k := by
  unfold Enabled
  rw [started_finish, done_finish]
  constructor
  · rintro ⟨hlt, hns, hpred⟩
    exact ⟨⟨hlt, hns, hpred.trans (Finset.subset_insert _ _)⟩, fun hi => hd (hpred hi)⟩
  · rintro ⟨⟨hlt, hns, hpred⟩, hi⟩
    refine ⟨hlt, hns, fun j hj => ?_⟩
    rcases Finset.mem_insert.mp (hpred hj) with rfl | hjd
    · exact absurd hj hi
    · exact hjd

theorem waiting_new (i : Nat) : (new G).waiting i = (G.pred i).card := by
  unfold waiting
  rw [done_new, Finset.sdiff_empty]

theorem waiting_eq_zero {P : Progress G} {i : Nat} : P.waiting i = 0 ↔ G.pred i ⊆ P.done := by
  unfold waiting
  rw [Finset.card_eq_zero, Finset.sdiff_eq_empty_iff_subset]

/-- Finishing a task lowers the count of exactly its direct successors by one. -/
theorem waiting_finish {P : Progress G} {i : Nat} (h : i ∈ P.started) (hd : i ∉ P.done)
    (k : Nat) :
    (P.finish i h).waiting k + (if i ∈ G.pred k then 1 else 0) = P.waiting k := by
  unfold waiting
  rw [done_finish, Finset.sdiff_insert]
  split
  · rename_i hk
    have hmem : i ∈ G.pred k \ P.done := Finset.mem_sdiff.mpr ⟨hk, hd⟩
    exact Finset.card_erase_add_one hmem
  · rename_i hk
    rw [Finset.erase_eq_of_notMem (fun hmem => hk (Finset.mem_sdiff.mp hmem).1), Nat.add_zero]

/-- **Order**: everything that must come before a started task is done. -/
theorem before_done {P : Progress G} {i j : Nat} (hb : G.Before j i) :
    i ∈ P.started → j ∈ P.done := by
  induction hb with
  | single he => exact fun hi => P.pred_done hi he
  | tail _ he ih => exact fun hi => ih (P.done_started (P.pred_done hi he))

/-- **Progress**: while a task is left and none is running, some task is enabled. -/
theorem exists_enabled {P : Progress G} (hidle : P.started ⊆ P.done) {i : Nat} (hi : i < G.size)
    (hd : i ∉ P.done) : ∃ k, P.Enabled k := by
  -- the least task that is left: its predecessors are smaller, hence done
  have hex : ∃ k, k < G.size ∧ k ∉ P.done := ⟨i, hi, hd⟩
  classical
  obtain ⟨hlt, hnd⟩ := Nat.find_spec hex
  refine ⟨Nat.find hex, hlt, fun hs => hnd (hidle hs), fun j hj => ?_⟩
  by_contra hjd
  have hjlt := G.pred_lt hj
  exact Nat.find_min hex hjlt ⟨hjlt.trans hlt, hjd⟩

/-- When no task is running and none is enabled, all are done. -/
theorem all_done {P : Progress G} (hidle : P.started ⊆ P.done) (hnone : ∀ k, ¬ P.Enabled k) :
    P.done = Finset.range G.size := by
  ext i
  rw [Finset.mem_range]
  constructor
  · exact fun hi => P.started_lt (P.done_started hi)
  · intro hi
    by_contra hd
    obtain ⟨k, hk⟩ := exists_enabled hidle hi hd
    exact hnone k hk

end Progress

end XLayerReth.Lib
