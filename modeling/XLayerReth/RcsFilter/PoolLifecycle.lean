import XLayerReth.RcsFilter.Pool

/-!
# What one pool operation can do

* `PoolOp` — the operations on the pool, with any arguments and times.
* `PoolOp.onEntry`, `PoolOp.created` — what an operation does to an entry that is present, and
  what it creates under a hash that is absent.
* `Cause` — every way an operation can move an entry to another status.

Principal results: `PoolOp.get_apply` (the effect under one hash), `onEntry_cause` (an entry moves
only for a `Cause`) and `onEntry_none` (why an entry disappears).  Every invariant over runs is
derived from these three.
-/

set_option autoImplicit false

namespace XLayerReth.RcsFilter

open Lib

/-! ## Operations -/

/-- The operations on the pool.  An inserted entry is a freshly matched one. -/
inductive PoolOp where
  | insert (entry : BufferEntry) (fresh : entry.status = .notSubmitted)
  | applySubmitResponse (accepted : List String) (expected : Generations) (cfg : FilterConfig)
      (now : Nat)
  | applyQueryStatus (txHash : B256) (generation : Nat) (status : String) (cfg : FilterConfig)
      (now : Nat)
  | finishConsistencyCheck (txHash : B256) (generation : Nat) (consistent : Bool) (now : Nat)
  | resolveTotalTimeouts (cfg : FilterConfig) (now : Nat)
  | checkTimeouts (cfg : FilterConfig) (now : Nat)
  | removeCanonical (hashes : List B256)
  | recoverAfterCanonicalLag
  | removeNonTerminalIfGeneration (txHash : B256) (generation : Nat)
  | pruneTerminal (retentionSecs now : Nat)

namespace PoolOp

/-- The pool after an operation. -/
def apply (p : BufferPool) : PoolOp → BufferPool
  | .insert entry _ => p.insert entry
  | .applySubmitResponse accepted expected cfg now =>
    (p.applySubmitResponse accepted expected cfg now).1
  | .applyQueryStatus h g status cfg now => (p.applyQueryStatus h g status cfg now).1
  | .finishConsistencyCheck h g consistent now => (p.finishConsistencyCheck h g consistent now).1
  | .resolveTotalTimeouts cfg now => (p.resolveTotalTimeouts cfg now).1
  | .checkTimeouts cfg now => (p.checkTimeouts cfg now).1
  | .removeCanonical hashes => (p.removeCanonical hashes).1
  | .recoverAfterCanonicalLag => p.recoverAfterCanonicalLag.1
  | .removeNonTerminalIfGeneration h g => (p.removeNonTerminalIfGeneration h g).1
  | .pruneTerminal retentionSecs now => (p.pruneTerminal retentionSecs now).1

/-- The time at which an operation is made, for those that read the clock. -/
def time : PoolOp → Option Nat
  | .applySubmitResponse _ _ _ now => some now
  | .applyQueryStatus _ _ _ _ now => some now
  | .finishConsistencyCheck _ _ _ now => some now
  | .resolveTotalTimeouts _ now => some now
  | .checkTimeouts _ now => some now
  | .pruneTerminal _ now => some now
  | _ => none

/-- What an operation does to an entry that is present. -/
def onEntry (e : BufferEntry) : PoolOp → Option BufferEntry
  | .insert _ _ => some e
  | .applySubmitResponse accepted expected cfg now =>
    some (if (e.txHash, e.generation) ∈ expected.entries then
      (submitEntry cfg now (BufferPool.accepts accepted e.txHash) e).1 else e)
  | .applyQueryStatus h g status cfg now =>
    some (if e.txHash = h ∧ e.generation = g then (queryEntry cfg now status e).1 else e)
  | .finishConsistencyCheck h g consistent now =>
    some (if e.txHash = h ∧ e.generation = g then consistencyEntry consistent now e else e)
  | .resolveTotalTimeouts cfg now => some (resolveTotalTimeout cfg now e).1
  | .checkTimeouts cfg now => some (timeoutEntry cfg now e).1
  | .removeCanonical hashes => if e.txHash ∈ hashes then none else some e
  | .recoverAfterCanonicalLag => if e.status = .dropped then some e else none
  | .removeNonTerminalIfGeneration h g =>
    if e.txHash = h ∧ e.generation = g ∧ e.status.isTerminal = false then none else some e
  | .pruneTerminal retentionSecs now =>
    if e.status.isTerminal = true ∧ now - e.lastTransitionAt > retentionSecs then none else some e

/-- The entry an operation creates under an absent hash. -/
def created (p : BufferPool) (h : B256) : PoolOp → Option BufferEntry
  | .insert entry _ =>
    if entry.txHash = h then
      some { entry with generation := (p.nextGeneration + 1) % 2 ^ 64 } else none
  | _ => none

/-- **Effect of an operation under one hash**: it acts on the entry that is present, or creates
    one where there is none. -/
theorem get_apply (p : BufferPool) (op : PoolOp) (h : B256) :
    (op.apply p).get h =
      match p.get h with
      | some e => op.onEntry e
      | none => op.created p h := by
  have hhash : ∀ {e}, p.get h = some e → e.txHash = h := BufferPool.get_hash
  cases op with
  | insert entry fresh =>
    simp only [apply, BufferPool.get_insert]
    cases he : p.get h <;> simp [onEntry, created]
  | applySubmitResponse accepted expected cfg now =>
    simp only [apply, BufferPool.get_applySubmitResponse]
    cases he : p.get h with
    | none => rfl
    | some e => simp [onEntry, hhash he]
  | applyQueryStatus h' g status cfg now =>
    simp only [apply, BufferPool.get_applyQueryStatus]
    cases he : p.get h with
    | none => rfl
    | some e => simp [onEntry, hhash he]
  | finishConsistencyCheck h' g consistent now =>
    simp only [apply, BufferPool.get_finishConsistencyCheck]
    cases he : p.get h with
    | none => rfl
    | some e => simp [onEntry, hhash he]
  | resolveTotalTimeouts cfg now =>
    simp only [apply, BufferPool.resolveTotalTimeouts, BufferPool.get_scan]
    cases he : p.get h <;> rfl
  | checkTimeouts cfg now =>
    simp only [apply, BufferPool.checkTimeouts, BufferPool.get_scan]
    cases he : p.get h <;> rfl
  | removeCanonical hashes =>
    simp only [apply, BufferPool.get_removeCanonical]
    cases he : p.get h with
    | none => simp [created]
    | some e => simp [onEntry, hhash he]
  | recoverAfterCanonicalLag =>
    simp only [apply, BufferPool.get_recoverAfterCanonicalLag]
    cases he : p.get h with
    | none => rfl
    | some e => simp [onEntry, Option.filter]
  | removeNonTerminalIfGeneration h' g =>
    simp only [apply, BufferPool.get_removeNonTerminalIfGeneration]
    cases he : p.get h with
    | none => rfl
    | some e =>
      simp only [onEntry, Option.filter, hhash he]
      rcases Bool.eq_false_or_eq_true e.status.isTerminal with ht | ht <;>
        by_cases h1 : h = h' <;> by_cases h2 : e.generation = g <;> simp [h1, h2, ht]
  | pruneTerminal retentionSecs now =>
    simp only [apply, BufferPool.get_pruneTerminal]
    cases he : p.get h with
    | none => rfl
    | some e =>
      simp only [onEntry, Option.filter]
      rcases Bool.eq_false_or_eq_true e.status.isTerminal with ht | ht <;>
        by_cases h2 : now - e.lastTransitionAt > retentionSecs <;> simp [h2, ht]

end PoolOp

/-! ## Why an entry moves or disappears -/

/-- The four calls that check the cumulative deadline, with the entries they address. -/
def Addresses (cfg : FilterConfig) (now : Nat) (e : BufferEntry) : PoolOp → Prop
  | .applySubmitResponse _ expected cfg' now' =>
    (e.txHash, e.generation) ∈ expected.entries ∧ cfg' = cfg ∧ now' = now
  | .applyQueryStatus h g _ cfg' now' =>
    e.txHash = h ∧ e.generation = g ∧ cfg' = cfg ∧ now' = now
  | .resolveTotalTimeouts cfg' now' => cfg' = cfg ∧ now' = now
  | .checkTimeouts cfg' now' => cfg' = cfg ∧ now' = now
  | _ => False

/-- Every way an operation can move an entry to another status at a time. -/
inductive Cause : PoolOp → BufferEntry → BufferStatus → Nat → Prop where
  | accepted {accepted : List String} {expected : Generations} {cfg : FilterConfig} {now : Nat}
      {e : BufferEntry} (hs : e.status = .notSubmitted)
      (hm : (e.txHash, e.generation) ∈ expected.entries)
      (ha : BufferPool.accepts accepted e.txHash = true) :
      Cause (.applySubmitResponse accepted expected cfg now) e .submitted now
  | pending {cfg : FilterConfig} {now : Nat} {e : BufferEntry} (hs : e.status = .submitted) :
      Cause (.applyQueryStatus e.txHash e.generation "pending" cfg now) e .pending now
  | approved {cfg : FilterConfig} {now : Nat} {e : BufferEntry}
      (hs : e.status = .submitted ∨ e.status = .pending) :
      Cause (.applyQueryStatus e.txHash e.generation "approved" cfg now) e .approved now
  | rejected {cfg : FilterConfig} {now : Nat} {e : BufferEntry} {status : String}
      (hs : e.status.isTerminal = false) (hr : status = "denied" ∨ status = "outdated")
      (hd : (e.status.isRetryable && e.pastDeadline cfg now) = false) :
      Cause (.applyQueryStatus e.txHash e.generation status cfg now) e .dropped now
  | stalled {cfg : FilterConfig} {now : Nat} {e : BufferEntry}
      (hs : e.status = .submitted ∨ e.status = .pending) :
      Cause (.checkTimeouts cfg now) e .notSubmitted now
  | mismatch {now : Nat} {e : BufferEntry} (hs : e.status = .approved) :
      Cause (.finishConsistencyCheck e.txHash e.generation false now) e .dropped now
  | deadline {op : PoolOp} {cfg : FilterConfig} {now : Nat} {e : BufferEntry}
      (ha : Addresses cfg now e op) (hs : e.status.isRetryable = true)
      (hd : e.pastDeadline cfg now = true) :
      Cause op e e.timeoutAction.resolve.2 now

theorem Cause.time {op : PoolOp} {e : BufferEntry} {s : BufferStatus} {now : Nat}
    (h : Cause op e s now) : op.time = some now := by
  cases h with
  | deadline ha hs hd =>
    cases op <;> simp_all [Addresses, PoolOp.time]
  | _ => rfl

/-- The state an entry is in when it is not resolved by the deadline. -/
theorem resolveTotalTimeout_cases (cfg : FilterConfig) (now : Nat) (e : BufferEntry) :
    (e.status.isRetryable = true ∧ e.pastDeadline cfg now = true ∧
      resolveTotalTimeout cfg now e =
        (e.moveTo e.timeoutAction.resolve.2 now, some e.timeoutAction.resolve.1)) ∨
    ((e.status.isRetryable && e.pastDeadline cfg now) = false ∧
      resolveTotalTimeout cfg now e = (e, none)) := by
  rw [resolveTotalTimeout_eq]
  cases h : e.status.isRetryable && e.pastDeadline cfg now with
  | true =>
    obtain ⟨h1, h2⟩ := Bool.and_eq_true_iff.mp h
    exact .inl ⟨h1, h2, rfl⟩
  | false => exact .inr ⟨rfl, rfl⟩

theorem submitEntry_cause (accepted : List String) {expected : Generations} (cfg : FilterConfig)
    (now : Nat) {e : BufferEntry} (hm : (e.txHash, e.generation) ∈ expected.entries) :
    (submitEntry cfg now (BufferPool.accepts accepted e.txHash) e).1 = e ∨
      ∃ s, (submitEntry cfg now (BufferPool.accepts accepted e.txHash) e).1 = e.moveTo s now ∧
        Cause (.applySubmitResponse accepted expected cfg now) e s now := by
  unfold submitEntry
  rcases resolveTotalTimeout_cases cfg now e with ⟨hs, hd, hr⟩ | ⟨-, hr⟩
  · rw [hr]
    exact .inr ⟨_, rfl, .deadline ⟨hm, rfl, rfl⟩ hs hd⟩
  · rw [hr]
    dsimp only
    split
    · rename_i h
      obtain ⟨ha, hs⟩ := Bool.and_eq_true_iff.mp h
      exact .inr ⟨_, rfl, .accepted (by simpa using hs) hm ha⟩
    · exact .inl rfl

theorem queryEntry_cause (status : String) (cfg : FilterConfig) (now : Nat) (e : BufferEntry) :
    (queryEntry cfg now status e).1 = e ∨
      ∃ s, (queryEntry cfg now status e).1 = e.moveTo s now ∧
        Cause (.applyQueryStatus e.txHash e.generation status cfg now) e s now := by
  unfold queryEntry
  split
  · exact .inl rfl
  · rename_i ht
    rcases resolveTotalTimeout_cases cfg now e with ⟨hs, hd, hr⟩ | ⟨hd, hr⟩
    · rw [hr]
      exact .inr ⟨_, rfl, .deadline ⟨rfl, rfl, rfl, rfl⟩ hs hd⟩
    · rw [hr]
      dsimp only
      split
      · rename_i hp
        subst hp
        split
        · rename_i hs
          exact .inr ⟨_, rfl, .pending hs⟩
        · exact .inl rfl
      · split
        · rename_i hp
          subst hp
          split
          · rename_i hs
            exact .inr ⟨_, rfl, .approved hs⟩
          · exact .inl rfl
        · split
          · rename_i hrej
            exact .inr ⟨_, rfl, .rejected (by simpa using ht) hrej hd⟩
          · exact .inl rfl

theorem timeoutEntry_cause (cfg : FilterConfig) (now : Nat) (e : BufferEntry) :
    (timeoutEntry cfg now e).1 = e ∨
      ∃ s, (timeoutEntry cfg now e).1 = e.moveTo s now ∧
        Cause (.checkTimeouts cfg now) e s now := by
  unfold timeoutEntry
  rcases resolveTotalTimeout_cases cfg now e with ⟨hs, hd, hr⟩ | ⟨-, hr⟩
  · rw [hr]
    exact .inr ⟨_, rfl, .deadline ⟨rfl, rfl⟩ hs hd⟩
  · rw [hr]
    dsimp only
    split
    · exact .inl rfl
    · split
      · rename_i h
        exact .inr ⟨_, rfl, .stalled (.inl h.1)⟩
      · split
        · rename_i h
          exact .inr ⟨_, rfl, .stalled (.inr h.1)⟩
        · exact .inl rfl

/-- **An entry moves only for a cause**, at the time of the operation. -/
theorem onEntry_cause {op : PoolOp} {e e' : BufferEntry} (h : op.onEntry e = some e') :
    e' = e ∨ ∃ s now, e' = e.moveTo s now ∧ Cause op e s now := by
  cases op with
  | insert entry fresh => cases h; exact .inl rfl
  | applySubmitResponse accepted expected cfg now =>
    simp only [PoolOp.onEntry, Option.some.injEq] at h
    split at h
    · rename_i hm
      subst h
      rcases submitEntry_cause accepted cfg now hm with he | ⟨s, he, hc⟩
      · exact .inl he
      · exact .inr ⟨s, now, he, hc⟩
    · exact .inl h.symm
  | applyQueryStatus h' g status cfg now =>
    simp only [PoolOp.onEntry, Option.some.injEq] at h
    split at h
    · rename_i hm
      obtain ⟨rfl, rfl⟩ := hm
      subst h
      rcases queryEntry_cause status cfg now e with he | ⟨s, he, hc⟩
      · exact .inl he
      · exact .inr ⟨s, now, he, hc⟩
    · exact .inl h.symm
  | finishConsistencyCheck h' g consistent now =>
    simp only [PoolOp.onEntry, Option.some.injEq] at h
    split at h
    · rename_i hm
      obtain ⟨rfl, rfl⟩ := hm
      subst h
      unfold consistencyEntry
      split
      · rename_i hc
        obtain ⟨hs, hcons⟩ := Bool.and_eq_true_iff.mp hc
        have hfalse : consistent = false := by simpa using hcons
        subst hfalse
        exact .inr ⟨_, now, rfl, .mismatch (by simpa using hs)⟩
      · exact .inl rfl
    · exact .inl h.symm
  | resolveTotalTimeouts cfg now =>
    simp only [PoolOp.onEntry, Option.some.injEq] at h
    rcases resolveTotalTimeout_cases cfg now e with ⟨hs, hd, hr⟩ | ⟨-, hr⟩
    · rw [hr] at h
      exact .inr ⟨_, now, h.symm, .deadline ⟨rfl, rfl⟩ hs hd⟩
    · rw [hr] at h
      exact .inl h.symm
  | checkTimeouts cfg now =>
    simp only [PoolOp.onEntry, Option.some.injEq] at h
    subst h
    rcases timeoutEntry_cause cfg now e with he | ⟨s, he, hc⟩
    · exact .inl he
    · exact .inr ⟨s, now, he, hc⟩
  | removeCanonical hashes =>
    simp only [PoolOp.onEntry] at h
    split at h
    · cases h
    · cases h; exact .inl rfl
  | recoverAfterCanonicalLag =>
    simp only [PoolOp.onEntry] at h
    split at h
    · cases h; exact .inl rfl
    · cases h
  | removeNonTerminalIfGeneration h' g =>
    simp only [PoolOp.onEntry] at h
    split at h
    · cases h
    · cases h; exact .inl rfl
  | pruneTerminal retentionSecs now =>
    simp only [PoolOp.onEntry] at h
    split at h
    · cases h
    · cases h; exact .inl rfl

/-- **Why an entry disappears.** -/
theorem onEntry_none {op : PoolOp} {e : BufferEntry} (h : op.onEntry e = none) :
    (∃ hashes, op = .removeCanonical hashes ∧ e.txHash ∈ hashes) ∨
    (op = .recoverAfterCanonicalLag ∧ e.status ≠ .dropped) ∨
    (op = .removeNonTerminalIfGeneration e.txHash e.generation ∧ e.status.isTerminal = false) ∨
    (∃ retentionSecs now, op = .pruneTerminal retentionSecs now ∧ e.status.isTerminal = true ∧
      now - e.lastTransitionAt > retentionSecs) := by
  cases op with
  | removeCanonical hashes =>
    simp only [PoolOp.onEntry] at h
    split at h
    · rename_i hm; exact .inl ⟨hashes, rfl, hm⟩
    · cases h
  | recoverAfterCanonicalLag =>
    simp only [PoolOp.onEntry] at h
    split at h
    · cases h
    · rename_i hs; exact .inr (.inl ⟨rfl, hs⟩)
  | removeNonTerminalIfGeneration h' g =>
    simp only [PoolOp.onEntry] at h
    split at h
    · rename_i hm
      obtain ⟨rfl, rfl, ht⟩ := hm
      exact .inr (.inr (.inl ⟨rfl, ht⟩))
    · cases h
  | pruneTerminal retentionSecs now =>
    simp only [PoolOp.onEntry] at h
    split at h
    · rename_i hm; exact .inr (.inr (.inr ⟨retentionSecs, now, rfl, hm⟩))
    · cases h
  | _ => cases h

end XLayerReth.RcsFilter
