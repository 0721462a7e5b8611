import XLayerReth.RcsFilter.HandleSafety

/-!
# Terminal events

A lifecycle that RCS or the deadline drops is reported once, after the lock section that dropped it.

* `DropCause` — every way an operation makes an entry `Dropped`, with the reason it is reported for.
* `PoolOp.report`, `reports` — the events of an operation and of a sequence of them.
* `reported_of_run` — what was sent or waits to be sent is what the operations reported.
* `reports_of_lifecycle` — a lifecycle is reported once if it was rejected, and not at all if not.

Principal result: `terminal_events_exactly_once`.
-/

set_option autoImplicit false

namespace XLayerReth.RcsFilter

open Lib

/-! ## Why an entry is dropped -/

/-- Why an operation drops an entry: a status of RCS, the deadline check, or a consistency mismatch.
    The last has no terminal reason. -/
inductive DropCause : PoolOp → BufferEntry → Option TerminalReason → Prop where
  | denied {cfg : FilterConfig} {now : Nat} {e : BufferEntry} (hs : e.status.isTerminal = false)
      (hd : (e.status.isRetryable && e.pastDeadline cfg now) = false) :
      DropCause (.applyQueryStatus e.txHash e.generation "denied" cfg now) e (some .denied)
  | outdated {cfg : FilterConfig} {now : Nat} {e : BufferEntry} (hs : e.status.isTerminal = false)
      (hd : (e.status.isRetryable && e.pastDeadline cfg now) = false) :
      DropCause (.applyQueryStatus e.txHash e.generation "outdated" cfg now) e (some .outdated)
  | failClose {op : PoolOp} {cfg : FilterConfig} {now : Nat} {e : BufferEntry}
      (ha : Addresses cfg now e op) (hs : e.status.isRetryable = true)
      (hd : e.pastDeadline cfg now = true) (hdeny : e.timeoutAction = .deny) :
      DropCause op e (some .failCloseTimeout)
  | mismatch {now : Nat} {e : BufferEntry} (hs : e.status = .approved) :
      DropCause (.finishConsistencyCheck e.txHash e.generation false now) e none

/-- **Every drop has a cause.** -/
theorem dropCause_of_dropped {op : PoolOp} {e e' : BufferEntry} (h : op.onEntry e = some e')
    (hbefore : e.status ≠ .dropped) (hafter : e'.status = .dropped) : ∃ r, DropCause op e r := by
  rcases onEntry_cause h with rfl | ⟨s, now, rfl, hc⟩
  · exact absurd hafter hbefore
  · have hto : s = .dropped := hafter
    cases hc with
    | accepted | pending | approved | stalled => cases hto
    | rejected hs hr hd =>
      rcases hr with rfl | rfl
      · exact ⟨_, .denied hs hd⟩
      · exact ⟨_, .outdated hs hd⟩
    | mismatch hs => exact ⟨_, .mismatch hs⟩
    | deadline ha hst hd =>
      refine ⟨_, .failClose ha hst hd ?_⟩
      cases hact : e.timeoutAction with
      | allow =>
        rw [hact] at hto
        cases hto
      | deny => rfl

/-- Only an entry that is not terminal is dropped. -/
theorem DropCause.not_terminal {op : PoolOp} {e : BufferEntry} {r : Option TerminalReason}
    (h : DropCause op e r) : e.status.isTerminal = false := by
  cases h with
  | denied hs hd => exact hs
  | outdated hs hd => exact hs
  | failClose ha hs hd hdeny => exact isTerminal_of_isRetryable hs
  | mismatch hs => rw [hs]; rfl

/-! ## Reports -/

/-- The reason a timeout resolution is reported for. -/
def timeoutReason : Option Resolution → Option TerminalReason
  | some .discard => some .failCloseTimeout
  | some .releaseForPackaging | none => none

/-- The reason a query resolution is reported for. -/
def queryReason : Option QueryResolution → Option TerminalReason
  | some (.retryTimeout resolution) => timeoutReason (some resolution)
  | some .denied => some .denied
  | some .outdated => some .outdated
  | none => none

namespace PoolOp

/-- The events an operation leaves to be sent. -/
def report (p : BufferPool) : PoolOp → List TerminalEvent
  | .applySubmitResponse accepted expected cfg now =>
    timeoutEvents (p.applySubmitResponse accepted expected cfg now).2
  | .applyQueryStatus h g status cfg now =>
    (queryEvent h g (p.applyQueryStatus h g status cfg now).2).toList
  | .resolveTotalTimeouts cfg now => timeoutEvents (p.resolveTotalTimeouts cfg now).2
  | .checkTimeouts cfg now => timeoutEvents (p.checkTimeouts cfg now).2
  | _ => []

/-- The reason for which an operation reports an entry. -/
def rejection (e : BufferEntry) : PoolOp → Option TerminalReason
  | .applySubmitResponse accepted expected cfg now =>
    if (e.txHash, e.generation) ∈ expected.entries then
      timeoutReason (submitEntry cfg now (BufferPool.accepts accepted e.txHash) e).2
    else none
  | .applyQueryStatus h g status cfg now =>
    if e.txHash = h ∧ e.generation = g then queryReason (queryEntry cfg now status e).2 else none
  | .resolveTotalTimeouts cfg now => timeoutReason (resolveTotalTimeout cfg now e).2
  | .checkTimeouts cfg now => timeoutReason (timeoutEntry cfg now e).2
  | _ => none

end PoolOp

/-- An event of one lifecycle. -/
def TerminalEvent.isOf (h : B256) (g : Nat) (event : TerminalEvent) : Bool :=
  event.txHash = h && event.generation = g

theorem filter_timeoutEvents (h : B256) (g : Nat) (resolved : List Resolved) :
    (timeoutEvents resolved).filter (TerminalEvent.isOf h g) =
      timeoutEvents ((resolved.filter (fun r => r.1 = h)).filter (fun r => r.2.1 = g)) := by
  induction resolved with
  | nil => rfl
  | cons r resolved ih =>
    obtain ⟨h', g', resolution⟩ := r
    unfold timeoutEvents at ih ⊢
    by_cases hh : h' = h
    · by_cases hg : g' = g
      · cases resolution <;> simp [TerminalEvent.isOf, hh, hg, ih]
      · cases resolution <;> simp [TerminalEvent.isOf, hh, hg, ih]
    · cases resolution <;> simp [TerminalEvent.isOf, hh, ih]

theorem timeoutEvents_toList (h : B256) (g : Nat) (resolution : Option Resolution) :
    timeoutEvents (resolution.map (fun r => (h, g, r))).toList =
      ((timeoutReason resolution).map (fun reason => (⟨h, g, reason⟩ : TerminalEvent))).toList := by
  cases resolution with
  | none => rfl
  | some r => cases r <;> rfl

/-- A scan reports a lifecycle as it resolves its entry. -/
theorem report_scan (p : BufferPool) (f : BufferEntry → BufferEntry × Option Resolution)
    (hf : ∀ e, (f e).1.txHash = e.txHash) (h : B256) (g : Nat) :
    (timeoutEvents (p.scan f hf).2).filter (TerminalEvent.isOf h g) =
      (((p.lifecycle h g).bind (fun e => timeoutReason (f e).2)).map
        (fun reason => (⟨h, g, reason⟩ : TerminalEvent))).toList := by
  rw [filter_timeoutEvents]
  cases hget : p.get h with
  | none =>
    have hnone : (p.scan f hf).2.filter (fun r => r.1 = h) = [] := by
      rw [List.filter_eq_nil_iff]
      intro r hr hrh
      obtain ⟨e, he, hr⟩ := List.mem_filterMap.mp hr
      obtain ⟨q, -, rfl⟩ := Option.map_eq_some_iff.mp hr
      have hhash : e.txHash = h := by simpa using hrh
      rw [BufferPool.mem_entries, hhash, hget] at he
      cases he
    rw [hnone]
    simp [BufferPool.lifecycle, hget, timeoutEvents]
  | some e =>
    rw [reports_scan hget f hf]
    by_cases hgen : e.generation = g
    · have hl : p.lifecycle h g = some e := BufferPool.lifecycle_eq_some.mpr ⟨hget, hgen⟩
      rw [hl, Option.bind_some, ← timeoutEvents_toList, hgen]
      cases (f e).2 <;> simp
    · have hl : p.lifecycle h g = none := by
        rw [BufferPool.lifecycle_eq_none]
        intro x hx
        rw [hget] at hx
        cases hx
        exact hgen
      rw [hl]
      cases (f e).2 <;> simp [hgen, timeoutEvents]

/-- A submit response reports a lifecycle it was made for as it resolves its entry. -/
theorem report_submitResponse (p : BufferPool) (accepted : List String) (expected : Generations)
    (cfg : FilterConfig) (now : Nat) (h : B256) (g : Nat) :
    (timeoutEvents (p.applySubmitResponse accepted expected cfg now).2).filter
        (TerminalEvent.isOf h g) =
      (((p.lifecycle h g).bind
        (PoolOp.rejection · (.applySubmitResponse accepted expected cfg now))).map
          (fun reason => (⟨h, g, reason⟩ : TerminalEvent))).toList := by
  rw [filter_timeoutEvents, reports_submitResponse]
  have hmem : (h, g) ∈ expected.entries ↔ expected.get? h = some (h, g) :=
    Table.mem_entries (e := (h, g))
  by_cases hexp : expected.get? h = some (h, g)
  · rw [hexp, Option.bind_some, BufferPool.submitResolution]
    cases hl : p.lifecycle h g with
    | none => rfl
    | some e =>
      obtain ⟨hget, hgen⟩ := BufferPool.lifecycle_eq_some.mp hl
      have hhash : e.txHash = h := BufferPool.get_hash hget
      have haddr : (e.txHash, e.generation) ∈ expected.entries := by
        rw [hhash, hgen]
        exact hmem.mpr hexp
      rw [Option.bind_some, Option.bind_some, PoolOp.rejection, if_pos haddr, hhash,
        ← timeoutEvents_toList]
      show timeoutEvents (List.filter _ (Option.map _
        (submitEntry cfg now (BufferPool.accepts accepted h) e).2).toList) = _
      cases (submitEntry cfg now (BufferPool.accepts accepted h) e).2 <;> simp
  · have hleft : (((expected.get? h).bind
        (p.submitResolution (accepted.filterMap B256.fromStr) cfg now)).toList).filter
          (fun r => r.2.1 = g) = [] := by
      rw [List.filter_eq_nil_iff]
      intro r hr hrg
      obtain ⟨x, hx, hr⟩ := Option.bind_eq_some_iff.mp (Option.mem_toList.mp hr)
      obtain ⟨e, -, hr⟩ := Option.bind_eq_some_iff.mp hr
      obtain ⟨q, -, rfl⟩ := Option.map_eq_some_iff.mp hr
      have hxh : x.1 = h := Table.key_of_get? hx
      have hxg : x.2 = g := by simpa using hrg
      refine hexp (hx.trans ?_)
      rw [← hxh, ← hxg]
    rw [hleft]
    cases hl : p.lifecycle h g with
    | none => rfl
    | some e =>
      obtain ⟨hget, hgen⟩ := BufferPool.lifecycle_eq_some.mp hl
      have haddr : (e.txHash, e.generation) ∉ expected.entries := by
        rw [BufferPool.get_hash hget, hgen]
        exact fun hm => hexp (hmem.mp hm)
      rw [Option.bind_some, PoolOp.rejection, if_neg haddr]
      rfl

theorem queryEvent_eq (h : B256) (g : Nat) (resolution : Option QueryResolution) :
    queryEvent h g resolution =
      (queryReason resolution).map (fun reason => (⟨h, g, reason⟩ : TerminalEvent)) := by
  cases resolution with
  | none => rfl
  | some q =>
    cases q with
    | retryTimeout r => cases r <;> rfl
    | denied => rfl
    | outdated => rfl

/-- A query status reports the lifecycle it names. -/
theorem report_queryStatus (p : BufferPool) (h' : B256) (g' : Nat) (status : String)
    (cfg : FilterConfig) (now : Nat) (h : B256) (g : Nat) :
    (queryEvent h' g' (p.applyQueryStatus h' g' status cfg now).2).toList.filter
        (TerminalEvent.isOf h g) =
      (((p.lifecycle h g).bind (PoolOp.rejection · (.applyQueryStatus h' g' status cfg now))).map
        (fun reason => (⟨h, g, reason⟩ : TerminalEvent))).toList := by
  rw [queryEvent_eq]
  by_cases hhg : h' = h ∧ g' = g
  · obtain ⟨rfl, rfl⟩ := hhg
    rw [BufferPool.applyQueryStatus]
    dsimp only
    cases hl : p.lifecycle h' g' with
    | none => rfl
    | some e =>
      obtain ⟨hget, hgen⟩ := BufferPool.lifecycle_eq_some.mp hl
      rw [Option.bind_some, Option.bind_some, PoolOp.rejection,
        if_pos ⟨BufferPool.get_hash hget, hgen⟩]
      cases queryReason (queryEntry cfg now status e).2 <;> simp [TerminalEvent.isOf]
  · have hleft : ∀ o : Option TerminalReason,
        (o.map (fun reason => (⟨h', g', reason⟩ : TerminalEvent))).toList.filter
          (TerminalEvent.isOf h g) = [] := by
      intro o
      cases o with
      | none => rfl
      | some reason => simpa [TerminalEvent.isOf] using hhg
    rw [hleft]
    cases hl : p.lifecycle h g with
    | none => rfl
    | some e =>
      obtain ⟨hget, hgen⟩ := BufferPool.lifecycle_eq_some.mp hl
      have hother : ¬ (e.txHash = h' ∧ e.generation = g') := by
        rintro ⟨h1, h2⟩
        exact hhg ⟨h1.symm.trans (BufferPool.get_hash hget), h2.symm.trans hgen⟩
      rw [Option.bind_some, PoolOp.rejection, if_neg hother]
      rfl

/-- **What an operation reports of a lifecycle** is how it rejects its entry. -/
theorem report_lifecycle (p : BufferPool) (op : PoolOp) (h : B256) (g : Nat) :
    (op.report p).filter (TerminalEvent.isOf h g) =
      (((p.lifecycle h g).bind (PoolOp.rejection · op)).map
        (fun reason => (⟨h, g, reason⟩ : TerminalEvent))).toList := by
  cases op with
  | applySubmitResponse accepted expected cfg now =>
    exact report_submitResponse p accepted expected cfg now h g
  | applyQueryStatus h' g' status cfg now => exact report_queryStatus p h' g' status cfg now h g
  | resolveTotalTimeouts cfg now => exact report_scan p _ _ h g
  | checkTimeouts cfg now => exact report_scan p _ _ h g
  | _ => cases p.lifecycle h g <;> rfl

/-! ## Reports are drops -/

theorem submitEntry_snd (cfg : FilterConfig) (now : Nat) (accepted : Bool) (e : BufferEntry) :
    (submitEntry cfg now accepted e).2 = (resolveTotalTimeout cfg now e).2 := by
  unfold submitEntry
  rcases resolveTotalTimeout_cases cfg now e with ⟨-, -, hr⟩ | ⟨-, hr⟩
  · rw [hr]
  · rw [hr]
    dsimp only
    split_ifs <;> rfl

theorem timeoutEntry_snd (cfg : FilterConfig) (now : Nat) (e : BufferEntry) :
    (timeoutEntry cfg now e).2 = (resolveTotalTimeout cfg now e).2 := by
  unfold timeoutEntry
  rcases resolveTotalTimeout_cases cfg now e with ⟨-, -, hr⟩ | ⟨-, hr⟩
  · rw [hr]
  · rw [hr]
    dsimp only
    split_ifs <;> rfl

/-- The deadline check reports an entry that fails closed. -/
theorem timeoutReason_resolve {cfg : FilterConfig} {now : Nat} {e : BufferEntry}
    {reason : TerminalReason} :
    timeoutReason (resolveTotalTimeout cfg now e).2 = some reason ↔
      reason = .failCloseTimeout ∧ e.status.isRetryable = true ∧ e.pastDeadline cfg now = true ∧
        e.timeoutAction = .deny := by
  rcases resolveTotalTimeout_cases cfg now e with ⟨hs, hd, hr⟩ | ⟨hnot, hr⟩
  · rw [hr]
    cases e.timeoutAction with
    | allow => simp [TimeoutAction.resolve, timeoutReason]
    | deny => simp [TimeoutAction.resolve, timeoutReason, hs, hd, eq_comm]
  · rw [hr]
    constructor
    · intro h
      cases h
    · rintro ⟨-, hs, hd, -⟩
      rw [hs, hd] at hnot
      cases hnot

/-- A query status reports an entry that fails closed first, and one that it rejects. -/
theorem queryReason_query {cfg : FilterConfig} {now : Nat} {status : String} {e : BufferEntry}
    {reason : TerminalReason} :
    queryReason (queryEntry cfg now status e).2 = some reason ↔
      timeoutReason (resolveTotalTimeout cfg now e).2 = some reason ∨
      (e.status.isTerminal = false ∧ (e.status.isRetryable && e.pastDeadline cfg now) = false ∧
        ((status = "denied" ∧ reason = .denied) ∨ (status = "outdated" ∧ reason = .outdated))) := by
  unfold queryEntry
  cases ht : e.status.isTerminal with
  | true =>
    have hs : e.status.isRetryable = false := by
      cases hs : e.status.isRetryable with
      | false => rfl
      | true =>
        rw [isTerminal_of_isRetryable hs] at ht
        cases ht
    simp [queryReason, timeoutReason_resolve, hs]
  | false =>
    rcases resolveTotalTimeout_cases cfg now e with ⟨hs, hd, hr⟩ | ⟨hnot, hr⟩
    · rw [hr]
      simp [queryReason, hs, hd]
    · rw [hr, hnot]
      dsimp only
      by_cases hdenied : status = "denied"
      · subst hdenied
        simp [queryReason, timeoutReason, eq_comm]
      · by_cases houtdated : status = "outdated"
        · subst houtdated
          simp [queryReason, timeoutReason, eq_comm]
        · rw [if_neg Bool.false_ne_true]
          split_ifs <;> simp_all [queryReason, timeoutReason]

/-- **An operation reports exactly what it drops for a terminal reason.** -/
theorem rejection_iff {op : PoolOp} {e : BufferEntry} {reason : TerminalReason} :
    op.rejection e = some reason ↔ DropCause op e (some reason) := by
  constructor
  · intro h
    cases op with
    | applySubmitResponse accepted expected cfg now =>
      simp only [PoolOp.rejection, submitEntry_snd] at h
      split_ifs at h with hm
      obtain ⟨rfl, hs, hd, hdeny⟩ := timeoutReason_resolve.mp h
      exact .failClose ⟨hm, rfl, rfl⟩ hs hd hdeny
    | applyQueryStatus h' g' status cfg now =>
      simp only [PoolOp.rejection] at h
      split_ifs at h with hm
      obtain ⟨rfl, rfl⟩ := hm
      rcases queryReason_query.mp h with h | ⟨ht, hd, ⟨rfl, rfl⟩ | ⟨rfl, rfl⟩⟩
      · obtain ⟨rfl, hs, hd, hdeny⟩ := timeoutReason_resolve.mp h
        exact .failClose ⟨rfl, rfl, rfl, rfl⟩ hs hd hdeny
      · exact .denied ht hd
      · exact .outdated ht hd
    | resolveTotalTimeouts cfg now =>
      obtain ⟨rfl, hs, hd, hdeny⟩ := timeoutReason_resolve.mp h
      exact .failClose ⟨rfl, rfl⟩ hs hd hdeny
    | checkTimeouts cfg now =>
      simp only [PoolOp.rejection, timeoutEntry_snd] at h
      obtain ⟨rfl, hs, hd, hdeny⟩ := timeoutReason_resolve.mp h
      exact .failClose ⟨rfl, rfl⟩ hs hd hdeny
    | _ => cases h
  · intro h
    cases h with
    | denied hs hd =>
      rw [PoolOp.rejection, if_pos ⟨rfl, rfl⟩]
      exact queryReason_query.mpr (.inr ⟨hs, hd, .inl ⟨rfl, rfl⟩⟩)
    | outdated hs hd =>
      rw [PoolOp.rejection, if_pos ⟨rfl, rfl⟩]
      exact queryReason_query.mpr (.inr ⟨hs, hd, .inr ⟨rfl, rfl⟩⟩)
    | @failClose _ cfg now _ ha hs hd hdeny =>
      have hresolve : timeoutReason (resolveTotalTimeout cfg now e).2 = some .failCloseTimeout :=
        timeoutReason_resolve.mpr ⟨rfl, hs, hd, hdeny⟩
      cases op with
      | applySubmitResponse accepted expected cfg' now' =>
        obtain ⟨hm, rfl, rfl⟩ := ha
        rw [PoolOp.rejection, if_pos hm, submitEntry_snd, hresolve]
      | applyQueryStatus h' g' status cfg' now' =>
        obtain ⟨hh, hg, rfl, rfl⟩ := ha
        rw [PoolOp.rejection, if_pos ⟨hh, hg⟩]
        exact queryReason_query.mpr (.inl hresolve)
      | resolveTotalTimeouts cfg' now' =>
        obtain ⟨rfl, rfl⟩ := ha
        exact hresolve
      | checkTimeouts cfg' now' =>
        obtain ⟨rfl, rfl⟩ := ha
        rw [PoolOp.rejection, timeoutEntry_snd, hresolve]
      | _ => cases ha

/-- The reason of a drop is determined. -/
theorem DropCause.unique {op : PoolOp} {e : BufferEntry} {r r' : Option TerminalReason}
    (h : DropCause op e r) (h' : DropCause op e r') : r = r' := by
  cases r with
  | some reason =>
    cases r' with
    | some reason' =>
      rw [← rejection_iff] at h h'
      rw [← h, ← h']
    | none =>
      cases h'
      rw [← rejection_iff] at h
      cases h
  | none =>
    cases r' with
    | some reason' =>
      cases h
      rw [← rejection_iff] at h'
      cases h'
    | none => rfl

/-- A dropped entry is `Dropped` after the operation. -/
theorem DropCause.onEntry {op : PoolOp} {e : BufferEntry} {r : Option TerminalReason}
    (h : DropCause op e r) : ∃ e', op.onEntry e = some e' ∧ e'.status = .dropped := by
  cases h with
  | @denied cfg now _ hs hd =>
    rcases resolveTotalTimeout_cases cfg now e with ⟨hret, hpast, -⟩ | ⟨-, hr⟩
    · rw [hret, hpast] at hd
      cases hd
    · exact ⟨_, rfl, by simp [queryEntry, hs, hr, BufferEntry.moveTo]⟩
  | @outdated cfg now _ hs hd =>
    rcases resolveTotalTimeout_cases cfg now e with ⟨hret, hpast, -⟩ | ⟨-, hr⟩
    · rw [hret, hpast] at hd
      cases hd
    · exact ⟨_, rfl, by simp [queryEntry, hs, hr, BufferEntry.moveTo]⟩
  | @failClose _ cfg now _ ha hs hd hdeny =>
    have hr : resolveTotalTimeout cfg now e = (e.moveTo .dropped now, some .discard) := by
      rw [resolveTotalTimeout_eq, hs, hd, hdeny]
      rfl
    have ht := isTerminal_of_isRetryable hs
    cases op with
    | applySubmitResponse accepted expected cfg' now' =>
      obtain ⟨hm, rfl, rfl⟩ := ha
      exact ⟨_, rfl, by simp [hm, submitEntry, hr, BufferEntry.moveTo]⟩
    | applyQueryStatus h' g' status cfg' now' =>
      obtain ⟨hh, hg, rfl, rfl⟩ := ha
      exact ⟨_, rfl, by simp [hh, hg, queryEntry, ht, hr, BufferEntry.moveTo]⟩
    | resolveTotalTimeouts cfg' now' =>
      obtain ⟨rfl, rfl⟩ := ha
      exact ⟨_, rfl, by simp [hr, BufferEntry.moveTo]⟩
    | checkTimeouts cfg' now' =>
      obtain ⟨rfl, rfl⟩ := ha
      exact ⟨_, rfl, by simp [timeoutEntry, hr, BufferEntry.moveTo]⟩
    | _ => cases ha
  | mismatch hs => exact ⟨_, rfl, by simp [consistencyEntry, hs, BufferEntry.moveTo]⟩

/-! ## Whole runs of the pool -/

/-- An operation of the run dropped the lifecycle, for this reason. -/
def DroppedBy (ops : List PoolOp) (h : B256) (g : Nat) (r : Option TerminalReason) : Prop :=
  ∃ pre op post e, ops = pre ++ op :: post ∧ (poolAfter pre).lifecycle h g = some e ∧
    DropCause op e r

/-- A lifecycle that is `Dropped` was dropped by an operation of the run. -/
theorem droppedBy_of_dropped {ops : List PoolOp} {h : B256} {g : Nat} {e : BufferEntry}
    (he : (poolAfter ops).lifecycle h g = some e) (hs : e.status = .dropped) :
    ∃ r, DroppedBy ops h g r := by
  have hfresh : ∀ x : BufferEntry, x.status = .dropped → x.status ≠ .notSubmitted := by
    intro x hx
    rw [hx]
    simp
  obtain ⟨pre, op, post, e₀, e₁, hops, hpre, hbefore, hop, hafter, -⟩ :=
    since (fun x => x.status = .dropped) hfresh h g ops e he hs
  obtain ⟨r, hr⟩ := dropCause_of_dropped hop hbefore hafter
  exact ⟨r, pre, op, post, e₀, hops, hpre, hr⟩

/-- A drop is that of the last operation, or an earlier one. -/
theorem droppedBy_concat {ops : List PoolOp} {op : PoolOp} {h : B256} {g : Nat}
    {r : Option TerminalReason} :
    DroppedBy (ops ++ [op]) h g r ↔
      DroppedBy ops h g r ∨ ∃ e, (poolAfter ops).lifecycle h g = some e ∧ DropCause op e r := by
  constructor
  · rintro ⟨pre, op', post, e, hops, hpre, hr⟩
    rcases List.eq_nil_or_concat post with rfl | ⟨post, last, rfl⟩
    · obtain ⟨rfl, hlast⟩ := List.append_inj' hops rfl
      cases hlast
      exact .inr ⟨e, hpre, hr⟩
    · rw [List.concat_eq_append, ← List.cons_append, ← List.append_assoc] at hops
      obtain ⟨rfl, -⟩ := List.append_inj' hops rfl
      exact .inl ⟨pre, op', post, e, rfl, hpre, hr⟩
  · rintro (⟨pre, op', post, e, rfl, hpre, hr⟩ | ⟨e, he, hr⟩)
    · exact ⟨pre, op', post ++ [op], e, by simp, hpre, hr⟩
    · exact ⟨ops, op, [], e, rfl, he, hr⟩

section

variable {ops more : List PoolOp} {h : B256} {g : Nat} {r r' : Option TerminalReason}
  {e : BufferEntry}

/-- Once dropped, a lifecycle is `Dropped` for as long as it is in the pool. -/
theorem DroppedBy.stays (hc : insertCount (ops ++ more) < 2 ^ 64) (hd : DroppedBy ops h g r)
    (he : (poolAfter (ops ++ more)).lifecycle h g = some e) : e.status = .dropped := by
  obtain ⟨pre, op, post, e₀, rfl, hpre, hr⟩ := hd
  obtain ⟨e₁, hop, hs⟩ := hr.onEntry
  have hafter : (poolAfter (pre ++ [op])).lifecycle h g = some e₁ := by
    rw [poolAfter_concat, apply_lifecycle hpre, hop]
  have hsplit : pre ++ op :: post ++ more = pre ++ [op] ++ (post ++ more) := by simp
  rw [hsplit] at hc he
  rw [same_tombstone _ _ hc hafter (by rw [hs]; rfl) he, hs]

/-- What was dropped is not dropped again. -/
theorem DroppedBy.not_again (hc : insertCount ops < 2 ^ 64) (hd : DroppedBy ops h g r)
    (he : (poolAfter ops).lifecycle h g = some e) (op : PoolOp) : ¬ DropCause op e r' := by
  intro hr
  rw [← List.append_nil ops] at hc he
  have hs : e.status = .dropped := hd.stays hc he
  have ht := hr.not_terminal
  rw [hs] at ht
  cases ht

/-- **A lifecycle is dropped at most once.** -/
theorem DroppedBy.unique (hc : insertCount ops < 2 ^ 64) (hd : DroppedBy ops h g r)
    (hd' : DroppedBy ops h g r') : r = r' := by
  induction ops using List.reverseRecOn with
  | nil =>
    obtain ⟨pre, op, post, e, hops, -⟩ := hd
    simp at hops
  | append_singleton ops op ih =>
    rw [insertCount_append] at hc
    have hops : insertCount ops < 2 ^ 64 := by omega
    rcases droppedBy_concat.mp hd with hd | ⟨e, he, hr⟩
    · rcases droppedBy_concat.mp hd' with hd' | ⟨e', he', hr'⟩
      · exact ih hops hd hd'
      · exact absurd hr' (hd.not_again hops he' op)
    · rcases droppedBy_concat.mp hd' with hd' | ⟨e', he', hr'⟩
      · exact absurd hr (hd'.not_again hops he op)
      · rw [he] at he'
        cases he'
        exact hr.unique hr'

end

/-- The events a sequence of operations leaves to be sent. -/
def reports (p : BufferPool) : List PoolOp → List TerminalEvent
  | [] => []
  | op :: ops => op.report p ++ reports (op.apply p) ops

theorem reports_append (p : BufferPool) (ops more : List PoolOp) :
    reports p (ops ++ more) =
      reports p ops ++ reports (ops.foldl (fun p op => op.apply p) p) more := by
  induction ops generalizing p with
  | nil => rfl
  | cons op ops ih =>
    rw [List.cons_append, reports, reports, ih, List.append_assoc, List.foldl_cons]

/-- **The reports of a lifecycle over a run**: one if it was rejected, and none if it was not. -/
theorem reports_of_lifecycle (ops : List PoolOp) (hc : insertCount ops < 2 ^ 64) (h : B256)
    (g : Nat) :
    (∀ reason, DroppedBy ops h g (some reason) →
      (reports BufferPool.new ops).filter (TerminalEvent.isOf h g) = [⟨h, g, reason⟩]) ∧
    ((∀ reason, ¬ DroppedBy ops h g (some reason)) →
      (reports BufferPool.new ops).filter (TerminalEvent.isOf h g) = []) := by
  induction ops using List.reverseRecOn with
  | nil =>
    refine ⟨?_, fun _ => rfl⟩
    rintro reason ⟨pre, op, post, e, hops, -⟩
    simp at hops
  | append_singleton ops op ih =>
    have hops : insertCount ops < 2 ^ 64 := by
      rw [insertCount_append] at hc
      omega
    obtain ⟨ihone, ihnone⟩ := ih hops
    have hsplit : (reports BufferPool.new (ops ++ [op])).filter (TerminalEvent.isOf h g) =
        (reports BufferPool.new ops).filter (TerminalEvent.isOf h g) ++
          ((((poolAfter ops).lifecycle h g).bind (PoolOp.rejection · op)).map
            (fun reason => (⟨h, g, reason⟩ : TerminalEvent))).toList := by
      rw [reports_append, List.filter_append, ← report_lifecycle]
      simp [reports, poolAfter]
    rw [hsplit]
    cases hlast : ((poolAfter ops).lifecycle h g).bind (PoolOp.rejection · op) with
    | some reason =>
      -- The last operation is the drop, so there was none before it.
      obtain ⟨e, he, hrej⟩ := Option.bind_eq_some_iff.mp hlast
      have hr := rejection_iff.mp hrej
      have hbefore : ∀ reason', ¬ DroppedBy ops h g (some reason') := by
        intro reason' hd
        exact hd.not_again hops he op hr
      have hnow : DroppedBy (ops ++ [op]) h g (some reason) :=
        droppedBy_concat.mpr (.inr ⟨e, he, hr⟩)
      rw [ihnone hbefore]
      refine ⟨?_, fun hnot => absurd hnow (hnot reason)⟩
      intro reason' hd
      cases hd.unique hc hnow
      rfl
    | none =>
      have hsame : ∀ reason, DroppedBy (ops ++ [op]) h g (some reason) →
          DroppedBy ops h g (some reason) := by
        intro reason hd
        rcases droppedBy_concat.mp hd with hd | ⟨e, he, hr⟩
        · exact hd
        · rw [he, Option.bind_some, rejection_iff.mpr hr] at hlast
          cases hlast
      rw [Option.map_none, Option.toList_none, List.append_nil]
      refine ⟨fun reason hd => ihone reason (hsame reason hd), ?_⟩
      intro hnot
      exact ihnone (fun reason hd => hnot reason (droppedBy_concat.mpr (.inl hd)))

/-! ## Runs of the system -/

/-- Everything reported so far, sent or waiting to be sent. -/
def State.reported (s : State) : List TerminalEvent := s.events ++ s.outbox

theorem reports_pool (s : State) (ops : List PoolOp) :
    reports BufferPool.new (s.ops ++ ops) = reports BufferPool.new s.ops ++ reports s.pool ops :=
  reports_append _ _ _

/-- The rows of a query response report one by one. -/
theorem relevantEvents_eq (cfg : FilterConfig) (now : Nat) (relevant : List (B256 × Nat × String)) :
    ∀ p, relevantEvents cfg now p relevant = reports p (relevantOps cfg now relevant) := by
  induction relevant with
  | nil =>
    intro p
    rfl
  | cons r relevant ih =>
    intro p
    show _ ++ relevantEvents cfg now _ relevant = _ ++ reports _ (relevantOps cfg now relevant)
    rw [ih]
    rfl

/-- **The operations of a section of a call**: none, an insertion, or a consistency check whose
    outcome is the verdict. -/
theorem advance_performs {env : Env} {ops : List PoolOp} {rules : RuleSet} {now : Nat} {c : Call}
    {r : List PoolOp × Call} (h : c.advance env ops rules now = some r) :
    r.1 = [] ∨ (∃ entry fresh, r.1 = [.insert entry fresh]) ∨
      ∃ g consistent, r.1 = [.finishConsistencyCheck c.input.txHash g consistent now] ∧
        r.2.phase = .metrics (consistencyVerdict consistent
          ((poolAfter ops).finishConsistencyCheck c.input.txHash g consistent now).2) := by
  unfold Call.advance at h
  dsimp only at h
  split at h
  · split at h <;> cases h <;> exact .inl rfl
  · cases h
    exact .inl rfl
  · split at h <;> cases h <;> exact .inl rfl
  · cases h
    exact .inr (.inl ⟨_, _, rfl⟩)
  · split at h
    · cases h
      exact .inl rfl
    · cases h
      exact .inl rfl
    · cases h
      exact .inr (.inr ⟨_, _, rfl, rfl⟩)
    · cases h
      exact .inl rfl
  · cases h
    exact .inl rfl
  · cases h

/-- A screening call reports nothing. -/
theorem advance_reports {env : Env} {ops : List PoolOp} {rules : RuleSet} {now : Nat} {c : Call}
    {r : List PoolOp × Call} (h : c.advance env ops rules now = some r) (p : BufferPool) :
    reports p r.1 = [] := by
  rcases advance_performs h with hr | ⟨entry, fresh, hr⟩ | ⟨g, consistent, hr, -⟩
  · rw [hr]
    rfl
  · rw [hr]
    rfl
  · rw [hr]
    rfl

/-- The step of a worker: operations that are no consistency checks, with their reports. -/
structure WorkerStep (s s' : State) (ops : List PoolOp) : Prop where
  noCheck : ∀ op ∈ ops, ∀ h g consistent now, op ≠ .finishConsistencyCheck h g consistent now
  performed : s'.ops = s.ops ++ ops
  events : s'.events = s.events
  outbox : s'.outbox = s.outbox ++ reports s.pool ops

/-- **What a step does to the pool and the events**: a call performs operations that report
    nothing, a worker performs operations and leaves their reports to be sent, or a waiting event is
    sent. -/
theorem step_performs {env : Env} {s s' : State} {a : Act} (h : step env s a = some s') :
    (∃ i now c r, a = .callStep i now ∧ s.calls[i]? = some c ∧
      c.advance env s.ops s.rules now = some r ∧ s'.ops = s.ops ++ r.1 ∧ s'.events = s.events ∧
      s'.outbox = s.outbox ∧ s'.calls[i]? = some r.2) ∨
    (∃ ops, WorkerStep s s' ops) ∨
    (∃ i event, s.outbox[i]? = some event ∧ s'.ops = s.ops ∧ s'.events = s.events ++ [event] ∧
      s'.outbox = s.outbox.eraseIdx i) := by
  have hsilent : ∀ {t : State}, t.ops = s.ops → t.events = s.events → t.outbox = s.outbox →
      ∃ ops, WorkerStep s t ops := by
    intro t hops hevents houtbox
    refine ⟨[], by simp, ?_, hevents, ?_⟩
    · rw [hops, List.append_nil]
    · rw [houtbox, reports, List.append_nil]
  have hexpired : ∀ {t : State} {now : Nat},
      t.ops = s.ops ++ [PoolOp.resolveTotalTimeouts env.config now] → t.events = s.events →
      t.outbox = s.outbox ++ timeoutEvents (s.pool.resolveTotalTimeouts env.config now).2 →
      ∃ ops, WorkerStep s t ops := by
    intro t now hops hevents houtbox
    refine ⟨_, by simp, hops, hevents, ?_⟩
    rw [houtbox, reports, reports, List.append_nil, PoolOp.report]
  cases a with
  | screen input =>
    cases h
    exact .inr (.inl (hsilent rfl rfl rfl))
  | callStep i now =>
    obtain ⟨c, hc, h⟩ := Option.bind_eq_some_iff.mp h
    obtain ⟨r, hr, rfl⟩ := Option.map_eq_some_iff.mp h
    have hlen : i < s.calls.length := (List.getElem?_eq_some_iff.mp hc).1
    exact .inl ⟨i, now, c, r, rfl, hc, hr, rfl, rfl, rfl, List.getElem?_set_self hlen⟩
  | submitCollect now =>
    cases h
    exact .inr (.inl (hexpired rfl rfl rfl))
  | submitGroup i now =>
    obtain ⟨group, hg, rfl⟩ := Option.map_eq_some_iff.mp h
    dsimp only
    split
    · exact .inr (.inl (hexpired rfl rfl rfl))
    · exact .inr (.inl (hexpired rfl rfl rfl))
  | submitReply i reply now =>
    obtain ⟨expected, he, rfl⟩ := Option.map_eq_some_iff.mp h
    cases reply with
    | none => exact .inr (.inl (hexpired rfl rfl rfl))
    | some accepted =>
      refine .inr (.inl ⟨[.applySubmitResponse accepted expected env.config now], by simp, rfl, rfl,
        ?_⟩)
      exact congrArg (s.outbox ++ ·) (List.append_nil _).symm
  | queryStart now =>
    simp only [step] at h
    split at h
    · cases h
      exact .inr (.inl (hexpired rfl rfl rfl))
    · cases h
      exact .inr (.inl (hexpired rfl rfl rfl))
  | queryReply i reply now =>
    obtain ⟨task, ht, h⟩ := Option.bind_eq_some_iff.mp h
    dsimp only at h
    split at h
    · cases h
    · cases reply with
      | none =>
        cases h
        exact .inr (.inl (hexpired rfl rfl rfl))
      | some rows =>
        cases h
        refine .inr (.inl ⟨_, ?_, rfl, rfl, ?_⟩)
        · intro op hop
          obtain ⟨row, -, rfl⟩ := List.mem_map.mp hop
          simp
        · exact congrArg (s.outbox ++ ·) (relevantEvents_eq env.config now _ s.pool)
  | timeoutTick now =>
    cases h
    refine .inr (.inl ⟨_, by simp, rfl, rfl, ?_⟩)
    exact congrArg (s.outbox ++ ·) (List.append_nil _).symm
  | installRules rules =>
    cases h
    exact .inr (.inl (hsilent rfl rfl rfl))
  | removeCanonical | recoverLag | removeNonTerminal =>
    cases h
    exact .inr (.inl ⟨_, by simp, rfl, rfl, rfl⟩)
  | emit i =>
    obtain ⟨event, he, rfl⟩ := Option.map_eq_some_iff.mp h
    exact .inr (.inr ⟨i, event, he, rfl, rfl, rfl⟩)

/-- **One step** sends no event twice and loses none. -/
theorem step_reports {env : Env} {s s' : State} {a : Act} (h : step env s a = some s') :
    ∃ ops, s'.ops = s.ops ++ ops ∧ s'.reported.Perm (s.reported ++ reports s.pool ops) := by
  rcases step_performs h with ⟨i, now, c, r, -, -, hadv, hops, hevents, houtbox, -⟩ |
    ⟨ops, hworker⟩ | ⟨i, event, he, hops, hevents, houtbox⟩
  · refine ⟨r.1, hops, List.Perm.of_eq ?_⟩
    rw [State.reported, State.reported, hevents, houtbox, advance_reports hadv, List.append_nil]
  · refine ⟨ops, hworker.performed, List.Perm.of_eq ?_⟩
    rw [State.reported, State.reported, hworker.events, hworker.outbox, List.append_assoc]
  · obtain ⟨hi, rfl⟩ := List.getElem?_eq_some_iff.mp he
    refine ⟨[], hops.trans (List.append_nil _).symm, ?_⟩
    have hsent : s.outbox[i] :: s.outbox.eraseIdx i |>.Perm s.outbox :=
      List.getElem_cons_eraseIdx_perm hi
    simp only [State.reported, hevents, houtbox, reports, List.append_nil, List.append_assoc]
    exact hsent.append_left s.events

/-- **What was sent or waits to be sent is what the operations reported.** -/
theorem reported_of_run {env : Env} (acts : List Act) : ∀ s, run env State.new acts = some s →
    s.reported.Perm (reports BufferPool.new s.ops) := by
  refine run_induction (fun _ s => s.reported.Perm (reports BufferPool.new s.ops)) ?_ ?_ acts
  · exact List.Perm.refl _
  · intro acts s a s' _ ih hstep
    obtain ⟨ops, hops, hperm⟩ := step_reports hstep
    rw [hops, reports_pool]
    exact hperm.trans (ih.append_right _)

/-! ## Mismatches -/

/-- The verdict of the call is known: it is returned, or will be after the gauges are updated. -/
def Call.Answers (c : Call) (v : Screen) : Prop := c.phase = .metrics v ∨ c.phase = .done v

theorem Call.Answers.advance {env : Env} {ops : List PoolOp} {rules : RuleSet} {now : Nat}
    {c : Call} {v : Screen} {r : List PoolOp × Call} (h : c.Answers v)
    (hr : c.advance env ops rules now = some r) : r.2.Answers v := by
  unfold Call.advance at hr
  rcases h with h | h
  · rw [h] at hr
    cases hr
    exact .inr rfl
  · rw [h] at hr
    cases hr

/-- **A verdict is kept** to the end of the run. -/
theorem answers_run {env : Env} {i : Nat} {v : Screen} (more : List Act) : ∀ {s s' : State}
    {c : Call}, run env s more = some s' → s.calls[i]? = some c → c.Answers v →
      ∃ c', s'.calls[i]? = some c' ∧ c'.input = c.input ∧ c'.Answers v := by
  induction more with
  | nil =>
    intro s s' c hrun hc hv
    cases hrun
    exact ⟨c, hc, rfl, hv⟩
  | cons a more ih =>
    intro s s' c hrun hc hv
    obtain ⟨m, hm, hrun⟩ := Option.bind_eq_some_iff.mp hrun
    rcases step_call hm hc with hsame | ⟨now, r, -, hadv, -, hr⟩
    · exact ih hrun hsame hv
    · obtain ⟨c', hc', hinput, hv'⟩ := ih hrun hr (hv.advance hadv)
      exact ⟨c', hc', hinput.trans (advance_sections hadv).1, hv'⟩

/-- A call that drops a lifecycle performs nothing else, and answers `Drop`. -/
theorem advance_mismatch {env : Env} {ops : List PoolOp} {rules : RuleSet} {now : Nat}
    {c : Call} {r : List PoolOp × Call} (hr : c.advance env ops rules now = some r)
    {pre post : List PoolOp} {op : PoolOp} (hops : r.1 = pre ++ op :: post) {h : B256} {g : Nat}
    {e : BufferEntry} (he : (poolAfter (ops ++ pre)).lifecycle h g = some e)
    (hdrop : DropCause op e none) :
    pre = [] ∧ post = [] ∧ c.input.txHash = h ∧ r.2.Answers .drop := by
  obtain ⟨hget, hgen⟩ := BufferPool.lifecycle_eq_some.mp he
  have hhash : e.txHash = h := BufferPool.get_hash hget
  cases hdrop with
  | @mismatch time _ hs =>
    rcases advance_performs hr with hnone | ⟨entry, fresh, hone⟩ | ⟨g', consistent, hone, hphase⟩
    · rw [hnone] at hops
      simp at hops
    · rw [hone, eq_comm, List.append_eq_singleton_iff] at hops
      rcases hops with ⟨-, hops⟩ | ⟨-, hops⟩ <;> cases hops
    · rw [hone, eq_comm, List.append_eq_singleton_iff] at hops
      rcases hops with ⟨rfl, hops⟩ | ⟨-, hops⟩
      · injection hops with hop hpost
        injection hop with htx hgeneration hconsistent htime
        subst hconsistent hgeneration hpost
        refine ⟨rfl, rfl, htx.symm.trans hhash, .inl ?_⟩
        have hlife : (poolAfter ops).lifecycle c.input.txHash e.generation = some e := by
          rw [← htx, hhash, hgen, ← List.append_nil ops]
          exact he
        rw [hphase, BufferPool.finishConsistencyCheck, hlife, Option.map_some]
        simp [consistencyEntry, hs, BufferEntry.moveTo, consistencyVerdict]
      · cases hops

theorem droppedBy_append {ops more : List PoolOp} {h : B256} {g : Nat} {r : Option TerminalReason}
    (hd : DroppedBy (ops ++ more) h g r) :
    DroppedBy ops h g r ∨ ∃ pre op post e, more = pre ++ op :: post ∧
      (poolAfter (ops ++ pre)).lifecycle h g = some e ∧ DropCause op e r := by
  induction more using List.reverseRecOn with
  | nil =>
    rw [List.append_nil] at hd
    exact .inl hd
  | append_singleton more op ih =>
    rw [← List.append_assoc] at hd
    rcases droppedBy_concat.mp hd with hd | ⟨e, he, hr⟩
    · rcases ih hd with hd | ⟨pre, op', post, e, rfl, he, hr⟩
      · exact .inl hd
      · exact .inr ⟨pre, op', post ++ [op], e, by simp, he, hr⟩
    · exact .inr ⟨more, op, [], e, rfl, he, hr⟩

/-- The call `i` dropped the lifecycle at one of its steps, and its verdict is `Drop`. -/
def DroppedByCall (env : Env) (acts : List Act) (s : State) (h : B256) (g : Nat) : Prop :=
  ∃ before i now after m m' e e' c, acts = before ++ Act.callStep i now :: after ∧
    run env State.new before = some m ∧ step env m (.callStep i now) = some m' ∧
    m.pool.lifecycle h g = some e ∧ e.status = .approved ∧
    m'.pool.lifecycle h g = some e' ∧ e'.status = .dropped ∧
    s.calls[i]? = some c ∧ c.input.txHash = h ∧ c.Answers .drop

/-- **A mismatch is answered by the call that found it.** -/
theorem droppedByCall_of_run {env : Env} {h : B256} {g : Nat} (acts : List Act) :
    ∀ s, run env State.new acts = some s → DroppedBy s.ops h g none →
      DroppedByCall env acts s h g := by
  refine run_induction (fun acts s => DroppedBy s.ops h g none → DroppedByCall env acts s h g)
    ?_ ?_ acts
  · rintro ⟨pre, op, post, e, hops, -⟩
    simp [State.new] at hops
  · intro acts s a s' hrun ih hstep hd
    have hearlier : DroppedBy s.ops h g none → DroppedByCall env (acts ++ [a]) s' h g := by
      intro hd
      obtain ⟨before, i, now, after, m, m', e, e', c, rfl, hm, hm', hl, hs, hl', hs', hc, hh, hv⟩ :=
        ih hd
      have hone : run env s [a] = some s' := by
        rw [run, hstep]
        rfl
      obtain ⟨c', hc', hinput, hv'⟩ := answers_run [a] hone hc hv
      refine ⟨before, i, now, after ++ [a], m, m', e, e', c', by simp, hm, hm', hl, hs, hl', hs',
        hc', ?_, hv'⟩
      rw [hinput, hh]
    rcases step_performs hstep with ⟨i, now, c, r, rfl, hc, hadv, hops, -, -, hc'⟩ |
      ⟨ops, hworker⟩ | ⟨i, event, -, hops, -⟩
    · rw [hops] at hd
      rcases droppedBy_append hd with hd | ⟨pre, op, post, e, hr1, he, hr⟩
      · exact hearlier hd
      · obtain ⟨rfl, rfl, hh, hv⟩ := advance_mismatch hadv hr1 he hr
        rw [List.append_nil] at he
        obtain ⟨e', hop, hs'⟩ := hr.onEntry
        have hs : e.status = .approved := by
          cases hr with
          | mismatch hs => exact hs
        refine ⟨acts, i, now, [], s, s', e, e', r.2, rfl, hrun, hstep, he, hs, ?_, hs', hc', ?_, hv⟩
        · rw [State.pool, hops, hr1, List.nil_append, poolAfter_concat, apply_lifecycle he, hop]
        · rw [(advance_sections hadv).1, hh]
    · rw [hworker.performed] at hd
      rcases droppedBy_append hd with hd | ⟨pre, op, post, e, rfl, -, hr⟩
      · exact hearlier hd
      · have hin : op ∈ pre ++ op :: post := by simp
        cases hr
        exact absurd rfl (hworker.noCheck _ hin _ _ _ _)
    · rw [hops] at hd
      exact hearlier hd

/-! ## Exactly once -/

/-- Every waiting event can be sent, one after the other. -/
theorem outbox_drains (env : Env) : ∀ (n : Nat) (s : State), s.outbox.length = n →
    ∃ emits s', run env s emits = some s' ∧ s'.ops = s.ops ∧ s'.outbox = [] := by
  intro n
  induction n with
  | zero =>
    intro s hn
    exact ⟨[], s, rfl, rfl, List.length_eq_zero_iff.mp hn⟩
  | succ n ih =>
    intro s hn
    obtain ⟨event, rest, hout⟩ := List.exists_cons_of_length_eq_add_one hn
    have hstep : step env s (.emit 0) =
        some { s with outbox := rest, events := s.events ++ [event] } := by
      simp [step, hout]
    have hrest : rest.length = n := by simpa [hout] using hn
    obtain ⟨emits, s', hrun, hops, hempty⟩ :=
      ih { s with outbox := rest, events := s.events ++ [event] } hrest
    refine ⟨.emit 0 :: emits, s', ?_, hops, hempty⟩
    rw [run, hstep, Option.bind_some, hrun]

/-- A lifecycle that was released is never dropped. -/
theorem not_dropped_of_released {pre more : List PoolOp} {h : B256} {g : Nat} {e : BufferEntry}
    {r : Option TerminalReason} (hc : insertCount (pre ++ more) < 2 ^ 64)
    (he : (poolAfter pre).lifecycle h g = some e) (hs : e.status = .timedOutAllow) :
    ¬ DroppedBy (pre ++ more) h g r := by
  have ht : e.status.isTerminal = true := by rw [hs]; rfl
  intro hd
  rcases droppedBy_append hd with hd | ⟨mid, op, post, x, rfl, hx, hr⟩
  · rw [insertCount_append] at hc
    rw [← List.append_nil pre] at he
    have hdropped := hd.stays (by rw [List.append_nil]; omega) he
    rw [hs] at hdropped
    cases hdropped
  · have hmid : insertCount (pre ++ mid) < 2 ^ 64 := by
      rw [← List.append_assoc, insertCount_append] at hc
      omega
    have hsame := same_tombstone pre mid hmid he ht hx
    subst hsame
    rw [hr.not_terminal] at ht
    cases ht

/-- What the system reported of a lifecycle is what the pool reports of it. -/
theorem reported_of_lifecycle {env : Env} {acts : List Act} {s : State}
    (hrun : run env State.new acts = some s) (hc : insertCount s.ops < 2 ^ 64) (h : B256)
    (g : Nat) :
    (∀ reason, DroppedBy s.ops h g (some reason) →
      s.reported.filter (TerminalEvent.isOf h g) = [⟨h, g, reason⟩]) ∧
    ((∀ reason, ¬ DroppedBy s.ops h g (some reason)) →
      s.reported.filter (TerminalEvent.isOf h g) = []) := by
  have hperm := (reported_of_run acts s hrun).filter (TerminalEvent.isOf h g)
  obtain ⟨hone, hnone⟩ := reports_of_lifecycle s.ops hc h g
  refine ⟨fun reason hd => ?_, fun hnot => ?_⟩
  · rw [hone reason hd] at hperm
    exact List.perm_singleton.mp hperm
  · rw [hnone hnot] at hperm
    exact List.perm_nil.mp hperm

/-- **Exactly-once terminal notification**, for every lifecycle in every run.
    1. Every lifecycle that is `Dropped` at any time was dropped by RCS, by the deadline check or by
       a consistency mismatch.
    2. One dropped by RCS or by the deadline check has exactly one event, with that reason: it is
       sent or waits to be sent, and once everything is sent, it is sent once.
    3. One dropped by a mismatch has no event, and the call that dropped it answers `Drop`.
    4. An event is about a lifecycle that was dropped for its reason, that is `Dropped` for as long
       as it is in the pool, and that was never released. -/
theorem terminal_events_exactly_once (env : Env) (acts : List Act) (s : State)
    (hrun : run env State.new acts = some s) (hc : insertCount s.ops < 2 ^ 64) (h : B256)
    (g : Nat) :
    (∀ pre e, pre <+: s.ops → (poolAfter pre).lifecycle h g = some e → e.status = .dropped →
      ∃ r, DroppedBy s.ops h g r) ∧
    (∀ reason, DroppedBy s.ops h g (some reason) →
      s.reported.filter (TerminalEvent.isOf h g) = [⟨h, g, reason⟩] ∧
      ∃ emits s', run env s emits = some s' ∧ s'.ops = s.ops ∧ s'.outbox = [] ∧
        s'.events.filter (TerminalEvent.isOf h g) = [⟨h, g, reason⟩]) ∧
    (DroppedBy s.ops h g none →
      s.reported.filter (TerminalEvent.isOf h g) = [] ∧ DroppedByCall env acts s h g) ∧
    (∀ reason, ⟨h, g, reason⟩ ∈ s.reported →
      DroppedBy s.ops h g (some reason) ∧
      (∀ e, s.pool.lifecycle h g = some e → e.status = .dropped) ∧
      ∀ pre e, pre <+: s.ops → (poolAfter pre).lifecycle h g = some e →
        e.status ≠ .timedOutAllow) := by
  obtain ⟨hone, hnone⟩ := reported_of_lifecycle hrun hc h g
  refine ⟨?_, ?_, ?_, ?_⟩
  · rintro pre e ⟨rest, hrest⟩ he hs
    obtain ⟨r, pre', op, post, x, rfl, hx, hr⟩ := droppedBy_of_dropped he hs
    exact ⟨r, pre', op, post ++ rest, x, by rw [← hrest]; simp, hx, hr⟩
  · intro reason hd
    refine ⟨hone reason hd, ?_⟩
    obtain ⟨emits, s', hemits, hops, hempty⟩ := outbox_drains env _ s rfl
    have hrun' : run env State.new (acts ++ emits) = some s' := by
      rw [run_append, hrun, Option.bind_some, hemits]
    have hsent := (reported_of_lifecycle hrun' (hops ▸ hc) h g).1 reason (hops ▸ hd)
    rw [State.reported, hempty, List.append_nil] at hsent
    exact ⟨emits, s', hemits, hops, hempty, hsent⟩
  · intro hd
    refine ⟨hnone ?_, droppedByCall_of_run acts s hrun hd⟩
    intro reason hd'
    cases hd.unique hc hd'
  · intro reason hevent
    have hd : DroppedBy s.ops h g (some reason) := by
      by_contra hnot
      have hmem : ⟨h, g, reason⟩ ∈ s.reported.filter (TerminalEvent.isOf h g) := by
        rw [List.mem_filter]
        exact ⟨hevent, by simp [TerminalEvent.isOf]⟩
      by_cases hother : ∃ reason', DroppedBy s.ops h g (some reason')
      · obtain ⟨reason', hd'⟩ := hother
        rw [hone reason' hd', List.mem_singleton] at hmem
        cases hmem
        exact hnot hd'
      · rw [hnone (fun reason' hd' => hother ⟨reason', hd'⟩)] at hmem
        cases hmem
    refine ⟨hd, ?_, ?_⟩
    · intro e he
      rw [State.pool, ← List.append_nil s.ops] at he
      exact hd.stays (by rwa [List.append_nil]) he
    · rintro pre e ⟨rest, hrest⟩ he hs
      rw [← hrest] at hc hd
      exact not_dropped_of_released hc he hs hd

/-- One transaction is buffered, submitted and denied. -/
def deniedRun : List Act :=
  [.installRules transferRules, .screen transferInput, .callStep 0 0, .callStep 0 0, .callStep 0 0,
    .callStep 0 0, .submitCollect 1, .submitGroup 0 1,
    .submitReply 0 (some [transferInput.txHash.lowerHex]) 2, .queryStart 3,
    .queryReply 0 (some [⟨transferInput.txHash.lowerHex, "denied"⟩]) 4]

theorem deniedRun_reported :
    ∃ s, run transferEnv State.new deniedRun = some s ∧ insertCount s.ops < 2 ^ 64 ∧
      DroppedBy s.ops transferInput.txHash 1 (some .denied) ∧
      s.reported.filter (TerminalEvent.isOf transferInput.txHash 1) =
        [⟨transferInput.txHash, 1, .denied⟩] := by
  have hsum : (run transferEnv State.new deniedRun).map (fun s => (s.reported, insertCount s.ops)) =
      some ([⟨transferInput.txHash, 1, .denied⟩], 1) := by decide +kernel
  obtain ⟨s, hs, hboth⟩ := Option.map_eq_some_iff.mp hsum
  obtain ⟨hreported, hcount⟩ := Prod.mk.inj hboth
  have hc : insertCount s.ops < 2 ^ 64 := by
    rw [hcount]
    norm_num
  obtain ⟨-, hone, -, hdropped⟩ :=
    terminal_events_exactly_once transferEnv deniedRun s hs hc transferInput.txHash 1
  have hd := (hdropped .denied (by rw [hreported]; simp)).1
  exact ⟨s, hs, hc, hd, (hone .denied hd).1⟩

end XLayerReth.RcsFilter
