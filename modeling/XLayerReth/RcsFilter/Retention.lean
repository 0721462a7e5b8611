import XLayerReth.RcsFilter.Config
import XLayerReth.RcsFilter.TerminalEvents

/-!
# How long entries wait, and how long tombstones are kept

Runs of the filter of `Handle.lean` with the clock readings of their actions.  The timeout worker
ticks now and then; between two ticks anything may happen.

* `InTime` — an entry waits no longer than its retry deadline, and a tombstone is no older than its
  retention, as of a time.
* `Act.Spares` — an action that does not evict a tombstone.

Principal results: `inTime_after_tick` (a tick leaves nothing overdue, and nothing that happens
later makes anything overdue as of that tick), `tombstone_kept`, and `lifecycles_in_time`, which
joins them under a configuration made from the command line.
-/

set_option autoImplicit false

namespace XLayerReth.RcsFilter

open XLayerReth.Lib

/-- The clock reading of an action. -/
def Act.time : Act → Option Nat
  | .callStep _ now | .submitCollect now | .submitGroup _ now | .submitReply _ _ now
  | .queryStart now | .queryReply _ _ now | .timeoutTick now => some now
  | .screen _ | .installRules _ | .removeCanonical _ | .recoverLag | .removeNonTerminal _ _
  | .emit _ => none

/-- As of a time, the entry is within its retry deadline, or it is a tombstone within its
    retention. -/
structure InTime (cfg : FilterConfig) (t : Nat) (e : BufferEntry) : Prop where
  waiting : e.status.isRetryable = true → t ≤ e.firstNotSubmittedAt + cfg.totalRetryTimeout
  tombstone : e.status.isTerminal = true → t ≤ e.lastTransitionAt + cfg.terminalEntryRetention

/-- The operation is not made before a time; what it inserts starts to wait no earlier. -/
structure NotBefore (t : Nat) (op : PoolOp) : Prop where
  time : ∀ now, op.time = some now → t ≤ now
  fresh : ∀ entry hfresh, op = .insert entry hfresh → t ≤ entry.firstNotSubmittedAt

/-! ## Nothing becomes overdue as of an earlier time -/

/-- Only an entry that was waiting waits after a move. -/
theorem retryable_of_edge {s s' : BufferStatus} (h : edge s s' = true)
    (hs' : s'.isRetryable = true) : s.isRetryable = true := by
  cases s <;> cases s' <;> first | rfl | exact absurd hs' (by decide) | exact absurd h (by decide)

theorem InTime.onEntry {cfg : FilterConfig} {t : Nat} {op : PoolOp} {e e' : BufferEntry}
    (h : InTime cfg t e) (hop : NotBefore t op) (he : op.onEntry e = some e') :
    InTime cfg t e' := by
  rcases onEntry_cause he with rfl | ⟨s, now, rfl, hcause⟩
  · exact h
  · have hedge := edge_of_cause hcause
    have hnow : t ≤ now := hop.time now hcause.time
    constructor
    · intro hs
      exact h.waiting (retryable_of_edge hedge hs)
    · intro _
      exact Nat.le_add_right_of_le hnow

theorem InTime.created {cfg : FilterConfig} {t : Nat} {p : BufferPool} {op : PoolOp} {h : B256}
    {e : BufferEntry} (hop : NotBefore t op) (he : op.created p h = some e) : InTime cfg t e := by
  cases op with
  | insert entry fresh =>
    obtain ⟨-, he⟩ := Option.ite_none_right_eq_some.mp he
    cases he
    constructor
    · intro _
      exact Nat.le_add_right_of_le (hop.fresh entry fresh rfl)
    · intro ht
      rw [fresh] at ht
      cases ht
  | _ => cases he

/-- Every entry of a pool is in time. -/
def BufferPool.InTime (p : BufferPool) (cfg : FilterConfig) (t : Nat) : Prop :=
  ∀ h e, p.get h = some e → RcsFilter.InTime cfg t e

theorem BufferPool.InTime.apply {p : BufferPool} {cfg : FilterConfig} {t : Nat} {op : PoolOp}
    (hp : p.InTime cfg t) (hop : NotBefore t op) : (op.apply p).InTime cfg t := by
  intro h e he
  rw [PoolOp.get_apply] at he
  cases hget : p.get h with
  | none =>
    rw [hget] at he
    exact InTime.created hop he
  | some e₀ =>
    rw [hget] at he
    exact (hp h e₀ hget).onEntry hop he

theorem inTime_append {cfg : FilterConfig} {t : Nat} {ops more : List PoolOp}
    (h : (poolAfter ops).InTime cfg t) (hmore : ∀ op ∈ more, NotBefore t op) :
    (poolAfter (ops ++ more)).InTime cfg t := by
  induction more using List.reverseRecOn with
  | nil => rwa [List.append_nil]
  | append_singleton more op ih =>
    rw [← List.append_assoc, poolAfter_concat]
    exact (ih (fun x hx => hmore x (List.mem_append_left _ hx))).apply
      (hmore op (List.mem_append_right _ (List.mem_singleton_self op)))

/-! ## A tick -/

/-- After the timeout scan no entry that still waits is past its deadline. -/
theorem timeoutEntry_inTime (cfg : FilterConfig) (t : Nat) (e : BufferEntry)
    (h : (timeoutEntry cfg t e).1.status.isRetryable = true) :
    t ≤ (timeoutEntry cfg t e).1.firstNotSubmittedAt + cfg.totalRetryTimeout := by
  have hkeeps : (timeoutEntry cfg t e).1.firstNotSubmittedAt = e.firstNotSubmittedAt := by
    rcases timeoutEntry_moves cfg t e with he | ⟨s, he⟩
    · rw [he]
    · rw [he]
      rfl
  rw [hkeeps]
  by_contra hlate
  have hpast : e.pastDeadline cfg t = true := by
    rw [BufferEntry.pastDeadline, decide_eq_true_eq]
    omega
  rcases resolveTotalTimeout_cases cfg t e with ⟨hs, -, hr⟩ | ⟨hno, hr⟩
  · -- the entry was resolved, and waits no longer
    rw [timeoutEntry, hr] at h
    cases ha : e.timeoutAction with
    | allow =>
      rw [ha] at h
      cases h
    | deny =>
      rw [ha] at h
      cases h
  · rw [hpast, Bool.and_true] at hno
    rcases timeoutEntry_cause cfg t e with he | ⟨s, he, hcause⟩
    · rw [he, hno] at h
      cases h
    · rw [he] at h
      rw [retryable_of_edge (edge_of_cause hcause) h] at hno
      cases hno

/-- **A tick leaves nothing overdue.** -/
theorem tick_inTime (cfg : FilterConfig) (t : Nat) (ops : List PoolOp) :
    (poolAfter (ops ++ [.checkTimeouts cfg t, .pruneTerminal cfg.terminalEntryRetention t])).InTime
      cfg t := by
  intro h e he
  have htwo : ops ++ [.checkTimeouts cfg t, .pruneTerminal cfg.terminalEntryRetention t] =
      (ops ++ [.checkTimeouts cfg t]) ++ [.pruneTerminal cfg.terminalEntryRetention t] := by simp
  rw [htwo, poolAfter_concat, poolAfter_concat, PoolOp.get_apply, PoolOp.get_apply] at he
  cases hget : (poolAfter ops).get h with
  | none =>
    rw [hget] at he
    cases he
  | some e₀ =>
    rw [hget] at he
    have hpruned : PoolOp.onEntry (timeoutEntry cfg t e₀).1
        (.pruneTerminal cfg.terminalEntryRetention t) = some e := he
    obtain ⟨hkept, heq⟩ := Option.ite_none_left_eq_some.mp hpruned
    cases heq
    constructor
    · exact timeoutEntry_inTime cfg t e₀
    · intro hterminal
      by_contra hold
      exact hkept ⟨hterminal, by omega⟩

/-! ## What an action does to the pool, by the clock -/

/-- The operation does not evict a tombstone. -/
def PoolOp.Spares (e : BufferEntry) : PoolOp → Prop
  | .removeCanonical hashes => e.txHash ∉ hashes
  | .recoverAfterCanonicalLag => e.status = .dropped
  | .pruneTerminal retentionSecs now => now ≤ e.lastTransitionAt + retentionSecs
  | _ => True

/-- The action does not evict a tombstone: the transaction is not found in a block, a released
    one does not meet a recovery from lag, and a tick finds it within its retention. -/
def Act.Spares (cfg : FilterConfig) (e : BufferEntry) : Act → Prop
  | .removeCanonical hashes => e.txHash ∉ hashes
  | .recoverLag => e.status = .dropped
  | .timeoutTick now => now ≤ e.lastTransitionAt + cfg.terminalEntryRetention
  | _ => True

/-- The operations of an action: not before its clock reading, and sparing what it spares. -/
structure Timed (cfg : FilterConfig) (a : Act) (ops : List PoolOp) : Prop where
  notBefore : ∀ t, (∀ now, a.time = some now → t ≤ now) → ∀ op ∈ ops, NotBefore t op
  spares : ∀ e, a.Spares cfg e → ∀ op ∈ ops, op.Spares e

theorem timed_nil (cfg : FilterConfig) (a : Act) : Timed cfg a [] :=
  ⟨fun _ _ _ h => absurd h (List.not_mem_nil), fun _ _ _ h => absurd h (List.not_mem_nil)⟩

/-- Operations made at the clock reading that insert nothing and evict nothing. -/
theorem timed_at {cfg : FilterConfig} {a : Act} {now : Nat} {ops : List PoolOp}
    (ha : a.time = some now)
    (hops : ∀ op ∈ ops, op.time = some now ∧ op.isInsert = false ∧ ∀ e, op.Spares e) :
    Timed cfg a ops := by
  constructor
  · intro t ht op hop
    obtain ⟨htime, hinsert, -⟩ := hops op hop
    constructor
    · intro n hn
      cases htime.symm.trans hn
      exact ht _ ha
    · rintro entry hfresh rfl
      cases hinsert
  · exact fun e _ op hop => (hops op hop).2.2 e

theorem timed_resolve {cfg : FilterConfig} {a : Act} {now : Nat} (ha : a.time = some now) :
    Timed cfg a [.resolveTotalTimeouts cfg now] :=
  timed_at ha (fun op hop => by
    rw [List.mem_singleton.mp hop]
    exact ⟨rfl, rfl, fun _ => trivial⟩)

/-- An operation that does not read the clock and inserts nothing. -/
theorem timed_removal {cfg : FilterConfig} {a : Act} {op : PoolOp} (htime : op.time = none)
    (hinsert : op.isInsert = false) (hspares : ∀ e, a.Spares cfg e → op.Spares e) :
    Timed cfg a [op] := by
  constructor
  · intro t _ x hx
    rw [List.mem_singleton.mp hx]
    constructor
    · intro n hn
      rw [htime] at hn
      cases hn
    · rintro entry hfresh rfl
      cases hinsert
  · intro e he x hx
    rw [List.mem_singleton.mp hx]
    exact hspares e he

theorem advance_timed {env : Env} {ops : List PoolOp} {rules : RuleSet} {i now : Nat} {c : Call}
    {r : List PoolOp × Call} (h : c.advance env ops rules now = some r) :
    Timed env.config (.callStep i now) r.1 := by
  unfold Call.advance at h
  dsimp only at h
  split at h
  · split at h
    · cases h
      exact timed_nil _ _
    · cases h
      exact timed_nil _ _
  · cases h
    exact timed_nil _ _
  · split at h
    · cases h
      exact timed_nil _ _
    · cases h
      exact timed_nil _ _
  · cases h
    constructor
    · intro t ht op hop
      rw [List.mem_singleton.mp hop]
      constructor
      · intro n hn
        cases hn
      · intro entry hfresh heq
        cases heq
        exact ht now rfl
    · intro e _ op hop
      rw [List.mem_singleton.mp hop]
      trivial
  · split at h
    · cases h
      exact timed_nil _ _
    · cases h
      exact timed_nil _ _
    · cases h
      exact timed_at rfl (fun op hop => by
        rw [List.mem_singleton.mp hop]
        exact ⟨rfl, rfl, fun _ => trivial⟩)
    · cases h
      exact timed_nil _ _
  · cases h
    exact timed_nil _ _
  · cases h

/-- **What an action does to the pool**, by its clock reading. -/
theorem step_timed {env : Env} {s s' : State} {a : Act} (h : step env s a = some s') :
    ∃ ops, s'.ops = s.ops ++ ops ∧ Timed env.config a ops := by
  cases a with
  | screen input =>
    cases h
    exact ⟨[], (List.append_nil _).symm, timed_nil _ _⟩
  | callStep i now =>
    obtain ⟨c, hc, h⟩ := Option.bind_eq_some_iff.mp h
    obtain ⟨r, hr, rfl⟩ := Option.map_eq_some_iff.mp h
    exact ⟨r.1, rfl, advance_timed hr⟩
  | submitCollect now =>
    cases h
    exact ⟨_, rfl, timed_resolve rfl⟩
  | submitGroup i now =>
    obtain ⟨group, hg, rfl⟩ := Option.map_eq_some_iff.mp h
    dsimp only
    split
    · exact ⟨_, rfl, timed_resolve rfl⟩
    · exact ⟨_, rfl, timed_resolve rfl⟩
  | submitReply i reply now =>
    obtain ⟨expected, he, rfl⟩ := Option.map_eq_some_iff.mp h
    cases reply with
    | none => exact ⟨_, rfl, timed_resolve rfl⟩
    | some accepted =>
      refine ⟨[.applySubmitResponse accepted expected env.config now], rfl, timed_at rfl ?_⟩
      intro op hop
      rw [List.mem_singleton.mp hop]
      exact ⟨rfl, rfl, fun _ => trivial⟩
  | queryStart now =>
    simp only [step] at h
    split at h
    · cases h
      exact ⟨_, rfl, timed_resolve rfl⟩
    · cases h
      exact ⟨_, rfl, timed_resolve rfl⟩
  | queryReply i reply now =>
    obtain ⟨task, ht, h⟩ := Option.bind_eq_some_iff.mp h
    dsimp only at h
    split at h
    · cases h
    · cases reply with
      | none =>
        cases h
        exact ⟨_, rfl, timed_resolve rfl⟩
      | some rows =>
        cases h
        refine ⟨_, rfl, timed_at rfl ?_⟩
        intro op hop
        obtain ⟨row, -, rfl⟩ := List.mem_map.mp hop
        exact ⟨rfl, rfl, fun _ => trivial⟩
  | timeoutTick now =>
    cases h
    refine ⟨_, rfl, ?_, ?_⟩
    · intro t ht op hop
      have hnow := ht now rfl
      rcases List.mem_pair.mp hop with rfl | rfl
      · exact ⟨fun n hn => by cases hn; exact hnow, fun _ _ heq => by cases heq⟩
      · exact ⟨fun n hn => by cases hn; exact hnow, fun _ _ heq => by cases heq⟩
    · intro e he op hop
      rcases List.mem_pair.mp hop with rfl | rfl
      · trivial
      · exact he
  | installRules rules =>
    cases h
    exact ⟨[], (List.append_nil _).symm, timed_nil _ _⟩
  | removeCanonical hashes =>
    cases h
    exact ⟨_, rfl, timed_removal rfl rfl (fun _ he => he)⟩
  | recoverLag =>
    cases h
    exact ⟨_, rfl, timed_removal rfl rfl (fun _ he => he)⟩
  | removeNonTerminal h' g =>
    cases h
    exact ⟨_, rfl, timed_removal rfl rfl (fun _ _ => trivial)⟩
  | emit i =>
    obtain ⟨event, he, rfl⟩ := Option.map_eq_some_iff.mp h
    exact ⟨[], (List.append_nil _).symm, timed_nil _ _⟩

/-! ## Runs -/

/-- **Nothing is overdue as of a tick** from then on. -/
theorem inTime_after_tick {env : Env} {s₀ s₁ s : State} {t : Nat} {more : List Act}
    (htick : step env s₀ (.timeoutTick t) = some s₁) (hrun : runFrom (step env) s₁ more = some s)
    (hclock : ∀ a ∈ more, ∀ now, a.time = some now → t ≤ now) :
    s.pool.InTime env.config t := by
  cases htick
  refine @runFrom_induction _ _ (step env)
    (fun acts s => (∀ a ∈ acts, ∀ now, a.time = some now → t ≤ now) → s.pool.InTime env.config t)
    _ ?_ ?_ more s hrun hclock
  · intro _
    exact tick_inTime env.config t s₀.ops
  · intro acts s a s' _ ih hstep hclock
    obtain ⟨ops, hops, htimed⟩ := step_timed hstep
    have hbefore := ih (fun b hb => hclock b (List.mem_append_left _ hb))
    rw [State.pool, hops]
    exact inTime_append hbefore (htimed.notBefore t
      (hclock a (List.mem_append_right _ (List.mem_singleton_self a))))

theorem onEntry_spared {op : PoolOp} {e : BufferEntry} (ht : e.status.isTerminal = true)
    (hs : op.Spares e) : op.onEntry e = some e := by
  cases ho : op.onEntry e with
  | some e' => rw [onEntry_terminal ht ho]
  | none =>
    rcases onEntry_none ho with ⟨hashes, rfl, hmem⟩ | ⟨rfl, hne⟩ | ⟨-, hf⟩ |
      ⟨secs, now, rfl, -, hold⟩
    · exact absurd hmem hs
    · exact absurd hs hne
    · rw [ht] at hf
      cases hf
    · have hnow : now ≤ e.lastTransitionAt + secs := hs
      omega

theorem get_spared {ops more : List PoolOp} {h : B256} {e : BufferEntry}
    (he : (poolAfter ops).get h = some e) (ht : e.status.isTerminal = true)
    (hmore : ∀ op ∈ more, op.Spares e) : (poolAfter (ops ++ more)).get h = some e := by
  induction more using List.reverseRecOn with
  | nil => rwa [List.append_nil]
  | append_singleton more op ih =>
    have hbefore := ih (fun x hx => hmore x (List.mem_append_left _ hx))
    rw [← List.append_assoc, poolAfter_concat, PoolOp.get_apply, hbefore]
    exact onEntry_spared ht (hmore op (List.mem_append_right _ (List.mem_singleton_self op)))

/-- **A tombstone is kept** as it is by everything that spares it. -/
theorem tombstone_kept {env : Env} {s₁ s : State} {more : List Act} {h : B256} {e : BufferEntry}
    (he : s₁.pool.get h = some e) (ht : e.status.isTerminal = true)
    (hrun : runFrom (step env) s₁ more = some s) (hspares : ∀ a ∈ more, a.Spares env.config e) :
    s.pool.get h = some e := by
  refine @runFrom_induction _ _ (step env)
    (fun acts s => (∀ a ∈ acts, a.Spares env.config e) → s.pool.get h = some e)
    _ (fun _ => he) ?_ more s hrun hspares
  intro acts s a s' _ ih hstep hspares
  obtain ⟨ops, hops, htimed⟩ := step_timed hstep
  have hbefore := ih (fun b hb => hspares b (List.mem_append_left _ hb))
  rw [State.pool, hops]
  exact get_spared hbefore ht (htimed.spares e
    (hspares a (List.mem_append_right _ (List.mem_singleton_self a))))

/-- **Waiting entries and tombstones over time**, for a filter started from the command line and
    every run of its workers and calls.  As of any tick nothing waits past the retry deadline, and
    no tombstone is older than its retention, whatever happened since at clock readings that are not
    before it; a tombstone is kept until then, for longer than any transaction waits, and before
    execution its transaction is never taken for a new one. -/
theorem lifecycles_in_time {args : RcsFilterArgs} {c : FilterSettings} {abi : Abi}
    {acts : List Act} {s : State} (hc : buildRcsFilterConfig args = .ok (some c))
    (hrun : run ⟨abi, c.worker⟩ State.new acts = some s) :
    c.worker.totalRetryTimeout < c.worker.terminalEntryRetention ∧
    (∀ pre t more, acts = pre ++ .timeoutTick t :: more →
      (∀ a ∈ more, ∀ now, a.time = some now → t ≤ now) → s.pool.InTime c.worker t) ∧
    ∀ pre s₁ more h e, acts = pre ++ more → run ⟨abi, c.worker⟩ State.new pre = some s₁ →
      s₁.pool.get h = some e → e.status.isTerminal = true →
      (∀ a ∈ more, a.Spares c.worker e) →
      s.pool.get h = some e ∧
        preScreen s.pool h = if e.status = .dropped then .drop else .execute := by
  refine ⟨(buildRcsFilterConfig_usable hc).2, ?_, ?_⟩
  · rintro pre t more rfl hclock
    rw [run_append, Option.bind_eq_some_iff] at hrun
    obtain ⟨s₀, -, hrun⟩ := hrun
    obtain ⟨s₁, htick, hmore⟩ := Option.bind_eq_some_iff.mp hrun
    rw [run_eq_runFrom] at hmore
    exact inTime_after_tick htick hmore hclock
  · rintro pre s₁ more h e rfl h₁ he ht hspares
    rw [run_append, h₁, Option.bind_some, run_eq_runFrom] at hrun
    have hkept := tombstone_kept he ht hrun hspares
    refine ⟨hkept, ?_⟩
    rw [preScreen, hkept, Option.map_some]
    cases hst : e.status with
    | timedOutAllow | dropped => rfl
    | notSubmitted | submitted | pending | approved =>
      rw [hst] at ht
      cases ht

section Sample

/-- A transaction is denied at time 4, and a tick at time 200 keeps its tombstone. -/
theorem deniedRun_kept :
    ∃ s, run ⟨transferAbi, enabledSettings.worker⟩ State.new (deniedRun ++ [.timeoutTick 200]) =
      some s ∧ preScreen s.pool transferInput.txHash = .drop := by
  have hsum : (run ⟨transferAbi, enabledSettings.worker⟩ State.new deniedRun).bind (fun s =>
      (s.pool.get transferInput.txHash).map (fun e => (e.status, e.lastTransitionAt))) =
      some (.dropped, 4) := by decide +kernel
  obtain ⟨s₁, h₁, hget⟩ := Option.bind_eq_some_iff.mp hsum
  obtain ⟨e, he, hboth⟩ := Option.map_eq_some_iff.mp hget
  obtain ⟨hstatus, hlast⟩ := Prod.mk.inj hboth
  have hrun : run ⟨transferAbi, enabledSettings.worker⟩ State.new
      (deniedRun ++ [.timeoutTick 200]) = (step ⟨transferAbi, enabledSettings.worker⟩ s₁
        (.timeoutTick 200)) := by
    rw [run_append, h₁]
    rfl
  obtain ⟨s, hs⟩ : ∃ s, step ⟨transferAbi, enabledSettings.worker⟩ s₁ (.timeoutTick 200) = some s :=
    ⟨_, rfl⟩
  rw [hs] at hrun
  have hkept := ((lifecycles_in_time enabledArgs_build hrun).2.2 deniedRun s₁ [.timeoutTick 200]
    transferInput.txHash e rfl h₁ he (by rw [hstatus]; rfl) (by
      intro a ha
      rw [List.mem_singleton.mp ha]
      change 200 ≤ e.lastTransitionAt + enabledSettings.worker.terminalEntryRetention
      rw [hlast]
      decide +kernel)).2
  rw [hstatus, if_pos rfl] at hkept
  exact ⟨s, hrun, hkept⟩

end Sample

end XLayerReth.RcsFilter
