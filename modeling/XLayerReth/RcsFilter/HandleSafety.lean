import XLayerReth.RcsFilter.Handle
import XLayerReth.RcsFilter.MatchingSpec

/-!
# Packaging safety of the filter

What a `screen_tx` call may return, in every interleaving with the other calls, the workers, the
rule installs and the cleanups.

* `Confirmed` — the evidence behind `AuditApproved`: the entry of the generation that the call
  found was still there, released or approved, at the last section that looks at it.
* `Cleared` — the evidence behind `Allow`: no entry at the last section, and rules that allow.
* `PhaseInv` — what a call knows at each phase, kept by each of its steps (`advance_inv`).

Principal result: `screening_safe`, about every run.
-/

set_option autoImplicit false

namespace XLayerReth.RcsFilter

open Lib

/-! ## What a step does -/

/-- **One step**: pool operations are only appended, and a call changes only by a step of its
    own. -/
theorem step_calls {env : Env} {s s' : State} {a : Act} (h : step env s a = some s') :
    s.ops <+: s'.ops ∧
      ((∃ input, a = .screen input ∧ s'.calls = s.calls ++ [Call.start input]) ∨
       (∃ i now c r, a = .callStep i now ∧ s.calls[i]? = some c ∧
          c.advance env s.ops s.rules now = some r ∧ s'.ops = s.ops ++ r.1 ∧
          s'.calls = s.calls.set i r.2) ∨
       s'.calls = s.calls) := by
  cases a with
  | screen input =>
    cases h
    exact ⟨List.prefix_rfl, .inl ⟨input, rfl, rfl⟩⟩
  | callStep i now =>
    obtain ⟨c, hc, h⟩ := Option.bind_eq_some_iff.mp h
    obtain ⟨r, hr, rfl⟩ := Option.map_eq_some_iff.mp h
    exact ⟨List.prefix_append _ _, .inr (.inl ⟨i, now, c, r, rfl, hc, hr, rfl, rfl⟩)⟩
  | submitGroup i now =>
    obtain ⟨group, hg, rfl⟩ := Option.map_eq_some_iff.mp h
    dsimp only
    split
    · exact ⟨List.prefix_append _ _, .inr (.inr rfl)⟩
    · exact ⟨List.prefix_append _ _, .inr (.inr rfl)⟩
  | submitReply i reply now =>
    obtain ⟨expected, he, rfl⟩ := Option.map_eq_some_iff.mp h
    cases reply with
    | none => exact ⟨List.prefix_append _ _, .inr (.inr rfl)⟩
    | some accepted => exact ⟨List.prefix_append _ _, .inr (.inr rfl)⟩
  | queryStart now =>
    simp only [step] at h
    split at h
    · cases h
      exact ⟨List.prefix_append _ _, .inr (.inr rfl)⟩
    · cases h
      exact ⟨List.prefix_append _ _, .inr (.inr rfl)⟩
  | queryReply i reply now =>
    obtain ⟨task, ht, h⟩ := Option.bind_eq_some_iff.mp h
    dsimp only at h
    split at h
    · cases h
    · cases reply with
      | none =>
        cases h
        exact ⟨List.prefix_append _ _, .inr (.inr rfl)⟩
      | some rows =>
        cases h
        exact ⟨List.prefix_append _ _, .inr (.inr rfl)⟩
  | installRules rules =>
    cases h
    exact ⟨List.prefix_rfl, .inr (.inr rfl)⟩
  | emit i =>
    obtain ⟨event, he, rfl⟩ := Option.map_eq_some_iff.mp h
    exact ⟨List.prefix_rfl, .inr (.inr rfl)⟩
  | submitCollect | timeoutTick | removeCanonical | recoverLag | removeNonTerminal =>
    cases h
    exact ⟨List.prefix_append _ _, .inr (.inr rfl)⟩

/-- A call after a step: as it was, or advanced by a step of its own. -/
theorem step_call {env : Env} {s s' : State} {a : Act} {n : Nat} {c : Call}
    (hstep : step env s a = some s') (hn : s.calls[n]? = some c) :
    s'.calls[n]? = some c ∨
      ∃ now r, a = .callStep n now ∧ c.advance env s.ops s.rules now = some r ∧
        s'.ops = s.ops ++ r.1 ∧ s'.calls[n]? = some r.2 := by
  have hlen : n < s.calls.length := (List.getElem?_eq_some_iff.mp hn).1
  obtain ⟨-, hcalls⟩ := step_calls hstep
  rcases hcalls with ⟨input, -, hcalls⟩ | ⟨i, now, c₀, r, ha, hget, hadv, ho, hcalls⟩ | hcalls
  · left
    rw [hcalls, List.getElem?_append_left hlen, hn]
  · by_cases hi : i = n
    · subst hi
      rw [hn, Option.some.injEq] at hget
      subst hget
      exact .inr ⟨now, r, ha, hadv, ho, by rw [hcalls, List.getElem?_set_self hlen]⟩
    · left
      rw [hcalls, List.getElem?_set_ne hi, hn]
  · left
    rw [hcalls, hn]

/-! ## Evidence behind a verdict -/

/-- The sections of a call that look at the entry: all but the update of the gauges. -/
def Call.consults (c : Call) : List Section := c.sections.filter (fun sec => sec.kind != .metrics)

/-- The entry of the call's transaction at one of its sections. -/
def Call.entryAt (c : Call) (sec : Section) : Option BufferEntry := sec.entry c.input.txHash

/-- At the last section that looks at the entry, the pool holds the generation read at the
    section that found it, and the entry is released, or approved and consistent. -/
def Confirmed (env : Env) (c : Call) : Prop :=
  ∃ found last e₀ e₁,
    c.consults.find? (fun sec => (c.entryAt sec).isSome) = some found ∧
    c.entryAt found = some e₀ ∧ c.consults.getLast? = some last ∧ c.entryAt last = some e₁ ∧
    found.ops <+: last.ops ∧ e₁.generation = e₀.generation ∧
    (e₁.status = .timedOutAllow ∨ (e₁.status = .approved ∧
      consistentWith env c.input e₀.ruleSnapshot e₀.quotaConsistencyHash = true))

/-- The pool holds no entry at the last section, and the rules the call read allow the
    transaction. -/
def Cleared (env : Env) (c : Call) : Prop :=
  ∃ last rules, c.sections.getLast? = some last ∧ c.entryAt last = none ∧
    c.rulesRead = some rules ∧
    evaluateChecked env.abi rules c.input env.config.maxEventBindingsPerTx = .ok .allow

/-- The call has found no entry at its only section so far. -/
def FoundNone (c : Call) : Prop :=
  ∃ ops, c.sections = [⟨.lookup, ops⟩] ∧ (poolAfter ops).get c.input.txHash = none

/-- What a call knows at each phase. -/
def PhaseInv (env : Env) (c : Call) : Prop :=
  match c.phase with
  | .lookup => c.sections = []
  | .readRules => FoundNone c
  | .insert _ _ _ => FoundNone c
  | .recheck => FoundNone c ∧ ∃ rules, c.rulesRead = some rules ∧
      evaluateChecked env.abi rules c.input env.config.maxEventBindingsPerTx = .ok .allow
  | .confirm status storedHash generation ruleSnapshot =>
    ∃ pre found e₀, c.sections = pre ++ [found] ∧
      (∀ sec ∈ pre, sec.kind ≠ .metrics ∧ c.entryAt sec = none) ∧ found.kind ≠ .metrics ∧
      c.entryAt found = some e₀ ∧ status = e₀.status ∧ storedHash = e₀.quotaConsistencyHash ∧
      generation = e₀.generation ∧ ruleSnapshot = e₀.ruleSnapshot
  | .metrics r => r ≠ .allow ∧ (r = .auditApproved → Confirmed env c)
  | .done r => (r = .allow → Cleared env c) ∧ (r = .auditApproved → Confirmed env c)

/-- The sections of a call saw pools of this very run. -/
def SectionsInv (ops : List PoolOp) (c : Call) : Prop := ∀ sec ∈ c.sections, sec.ops <+: ops

theorem consults_after (c : Call) (kind : SectionKind) (ops : List PoolOp) (phase : Phase) :
    (c.after kind ops phase).consults =
      c.consults ++ if kind = .metrics then [] else [⟨kind, ops⟩] := by
  unfold Call.consults Call.after
  rw [List.filter_append]
  cases kind <;> rfl

/-- The gauges do not change the evidence. -/
theorem confirmed_metrics {env : Env} {c : Call} (h : Confirmed env c) (ops : List PoolOp)
    (phase : Phase) : Confirmed env (c.after .metrics ops phase) := by
  unfold Confirmed
  rw [consults_after, if_pos rfl, List.append_nil]
  exact h

/-- A confirming section that finds the entry in a releasing status is the evidence. -/
theorem confirmed_of_confirm {env : Env} {c : Call} {pre : List Section} {found : Section}
    {e₀ e₁ : BufferEntry} {ops : List PoolOp} (phase : Phase)
    (hsec : c.sections = pre ++ [found])
    (hpre : ∀ sec ∈ pre, sec.kind ≠ .metrics ∧ c.entryAt sec = none)
    (hkind : found.kind ≠ .metrics) (h₀ : c.entryAt found = some e₀)
    (hops : found.ops <+: ops) (h₁ : (poolAfter ops).get c.input.txHash = some e₁)
    (hgen : e₁.generation = e₀.generation)
    (hok : e₁.status = .timedOutAllow ∨ (e₁.status = .approved ∧
      consistentWith env c.input e₀.ruleSnapshot e₀.quotaConsistencyHash = true)) :
    Confirmed env (c.after .confirm ops phase) := by
  have hcons : c.consults = pre ++ [found] := by
    unfold Call.consults
    rw [hsec, List.filter_eq_self]
    intro sec hs
    rcases List.mem_append.mp hs with hs | hs
    · simpa using (hpre sec hs).1
    · rw [List.mem_singleton.mp hs]
      simpa using hkind
  refine ⟨found, ⟨.confirm, ops⟩, e₀, e₁, ?_, h₀, ?_, h₁, hops, hgen, hok⟩
  · have hnone : pre.find? (fun sec => (c.entryAt sec).isSome) = none := by
      rw [List.find?_eq_none]
      intro sec hs
      simp [(hpre sec hs).2]
    rw [consults_after, hcons, List.append_assoc, List.find?_append]
    have heq : (fun sec => ((c.after .confirm ops phase).entryAt sec).isSome) =
        fun sec => (c.entryAt sec).isSome := rfl
    rw [heq, hnone, Option.none_or]
    simp [h₀]
  · rw [consults_after, if_neg (by decide), List.getLast?_append]
    rfl

theorem matchesStatus_eq {p : BufferPool} {h : B256} {g : Nat} {st : BufferStatus}
    (hm : p.matchesStatus h g st = true) :
    ∃ e, p.get h = some e ∧ e.generation = g ∧ e.status = st := by
  unfold BufferPool.matchesStatus at hm
  split at hm
  · rename_i e he
    simp only [Bool.and_eq_true, beq_iff_eq] at hm
    exact ⟨e, he, hm.1, hm.2⟩
  · cases hm

/-- A consistency check that reports `Approved` leaves an approved entry of the generation. -/
theorem finish_approved {p : BufferPool} {h : B256} {g : Nat} {consistent : Bool} {now : Nat}
    (hf : (p.finishConsistencyCheck h g consistent now).2 = some .approved) :
    ∃ e, (p.finishConsistencyCheck h g consistent now).1.get h = some e ∧ e.generation = g ∧
      e.status = .approved := by
  obtain ⟨e, he, hst⟩ := Option.map_eq_some_iff.mp hf
  obtain ⟨hget, hgen⟩ := BufferPool.lifecycle_eq_some.mp he
  refine ⟨consistencyEntry consistent now e, ?_, ?_, hst⟩
  · rw [BufferPool.get_finishConsistencyCheck, hget, Option.map_some, if_pos ⟨rfl, hgen⟩]
  · rcases consistencyEntry_moves consistent now e with he' | ⟨s, he'⟩ <;> rw [he'] <;> exact hgen

theorem existingPhase_inv {env : Env} {c : Call} {kind : SectionKind} {ops : List PoolOp}
    {e : BufferEntry} (hkind : kind ≠ .metrics)
    (hpre : ∀ sec ∈ c.sections, sec.kind ≠ .metrics ∧ c.entryAt sec = none)
    (he : (poolAfter ops).get c.input.txHash = some e) :
    PhaseInv env (c.after kind ops (existingPhase e)) := by
  unfold existingPhase
  split
  · exact ⟨fun h => (by cases h), fun h => (by cases h)⟩
  · exact ⟨c.sections, ⟨kind, ops⟩, e, rfl, hpre, hkind, he, rfl, rfl, rfl, rfl⟩

theorem FoundNone.all_none {c : Call} (h : FoundNone c) :
    ∀ sec ∈ c.sections, sec.kind ≠ .metrics ∧ c.entryAt sec = none := by
  obtain ⟨ops, hsec, hnone⟩ := h
  intro sec hs
  rw [hsec, List.mem_singleton] at hs
  subst hs
  exact ⟨by simp, hnone⟩

/-- The last section of a call that advanced through a lock saw the pool after its own
    operations. -/
theorem advance_sections {env : Env} {ops : List PoolOp} {rules : RuleSet} {now : Nat}
    {c : Call} {r : List PoolOp × Call} (h : c.advance env ops rules now = some r) :
    r.2.input = c.input ∧ (r.2.sections = c.sections ∨
      ∃ kind, r.2.sections = c.sections ++ [⟨kind, ops ++ r.1⟩]) := by
  unfold Call.advance at h
  dsimp only at h
  split at h
  · split at h
    · cases h
      exact ⟨rfl, .inr ⟨.lookup, by simp [Call.after]⟩⟩
    · cases h
      exact ⟨rfl, .inr ⟨.lookup, by simp [Call.after]⟩⟩
  · cases h
    exact ⟨rfl, .inl rfl⟩
  · split at h
    · cases h
      exact ⟨rfl, .inr ⟨.recheck, by simp [Call.after]⟩⟩
    · cases h
      exact ⟨rfl, .inr ⟨.recheck, by simp [Call.after]⟩⟩
  · cases h
    exact ⟨rfl, .inr ⟨.insert, rfl⟩⟩
  · split at h
    · cases h
      exact ⟨rfl, .inr ⟨.confirm, by simp [Call.after]⟩⟩
    · cases h
      exact ⟨rfl, .inr ⟨.confirm, by simp [Call.after]⟩⟩
    · cases h
      exact ⟨rfl, .inr ⟨.confirm, rfl⟩⟩
    · cases h
      exact ⟨rfl, .inl rfl⟩
  · cases h
    exact ⟨rfl, .inr ⟨.metrics, by simp [Call.after]⟩⟩
  · cases h

theorem SectionsInv.advance {env : Env} {ops : List PoolOp} {rules : RuleSet} {now : Nat}
    {c : Call} {r : List PoolOp × Call} (hs : SectionsInv ops c)
    (h : c.advance env ops rules now = some r) : SectionsInv (ops ++ r.1) r.2 := by
  obtain ⟨-, hsec | ⟨kind, hsec⟩⟩ := advance_sections h
  · intro sec hm
    rw [hsec] at hm
    exact (hs sec hm).trans (List.prefix_append _ _)
  · intro sec hm
    rw [hsec] at hm
    rcases List.mem_append.mp hm with hm | hm
    · exact (hs sec hm).trans (List.prefix_append _ _)
    · rw [List.mem_singleton.mp hm]

theorem consistencyVerdict_ne_allow (consistent : Bool) (status : Option BufferStatus) :
    consistencyVerdict consistent status ≠ .allow := by
  unfold consistencyVerdict
  split
  · split <;> decide
  · decide
  · decide

theorem consistencyVerdict_approved {consistent : Bool} {status : Option BufferStatus}
    (h : consistencyVerdict consistent status = .auditApproved) :
    consistent = true ∧ status = some .approved := by
  unfold consistencyVerdict at h
  split at h
  · split at h
    · rename_i hcons
      exact ⟨hcons, rfl⟩
    · cases h
  · cases h
  · cases h

/-- The confirmation returns `AuditApproved` only for the entry that was found. -/
theorem advance_confirm_inv {env : Env} {ops : List PoolOp} {rules : RuleSet} {now : Nat}
    {c : Call} {r : List PoolOp × Call} {status : BufferStatus} {storedHash : B256}
    {generation : Nat} {ruleSnapshot : RuleSet}
    (hph : c.phase = .confirm status storedHash generation ruleSnapshot) (hp : PhaseInv env c)
    (hs : SectionsInv ops c) (h : c.advance env ops rules now = some r) : PhaseInv env r.2 := by
  unfold PhaseInv at hp
  rw [hph] at hp
  obtain ⟨pre, found, e₀, hsec, hpre, hkind, h₀, hst, hhash, hgen, hsnap⟩ := hp
  have hfound : found.ops <+: ops := hs found (by rw [hsec]; simp)
  simp only [Call.advance, hph] at h
  split at h
  · cases h
    refine ⟨fun h => ?_, fun h => ?_⟩
    · split at h <;> cases h
    · split at h
      · rename_i hm
        obtain ⟨e₁, h₁, hg₁, hs₁⟩ := matchesStatus_eq hm
        exact confirmed_of_confirm _ hsec hpre hkind h₀ hfound h₁ (hg₁.trans hgen) (.inl hs₁)
      · cases h
  · cases h
    refine ⟨fun h => ?_, fun h => ?_⟩
    · split at h <;> cases h
    · split at h <;> cases h
  · cases h
    refine ⟨consistencyVerdict_ne_allow _ _, fun h => ?_⟩
    obtain ⟨hcons, hfin⟩ := consistencyVerdict_approved h
    obtain ⟨e₁, h₁, hg₁, hs₁⟩ := finish_approved hfin
    refine confirmed_of_confirm _ hsec hpre hkind h₀ (hfound.trans (List.prefix_append _ _)) ?_
      (hg₁.trans hgen) (.inr ⟨hs₁, ?_⟩)
    · rw [poolAfter_concat]
      exact h₁
    · rw [← hsnap, ← hhash]
      exact hcons
  · cases h
    exact ⟨fun h => (by cases h), fun h => (by cases h)⟩

/-- **A step of a call keeps what it knows.** -/
theorem advance_inv {env : Env} {ops : List PoolOp} {rules : RuleSet} {now : Nat} {c : Call}
    {r : List PoolOp × Call} (hp : PhaseInv env c) (hs : SectionsInv ops c)
    (h : c.advance env ops rules now = some r) : PhaseInv env r.2 := by
  cases hph : c.phase with
  | lookup =>
    have hfirst : c.sections = [] := by simpa [PhaseInv, hph] using hp
    simp only [Call.advance, hph] at h
    split at h
    · rename_i e he
      cases h
      exact existingPhase_inv (by decide) (by simp [hfirst]) he
    · rename_i he
      cases h
      exact ⟨ops, by simp [Call.after, hfirst], he⟩
  | readRules =>
    have hnone : FoundNone c := by simpa [PhaseInv, hph] using hp
    simp only [Call.advance, hph, Option.some.injEq] at h
    subst h
    unfold PhaseInv
    dsimp only
    cases ho : evaluateChecked env.abi rules c.input env.config.maxEventBindingsPerTx with
    | error e => exact ⟨fun h => (by cases h), fun h => (by cases h)⟩
    | ok outcome =>
      cases outcome with
      | allow => exact ⟨hnone, rules, rfl, ho⟩
      | deny => exact ⟨fun h => (by cases h), fun h => (by cases h)⟩
      | audit actions timeoutAction => exact hnone
  | recheck =>
    unfold PhaseInv at hp
    rw [hph] at hp
    obtain ⟨hnone, rules', hrules, heval⟩ := hp
    simp only [Call.advance, hph] at h
    split at h
    · rename_i e he
      cases h
      exact existingPhase_inv (by decide) hnone.all_none he
    · rename_i he
      cases h
      refine ⟨fun _ => ⟨⟨.recheck, ops⟩, rules', ?_, he, hrules, heval⟩, fun h => (by cases h)⟩
      simp [Call.after]
  | insert rules' actions timeoutAction =>
    simp only [Call.advance, hph, Option.some.injEq] at h
    subst h
    exact ⟨by decide, fun h => (by cases h)⟩
  | confirm status storedHash generation ruleSnapshot => exact advance_confirm_inv hph hp hs h
  | metrics result =>
    unfold PhaseInv at hp
    rw [hph] at hp
    simp only [Call.advance, hph, Option.some.injEq] at h
    subst h
    exact ⟨fun h => absurd h hp.1, fun h => confirmed_metrics (hp.2 h) _ _⟩
  | done result =>
    simp only [Call.advance, hph] at h
    cases h

/-- **Every call of every run knows what its phase says**, and has seen only pools of the run. -/
theorem calls_inv {env : Env} (acts : List Act) : ∀ s, run env State.new acts = some s →
    ∀ c ∈ s.calls, PhaseInv env c ∧ SectionsInv s.ops c := by
  refine run_induction (fun _ s => ∀ c ∈ s.calls, PhaseInv env c ∧ SectionsInv s.ops c)
    (fun c hc => by cases hc) (fun acts s a s' hrun ih hstep c hc => ?_) acts
  obtain ⟨hops, hcalls⟩ := step_calls hstep
  rcases hcalls with ⟨input, -, hcalls⟩ | ⟨i, now, c₀, r, -, hget, hadv, ho, hcalls⟩ | hcalls
  · rw [hcalls] at hc
    rcases List.mem_append.mp hc with hc | hc
    · exact ⟨(ih c hc).1, fun sec hs => ((ih c hc).2 sec hs).trans hops⟩
    · rw [List.mem_singleton.mp hc]
      exact ⟨rfl, fun sec hs => by cases hs⟩
  · rw [hcalls] at hc
    rcases List.mem_or_eq_of_mem_set hc with hc | rfl
    · exact ⟨(ih c hc).1, fun sec hs => ((ih c hc).2 sec hs).trans hops⟩
    · obtain ⟨hp, hs⟩ := ih c₀ (List.mem_of_getElem? hget)
      exact ⟨advance_inv hp hs hadv, ho ▸ hs.advance hadv⟩
  · rw [hcalls] at hc
    exact ⟨(ih c hc).1, fun sec hs => ((ih c hc).2 sec hs).trans hops⟩

theorem result_eq_some {c : Call} {r : Screen} (h : c.result = some r) : c.phase = .done r := by
  unfold Call.result at h
  split at h
  · rename_i hp
    cases h
    exact hp
  · cases h

theorem confirmed_of_result {env : Env} {acts : List Act} {s : State} {c : Call}
    (hrun : run env State.new acts = some s) (hc : c ∈ s.calls)
    (hr : c.result = some .auditApproved) : Confirmed env c := by
  have hp := (calls_inv acts s hrun c hc).1
  unfold PhaseInv at hp
  rw [result_eq_some hr] at hp
  exact hp.2 rfl

theorem cleared_of_result {env : Env} {acts : List Act} {s : State} {c : Call}
    (hrun : run env State.new acts = some s) (hc : c ∈ s.calls)
    (hr : c.result = some .allow) : Cleared env c := by
  have hp := (calls_inv acts s hrun c hc).1
  unfold PhaseInv at hp
  rw [result_eq_some hr] at hp
  exact hp.1 rfl

/-- Below the wrap of the generation counter, the snapshot and hash the call read are those of
    the entry it confirmed. -/
theorem confirmed_own_snapshot {env : Env} {c : Call} {ops : List PoolOp}
    (hconf : Confirmed env c) (hsec : SectionsInv ops c) (hc : insertCount ops < 2 ^ 64) :
    ∃ last e₁, c.consults.getLast? = some last ∧ c.entryAt last = some e₁ ∧
      (e₁.status = .timedOutAllow ∨ (e₁.status = .approved ∧
        consistentWith env c.input e₁.ruleSnapshot e₁.quotaConsistencyHash = true)) := by
  obtain ⟨found, last, e₀, e₁, -, h₀, hlast, h₁, ⟨more, hmore⟩, hgen, hok⟩ := hconf
  refine ⟨last, e₁, hlast, h₁, ?_⟩
  have hmem : last ∈ c.sections := List.mem_of_mem_filter (List.mem_of_getLast? hlast)
  have hcount : insertCount (found.ops ++ more) < 2 ^ 64 := by
    obtain ⟨rest, hrest⟩ := hsec last hmem
    rw [← hrest, insertCount_append] at hc
    rw [hmore]
    omega
  have hsame := same_lifecycle found.ops more hcount
    (BufferPool.lifecycle_eq_some.mpr ⟨h₀, rfl⟩)
    (BufferPool.lifecycle_eq_some.mpr ⟨by rw [hmore]; exact h₁, hgen⟩)
  rcases hok with hok | ⟨hst, hok⟩
  · exact .inl hok
  · refine .inr ⟨hst, ?_⟩
    rw [hsame]
    exact hok

/-! ## An entry that is held during a whole call -/

/-- The statuses under which a transaction must not be packaged. -/
def BufferStatus.isHeld : BufferStatus → Bool
  | .notSubmitted | .submitted | .pending | .dropped => true
  | _ => false

/-- The pool holds the transaction in a held status. -/
def HeldIn (p : BufferPool) (h : B256) : Prop := ∃ e, p.get h = some e ∧ e.status.isHeld = true

/-- Every section of the call saw the entry held. -/
def SawHeld (c : Call) : Prop := ∀ sec ∈ c.sections, HeldIn (poolAfter sec.ops) c.input.txHash

theorem sawHeld_step {env : Env} {s s' : State} {a : Act} {n : Nat} {c : Call}
    (hstep : step env s a = some s') (hn : s.calls[n]? = some c) (hsaw : SawHeld c)
    (hheld : HeldIn s'.pool c.input.txHash) :
    ∃ c', s'.calls[n]? = some c' ∧ c'.input = c.input ∧ SawHeld c' := by
  rcases step_call hstep hn with hsame | ⟨now, r, -, hadv, hops, hr⟩
  · exact ⟨c, hsame, rfl, hsaw⟩
  · obtain ⟨hinput, hsec⟩ := advance_sections hadv
    refine ⟨r.2, hr, hinput, ?_⟩
    unfold SawHeld
    rw [hinput]
    rcases hsec with hsec | ⟨kind, hsec⟩
    · rw [hsec]
      exact hsaw
    · intro sec hm
      rw [hsec] at hm
      rcases List.mem_append.mp hm with hm | hm
      · exact hsaw sec hm
      · rw [List.mem_singleton.mp hm]
        unfold State.pool at hheld
        rw [hops] at hheld
        exact hheld

theorem sawHeld_run {env : Env} {s : State} {input : ScreenInput} (mid : List Act) :
    ∀ t, run env { s with calls := s.calls ++ [Call.start input] } mid = some t →
      (∀ mid' t', mid' <+: mid →
        run env { s with calls := s.calls ++ [Call.start input] } mid' = some t' →
        HeldIn t'.pool input.txHash) →
      ∃ c, t.calls[s.calls.length]? = some c ∧ c.input = input ∧ SawHeld c := by
  refine run_induction
    (fun mid t => (∀ mid' t', mid' <+: mid →
        run env { s with calls := s.calls ++ [Call.start input] } mid' = some t' →
        HeldIn t'.pool input.txHash) →
      ∃ c, t.calls[s.calls.length]? = some c ∧ c.input = input ∧ SawHeld c)
    ?_ ?_ mid
  · intro _
    exact ⟨Call.start input, by simp, rfl, fun sec hs => by cases hs⟩
  · intro acts t a t' hrun ih hstep hheld
    obtain ⟨c, hc, hinput, hsaw⟩ := ih (fun mid' u hp hu =>
      hheld mid' u (hp.trans (List.prefix_append _ _)) hu)
    have hnow : HeldIn t'.pool input.txHash := by
      refine hheld (acts ++ [a]) t' List.prefix_rfl ?_
      rw [run_append, hrun, Option.bind_some, run, hstep]
      rfl
    obtain ⟨c', hc', hi', hsaw'⟩ := sawHeld_step hstep hc hsaw (hinput ▸ hnow)
    exact ⟨c', hc', hi'.trans hinput, hsaw'⟩

theorem not_released_of_held {env : Env} {c : Call} (hsaw : SawHeld c) :
    ¬ Confirmed env c ∧ ¬ Cleared env c := by
  refine ⟨?_, ?_⟩
  · rintro ⟨found, last, e₀, e₁, -, -, hlast, h₁, -, -, hok⟩
    have hmem : last ∈ c.sections := List.mem_of_mem_filter (List.mem_of_getLast? hlast)
    obtain ⟨e, he, hheld⟩ := hsaw last hmem
    rw [show (poolAfter last.ops).get c.input.txHash = some e₁ from h₁, Option.some.injEq] at he
    subst he
    rcases hok with hok | ⟨hok, -⟩ <;> rw [hok] at hheld <;> cases hheld
  · rintro ⟨last, rules, hlast, hnone, -, -⟩
    obtain ⟨e, he, -⟩ := hsaw last (List.mem_of_getLast? hlast)
    rw [show (poolAfter last.ops).get c.input.txHash = none from hnone] at he
    cases he

/-! ## Packaging safety -/

theorem preScreen_exact (p : BufferPool) (h : B256) :
    (preScreen p h = .defer ↔ ∃ e, p.get h = some e ∧ e.status.isRetryable = true) ∧
      (preScreen p h = .drop ↔ ∃ e, p.get h = some e ∧ e.status = .dropped) ∧
      (preScreen p h = .execute ↔ p.get h = none ∨
        ∃ e, p.get h = some e ∧ (e.status = .approved ∨ e.status = .timedOutAllow)) := by
  unfold preScreen
  cases hp : p.get h with
  | none => simp
  | some e => cases hs : e.status <;> simp [hs, BufferStatus.isRetryable]

/-- **Packaging safety**, in every run: (a) `AuditApproved` is returned only on the evidence of
    `Confirmed`, and below the wrap of the generation counter for the entry's own snapshot and
    hash; (b) `Allow` only on that of `Cleared`; (c) a call during which the entry is held all
    the time returns neither; (d) `preScreen` defers, drops and executes exactly by status. -/
theorem screening_safe (env : Env) (acts : List Act) (s : State)
    (hrun : run env State.new acts = some s) :
    (∀ c ∈ s.calls, c.result = some .auditApproved → Confirmed env c ∧
      (insertCount s.ops < 2 ^ 64 → ∃ last e₁, c.consults.getLast? = some last ∧
        c.entryAt last = some e₁ ∧ (e₁.status = .timedOutAllow ∨ (e₁.status = .approved ∧
          consistentWith env c.input e₁.ruleSnapshot e₁.quotaConsistencyHash = true)))) ∧
    (∀ c ∈ s.calls, c.result = some .allow → Cleared env c) ∧
    (∀ input mid t, run env s (.screen input :: mid) = some t →
      (∀ mid' t', mid' <+: mid → run env s (.screen input :: mid') = some t' →
        HeldIn t'.pool input.txHash) →
      ∀ c r, t.calls[s.calls.length]? = some c → c.result = some r →
        r ≠ .allow ∧ r ≠ .auditApproved) ∧
    (∀ h, (preScreen s.pool h = .defer ↔
        ∃ e, s.pool.get h = some e ∧ e.status.isRetryable = true) ∧
      (preScreen s.pool h = .drop ↔ ∃ e, s.pool.get h = some e ∧ e.status = .dropped) ∧
      (preScreen s.pool h = .execute ↔ s.pool.get h = none ∨
        ∃ e, s.pool.get h = some e ∧ (e.status = .approved ∨ e.status = .timedOutAllow))) := by
  refine ⟨fun c hc hr => ?_, fun c hc hr => cleared_of_result hrun hc hr, ?_,
    preScreen_exact s.pool⟩
  · have hconf := confirmed_of_result hrun hc hr
    exact ⟨hconf, confirmed_own_snapshot hconf (calls_inv acts s hrun c hc).2⟩
  · intro input mid t ht hheld c r hc hr
    obtain ⟨c', hc', -, hsaw⟩ := sawHeld_run mid t ht hheld
    rw [hc, Option.some.injEq] at hc'
    subst hc'
    obtain ⟨hnconf, hnclear⟩ := @not_released_of_held env c hsaw
    have hall : run env State.new (acts ++ Act.screen input :: mid) = some t := by
      rw [run_append, hrun]
      exact ht
    have hmem : c ∈ t.calls := List.mem_of_getElem? hc
    refine ⟨?_, ?_⟩
    · rintro rfl
      exact hnclear (cleared_of_result hall hmem hr)
    · rintro rfl
      exact hnconf (confirmed_of_result hall hmem hr)

section Runs

/-- A filter with the transfer rule's ABI and the default time limits. -/
def transferEnv : Env := ⟨transferAbi, ⟨8, 8, 20, 60, 300, 10000⟩⟩

/-- The transfer rule, loaded. -/
def transferRules : RuleSet := loadRules transferAbi 1 1 [transferRule]

/-- One transaction is buffered under the transfer rule, submitted and approved. -/
def approveActs (call : Nat) : List Act :=
  [.screen transferInput, .callStep call 0, .callStep call 0, .callStep call 0, .callStep call 0,
    .submitCollect 1, .submitGroup 0 1, .submitReply 0 (some [transferInput.txHash.lowerHex]) 2,
    .queryStart 3, .queryReply 0 (some []) 3,
    .queryReply 0 (some [⟨transferInput.txHash.lowerHex, "approved"⟩]) 4]

/-- A call that finds the approved entry at its first lookup. -/
def packagedRun : List Act :=
  .installRules transferRules :: approveActs 0 ++
    [.screen transferInput, .callStep 1 5, .callStep 1 5, .callStep 1 5]

theorem screening_safe_packaged :
    ∃ s c, run transferEnv State.new packagedRun = some s ∧ c ∈ s.calls ∧
      c.result = some .auditApproved ∧ Confirmed transferEnv c := by
  have hsum : (run transferEnv State.new packagedRun).map (fun s => s.calls.map Call.result) =
      some [some .auditPending, some .auditApproved] := by decide +kernel
  obtain ⟨s, hs, hcalls⟩ := Option.map_eq_some_iff.mp hsum
  have hmem : some Screen.auditApproved ∈ s.calls.map Call.result := by rw [hcalls]; simp
  obtain ⟨c, hc, hr⟩ := List.mem_map.mp hmem
  exact ⟨s, c, hs, hc, hr, ((screening_safe transferEnv packagedRun s hs).1 c hc hr).1⟩

/-- A call looks up, finds no entry and evaluates the empty rules; then the rule is installed and
    another call buffers the transaction, which is approved; then the first call re-checks. -/
def lateEntryRun : List Act :=
  [.screen transferInput, .callStep 0 0, .callStep 0 0, .installRules transferRules] ++
    approveActs 1 ++ [.callStep 0 5, .callStep 0 5, .callStep 0 5]

/-- `AuditApproved` is not always about the generation read at the first lock section: a call may
    find the entry only when it re-checks. -/
theorem first_section_differs :
    ¬ ∀ (env : Env) (acts : List Act) (s : State), run env State.new acts = some s →
      ∀ c ∈ s.calls, c.result = some .auditApproved →
        ∃ first last e₀ e₁, c.sections.head? = some first ∧ c.entryAt first = some e₀ ∧
          c.sections.getLast? = some last ∧ c.entryAt last = some e₁ ∧
          e₁.generation = e₀.generation ∧
          (e₁.status = .timedOutAllow ∨ (e₁.status = .approved ∧
            consistentWith env c.input e₁.ruleSnapshot e₁.quotaConsistencyHash = true)) := by
  intro hall
  have hsum : (run transferEnv State.new lateEntryRun).map (fun s => s.calls.map (fun c =>
      (c.result, c.sections.head?.map (fun sec => (c.entryAt sec).isSome)))) =
      some [(some .auditApproved, some false), (some .auditPending, some false)] := by
    decide +kernel
  obtain ⟨s, hs, hcalls⟩ := Option.map_eq_some_iff.mp hsum
  have hmem : ((some Screen.auditApproved, some false) : Option Screen × Option Bool) ∈
      s.calls.map
        (fun c => (c.result, c.sections.head?.map (fun sec => (c.entryAt sec).isSome))) := by
    rw [hcalls]
    simp
  obtain ⟨c, hc, hr⟩ := List.mem_map.mp hmem
  obtain ⟨hres, hfirst⟩ := Prod.mk.inj hr
  obtain ⟨first, last, e₀, e₁, hf, he₀, -⟩ := hall transferEnv lateEntryRun s hs c hc hres
  rw [hf, Option.map_some, he₀] at hfirst
  cases hfirst

end Runs

end XLayerReth.RcsFilter
