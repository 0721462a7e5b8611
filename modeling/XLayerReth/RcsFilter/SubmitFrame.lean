import XLayerReth.RcsFilter.Fencing

/-!
# What a submit request can change

`submit_group` reads the pool before the request and writes it after the response.  Between the
two, the other workers move, expire, remove and insert entries.

* `BufferEntry.timesOut` — the only other thing that may happen to an entry: its deadline.
* `submitGroup_section`, `submitReply_section` — the two lock sections, entry by entry.
* `collectSubmit_mem` — an entry that is still `NotSubmitted` is collected by the next round.

Principal result: `submit_loses_nothing`.
-/

set_option autoImplicit false

namespace XLayerReth.RcsFilter

open Lib

/-! ## The deadline -/

/-- The entry is still waiting for a decision and its retry deadline has passed. -/
def BufferEntry.timesOut (e : BufferEntry) (cfg : FilterConfig) (now : Nat) : Bool :=
  e.status.isRetryable && e.pastDeadline cfg now

theorem resolveTotalTimeout_live {cfg : FilterConfig} {now : Nat} {e : BufferEntry}
    (h : e.timesOut cfg now = false) : resolveTotalTimeout cfg now e = (e, none) := by
  unfold BufferEntry.timesOut at h
  rw [resolveTotalTimeout_eq, h, if_neg Bool.false_ne_true]

theorem submitEntry_live {cfg : FilterConfig} {now : Nat} {e : BufferEntry}
    (h : e.timesOut cfg now = false) (accepted : Bool) :
    (submitEntry cfg now accepted e).1 =
      if accepted = true ∧ e.status = .notSubmitted then e.moveTo .submitted now else e := by
  unfold submitEntry
  rw [resolveTotalTimeout_live h]
  cases accepted <;> by_cases hs : e.status = .notSubmitted <;> simp [hs]

theorem resolveExpired_get (s : State) (env : Env) (now : Nat) (k : B256) :
    (s.resolveExpired env now).pool.get k =
      (s.pool.get k).map (fun e => (resolveTotalTimeout env.config now e).1) := by
  show (poolAfter (s.ops ++ [_])).get k = _
  rw [poolAfter_concat]
  exact BufferPool.get_scan _ _ _ k

/-- Resolving the expired entries leaves the others as they are. -/
theorem resolveExpired_live {s : State} {env : Env} {now : Nat} {k : B256} {e : BufferEntry}
    (he : s.pool.get k = some e) (h : e.timesOut env.config now = false) :
    (s.resolveExpired env now).pool.get k = some e := by
  rw [resolveExpired_get, he, Option.map_some, resolveTotalTimeout_live h]

/-! ## The two lock sections -/

/-- **The request**: exactly the lifecycles of the group that are current and `NotSubmitted`. -/
theorem mem_request {p : BufferPool} {group : List SubmitEntry} {h : B256} {g : Nat} :
    (h, g) ∈ (generationsOf ((group.filter (fun e =>
        p.matchesStatus e.hash e.generation .notSubmitted)).map
          (fun e => (e.hash, e.generation)))).entries ↔
      (∃ entry ∈ group, entry.hash = h ∧ entry.generation = g) ∧
        p.matchesStatus h g .notSubmitted = true := by
  constructor
  · intro hm
    obtain ⟨entry, hentry, heq⟩ := List.mem_map.mp (mem_generationsOf hm)
    obtain ⟨hgroup, hmatch⟩ := List.mem_filter.mp hentry
    cases heq
    exact ⟨⟨entry, hgroup, rfl, rfl⟩, hmatch⟩
  · rintro ⟨⟨entry, hgroup, rfl, rfl⟩, hmatch⟩
    refine mem_generationsOf_of_unique (List.mem_map.mpr ⟨entry, List.mem_filter.mpr
      ⟨hgroup, hmatch⟩, rfl⟩) ?_
    -- every listed lifecycle of the hash is the current one
    intro y hy hhash
    obtain ⟨other, hother, rfl⟩ := List.mem_map.mp hy
    have hhash : other.hash = entry.hash := hhash
    obtain ⟨e, he, hg, -⟩ := matchesStatus_eq hmatch
    obtain ⟨e', he', hg', -⟩ := matchesStatus_eq (List.mem_filter.mp hother).2
    rw [hhash, he] at he'
    cases he'
    rw [← hg, ← hg', hhash]

/-- **The first section** changes no entry but those that time out, and requests exactly the
    lifecycles of the group that are still current and `NotSubmitted`. -/
theorem submitGroup_section {env : Env} {s s' : State} {i now : Nat}
    (hstep : step env s (.submitGroup i now) = some s') :
    ∃ group, s.groups[i]? = some group ∧
      (∀ k, s'.pool.get k =
        (s.pool.get k).map (fun e => (resolveTotalTimeout env.config now e).1)) ∧
      ∃ expected : Generations,
        (∀ h g, (h, g) ∈ expected.entries ↔
          (∃ entry ∈ group, entry.hash = h ∧ entry.generation = g) ∧
            s'.pool.matchesStatus h g .notSubmitted = true) ∧
        s'.requests = if expected.entries = [] then s.requests else s.requests ++ [expected] := by
  obtain ⟨group, hgroup, rfl⟩ := Option.map_eq_some_iff.mp hstep
  refine ⟨group, hgroup, ?_, ?_⟩
  · intro k
    have hget := resolveExpired_get { s with groups := s.groups.eraseIdx i } env now k
    dsimp only
    split
    · exact hget
    · exact hget
  · dsimp only
    generalize hs₁ : State.resolveExpired { s with groups := s.groups.eraseIdx i } env now = s₁
    have hreq : s₁.requests = s.requests := by
      rw [← hs₁]
      rfl
    refine ⟨generationsOf ((group.filter (fun e =>
      s₁.pool.matchesStatus e.hash e.generation .notSubmitted)).map
        (fun e => (e.hash, e.generation))), ?_, ?_⟩
    · intro h g
      rw [mem_request]
      split
      · exact Iff.rfl
      · exact Iff.rfl
    · by_cases hempty : group.filter (fun e =>
          s₁.pool.matchesStatus e.hash e.generation .notSubmitted) = []
      · have hnone : ([] : List SubmitEntry).isEmpty = true := rfl
        have hnil : (generationsOf []).entries = [] := rfl
        rw [hempty, List.map_nil, if_pos hnone, if_pos hnil, hreq]
      · have hnot : (group.filter (fun e =>
            s₁.pool.matchesStatus e.hash e.generation .notSubmitted)).isEmpty = false := by
          simpa [List.isEmpty_eq_false_iff] using hempty
        rw [hnot, if_neg Bool.false_ne_true]
        dsimp only
        rw [hreq, if_neg]
        obtain ⟨entry, hentry⟩ := List.exists_mem_of_ne_nil _ hempty
        obtain ⟨hgroup, hmatch⟩ := List.mem_filter.mp hentry
        have hmem := (mem_request (p := s₁.pool)).mpr ⟨⟨entry, hgroup, rfl, rfl⟩, hmatch⟩
        exact List.ne_nil_of_mem hmem

/-- **The second section**: an entry that does not time out moves to `Submitted` exactly when it
    is `NotSubmitted`, its lifecycle was requested and its hash is accepted, and is left as it is
    otherwise. -/
theorem submitReply_section {env : Env} {s s' : State} {i now : Nat}
    {reply : Option (List String)}
    (hstep : step env s (.submitReply i reply now) = some s') :
    ∃ expected, s.requests[i]? = some expected ∧ ∀ h e, s.pool.get h = some e →
      e.timesOut env.config now = false →
        s'.pool.get h = some (if (h, e.generation) ∈ expected.entries ∧
            e.status = .notSubmitted ∧
            (∃ accepted, reply = some accepted ∧ BufferPool.accepts accepted h = true) then
          e.moveTo .submitted now else e) := by
  obtain ⟨expected, hexp, rfl⟩ := Option.map_eq_some_iff.mp hstep
  refine ⟨expected, hexp, fun h e he hlive => ?_⟩
  cases reply with
  | none =>
    rw [if_neg]
    · exact resolveExpired_live (s := { s with requests := s.requests.eraseIdx i }) he hlive
    · rintro ⟨-, -, accepted, hreply, -⟩
      cases hreply
  | some accepted =>
    have hget : (poolAfter (s.ops ++ [.applySubmitResponse accepted expected env.config now])).get
        h = some (if (h, e.generation) ∈ expected.entries then
          (submitEntry env.config now (BufferPool.accepts accepted h) e).1 else e) := by
      rw [poolAfter_concat]
      show ((poolAfter s.ops).applySubmitResponse accepted expected env.config now).1.get h = _
      rw [BufferPool.get_applySubmitResponse]
      exact congrArg (Option.map _) he
    refine hget.trans (congrArg some ?_)
    rw [submitEntry_live hlive]
    by_cases hmem : (h, e.generation) ∈ expected.entries
    · simp [hmem, and_comm]
    · simp [hmem]

theorem submitReply_isSome {env : Env} {s s' : State} {i now : Nat}
    {reply : Option (List String)} (hstep : step env s (.submitReply i reply now) = some s')
    (h : B256) : (s'.pool.get h).isSome = (s.pool.get h).isSome := by
  obtain ⟨expected, -, rfl⟩ := Option.map_eq_some_iff.mp hstep
  cases reply with
  | none =>
    have hget := resolveExpired_get { s with requests := s.requests.eraseIdx i } env now h
    exact (congrArg Option.isSome hget).trans Option.isSome_map
  | some accepted =>
    have hget := BufferPool.get_applySubmitResponse s.pool accepted expected env.config now h
    show ((poolAfter (s.ops ++ [.applySubmitResponse accepted expected env.config now])).get
      h).isSome = _
    rw [poolAfter_concat]
    exact (congrArg Option.isSome hget).trans Option.isSome_map

/-! ## The next round -/

/-- One hash of `collect_submit`. -/
theorem collect_step {p : BufferPool} {e : BufferEntry} (he : p.get e.txHash = some e) :
    ∀ (l : List B256) (m : OrdMap Nat (List SubmitEntry)),
      (e.txHash ∈ l ∨ ∃ group, m.get? e.blockHeight = some group ∧ submitEntryOf e ∈ group) →
      ∃ group, (l.foldl (fun grouped hash =>
          match p.get hash with
          | some e => grouped.alter e.blockHeight (fun old => old.getD [] ++ [submitEntryOf e])
          | none => grouped) m).get? e.blockHeight = some group ∧ submitEntryOf e ∈ group := by
  intro l
  induction l with
  | nil =>
    intro m h
    exact h.resolve_left (by simp)
  | cons hash l ih =>
    intro m h
    rw [List.foldl_cons]
    by_cases hhash : hash = e.txHash
    · refine ih _ (.inr ?_)
      rw [hhash, he]
      dsimp only
      rw [OrdMap.get?_alter, if_pos rfl]
      exact ⟨_, rfl, List.mem_append_right _ (List.mem_singleton_self _)⟩
    · refine ih _ ?_
      rcases h with h | ⟨group, hgroup, hmem⟩
      · exact .inl ((List.mem_cons.mp h).resolve_left (Ne.symm hhash))
      · refine .inr ?_
        cases p.get hash with
        | none => exact ⟨group, hgroup, hmem⟩
        | some e' =>
          dsimp only
          rw [OrdMap.get?_alter]
          by_cases hheight : e.blockHeight = e'.blockHeight
          · rw [if_pos hheight, ← hheight, hgroup]
            exact ⟨_, rfl, List.mem_append_left _ hmem⟩
          · rw [if_neg hheight]
            exact ⟨group, hgroup, hmem⟩

/-- **Collection**: every `NotSubmitted` entry is in the group of its height. -/
theorem collectSubmit_mem {p : BufferPool} {h : B256} {e : BufferEntry} (he : p.get h = some e)
    (hs : e.status = .notSubmitted) :
    ∃ group, (collectSubmit p).get? e.blockHeight = some group ∧ submitEntryOf e ∈ group := by
  obtain rfl : e.txHash = h := BufferPool.get_hash he
  refine collect_step he _ _ (.inl ?_)
  refine List.mem_map.mpr ⟨e, List.mem_filter.mpr ⟨BufferPool.mem_entries.mpr he, ?_⟩, rfl⟩
  simp [hs]

/-- The collecting section of the next round keeps the entry and lists its submission. -/
theorem submitCollect_section {env : Env} {s s' : State} {now : Nat}
    (hstep : step env s (.submitCollect now) = some s') {h : B256} {e : BufferEntry}
    (he : s.pool.get h = some e) (hs : e.status = .notSubmitted)
    (hlive : e.timesOut env.config now = false) :
    s'.pool.get h = some e ∧ ∃ group, (collectSubmit s'.pool).get? e.blockHeight = some group ∧
      group ∈ s'.groups ∧ submitEntryOf e ∈ group := by
  cases hstep
  have hkept : (s.resolveExpired env now).pool.get h = some e := resolveExpired_live he hlive
  obtain ⟨group, hgroup, hmem⟩ := collectSubmit_mem hkept hs
  refine ⟨hkept, group, hgroup, List.mem_append_right _ ?_, hmem⟩
  exact List.mem_map.mpr ⟨_, OrdMap.mem_entries.mpr hgroup, rfl⟩

/-- **Failed and partial submits lose nothing.**  In every state the other workers may leave, an
    entry that does not time out is unchanged by the first section of `submit_group`, which
    requests exactly the current `NotSubmitted` lifecycles of its group.  By the second section
    it moves to `Submitted` exactly when its lifecycle was requested, it is `NotSubmitted` and its
    hash is accepted; after a transport error, when its hash is rejected, not mentioned or not
    part of the request, it stays exactly as it was.  No entry appears or disappears.  An entry
    that stayed `NotSubmitted` is collected by the next round under its block height with its
    nonce and actions, and sent when its group is submitted. -/
theorem submit_loses_nothing (env : Env) :
    (∀ s i now s', step env s (.submitGroup i now) = some s' →
      ∃ group, s.groups[i]? = some group ∧
        (∀ h e, s.pool.get h = some e → e.timesOut env.config now = false →
          s'.pool.get h = some e) ∧
        (∀ h, (s'.pool.get h).isSome = (s.pool.get h).isSome) ∧
        ∃ expected : Generations,
          (∀ h g, (h, g) ∈ expected.entries ↔
            (∃ entry ∈ group, entry.hash = h ∧ entry.generation = g) ∧
              s'.pool.matchesStatus h g .notSubmitted = true) ∧
          s'.requests =
            if expected.entries = [] then s.requests else s.requests ++ [expected]) ∧
    (∀ s i reply now s', step env s (.submitReply i reply now) = some s' →
      ∃ expected, s.requests[i]? = some expected ∧
        (∀ h e, s.pool.get h = some e → e.timesOut env.config now = false →
          s'.pool.get h = some (if (h, e.generation) ∈ expected.entries ∧
              e.status = .notSubmitted ∧
              (∃ accepted, reply = some accepted ∧ BufferPool.accepts accepted h = true) then
            e.moveTo .submitted now else e)) ∧
        (∀ h, (s'.pool.get h).isSome = (s.pool.get h).isSome)) ∧
    (∀ s now s', step env s (.submitCollect now) = some s' → ∀ h e, s.pool.get h = some e →
      e.status = .notSubmitted → e.timesOut env.config now = false →
        s'.pool.get h = some e ∧
        ∃ group, (collectSubmit s'.pool).get? e.blockHeight = some group ∧ group ∈ s'.groups ∧
          ∃ entry ∈ group, entry.hash = h ∧ entry.generation = e.generation ∧
            entry.tx.nonce = e.nonce ∧ entry.tx.actions = e.actions) := by
  refine ⟨?_, ?_, ?_⟩
  · intro s i now s' hstep
    obtain ⟨group, hgroup, hget, hrequest⟩ := submitGroup_section hstep
    refine ⟨group, hgroup, ?_, ?_, hrequest⟩
    · intro h e he hlive
      rw [hget, he, Option.map_some, resolveTotalTimeout_live hlive]
    · intro h
      rw [hget, Option.isSome_map]
  · intro s i reply now s' hstep
    obtain ⟨expected, hexp, hframe⟩ := submitReply_section hstep
    exact ⟨expected, hexp, hframe, submitReply_isSome hstep⟩
  · intro s now s' hstep h e he hs hlive
    obtain ⟨hkept, group, hgroup, hmem, hentry⟩ := submitCollect_section hstep he hs hlive
    refine ⟨hkept, group, hgroup, hmem, submitEntryOf e, hentry, ?_, rfl, rfl, rfl⟩
    exact BufferPool.get_hash he

end XLayerReth.RcsFilter
