import XLayerReth.RcsFilter.PoolLifecycle

/-!
# Lifecycles over runs of pool operations

Runs are sequences of pool operations from the empty pool, in any order and with any arguments
and times.  A lifecycle is a transaction hash with the generation of one insertion.

* `edge` — the status changes a lifecycle may make.
* `since` — the induction rule: what is true of a lifecycle now, and was not true when it was
  inserted, became true at one operation and has been true ever since.
* `BecameTerminalAt` — when a lifecycle became a tombstone.

Principal results: `audit_lifecycle` (edges, tombstones and approvals over every run) and
`timeout_wins` (the cumulative deadline against every other outcome).
-/

set_option autoImplicit false

namespace XLayerReth.RcsFilter

open Lib

/-- The pool after a run. -/
def poolAfter (ops : List PoolOp) : BufferPool := ops.foldl (fun p op => op.apply p) BufferPool.new

theorem poolAfter_concat (ops : List PoolOp) (op : PoolOp) :
    poolAfter (ops ++ [op]) = op.apply (poolAfter ops) := by
  simp [poolAfter]

/-! ## One step of a lifecycle -/

/-- The status changes a lifecycle may make. -/
def edge : BufferStatus → BufferStatus → Bool
  | .notSubmitted, .submitted => true
  | .submitted, .pending => true
  | .submitted, .approved | .pending, .approved => true
  | .submitted, .notSubmitted | .pending, .notSubmitted => true
  | .notSubmitted, .timedOutAllow | .submitted, .timedOutAllow | .pending, .timedOutAllow => true
  | s, .dropped => !s.isTerminal
  | _, _ => false

theorem edge_of_cause {op : PoolOp} {e : BufferEntry} {s : BufferStatus} {now : Nat}
    (h : Cause op e s now) : edge e.status s = true := by
  cases h with
  | accepted hs hm ha => rw [hs]; rfl
  | pending hs => rw [hs]; rfl
  | approved hs => rcases hs with hs | hs <;> rw [hs] <;> rfl
  | rejected hs hr hd => cases hst : e.status <;> rw [hst] at hs <;> first | rfl | cases hs
  | stalled hs => rcases hs with hs | hs <;> rw [hs] <;> rfl
  | mismatch hs => rw [hs]; rfl
  | deadline ha hs hd =>
    cases hst : e.status <;> rw [hst] at hs <;> cases e.timeoutAction <;> first | rfl | cases hs

theorem not_terminal_of_edge {s t : BufferStatus} (h : edge s t = true) :
    s.isTerminal = false := by
  cases s <;> cases t <;> first | rfl | cases h

/-- A tombstone is kept as it is, or disappears. -/
theorem onEntry_terminal {op : PoolOp} {e e' : BufferEntry} (ht : e.status.isTerminal = true)
    (h : op.onEntry e = some e') : e' = e := by
  rcases onEntry_cause h with rfl | ⟨s, now, -, hc⟩
  · rfl
  · have := not_terminal_of_edge (edge_of_cause hc)
    rw [ht] at this
    cases this

/-- A step never changes the generation or the clock base of an entry. -/
theorem onEntry_keeps {op : PoolOp} {e e' : BufferEntry} (h : op.onEntry e = some e') :
    e'.generation = e.generation ∧ e'.firstNotSubmittedAt = e.firstNotSubmittedAt ∧
      e'.timeoutAction = e.timeoutAction := by
  rcases onEntry_cause h with rfl | ⟨s, now, rfl, -⟩ <;> exact ⟨rfl, rfl, rfl⟩

/-- **A lifecycle before and after an operation**: it was there and the operation acted on it, or
    the operation inserted it under an absent hash. -/
theorem lifecycle_apply {p : BufferPool} {op : PoolOp} {h : B256} {g : Nat} {e' : BufferEntry}
    (hl : (op.apply p).lifecycle h g = some e') :
    (∃ e, p.lifecycle h g = some e ∧ op.onEntry e = some e') ∨
      (p.get h = none ∧ e'.status = .notSubmitted ∧ g = (p.nextGeneration + 1) % 2 ^ 64 ∧
        ∃ entry fresh, op = .insert entry fresh) := by
  obtain ⟨hget, hgen⟩ := BufferPool.lifecycle_eq_some.mp hl
  rw [PoolOp.get_apply] at hget
  cases hp : p.get h with
  | some e =>
    rw [hp] at hget
    have hg : e.generation = g := by rw [← hgen, (onEntry_keeps hget).1]
    exact .inl ⟨e, BufferPool.lifecycle_eq_some.mpr ⟨hp, hg⟩, hget⟩
  | none =>
    rw [hp] at hget
    cases op with
    | insert entry fresh =>
      simp only [PoolOp.created] at hget
      split at hget
      · cases hget
        exact .inr ⟨rfl, fresh, hgen.symm, entry, fresh, rfl⟩
      · cases hget
    | _ => cases hget

/-- An operation acts on the lifecycle that is there. -/
theorem apply_lifecycle {p : BufferPool} {h : B256} {g : Nat} {e : BufferEntry}
    (hl : p.lifecycle h g = some e) (op : PoolOp) :
    (op.apply p).lifecycle h g = op.onEntry e := by
  obtain ⟨hget, hgen⟩ := BufferPool.lifecycle_eq_some.mp hl
  unfold BufferPool.lifecycle
  rw [PoolOp.get_apply, hget]
  dsimp only
  cases ho : op.onEntry e with
  | none => rfl
  | some e' =>
    rw [Option.filter_some_pos]
    simp [(onEntry_keeps ho).1, hgen]

/-! ## Since when -/

/-- The lifecycle is in the pool with property `Q` after every prefix of `post`. -/
def LastsOver (Q : BufferEntry → Prop) (pre post : List PoolOp) (h : B256) (g : Nat) : Prop :=
  ∀ post', post' <+: post → ∃ e, (poolAfter (pre ++ post')).lifecycle h g = some e ∧ Q e

theorem LastsOver.concat {Q : BufferEntry → Prop} {pre post : List PoolOp} {h : B256} {g : Nat}
    {op : PoolOp} (hl : LastsOver Q pre post h g)
    (hop : ∃ e, (poolAfter (pre ++ (post ++ [op]))).lifecycle h g = some e ∧ Q e) :
    LastsOver Q pre (post ++ [op]) h g := by
  intro post' hp
  rcases List.prefix_concat_iff.mp hp with rfl | hp
  · exact hop
  · exact hl post' hp

/-- **Since rule**: a property that a lifecycle has now, and that no fresh entry has, became true
    at one operation of the run and has been true ever since. -/
theorem since (Q : BufferEntry → Prop) (hfresh : ∀ e, Q e → e.status ≠ .notSubmitted)
    (h : B256) (g : Nat) (ops : List PoolOp) :
    ∀ e, (poolAfter ops).lifecycle h g = some e → Q e →
      ∃ pre op post e₀ e₁, ops = pre ++ op :: post ∧ (poolAfter pre).lifecycle h g = some e₀ ∧
        ¬ Q e₀ ∧ op.onEntry e₀ = some e₁ ∧ Q e₁ ∧ LastsOver Q (pre ++ [op]) post h g := by
  induction ops using List.reverseRecOn with
  | nil =>
    intro e he
    exact absurd he (by simp [poolAfter, BufferPool.lifecycle, BufferPool.get_new])
  | append_singleton ops op ih =>
    intro e he hQ
    have hnow : (poolAfter (ops ++ [op])).lifecycle h g = some e := he
    rw [poolAfter_concat] at he
    rcases lifecycle_apply he with ⟨e₀, h₀, hop⟩ | ⟨-, hs, -, -⟩
    · by_cases hQ₀ : Q e₀
      · obtain ⟨pre, op₁, post, x₀, x₁, rfl, hpre, hx₀, hx, hx₁, hlast⟩ := ih e₀ h₀ hQ₀
        refine ⟨pre, op₁, post ++ [op], x₀, x₁, by simp, hpre, hx₀, hx, hx₁, ?_⟩
        refine hlast.concat ⟨e, ?_, hQ⟩
        simpa using hnow
      · refine ⟨ops, op, [], e₀, e, rfl, h₀, hQ₀, hop, hQ, ?_⟩
        intro post' hp
        rw [List.prefix_nil.mp hp, List.append_nil]
        exact ⟨e, hnow, hQ⟩
    · exact absurd hs (hfresh e hQ)

/-! ## Tombstones -/

/-- The lifecycle became a tombstone at time `t` of the run and has been one ever since. -/
def BecameTerminalAt (ops : List PoolOp) (h : B256) (g : Nat) (t : Nat) : Prop :=
  ∃ pre op post e₀, ops = pre ++ op :: post ∧ op.time = some t ∧
    (poolAfter pre).lifecycle h g = some e₀ ∧ e₀.status.isTerminal = false ∧
    LastsOver (fun e => e.status.isTerminal = true) (pre ++ [op]) post h g

/-- The last transition of a tombstone is the operation that made it one. -/
theorem becameTerminalAt {ops : List PoolOp} {h : B256} {g : Nat} {e : BufferEntry}
    (he : (poolAfter ops).lifecycle h g = some e) (ht : e.status.isTerminal = true) :
    BecameTerminalAt ops h g e.lastTransitionAt := by
  have hfresh : ∀ x : BufferEntry, x = e → x.status ≠ .notSubmitted := by
    rintro x rfl hx
    rw [hx] at ht
    cases ht
  obtain ⟨pre, op, post, e₀, e₁, hops, hpre, hne, hop, rfl, hlast⟩ :=
    since (· = e) hfresh h g ops e he rfl
  rcases onEntry_cause hop with heq | ⟨s, now, heq, hc⟩
  · exact absurd heq.symm hne
  · refine ⟨pre, op, post, e₀, hops, ?_, hpre, not_terminal_of_edge (edge_of_cause hc), ?_⟩
    · rw [hc.time, heq]
      rfl
    · intro post' hp
      obtain ⟨x, hx, rfl⟩ := hlast post' hp
      exact ⟨x, hx, ht⟩

/-- Why a tombstone disappears from the pool. -/
def Retired (ops : List PoolOp) (h : B256) (g : Nat) (e : BufferEntry) (op : PoolOp) : Prop :=
  (∃ hashes, op = .removeCanonical hashes ∧ h ∈ hashes) ∨
  (∃ retentionSecs now t, op = .pruneTerminal retentionSecs now ∧
    BecameTerminalAt ops h g t ∧ now - t > retentionSecs) ∨
  (op = .recoverAfterCanonicalLag ∧ e.status = .timedOutAllow)

theorem retired_of_none {ops : List PoolOp} {h : B256} {g : Nat} {e : BufferEntry} {op : PoolOp}
    (he : (poolAfter ops).lifecycle h g = some e) (ht : e.status.isTerminal = true)
    (hop : op.onEntry e = none) : Retired ops h g e op := by
  have hhash : e.txHash = h := BufferPool.get_hash (BufferPool.lifecycle_eq_some.mp he).1
  rcases onEntry_none hop with ⟨hs, rfl, hm⟩ | ⟨rfl, hs⟩ | ⟨rfl, hs⟩ | ⟨r, now, rfl, -, hr⟩
  · exact .inl ⟨hs, rfl, hhash ▸ hm⟩
  · refine .inr (.inr ⟨rfl, ?_⟩)
    cases hst : e.status <;> rw [hst] at ht hs <;> first | rfl | exact absurd rfl hs | cases ht
  · rw [ht] at hs
    cases hs
  · exact .inr (.inl ⟨r, now, _, rfl, becameTerminalAt he ht, hr⟩)

/-- **A tombstone over whatever follows**: it stays exactly as it is to the end, or up to the
    operation that retires it. -/
theorem terminal_persists {ops : List PoolOp} {h : B256} {g : Nat} {e : BufferEntry}
    (he : (poolAfter ops).lifecycle h g = some e) (ht : e.status.isTerminal = true)
    (more : List PoolOp) :
    LastsOver (· = e) ops more h g ∨
      ∃ more₁ op more₂, more = more₁ ++ op :: more₂ ∧ LastsOver (· = e) ops more₁ h g ∧
        (poolAfter (ops ++ more₁ ++ [op])).lifecycle h g = none ∧
        Retired (ops ++ more₁) h g e op := by
  induction more using List.reverseRecOn with
  | nil =>
    refine .inl fun post' hp => ?_
    rw [List.prefix_nil.mp hp, List.append_nil]
    exact ⟨e, he, rfl⟩
  | append_singleton more op ih =>
    rcases ih with hlast | ⟨m₁, op₁, m₂, rfl, hlast, hnone, hret⟩
    · obtain ⟨x, hx, rfl⟩ := hlast more List.prefix_rfl
      have hstep : (poolAfter (ops ++ more ++ [op])).lifecycle h g = op.onEntry x := by
        rw [poolAfter_concat, apply_lifecycle hx]
      cases ho : op.onEntry x with
      | none =>
        exact .inr ⟨more, op, [], by simp, hlast, hstep.trans ho, retired_of_none hx ht ho⟩
      | some e' =>
        have hsame := onEntry_terminal ht ho
        subst hsame
        refine .inl (hlast.concat ⟨e', ?_, rfl⟩)
        rw [← List.append_assoc, hstep, ho]
    · exact .inr ⟨m₁, op₁, m₂ ++ [op], by simp, hlast, hnone, hret⟩

/-- A tombstone is in no list the workers or the reconciliation read. -/
theorem terminal_not_listed {p : BufferPool} {h : B256} {g : Nat} {e : BufferEntry}
    (he : p.lifecycle h g = some e) (ht : e.status.isTerminal = true) :
    h ∉ p.notSubmitted ∧ h.lowerHex ∉ p.inFlightHashes ∧
      (∀ g', (h, g') ∉ p.inFlightGenerations.entries) ∧
      (∀ g', (h, g') ∉ p.nonTerminalLifecycles) := by
  have hget := (BufferPool.lifecycle_eq_some.mp he).1
  have huniq : ∀ x ∈ p.entries.entries, x.txHash = h → x = e := by
    intro x hx hxh
    have := BufferPool.mem_entries.mp hx
    rw [hxh, hget] at this
    exact (Option.some.inj this).symm
  have hns : e.status ≠ .notSubmitted := by rintro hs; rw [hs] at ht; cases ht
  have hnf : e.status.isInFlight = false := by
    cases hst : e.status <;> rw [hst] at ht <;> first | rfl | cases ht
  refine ⟨?_, ?_, ?_, ?_⟩
  · intro hm
    obtain ⟨x, hx, hxh⟩ := List.mem_map.mp hm
    obtain ⟨hx, hs⟩ := List.mem_filter.mp hx
    rw [huniq x hx hxh] at hs
    exact hns (by simpa using hs)
  · intro hm
    obtain ⟨x, hx, hxh⟩ := List.mem_map.mp hm
    obtain ⟨hx, hs⟩ := List.mem_filter.mp hx
    rw [huniq x hx (B256.lowerHex_injective hxh), hnf] at hs
    cases hs
  · intro g' hm
    obtain ⟨x, hx, hxh⟩ := List.mem_map.mp hm
    obtain ⟨hx, hs⟩ := List.mem_filter.mp hx
    rw [huniq x hx (Prod.mk.inj hxh).1, hnf] at hs
    cases hs
  · intro g' hm
    obtain ⟨x, hx, hxh⟩ := List.mem_map.mp hm
    obtain ⟨hx, hs⟩ := List.mem_filter.mp hx
    rw [huniq x hx (Prod.mk.inj hxh).1, ht] at hs
    cases hs

/-! ## Approvals -/

/-- A lifecycle in flight at RCS was accepted by a submit response that addressed it. -/
theorem accepted_of_inFlight {ops : List PoolOp} {h : B256} {g : Nat} {e : BufferEntry}
    (he : (poolAfter ops).lifecycle h g = some e) (hs : e.status.isInFlight = true) :
    ∃ pre accepted expected cfg now post,
      ops = pre ++ PoolOp.applySubmitResponse accepted expected cfg now :: post ∧
        (h, g) ∈ expected.entries ∧ BufferPool.accepts accepted h = true ∧
        LastsOver (fun e => e.status.isInFlight = true)
          (pre ++ [PoolOp.applySubmitResponse accepted expected cfg now]) post h g := by
  have hfresh : ∀ x : BufferEntry, x.status.isInFlight = true → x.status ≠ .notSubmitted := by
    rintro x hx hn
    rw [hn] at hx
    cases hx
  obtain ⟨pre, op, post, e₀, e₁, hops, hpre, hne, hop, hQ, hlast⟩ :=
    since (fun e => e.status.isInFlight = true) hfresh h g ops e he hs
  obtain ⟨hget, hgen⟩ := BufferPool.lifecycle_eq_some.mp hpre
  have hhash : e₀.txHash = h := BufferPool.get_hash hget
  have hnot : e₀.status.isInFlight = false := by simpa using hne
  rcases onEntry_cause hop with rfl | ⟨s, now, rfl, hc⟩
  · exact absurd hQ hne
  · cases hc with
    | accepted hst hm ha =>
      rw [hhash, hgen] at hm
      rw [hhash] at ha
      exact ⟨pre, _, _, _, _, post, hops, hm, ha, hlast⟩
    | pending hst => rw [hst] at hnot; cases hnot
    | approved hst => rcases hst with hst | hst <;> rw [hst] at hnot <;> cases hnot
    | rejected hst hr hd => cases hQ
    | stalled hst => cases hQ
    | mismatch hst => cases hQ
    | deadline ha hst hd =>
      simp only [BufferEntry.moveTo] at hQ
      cases hta : e₀.timeoutAction <;> rw [hta] at hQ <;> cases hQ

/-- **An approved lifecycle was accepted by a submit response and later approved by a query**,
    both made for this very lifecycle, which stayed in the pool from then on. -/
theorem approved_origin {ops : List PoolOp} {h : B256} {g : Nat} {e : BufferEntry}
    (he : (poolAfter ops).lifecycle h g = some e) (hs : e.status = .approved) :
    ∃ pre accepted expected cfg now mid cfg' now' post,
      ops = pre ++ PoolOp.applySubmitResponse accepted expected cfg now ::
        (mid ++ PoolOp.applyQueryStatus h g "approved" cfg' now' :: post) ∧
      (h, g) ∈ expected.entries ∧ BufferPool.accepts accepted h = true ∧
      LastsOver (fun e => e.status.isInFlight = true)
        (pre ++ [PoolOp.applySubmitResponse accepted expected cfg now]) mid h g ∧
      LastsOver (fun e => e.status = .approved)
        (pre ++ PoolOp.applySubmitResponse accepted expected cfg now ::
          (mid ++ [PoolOp.applyQueryStatus h g "approved" cfg' now'])) post h g := by
  have hfresh : ∀ x : BufferEntry, x.status = .approved → x.status ≠ .notSubmitted := by
    rintro x hx hn
    rw [hn] at hx
    cases hx
  obtain ⟨pre, op, post, e₀, e₁, hops, hpre, hne, hop, hQ, hlast⟩ :=
    since (fun e => e.status = .approved) hfresh h g ops e he hs
  obtain ⟨hget, hgen⟩ := BufferPool.lifecycle_eq_some.mp hpre
  have hhash : e₀.txHash = h := BufferPool.get_hash hget
  rcases onEntry_cause hop with rfl | ⟨s, now, rfl, hc⟩
  · exact absurd hQ hne
  · cases hc with
    | @approved cfg _ _ hst =>
      have hfl : e₀.status.isInFlight = true := by
        rcases hst with hst | hst <;> rw [hst] <;> rfl
      obtain ⟨pre', acc, exp, cfg', now', mid, rfl, hm, ha, hlast'⟩ :=
        accepted_of_inFlight hpre hfl
      rw [hhash, hgen] at hops hlast
      refine ⟨pre', acc, exp, cfg', now', mid, cfg, now, post, ?_, hm, ha, hlast', ?_⟩
      · rw [hops]; simp
      · simpa using hlast
    | accepted hst hm ha => cases hQ
    | pending hst => cases hQ
    | rejected hst hr hd => cases hQ
    | stalled hst => cases hQ
    | mismatch hst => cases hQ
    | deadline ha hst hd =>
      simp only [BufferEntry.moveTo] at hQ
      cases hta : e₀.timeoutAction <;> rw [hta] at hQ <;> cases hQ

/-! ## The lifecycle invariant -/

/-- **Audit lifecycle**, for every run and every lifecycle: its status follows only the edges;
    a tombstone never changes, is listed nowhere, and disappears only when it is retired; and an
    approval has an accepted submission and a later approving query behind it. -/
theorem audit_lifecycle (ops : List PoolOp) (h : B256) (g : Nat) :
    (∀ op e e', (poolAfter ops).lifecycle h g = some e →
      (poolAfter (ops ++ [op])).lifecycle h g = some e' →
        e'.status = e.status ∨ edge e.status e'.status = true) ∧
    (∀ e, (poolAfter ops).lifecycle h g = some e → e.status.isTerminal = true →
      (h ∉ (poolAfter ops).notSubmitted ∧ h.lowerHex ∉ (poolAfter ops).inFlightHashes ∧
        (∀ g', (h, g') ∉ (poolAfter ops).inFlightGenerations.entries) ∧
        (∀ g', (h, g') ∉ (poolAfter ops).nonTerminalLifecycles)) ∧
      ∀ more, LastsOver (· = e) ops more h g ∨
        ∃ more₁ op more₂, more = more₁ ++ op :: more₂ ∧ LastsOver (· = e) ops more₁ h g ∧
          (poolAfter (ops ++ more₁ ++ [op])).lifecycle h g = none ∧
          Retired (ops ++ more₁) h g e op) ∧
    (∀ e, (poolAfter ops).lifecycle h g = some e → e.status = .approved →
      ∃ pre accepted expected cfg now mid cfg' now' post,
        ops = pre ++ .applySubmitResponse accepted expected cfg now ::
          (mid ++ .applyQueryStatus h g "approved" cfg' now' :: post) ∧
        (h, g) ∈ expected.entries ∧ BufferPool.accepts accepted h = true ∧
        LastsOver (fun e => e.status.isInFlight = true)
          (pre ++ [.applySubmitResponse accepted expected cfg now]) mid h g ∧
        LastsOver (fun e => e.status = .approved)
          (pre ++ .applySubmitResponse accepted expected cfg now ::
            (mid ++ [.applyQueryStatus h g "approved" cfg' now'])) post h g) := by
  refine ⟨?_, ?_, fun e he hs => approved_origin he hs⟩
  · intro op e e' he he'
    rw [poolAfter_concat, apply_lifecycle he] at he'
    rcases onEntry_cause he' with rfl | ⟨s, now, rfl, hc⟩
    · exact .inl rfl
    · exact .inr (edge_of_cause hc)
  · intro e he ht
    exact ⟨terminal_not_listed he ht, terminal_persists he ht⟩

/-! ## The cumulative deadline -/

/-- The clock base of a lifecycle is the one it was inserted with. -/
theorem clock_base_fixed {ops : List PoolOp} {h : B256} {g : Nat} {e : BufferEntry}
    (he : (poolAfter ops).lifecycle h g = some e) (more : List PoolOp)
    (hlast : LastsOver (fun _ => True) ops more h g) :
    LastsOver (fun e' => e'.firstNotSubmittedAt = e.firstNotSubmittedAt) ops more h g := by
  induction more using List.reverseRecOn with
  | nil =>
    intro post' hp
    rw [List.prefix_nil.mp hp, List.append_nil]
    exact ⟨e, he, rfl⟩
  | append_singleton more op ih =>
    have hmore := ih (fun post' hp => hlast post' (hp.trans (List.prefix_append _ _)))
    obtain ⟨x, hx, hfirst⟩ := hmore more List.prefix_rfl
    obtain ⟨y, hy, -⟩ := hlast (more ++ [op]) List.prefix_rfl
    refine hmore.concat ⟨y, hy, ?_⟩
    rw [← List.append_assoc, poolAfter_concat, apply_lifecycle hx] at hy
    rw [(onEntry_keeps hy).2.1, hfirst]

/-- The four deadline-checking calls. -/
inductive TimedCall where
  | submitResponse (accepted : List String) (expected : Generations)
  | queryStatus (txHash : B256) (generation : Nat) (status : String)
  | resolveTotalTimeouts
  | checkTimeouts

/-- The call is made for this lifecycle: a submit response lists it, a query names it, a scan
    goes over the whole pool. -/
def TimedCall.addresses (h : B256) (g : Nat) : TimedCall → Prop
  | .submitResponse _ expected => (h, g) ∈ expected.entries
  | .queryStatus h' g' _ => h' = h ∧ g' = g
  | .resolveTotalTimeouts => True
  | .checkTimeouts => True

/-- The call as an operation of the pool. -/
def TimedCall.op (cfg : FilterConfig) (now : Nat) : TimedCall → PoolOp
  | .submitResponse accepted expected => .applySubmitResponse accepted expected cfg now
  | .queryStatus h g status => .applyQueryStatus h g status cfg now
  | .resolveTotalTimeouts => .resolveTotalTimeouts cfg now
  | .checkTimeouts => .checkTimeouts cfg now

/-- The timeout resolutions a call reports for a hash, in order. -/
def TimedCall.reports (p : BufferPool) (cfg : FilterConfig) (now : Nat) (h : B256) :
    TimedCall → List Resolved
  | .submitResponse accepted expected =>
    (p.applySubmitResponse accepted expected cfg now).2.filter (fun r => r.1 = h)
  | .queryStatus h' g status =>
    match (p.applyQueryStatus h' g status cfg now).2 with
    | some (.retryTimeout resolution) => if h' = h then [(h, g, resolution)] else []
    | _ => []
  | .resolveTotalTimeouts => (p.resolveTotalTimeouts cfg now).2.filter (fun r => r.1 = h)
  | .checkTimeouts => (p.checkTimeouts cfg now).2.filter (fun r => r.1 = h)

/-- What the call does to the entry, and the timeout resolution it reports for it. -/
def TimedCall.onEntry (cfg : FilterConfig) (now : Nat) (e : BufferEntry) :
    TimedCall → BufferEntry × Option Resolution
  | .submitResponse accepted _ => submitEntry cfg now (BufferPool.accepts accepted e.txHash) e
  | .queryStatus _ _ status =>
    ((queryEntry cfg now status e).1,
      match (queryEntry cfg now status e).2 with
      | some (.retryTimeout resolution) => some resolution
      | _ => none)
  | .resolveTotalTimeouts => resolveTotalTimeout cfg now e
  | .checkTimeouts => timeoutEntry cfg now e

theorem reports_scan {p : BufferPool} {h : B256} {e : BufferEntry}
    (hget : p.get h = some e) (f : BufferEntry → BufferEntry × Option Resolution)
    (hf : ∀ e, (f e).1.txHash = e.txHash) :
    (p.scan f hf).2.filter (fun r => r.1 = h) =
      ((f e).2.map (fun r => (h, e.generation, r))).toList := by
  have hfst : ∀ (x : BufferEntry) (y : Resolved),
      (f x).2.map (fun r => (x.txHash, x.generation, r)) = some y → y.1 = x.txHash := by
    intro x y hy
    obtain ⟨r, -, rfl⟩ := Option.map_eq_some_iff.mp hy
    rfl
  have hreport := Table.filter_filterMap p.entries hfst h
  rw [show p.entries.get? h = some e from hget, Option.bind_some, BufferPool.get_hash hget]
    at hreport
  exact hreport

theorem reports_submitResponse {p : BufferPool} (accepted : List String)
    (expected : Generations) (cfg : FilterConfig) (now : Nat) (h : B256) :
    (p.applySubmitResponse accepted expected cfg now).2.filter (fun r => r.1 = h) =
      ((expected.get? h).bind
        (p.submitResolution (accepted.filterMap B256.fromStr) cfg now)).toList := by
  have hfst : ∀ (x : B256 × Nat) (y : Resolved),
      p.submitResolution (accepted.filterMap B256.fromStr) cfg now x = some y → y.1 = x.1 := by
    intro x y hy
    obtain ⟨e', -, hy⟩ := Option.bind_eq_some_iff.mp hy
    obtain ⟨r, -, rfl⟩ := Option.map_eq_some_iff.mp hy
    rfl
  rw [BufferPool.resolved_applySubmitResponse]
  exact Table.filter_filterMap expected hfst h

/-- **A call acts on the addressed entry as on a single entry, and reports at most that.** -/
theorem timedCall_eq {p : BufferPool} {h : B256} {g : Nat} {e : BufferEntry}
    (he : p.lifecycle h g = some e) (cfg : FilterConfig) (now : Nat) (c : TimedCall)
    (ha : c.addresses h g) :
    ((c.op cfg now).apply p).lifecycle h g = some (c.onEntry cfg now e).1 ∧
      c.reports p cfg now h = ((c.onEntry cfg now e).2.map (fun r => (h, g, r))).toList := by
  obtain ⟨hget, hgen⟩ := BufferPool.lifecycle_eq_some.mp he
  have hhash : e.txHash = h := BufferPool.get_hash hget
  rw [apply_lifecycle he]
  cases c with
  | submitResponse accepted expected =>
    have ha' : (e.txHash, e.generation) ∈ expected.entries := by rw [hhash, hgen]; exact ha
    refine ⟨by simp only [TimedCall.op, PoolOp.onEntry, if_pos ha']; rfl, ?_⟩
    have hexp : expected.get? h = some (h, g) := Table.get?_of_mem ha
    simp only [TimedCall.reports, TimedCall.onEntry, reports_submitResponse, hexp, hhash,
      Option.bind_some, BufferPool.submitResolution, he]
    rfl
  | queryStatus h' g' status =>
    obtain ⟨rfl, rfl⟩ := ha
    refine ⟨by simp only [TimedCall.op, PoolOp.onEntry, if_pos (And.intro hhash hgen)]; rfl, ?_⟩
    simp only [TimedCall.reports, BufferPool.applyQueryStatus, he, Option.bind_some,
      TimedCall.onEntry]
    cases hq : (queryEntry cfg now status e).2 with
    | none => rfl
    | some q =>
      cases q with
      | retryTimeout r => simp
      | denied => rfl
      | outdated => rfl
  | resolveTotalTimeouts =>
    refine ⟨rfl, ?_⟩
    have hrep := reports_scan hget (resolveTotalTimeout cfg now)
      (fun e => (resolveTotalTimeout_moves cfg now e).hash)
    rw [hgen] at hrep
    exact hrep
  | checkTimeouts =>
    refine ⟨rfl, ?_⟩
    have hrep := reports_scan hget (timeoutEntry cfg now)
      (fun e => (timeoutEntry_moves cfg now e).hash)
    rw [hgen] at hrep
    exact hrep

/-- A call that does not address a lifecycle leaves it alone and reports nothing for its hash. -/
theorem timedCall_other {p : BufferPool} {h : B256} {g : Nat} {e : BufferEntry}
    (he : p.lifecycle h g = some e) (cfg : FilterConfig) (now : Nat) (c : TimedCall)
    (ha : ¬ c.addresses h g) :
    ((c.op cfg now).apply p).lifecycle h g = some e ∧ c.reports p cfg now h = [] := by
  obtain ⟨hget, hgen⟩ := BufferPool.lifecycle_eq_some.mp he
  have hhash : e.txHash = h := BufferPool.get_hash hget
  rw [apply_lifecycle he]
  cases c with
  | submitResponse accepted expected =>
    have ha' : (e.txHash, e.generation) ∉ expected.entries := by rw [hhash, hgen]; exact ha
    refine ⟨by simp only [TimedCall.op, PoolOp.onEntry, if_neg ha'], ?_⟩
    rw [TimedCall.reports, reports_submitResponse]
    cases hexp : expected.get? h with
    | none => rfl
    | some x =>
      have hx1 : x.1 = h := Table.key_of_get? hexp
      have hx2 : g ≠ x.2 := by
        rintro rfl
        exact ha (hx1 ▸ Table.mem_of_get? hexp)
      have hstale : p.lifecycle x.1 x.2 = none := by
        rw [BufferPool.lifecycle_eq_none, hx1, hget]
        rintro _ ⟨⟩
        rwa [hgen]
      rw [Option.bind_some, BufferPool.submitResolution, hstale]
      rfl
  | queryStatus h' g' status =>
    have hne : ¬ (e.txHash = h' ∧ e.generation = g') := by
      rintro ⟨rfl, rfl⟩
      exact ha ⟨hhash, hgen⟩
    refine ⟨by simp only [TimedCall.op, PoolOp.onEntry, if_neg hne], ?_⟩
    simp only [TimedCall.reports, BufferPool.applyQueryStatus]
    by_cases hh : h' = h
    · subst hh
      have hstale : p.lifecycle h' g' = none := by
        rw [BufferPool.lifecycle_eq_none, hget]
        rintro _ ⟨⟩ hg'
        exact hne ⟨hhash, hg'⟩
      rw [hstale]
      rfl
    · simp only [if_neg hh]
      split <;> rfl
  | resolveTotalTimeouts => exact absurd trivial ha
  | checkTimeouts => exact absurd trivial ha

/-- Past the deadline, every call resolves a waiting entry as its timeout action says. -/
theorem onEntry_pastDeadline {cfg : FilterConfig} {now : Nat} {e : BufferEntry}
    (hs : e.status.isRetryable = true) (hd : now - e.firstNotSubmittedAt > cfg.totalRetryTimeout)
    (c : TimedCall) :
    c.onEntry cfg now e =
      (e.moveTo e.timeoutAction.resolve.2 now, some e.timeoutAction.resolve.1) := by
  have hr : resolveTotalTimeout cfg now e =
      (e.moveTo e.timeoutAction.resolve.2 now, some e.timeoutAction.resolve.1) := by
    rw [resolveTotalTimeout_eq, if_pos]
    simp [hs, BufferEntry.pastDeadline, hd]
  have ht : e.status.isTerminal = false := isTerminal_of_isRetryable hs
  cases c with
  | submitResponse accepted expected => simp only [TimedCall.onEntry, submitEntry, hr]
  | queryStatus h g status => simp [TimedCall.onEntry, queryEntry, hr, ht]
  | resolveTotalTimeouts => exact hr
  | checkTimeouts => simp only [TimedCall.onEntry, timeoutEntry, hr]

/-- A query result that rejects the transaction. -/
def rejects : TimedCall → Bool
  | .queryStatus _ _ status => status == "denied" || status == "outdated"
  | _ => false

/-- A query about an entry that is not resolved by the deadline. -/
theorem queryEntry_inTime {cfg : FilterConfig} {now : Nat} {e : BufferEntry} (status : String)
    (ht : e.status.isTerminal = false) (hr : resolveTotalTimeout cfg now e = (e, none)) :
    queryEntry cfg now status e = (e, none) ∨
      (e.status = .submitted ∧ queryEntry cfg now status e = (e.moveTo .pending now, none)) ∨
      queryEntry cfg now status e = (e.moveTo .approved now, none) ∨
      ((status == "denied" || status == "outdated") = true ∧
        ∃ q, queryEntry cfg now status e = (e.moveTo .dropped now, some q) ∧
          ∀ r, q ≠ .retryTimeout r) := by
  unfold queryEntry
  rw [if_neg (by simp [ht]), hr]
  dsimp only
  split
  · split
    · rename_i hs
      exact .inr (.inl ⟨hs, rfl⟩)
    · exact .inl rfl
  · split
    · split
      · exact .inr (.inr (.inl rfl))
      · exact .inl rfl
    · split
      · rename_i hrej
        refine .inr (.inr (.inr ⟨by simpa using hrej, _, rfl, fun r => ?_⟩))
        split
        · exact fun h => by cases h
        · exact fun h => by cases h
      · exact .inl rfl

/-- Before the deadline, or once approved, no call reports a timeout, and only a rejection makes
    an entry terminal or withdraws an approval. -/
theorem onEntry_inTime {cfg : FilterConfig} {now : Nat} {e : BufferEntry}
    (ht : e.status.isTerminal = false)
    (hd : e.status = .approved ∨ ¬ now - e.firstNotSubmittedAt > cfg.totalRetryTimeout)
    (c : TimedCall) :
    (c.onEntry cfg now e).2 = none ∧
      (rejects c = false → (c.onEntry cfg now e).1.status.isTerminal = false ∧
        (e.status = .approved → (c.onEntry cfg now e).1.status = .approved)) := by
  have hr : resolveTotalTimeout cfg now e = (e, none) := by
    rw [resolveTotalTimeout_eq, if_neg]
    rcases hd with hd | hd
    · simp [hd, BufferStatus.isRetryable]
    · simp [BufferEntry.pastDeadline, hd]
  cases c with
  | submitResponse accepted expected =>
    simp only [TimedCall.onEntry, submitEntry, hr]
    split
    · rename_i h
      have hs : e.status = .notSubmitted := by simpa using (Bool.and_eq_true_iff.mp h).2
      exact ⟨rfl, fun _ => ⟨rfl, fun ha => by rw [hs] at ha; cases ha⟩⟩
    · exact ⟨rfl, fun _ => ⟨ht, id⟩⟩
  | queryStatus h g status =>
    simp only [TimedCall.onEntry, rejects]
    rcases queryEntry_inTime status ht hr with hq | ⟨hs, hq⟩ | hq | ⟨hrej, q, hq, hnot⟩
    · rw [hq]
      exact ⟨rfl, fun _ => ⟨ht, id⟩⟩
    · rw [hq]
      exact ⟨rfl, fun _ => ⟨rfl, fun ha => by rw [hs] at ha; cases ha⟩⟩
    · rw [hq]
      exact ⟨rfl, fun _ => ⟨rfl, fun _ => rfl⟩⟩
    · rw [hq]
      refine ⟨?_, fun hn => by rw [hrej] at hn; cases hn⟩
      cases q with
      | retryTimeout r => exact absurd rfl (hnot r)
      | denied => rfl
      | outdated => rfl
  | resolveTotalTimeouts =>
    simp only [TimedCall.onEntry, hr]
    exact ⟨trivial, fun _ => ⟨ht, id⟩⟩
  | checkTimeouts =>
    simp only [TimedCall.onEntry, timeoutEntry, hr, ht, Bool.false_eq_true, if_false]
    split
    · rename_i h
      exact ⟨rfl, fun _ => ⟨rfl, fun ha => by rw [h.1] at ha; cases ha⟩⟩
    · split
      · rename_i h
        exact ⟨rfl, fun _ => ⟨rfl, fun ha => by rw [h.1] at ha; cases ha⟩⟩
      · exact ⟨rfl, fun _ => ⟨ht, id⟩⟩

/-- **The cumulative timeout wins**, for every run and every lifecycle: its clock base never
    changes; past the deadline every deadline-checking call resolves a waiting entry exactly as
    its timeout action says and reports it exactly once, whatever RCS answered; and no other
    entry becomes terminal through these calls but by a rejection. -/
theorem timeout_wins (ops : List PoolOp) (h : B256) (g : Nat) (e : BufferEntry)
    (he : (poolAfter ops).lifecycle h g = some e) :
    (∀ more, LastsOver (fun _ => True) ops more h g →
      LastsOver (fun e' => e'.firstNotSubmittedAt = e.firstNotSubmittedAt) ops more h g) ∧
    ∀ (cfg : FilterConfig) (now : Nat) (c : TimedCall),
      (c.addresses h g → e.status.isRetryable = true →
        now - e.firstNotSubmittedAt > cfg.totalRetryTimeout →
        ((c.op cfg now).apply (poolAfter ops)).lifecycle h g =
          some (e.moveTo (match e.timeoutAction with
            | .allow => .timedOutAllow
            | .deny => .dropped) now) ∧
        c.reports (poolAfter ops) cfg now h =
          [(h, g, match e.timeoutAction with
            | .allow => .releaseForPackaging
            | .deny => .discard)]) ∧
      (e.status.isTerminal = false →
        (e.status = .approved ∨ ¬ now - e.firstNotSubmittedAt > cfg.totalRetryTimeout) →
        c.reports (poolAfter ops) cfg now h = [] ∧
        (¬ (c.addresses h g ∧ rejects c = true) →
          ∃ e', ((c.op cfg now).apply (poolAfter ops)).lifecycle h g = some e' ∧
            e'.status.isTerminal = false ∧
            (e.status = .approved → e'.status = .approved))) := by
  refine ⟨clock_base_fixed he, fun cfg now c => ⟨fun ha hs hd => ?_, fun ht hd => ?_⟩⟩
  · obtain ⟨hpool, hrep⟩ := timedCall_eq he cfg now c ha
    rw [hpool, hrep, onEntry_pastDeadline hs hd]
    cases e.timeoutAction <;> exact ⟨rfl, rfl⟩
  · by_cases ha : c.addresses h g
    · obtain ⟨hpool, hrep⟩ := timedCall_eq he cfg now c ha
      obtain ⟨hnone, hkeep⟩ := onEntry_inTime ht hd c
      refine ⟨by rw [hrep, hnone]; rfl, fun hrej => ?_⟩
      obtain ⟨hterm, happ⟩ := hkeep (by simpa [ha] using hrej)
      exact ⟨_, hpool, hterm, happ⟩
    · obtain ⟨hpool, hrep⟩ := timedCall_other he cfg now c ha
      exact ⟨hrep, fun _ => ⟨e, hpool, ht, id⟩⟩

section Expired

/-- A fail-close transaction buffered at time 0. -/
def failCloseEntry : BufferEntry where
  generation := 0
  txHash := 1
  origin := 0xa
  contractAddress := 0xc
  nonce := 7
  blockHeight := 100
  status := .notSubmitted
  actions := OrdMap.empty
  ruleSnapshot := RuleSet.default
  quotaConsistencyHash := 0
  timeoutAction := .deny
  firstNotSubmittedAt := 0
  lastTransitionAt := 0

/-- Sixty seconds of retries. -/
def sixtySeconds : FilterConfig := ⟨8, 8, 20, 60, 300, 10000⟩

/-- An acceptance that arrives after the deadline drops the transaction. -/
theorem timeout_wins_late_acceptance :
    (((TimedCall.submitResponse [(1 : B256).lowerHex] ⟨[(1, 1)], by decide⟩).op sixtySeconds
        61).apply (poolAfter [.insert failCloseEntry rfl])).lifecycle 1 1 =
      some ({ failCloseEntry with generation := 1 }.moveTo .dropped 61) :=
  (((timeout_wins [.insert failCloseEntry rfl] 1 1 { failCloseEntry with generation := 1 } rfl).2
    sixtySeconds 61 (.submitResponse [(1 : B256).lowerHex] ⟨[(1, 1)], by decide⟩)).1
      (List.mem_singleton_self _) rfl (by decide)).1

end Expired

end XLayerReth.RcsFilter
