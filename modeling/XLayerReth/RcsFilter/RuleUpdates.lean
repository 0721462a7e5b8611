import XLayerReth.RcsFilter.HandleSafety

/-!
# Rule updates

Model of `load_and_install` and `rules_task` of `worker.rs` over the filter of `Handle.lean`.

* `loadAndInstall` — one answer to `GET /rules`: a request error, an unsupported protocol version
  and a batch with a rejected rule leave the active rules as they are.
* `UpdateStep` — the rules worker (retry until the first load, then poll the version), interleaved
  with every other action of the filter and with restarts of the worker.
* `Splits` — how `load_rules` divides a batch; `compileRule_interner` — a rule compiles to the
  same thing whatever the interner has seen.

Principal result: `rule_updates_atomic`.
-/

set_option autoImplicit false

namespace XLayerReth.RcsFilter

open Lib

/-! ## Answers of RCS -/

/-- `FilterError`. -/
inductive FilterError where
  | transport (message : String)
  | timeout (message : String)
  | unexpectedStatus (status : Nat)
  | decode (message : String)
  | unsupportedProtocol (version : Nat)
  | config (message : String)
  | invalidRules (count : Nat) (rejected : List RejectedRule)
  deriving DecidableEq

/-- The answer to `GET /rules`. -/
structure RulesResponse where
  protocolVersion : Nat
  contentVersion : Nat
  rules : List RawRule

/-- The answer to `GET /rules/version`. -/
structure VersionResponse where
  protocolVersion : Nat
  contentVersion : Nat

/-- `SUPPORTED_PROTOCOL_VERSIONS`. -/
def supportedProtocolVersions : List Nat := [1]

/-- `is_supported_protocol`. -/
def isSupportedProtocol (pv : Nat) : Bool := supportedProtocolVersions.contains pv

/-- `Shared::install_rules`. -/
def State.installRules (s : State) (rules : RuleSet) : State :=
  { s with rules := rules, ready := true }

/-- `load_and_install`: `ok true` installed, `ok false` unsupported protocol version. -/
def loadAndInstall (abi : Abi) (s : State) (result : Except FilterError RulesResponse) :
    Except FilterError Bool × State :=
  match result with
  | .error e => (.error e, s)
  | .ok resp =>
    if !isSupportedProtocol resp.protocolVersion then (.ok false, s)
    else
      let set := loadRules abi resp.protocolVersion resp.contentVersion resp.rules
      if !set.rejected.isEmpty then
        (.error (.invalidRules set.rejected.length set.rejected), s)
      else (.ok true, s.installRules set)

/-! ## The rules worker -/

/-- What the rules worker waits for. -/
inductive TaskPhase where
  /-- The answer to `GET /rules` of the initial load. -/
  | loading
  /-- The answer to the next version probe. -/
  | polling
  /-- The answer to `GET /rules` of a hot reload. -/
  | pulling
  deriving DecidableEq, Repr

/-- The filter with its rules worker. -/
structure Updating where
  filter : State
  phase : TaskPhase

def Updating.new : Updating := ⟨State.new, .loading⟩

/-- One event of the system. -/
inductive UpdateEvent where
  | rules (result : Except FilterError RulesResponse)
  | version (result : Except FilterError VersionResponse)
  /-- The supervisor restarts the worker. -/
  | restart
  /-- Another action of the filter; `install_rules` is called by the worker alone. -/
  | other (act : Act) (h : ∀ rules, act ≠ .installRules rules)

/-- The worker after a version probe, with the rules active at the time. -/
def probed (rules : RuleSet) : Except FilterError VersionResponse → TaskPhase
  | .error _ => .polling
  | .ok v =>
    if v.contentVersion ≠ rules.contentVersion then
      if !isSupportedProtocol v.protocolVersion then .polling else .pulling
    else .polling

/-- One step of the filter with its rules worker; `none` when the event is not enabled. -/
def updateStep (env : Env) (u : Updating) : UpdateEvent → Option Updating
  | .rules result =>
    match u.phase with
    | .loading =>
      match loadAndInstall env.abi u.filter result with
      | (.ok true, s) => some ⟨s, .polling⟩
      | (_, s) => some ⟨s, .loading⟩
    | .pulling => some ⟨(loadAndInstall env.abi u.filter result).2, .polling⟩
    | .polling => none
  | .version result =>
    match u.phase with
    | .polling => some { u with phase := probed u.filter.rules result }
    | .loading | .pulling => none
  | .restart => some { u with phase := .loading }
  | .other act _ => (step env u.filter act).map (fun s => { u with filter := s })

/-! ## Interner independence -/

/-- An interned set is determined by the list it stands for. -/
theorem intern_fst (i j : AddressSetInterner) (addrs : List Address) :
    (i.intern addrs).1 = (j.intern addrs).1 := by
  ext a
  rw [mem_intern, mem_intern]

mutual

/-- The compiled form of an expression does not depend on the interner. -/
theorem compile_fst : ∀ (e : Json) (i j : AddressSetInterner), (compile e i).1 = (compile e j).1
  | .obj [(op, arg)], i, j => by
    unfold compile
    split
    · rename_i needle addrs hm
      rw [intern_fst i j]
    · split
      · split
        · rename_i items hm
          simp only [apply_ite Prod.fst, compileItems_fst items i j]
        · rfl
      · split
        · split
          · rfl
          · rename_i inner rest hm
            simp only [apply_ite Prod.fst, compile_fst inner i j]
          · simp only [apply_ite Prod.fst, compile_fst arg i j]
        · rfl
  | .null, _, _ | .bool _, _, _ | .num _, _, _ | .str _, _, _ | .arr _, _, _ | .obj [], _, _
  | .obj (_ :: _ :: _), _, _ => rfl

theorem compileItems_fst : ∀ (items : List Json) (i j : AddressSetInterner),
    (compileItems items i).1 = (compileItems items j).1
  | [], _, _ => rfl
  | item :: items, i, j => by
    simp only [compileItems]
    rw [compile_fst item i j, compileItems_fst items _ (compile item j).2]

end

/-- **A rule compiles to the same thing, or is rejected for the same reason, whatever rules were
    compiled with its interner before.** -/
theorem compileRule_interner (abi : Abi) (raw : RawRule) (i : AddressSetInterner) :
    (compileRuleWithInterner abi raw i).map Prod.fst = compileRule abi raw := by
  unfold compileRule compileRuleWithInterner
  split
  · rfl
  · split
    · rfl
    · split
      · rfl
      · simp only [bind, Except.bind]
        split
        · rfl
        · split
          · rfl
          · split
            · rfl
            · split
              · rfl
              · rw [Except.map, Except.map, compile_fst raw.condition i AddressSetInterner.new]

/-! ## How a batch is split -/

/-- A raw rule of a batch with these ids is compiled: its id does not repeat and it is valid. -/
def accepted (abi : Abi) (ids : List String) (raw : RawRule) : Bool :=
  decide (ids.count raw.id ≤ 1) && (compileRule abi raw).isOk

/-- The rejection of a raw rule of a batch with these ids. -/
def Rejects (abi : Abi) (ids : List String) (raw : RawRule) (r : RejectedRule) : Prop :=
  r.id = raw.id ∧
    if ids.count raw.id > 1 then r.reason = "duplicate rule id"
    else compileRule abi raw = .error r.reason

/-- The division of a batch: every accepted rule is compiled and every other one is listed as
    rejected, both in the order of the batch. -/
structure Splits (abi : Abi) (ids : List String) (raw : List RawRule)
    (loaded : List CompiledRule × List RejectedRule) : Prop where
  compiled : List.Forall₂ (fun r rule => compileRule abi r = .ok rule)
    (raw.filter (accepted abi ids)) loaded.1
  rejected : List.Forall₂ (Rejects abi ids) (raw.filter (fun r => !accepted abi ids r)) loaded.2

theorem splits_nil (abi : Abi) (ids : List String) : Splits abi ids [] ([], []) := ⟨.nil, .nil⟩

theorem Splits.compile {abi : Abi} {ids : List String} {raw : List RawRule}
    {loaded : List CompiledRule × List RejectedRule} (h : Splits abi ids raw loaded)
    {r : RawRule} {rule : CompiledRule} (hid : ids.count r.id ≤ 1)
    (hc : compileRule abi r = .ok rule) :
    Splits abi ids (r :: raw) (rule :: loaded.1, loaded.2) := by
  have hacc : accepted abi ids r = true := by simp [accepted, hid, hc, Except.isOk, Except.toBool]
  refine ⟨?_, ?_⟩
  · rw [List.filter_cons_of_pos hacc]
    exact .cons hc h.compiled
  · rw [List.filter_cons_of_neg (by simp [hacc])]
    exact h.rejected

theorem Splits.reject {abi : Abi} {ids : List String} {raw : List RawRule}
    {loaded : List CompiledRule × List RejectedRule} (h : Splits abi ids raw loaded)
    {r : RawRule} {x : RejectedRule} (hx : Rejects abi ids r x) :
    Splits abi ids (r :: raw) (loaded.1, x :: loaded.2) := by
  have hacc : accepted abi ids r = false := by
    obtain ⟨-, hx⟩ := hx
    split at hx
    · rename_i hdup
      simp [accepted, Nat.not_le.mpr hdup]
    · simp [accepted, hx, Except.isOk, Except.toBool]
  refine ⟨?_, ?_⟩
  · rw [List.filter_cons_of_neg (by simp [hacc])]
    exact h.compiled
  · rw [List.filter_cons_of_pos (by simp [hacc])]
    exact .cons hx h.rejected

theorem loadLoop_splits (abi : Abi) (ids : List String) : ∀ (raw : List RawRule)
    (i : AddressSetInterner), Splits abi ids raw (loadLoop abi ids raw i)
  | [], _ => splits_nil abi ids
  | r :: rest, i => by
    have hown := compileRule_interner abi r i
    unfold loadLoop
    split
    · rename_i hdup
      apply (loadLoop_splits abi ids rest i).reject
      exact ⟨rfl, by rw [if_pos hdup]⟩
    · rename_i hdup
      split
      · rename_i rule i' hc
        rw [hc] at hown
        exact (loadLoop_splits abi ids rest i').compile (Nat.le_of_not_gt hdup) hown.symm
      · rename_i reason hc
        rw [hc] at hown
        apply (loadLoop_splits abi ids rest i).reject
        exact ⟨rfl, by rw [if_neg hdup]; exact hown.symm⟩

/-- **`load_rules` splits its batch.** -/
theorem loadRules_splits (abi : Abi) (pv cv : Nat) (raw : List RawRule) :
    Splits abi (raw.map (·.id)) raw
      ((loadRules abi pv cv raw).rules, (loadRules abi pv cv raw).rejected) :=
  loadLoop_splits abi (raw.map (·.id)) raw AddressSetInterner.new

theorem exists_of_forall₂ {α β : Type} {R : α → β → Prop} {l : List α} {l' : List β}
    (h : List.Forall₂ R l l') {x : α} (hx : x ∈ l) : ∃ y ∈ l', R x y := by
  induction h with
  | nil => cases hx
  | cons hr _ ih =>
    rcases List.mem_cons.mp hx with rfl | hx
    · exact ⟨_, List.mem_cons_self, hr⟩
    · obtain ⟨y, hy, hxy⟩ := ih hx
      exact ⟨y, List.mem_cons_of_mem _ hy, hxy⟩

theorem compileRule_id {abi : Abi} {raw : RawRule} {rule : CompiledRule}
    (h : compileRule abi raw = .ok rule) : rule.id = raw.id := by
  obtain ⟨i', hc⟩ := compileRule_eq_ok h
  exact (compileRuleWithInterner_ok hc).2.2.1

theorem accepted_count {abi : Abi} {ids : List String} {r : RawRule}
    (h : accepted abi ids r = true) : ids.count r.id ≤ 1 := by
  simp only [accepted, Bool.and_eq_true, decide_eq_true_eq] at h
  exact h.1

/-- **Every occurrence of a repeated id is rejected**, and no rule with that id is loaded. -/
theorem loadRules_duplicate {abi : Abi} {pv cv : Nat} {raw : List RawRule} {r : RawRule}
    (hr : r ∈ raw) (hdup : 1 < (raw.map (·.id)).count r.id) :
    ⟨r.id, "duplicate rule id"⟩ ∈ (loadRules abi pv cv raw).rejected ∧
      ∀ rule ∈ (loadRules abi pv cv raw).rules, rule.id ≠ r.id := by
  have hsplit := loadRules_splits abi pv cv raw
  have hnot : accepted abi (raw.map (·.id)) r = false := by
    rw [← Bool.not_eq_true]
    exact fun h => absurd (accepted_count h) (Nat.not_le.mpr hdup)
  constructor
  · obtain ⟨x, hx, hid, hreason⟩ := exists_of_forall₂ hsplit.rejected
      (List.mem_filter.mpr ⟨hr, by rw [hnot]; rfl⟩)
    rw [if_pos hdup] at hreason
    rw [← hid, ← hreason]
    exact hx
  · intro rule hrule hid
    obtain ⟨r', hr', hc⟩ := exists_of_forall₂ hsplit.compiled.flip hrule
    have hcount := accepted_count (List.mem_filter.mp hr').2
    rw [← compileRule_id hc, hid] at hcount
    omega

/-! ## Installing -/

/-- A rule set that is exactly the compilation, in order, of all rules of a response with a
    supported protocol version, none of them invalid and no id repeated. -/
structure Installs (abi : Abi) (resp : RulesResponse) (set : RuleSet) : Prop where
  supported : isSupportedProtocol resp.protocolVersion = true
  distinct : (resp.rules.map (·.id)).Nodup
  compiled : List.Forall₂ (fun raw rule => compileRule abi raw = .ok rule) resp.rules set.rules
  protocolVersion : set.protocolVersion = resp.protocolVersion
  contentVersion : set.contentVersion = resp.contentVersion
  rejected : set.rejected = []

/-- A batch without rejected rules is compiled whole. -/
theorem accepted_of_rejected_nil {abi : Abi} {pv cv : Nat} {raw : List RawRule}
    (h : (loadRules abi pv cv raw).rejected = []) :
    ∀ r ∈ raw, accepted abi (raw.map (·.id)) r = true := by
  have hrej := (loadRules_splits abi pv cv raw).rejected
  rw [h, List.forall₂_nil_right_iff, List.filter_eq_nil_iff] at hrej
  intro r hr
  simpa using hrej r hr

theorem installs_of_rejected_nil {abi : Abi} {resp : RulesResponse}
    (hs : isSupportedProtocol resp.protocolVersion = true)
    (h : (loadRules abi resp.protocolVersion resp.contentVersion resp.rules).rejected = []) :
    Installs abi resp (loadRules abi resp.protocolVersion resp.contentVersion resp.rules) := by
  have hacc := accepted_of_rejected_nil h
  have hcomp := (loadRules_splits abi resp.protocolVersion resp.contentVersion resp.rules).compiled
  rw [List.filter_eq_self.mpr hacc] at hcomp
  refine ⟨hs, ?_, hcomp, rfl, rfl, h⟩
  rw [List.nodup_iff_count_le_one]
  intro id
  by_cases hid : id ∈ resp.rules.map (·.id)
  · obtain ⟨r, hr, rfl⟩ := List.mem_map.mp hid
    exact accepted_count (hacc r hr)
  · rw [List.count_eq_zero.mpr hid]
    exact Nat.zero_le 1

/-- **The three exits and the installation.** -/
theorem loadAndInstall_cases (abi : Abi) (s : State) (result : Except FilterError RulesResponse) :
    ((loadAndInstall abi s result).1 ≠ .ok true ∧ (loadAndInstall abi s result).2 = s) ∨
      ∃ resp set, result = .ok resp ∧ Installs abi resp set ∧
        loadAndInstall abi s result = (.ok true, s.installRules set) := by
  unfold loadAndInstall
  cases result with
  | error e => exact .inl ⟨by simp, rfl⟩
  | ok resp =>
    cases hs : isSupportedProtocol resp.protocolVersion with
    | false =>
      left
      simp [hs]
    | true =>
      by_cases hrej :
          (loadRules abi resp.protocolVersion resp.contentVersion resp.rules).rejected = []
      · right
        refine ⟨resp, _, rfl, installs_of_rejected_nil hs hrej, ?_⟩
        simp [hs, hrej]
      · left
        simp [hs, hrej]

/-! ## Runs -/

/-- No action of the filter other than `install_rules` touches the rules or the readiness. -/
theorem step_rules {env : Env} {s s' : State} {act : Act} (h : step env s act = some s')
    (hact : ∀ rules, act ≠ .installRules rules) : s'.rules = s.rules ∧ s'.ready = s.ready := by
  cases act with
  | installRules rules => exact absurd rfl (hact rules)
  | screen input => cases h; exact ⟨rfl, rfl⟩
  | callStep i now =>
    obtain ⟨c, -, hc⟩ := Option.bind_eq_some_iff.mp h
    obtain ⟨r, -, rfl⟩ := Option.map_eq_some_iff.mp hc
    exact ⟨rfl, rfl⟩
  | submitCollect now => cases h; exact ⟨rfl, rfl⟩
  | submitGroup i now =>
    obtain ⟨group, -, rfl⟩ := Option.map_eq_some_iff.mp h
    dsimp only
    split
    · exact ⟨rfl, rfl⟩
    · exact ⟨rfl, rfl⟩
  | submitReply i reply now =>
    obtain ⟨expected, -, rfl⟩ := Option.map_eq_some_iff.mp h
    cases reply with
    | none => exact ⟨rfl, rfl⟩
    | some accepted => exact ⟨rfl, rfl⟩
  | queryStart now =>
    simp only [step] at h
    split at h
    · cases h; exact ⟨rfl, rfl⟩
    · cases h; exact ⟨rfl, rfl⟩
  | queryReply i reply now =>
    obtain ⟨task, -, ht⟩ := Option.bind_eq_some_iff.mp h
    split at ht
    · cases ht
    · cases reply with
      | none => cases ht; exact ⟨rfl, rfl⟩
      | some rows => cases ht; exact ⟨rfl, rfl⟩
  | timeoutTick now => cases h; exact ⟨rfl, rfl⟩
  | removeCanonical hashes => cases h; exact ⟨rfl, rfl⟩
  | recoverLag => cases h; exact ⟨rfl, rfl⟩
  | removeNonTerminal hash generation => cases h; exact ⟨rfl, rfl⟩
  | emit i =>
    obtain ⟨event, -, rfl⟩ := Option.map_eq_some_iff.mp h
    exact ⟨rfl, rfl⟩

/-- **What one step does to the rules**: nothing, or the whole of one response. -/
theorem updateStep_cases {env : Env} {u u' : Updating} {e : UpdateEvent}
    (h : updateStep env u e = some u') :
    (u'.filter.rules = u.filter.rules ∧ u'.filter.ready = u.filter.ready) ∨
      ∃ resp, e = .rules (.ok resp) ∧ Installs env.abi resp u'.filter.rules ∧
        u'.filter.ready = true := by
  have hload : ∀ result, (loadAndInstall env.abi u.filter result).2 = u'.filter →
      e = .rules result →
      (u'.filter.rules = u.filter.rules ∧ u'.filter.ready = u.filter.ready) ∨
        ∃ resp, e = .rules (.ok resp) ∧ Installs env.abi resp u'.filter.rules ∧
          u'.filter.ready = true := by
    intro result hs he
    rcases loadAndInstall_cases env.abi u.filter result with ⟨-, hc⟩ | ⟨resp, set, rfl, hin, hc⟩
    · rw [← hs, hc]
      exact .inl ⟨rfl, rfl⟩
    · rw [← hs, hc]
      exact .inr ⟨resp, he, hin, rfl⟩
  cases e with
  | rules result =>
    simp only [updateStep] at h
    split at h
    · split at h
      · rename_i s hs
        cases h
        exact hload result (by rw [hs]) rfl
      · rename_i r s hs
        cases h
        exact hload result (by rw [hs]) rfl
    · cases h
      exact hload result rfl rfl
    · cases h
  | version result =>
    simp only [updateStep] at h
    split at h
    · cases h; exact .inl ⟨rfl, rfl⟩
    · cases h
    · cases h
  | restart => cases h; exact .inl ⟨rfl, rfl⟩
  | other act hact =>
    obtain ⟨s, hs, rfl⟩ := Option.map_eq_some_iff.mp h
    exact .inl (step_rules hs hact)

/-- Where the rules in force come from. -/
def InForce (env : Env) (events : List UpdateEvent) (s : State) : Prop :=
  (s.rules = RuleSet.default ∧ s.ready = false) ∨
    ∃ resp, .rules (.ok resp) ∈ events ∧ Installs env.abi resp s.rules ∧ s.ready = true

theorem run_inForce (env : Env) (events : List UpdateEvent) :
    ∀ u, runFrom (updateStep env) Updating.new events = some u → InForce env events u.filter := by
  refine runFrom_induction (fun events (u : Updating) => InForce env events u.filter)
    (.inl ⟨rfl, rfl⟩) ?_ events
  intro events u e u' _ ih hstep
  rcases updateStep_cases hstep with ⟨hrules, hready⟩ | ⟨resp, rfl, hin, hready⟩
  · unfold InForce
    rw [hrules, hready]
    rcases ih with ih | ⟨resp, hmem, hin⟩
    · exact .inl ih
    · exact .inr ⟨resp, List.mem_append_left _ hmem, hin⟩
  · exact .inr ⟨resp, by simp, hin, hready⟩

theorem run_ready (env : Env) (u : Updating) (hready : u.filter.ready = true)
    (events : List UpdateEvent) :
    ∀ u', runFrom (updateStep env) u events = some u' → u'.filter.ready = true := by
  refine runFrom_induction (fun _ (u' : Updating) => u'.filter.ready = true) hready ?_ events
  intro events s e s' _ ih hstep
  rcases updateStep_cases hstep with ⟨-, hkeep⟩ | ⟨-, -, -, hset⟩
  · rw [hkeep, ih]
  · exact hset

/-- **Rule updates are all or nothing**, in every run of the filter with its rules worker, for
    every sequence of answers and every interleaving with the other actions of the filter. -/
theorem rule_updates_atomic (env : Env) :
    -- one answer: nothing changes, or the whole response is compiled and installed
    (∀ (s : State) result,
      ((loadAndInstall env.abi s result).1 ≠ .ok true ∧ (loadAndInstall env.abi s result).2 = s) ∨
      ∃ resp set, result = .ok resp ∧ Installs env.abi resp set ∧
        loadAndInstall env.abi s result = (.ok true, s.installRules set)) ∧
    -- every step of every run
    (∀ events (u : Updating) e (u' : Updating),
      runFrom (updateStep env) Updating.new events = some u → updateStep env u e = some u' →
      u'.filter.rules = u.filter.rules ∨
        ∃ resp, e = .rules (.ok resp) ∧ Installs env.abi resp u'.filter.rules) ∧
    (∀ events (u : Updating), runFrom (updateStep env) Updating.new events = some u →
      InForce env events u.filter) ∧
    -- `load_rules` splits its batch in order, and every occurrence of a repeated id is rejected
    (∀ pv cv raw, Splits env.abi (raw.map (·.id)) raw
        ((loadRules env.abi pv cv raw).rules, (loadRules env.abi pv cv raw).rejected) ∧
      ∀ r ∈ raw, 1 < (raw.map (·.id)).count r.id →
        ⟨r.id, "duplicate rule id"⟩ ∈ (loadRules env.abi pv cv raw).rejected ∧
          ∀ rule ∈ (loadRules env.abi pv cv raw).rules, rule.id ≠ r.id) ∧
    -- the interner decides neither whether a rule is accepted nor what it evaluates to
    (∀ raw i, (compileRuleWithInterner env.abi raw i).map Prod.fst = compileRule env.abi raw ∧
      ∀ j rule rule' k k', compileRuleWithInterner env.abi raw i = .ok (rule, k) →
        compileRuleWithInterner env.abi raw j = .ok (rule', k') →
        ∀ b, evalCompiled b rule.compiledCondition = evalCompiled b rule'.compiledCondition) ∧
    -- readiness is never cleared
    (∀ (u : Updating) events (u' : Updating), u.filter.ready = true →
      runFrom (updateStep env) u events = some u' → u'.filter.ready = true) := by
  refine ⟨loadAndInstall_cases env.abi, ?_, run_inForce env, ?_, ?_,
    fun u events u' hr => run_ready env u hr events u'⟩
  · intro events u e u' _ hstep
    rcases updateStep_cases hstep with ⟨hrules, -⟩ | ⟨resp, he, hin, -⟩
    · exact .inl hrules
    · exact .inr ⟨resp, he, hin⟩
  · intro pv cv raw
    exact ⟨loadRules_splits env.abi pv cv raw, fun r hr hdup => loadRules_duplicate hr hdup⟩
  · intro raw i
    refine ⟨compileRule_interner env.abi raw i, ?_⟩
    intro j rule rule' k k' hi hj b
    have hsame := (compileRule_interner env.abi raw i).trans
      (compileRule_interner env.abi raw j).symm
    rw [hi, hj] at hsame
    have hrule : rule = rule' := Except.ok.inj hsame
    rw [hrule]

/-- A first load, then a reload whose batch repeats an id. -/
def reloadEvents : List UpdateEvent :=
  [.rules (.error (.transport "connection refused")), .rules (.ok ⟨1, 1, [transferRule]⟩),
    .version (.ok ⟨1, 2⟩), .rules (.ok ⟨1, 2, [transferRule, transferRule]⟩)]

theorem rule_updates_atomic_reload :
    ∃ u, runFrom (updateStep transferEnv) Updating.new reloadEvents = some u ∧
      u.filter.rules.contentVersion = 1 ∧ InForce transferEnv reloadEvents u.filter ∧
      ∀ events u', runFrom (updateStep transferEnv) u events = some u' →
        u'.filter.ready = true := by
  obtain ⟨u, hu⟩ : ∃ u, runFrom (updateStep transferEnv) Updating.new reloadEvents = some u :=
    Option.isSome_iff_exists.mp (by decide)
  have hstate : (runFrom (updateStep transferEnv) Updating.new reloadEvents).map
      (fun u => (u.filter.rules.contentVersion, u.filter.ready)) = some (1, true) := by
    decide
  rw [hu, Option.map_some, Option.some.injEq, Prod.mk.injEq] at hstate
  obtain ⟨-, -, hforce, -, -, hready⟩ := rule_updates_atomic transferEnv
  exact ⟨u, hu, hstate.1, hforce _ _ hu, fun events u' => hready u events u' hstate.2⟩

end XLayerReth.RcsFilter
