import XLayerReth.RcsFilter.Matching

/-!
# What the matcher decides

The declarative reading of a rule snapshot, and that `evaluateChecked` computes it:

* `IsBinding` — a complete binding gives each declared event one of its decoded logs, or null
  exactly when it has none.
* `Hit` — an admitted rule of an action with a complete binding that satisfies its condition.
* `Reports` — some satisfied audit rule listing a type binds a log.

The loop is first reduced to two lists: whether some deny rule is hit, and the sequence of
audit hits (`auditHits`) in visiting order; the accumulators are then a fold of
`EvalState.record` over that sequence.

Principal result: `evaluateChecked_spec`.
-/

set_option autoImplicit false

namespace XLayerReth.RcsFilter

open Lib

/-! ## Declarative reading -/

/-- A complete binding of a rule over the logs of a transaction. -/
def IsBinding (abi : Abi) (rule : CompiledRule) (logs : List Log) (binding : Binding) : Prop :=
  List.Forall₂ (fun event slot =>
    match slot with
    | some m => m ∈ findLogsForEvent abi event logs
    | none => findLogsForEvent abi event logs = []) rule.events binding

/-- The rule's condition, as evaluated on the matching hot path, holds of a binding. -/
def Satisfies (rule : CompiledRule) (input : ScreenInput) (binding : Binding) : Prop :=
  evalCompiled (buildBindings rule input binding) rule.compiledCondition = true

/-- An admitted rule of the snapshot with this action and a satisfying complete binding. -/
structure Hit (abi : Abi) (rules : RuleSet) (input : ScreenInput) (action : Action)
    (rule : CompiledRule) (binding : Binding) : Prop where
  mem : rule ∈ rules.rules
  act : rule.action = action
  admitted : rule.admits input = true
  complete : IsBinding abi rule input.logs binding
  satisfied : Satisfies rule input binding

/-- A satisfied audit rule, by a binding with at least one physical log. -/
def AuditHit (abi : Abi) (rules : RuleSet) (input : ScreenInput) (rule : CompiledRule)
    (binding : Binding) : Prop :=
  Hit abi rules input .audit rule binding ∧ ∃ m, some m ∈ binding

/-- The log at index `i` is bound by a satisfying binding of an audit rule listing `t`, whose
    event reports `item` for it. -/
def Reports (abi : Abi) (rules : RuleSet) (input : ScreenInput) (t : String) (i : Nat)
    (item : ActionItem) : Prop :=
  ∃ rule binding, Hit abi rules input .audit rule binding ∧ t ∈ rule.auditTypes ∧
    ∃ event m, (event, some m) ∈ rule.events.zip binding ∧ m.logIndex = i ∧
      item = ⟨event.varName, m.address, m.params⟩

/-- The log at index `i` is bound by a satisfying binding of an audit rule listing `t`. -/
def Binds (abi : Abi) (rules : RuleSet) (input : ScreenInput) (t : String) (i : Nat) : Prop :=
  ∃ item, Reports abi rules input t i item

/-! ## Visiting the bindings of one rule -/

/-- The complete bindings of a rule, in visiting order. -/
def bindingsOf (abi : Abi) (input : ScreenInput) (rule : CompiledRule) : List Binding :=
  combinations (rule.candidates abi input)

theorem mem_bindingsOf {abi : Abi} {input : ScreenInput} {rule : CompiledRule}
    {binding : Binding} :
    binding ∈ bindingsOf abi input rule ↔ IsBinding abi rule input.logs binding := by
  unfold bindingsOf CompiledRule.candidates IsBinding
  rw [mem_combinations, List.forall₂_map_right_iff]
  simp only [mem_eventCandidates]
  exact ⟨List.Forall₂.flip, List.Forall₂.flip⟩

/-- The rule's condition holds of a binding (decision of `Satisfies`). -/
def satisfied (rule : CompiledRule) (input : ScreenInput) (binding : Binding) : Bool :=
  evalCompiled (buildBindings rule input binding) rule.compiledCondition

/-- A deny rule that some complete binding satisfies. -/
def denies (abi : Abi) (input : ScreenInput) (rule : CompiledRule) : Bool :=
  rule.admits input && rule.action == .deny &&
    (bindingsOf abi input rule).any (satisfied rule input)

/-- The satisfying bindings of an audit rule that carry a physical log, in visiting order. -/
def ruleHits (abi : Abi) (input : ScreenInput) (rule : CompiledRule) : List Binding :=
  if rule.admits input && rule.action == .audit then
    (bindingsOf abi input rule).filter (fun b => satisfied rule input b && b.any Option.isSome)
  else []

/-- The accumulators without the binding counter. -/
def EvalState.noCount (s : EvalState) : EvalState := { s with completeBindingCount := 0 }

/-- Fold the hits of one rule into the accumulators. -/
def recordAll (s : EvalState) (hits : List (CompiledRule × Binding)) : EvalState :=
  hits.foldl (fun s h => s.record h.1 h.2) s

theorem recordAll_append (s : EvalState) (h₁ h₂ : List (CompiledRule × Binding)) :
    recordAll s (h₁ ++ h₂) = recordAll (recordAll s h₁) h₂ := List.foldl_append

theorem noCount_recordAll : ∀ (hits : List (CompiledRule × Binding)) (s : EvalState),
    (recordAll s hits).noCount = recordAll s.noCount hits
  | [], _ => rfl
  | h :: hits, s => by
    have := noCount_recordAll hits (s.record h.1 h.2)
    exact this

/-- What a visit does: leave on a satisfied deny rule, record a physical audit hit, or nothing. -/
theorem visit_eq (rule : CompiledRule) (input : ScreenInput) (s : EvalState) (b : Binding) :
    visit rule input s b =
      if satisfied rule input b && rule.action == .deny then .error .deny
      else .ok (recordAll s (if rule.action == .audit && (satisfied rule input b &&
        b.any Option.isSome) then [(rule, b)] else [])) := by
  unfold visit
  cases hs : satisfied rule input b with
  | false =>
    rw [if_neg (by rw [← satisfied, hs]; simp)]
    simp [recordAll]
  | true =>
    rw [if_pos (by rw [← satisfied, hs])]
    cases hact : rule.action with
    | deny => rfl
    | allow => rfl
    | audit =>
      cases hb : b.any Option.isSome <;> rfl

/-- Visiting a list of bindings: a satisfied deny rule leaves the loop, and otherwise every
    physical audit hit is recorded in order. -/
theorem visitAll_eq (rule : CompiledRule) (input : ScreenInput) :
    ∀ (bs : List Binding) (s : EvalState),
      bs.foldlM (visit rule input) s =
        if bs.any (satisfied rule input) && rule.action == .deny then .error .deny
        else .ok (recordAll s (if rule.action == .audit then
          (bs.filter (fun b => satisfied rule input b && b.any Option.isSome)).map (rule, ·)
          else []))
  | [], s => by
    rw [foldlM_nil]
    cases hact : rule.action <;> simp [recordAll]
  | b :: bs, s => by
    rw [foldlM_cons, visit_eq]
    split
    · rename_i h
      obtain ⟨hsat, hact⟩ := Bool.and_eq_true_iff.mp h
      rw [if_pos (by simp [hsat, hact])]
      rfl
    · rename_i h
      simp only [Except.bind]
      rw [visitAll_eq rule input bs]
      have hany : ((b :: bs).any (satisfied rule input) && rule.action == .deny) =
          (bs.any (satisfied rule input) && rule.action == .deny) := by
        cases hact : rule.action == .deny with
        | false => simp
        | true =>
          have : satisfied rule input b = false := by simpa [hact] using h
          simp [this]
      rw [hany, ← recordAll_append]
      congr 3
      cases hact : rule.action == .audit with
      | false => simp
      | true =>
        cases hb : satisfied rule input b && b.any Option.isSome with
        | false => simp [hb]
        | true => simp [hb]

/-- The exit of one rule: a budget error, or a satisfied deny rule. -/
theorem evalRule_error {abi : Abi} {input : ScreenInput} {budget : Nat} {s : EvalState}
    {rule : CompiledRule} {r : Except MatchError MatchOutcome}
    (h : evalRule abi input budget s rule = .error r) :
    (∃ e, r = .error e) ∨ (r = .ok .deny ∧ denies abi input rule = true) := by
  unfold evalRule at h
  split at h
  · rename_i hadm
    dsimp only at h
    split at h
    · cases h; exact .inl ⟨_, rfl⟩
    · split at h
      · cases h; exact .inl ⟨_, rfl⟩
      · split at h
        · cases h; exact .inl ⟨_, rfl⟩
        · rw [visitCombinations_eq] at h
          simp only [List.nil_append] at h
          rw [visitAll_eq] at h
          split at h
          · rename_i o ho
            cases h
            split at ho
            · rename_i hdeny
              cases ho
              refine .inr ⟨rfl, ?_⟩
              unfold denies bindingsOf
              obtain ⟨hany, hact⟩ := Bool.and_eq_true_iff.mp hdeny
              rw [hadm, hact, hany]
              rfl
            · cases ho
          · cases h
  · cases h

/-- One rule that does not leave the loop: it is no satisfied deny rule, and its physical audit
    hits are recorded in visiting order. -/
theorem evalRule_ok {abi : Abi} {input : ScreenInput} {budget : Nat} {s s' : EvalState}
    {rule : CompiledRule} (h : evalRule abi input budget s rule = .ok s') :
    denies abi input rule = false ∧
      s'.noCount = recordAll s.noCount ((ruleHits abi input rule).map (rule, ·)) := by
  unfold evalRule at h
  split at h
  · rename_i hadm
    dsimp only at h
    split at h
    · cases h
    · split at h
      · cases h
      · split at h
        · cases h
        · rw [visitCombinations_eq] at h
          simp only [List.nil_append] at h
          rw [visitAll_eq] at h
          split at h
          · cases h
          · rename_i s₁ hs₁
            cases h
            split at hs₁
            · cases hs₁
            · rename_i hdeny
              cases hs₁
              refine ⟨?_, ?_⟩
              · unfold denies bindingsOf
                rw [hadm, Bool.true_and, Bool.and_comm]
                exact Bool.eq_false_iff.mpr hdeny
              · rw [noCount_recordAll]
                unfold ruleHits bindingsOf
                rw [hadm, Bool.true_and]
                cases rule.action == .audit <;> rfl
  · rename_i hadm
    cases h
    have hadm' : rule.admits input = false := by simpa using hadm
    refine ⟨by simp [denies, hadm'], ?_⟩
    simp [ruleHits, hadm', recordAll]

/-! ## The whole loop -/

/-- The audit hits of a rule list, in visiting order. -/
def auditHits (abi : Abi) (input : ScreenInput) (rules : List CompiledRule) :
    List (CompiledRule × Binding) :=
  rules.flatMap (fun rule => (ruleHits abi input rule).map (rule, ·))

/-- **The loop in terms of hits**: a result is a denial by a satisfied deny rule, or the record
    of all audit hits when no deny rule is satisfied. -/
theorem evaluateChecked_ok {abi : Abi} {rules : RuleSet} {input : ScreenInput} {budget : Nat}
    {out : MatchOutcome} (h : evaluateChecked abi rules input budget = .ok out) :
    (out = .deny ∧ ∃ rule ∈ rules.rules, denies abi input rule = true) ∨
      ((∀ rule ∈ rules.rules, denies abi input rule = false) ∧
        out = (recordAll EvalState.new (auditHits abi input rules.rules)).finish) := by
  unfold evaluateChecked at h
  split at h
  · rename_i r hr
    obtain ⟨pre, rule, post, s₁, hl, -, hrule⟩ := foldlM_error hr
    have hmem : rule ∈ rules.rules := by rw [hl]; simp
    rcases evalRule_error hrule with ⟨e, he⟩ | ⟨he, hd⟩
    · rw [he] at h; cases h
    · rw [he] at h
      cases h
      exact .inl ⟨rfl, rule, hmem, hd⟩
  · rename_i s hs
    cases h
    have hinv := foldlM_ok (f := evalRule abi input budget)
      (fun pre s => (∀ rule ∈ pre, denies abi input rule = false) ∧
        s.noCount = recordAll EvalState.new (auditHits abi input pre))
      (fun pre rule s s' hp hstep => by
        obtain ⟨hd, hrec⟩ := evalRule_ok hstep
        refine ⟨fun r hr => ?_, ?_⟩
        · rcases List.mem_append.mp hr with hr | hr
          · exact hp.1 r hr
          · rw [List.mem_singleton.mp hr]
            exact hd
        · rw [hrec, hp.2, ← recordAll_append]
          simp [auditHits])
      [] ⟨by simp, rfl⟩ hs
    rw [List.nil_append] at hinv
    refine .inr ⟨hinv.1, ?_⟩
    rw [← hinv.2]
    rfl

/-! ## What a sequence of hits records -/

/-- The action recorded for a type and a log, if any. -/
def recorded (acts : ActionsByLog) (t : String) (i : Nat) : Option ActionItem :=
  (acts.get? t).bind (·.get? i)

/-- The first of the items for a log. -/
def itemFor (items : List (Nat × ActionItem)) (i : Nat) : Option ActionItem :=
  (items.find? (fun p => p.1 = i)).map Prod.snd

theorem get?_insertItems (i : Nat) : ∀ (items : List (Nat × ActionItem))
    (m : OrdMap Nat ActionItem), (insertItems items m).get? i = (m.get? i).or (itemFor items i)
  | [], m => by simp [insertItems, itemFor]
  | p :: items, m => by
    have ih := get?_insertItems i items (m.orInsert p.1 p.2)
    unfold insertItems at ih ⊢
    rw [List.foldl_cons, ih, OrdMap.get?_orInsert]
    by_cases h : i = p.1
    · subst h
      cases hm : m.get? p.1 <;> simp [itemFor]
    · have h' : p.1 ≠ i := Ne.symm h
      simp [itemFor, h, h']

theorem isSome_insertTypes (items : List (Nat × ActionItem)) (t : String) :
    ∀ (types : List String) (acts : ActionsByLog),
      ((insertTypes items types acts).get? t).isSome ↔ t ∈ types ∨ (acts.get? t).isSome
  | [], acts => by simp [insertTypes]
  | u :: types, acts => by
    have ih := isSome_insertTypes items t types
      (acts.alter u (fun old => insertItems items (old.getD OrdMap.empty)))
    unfold insertTypes at ih ⊢
    rw [List.foldl_cons, ih, OrdMap.get?_alter, List.mem_cons]
    by_cases h : t = u
    · simp [h]
    · simp [h]

theorem recorded_insertTypes (items : List (Nat × ActionItem)) (t : String) (i : Nat) :
    ∀ (types : List String) (acts : ActionsByLog),
      recorded (insertTypes items types acts) t i =
        if t ∈ types then (recorded acts t i).or (itemFor items i) else recorded acts t i
  | [], acts => by simp [insertTypes]
  | u :: types, acts => by
    have ih := recorded_insertTypes items t i types
      (acts.alter u (fun old => insertItems items (old.getD OrdMap.empty)))
    have halter : recorded (acts.alter u (fun old => insertItems items (old.getD OrdMap.empty))) t i
        = if t = u then (recorded acts t i).or (itemFor items i) else recorded acts t i := by
      unfold recorded
      rw [OrdMap.get?_alter]
      by_cases h : t = u
      · subst h
        rw [if_pos rfl, if_pos rfl, Option.bind_some, get?_insertItems]
        cases acts.get? t with
        | none => simp [OrdMap.get?_empty]
        | some m => rfl
      · rw [if_neg h, if_neg h]
    unfold insertTypes at ih ⊢
    rw [List.foldl_cons, ih, halter]
    by_cases h : t = u
    · subst h
      by_cases hm : t ∈ types
      · cases recorded acts t i <;> simp [hm]
      · simp [hm]
    · simp [h]

/-- An item is found for a log exactly when some bound item has that log's index. -/
theorem itemFor_eq_some {items : List (Nat × ActionItem)} {i : Nat} {item : ActionItem}
    (h : itemFor items i = some item) : (i, item) ∈ items := by
  obtain ⟨p, hp, rfl⟩ := Option.map_eq_some_iff.mp h
  have hk : p.1 = i := by simpa using List.find?_some hp
  rw [← hk]
  exact List.mem_of_find?_eq_some hp

theorem itemFor_eq_none {items : List (Nat × ActionItem)} {i : Nat}
    (h : itemFor items i = none) (item : ActionItem) : (i, item) ∉ items := by
  intro hm
  have := List.find?_eq_none.mp (Option.map_eq_none_iff.mp h) _ hm
  simp at this

/-- The state of the accumulators after a sequence of audit hits. -/
structure Records (hits : List (CompiledRule × Binding)) (s : EvalState) : Prop where
  audit : s.hasAudit = true ↔ hits ≠ []
  timeout : s.timeoutAction = .deny ↔ ∃ h ∈ hits, h.1.auditTimeoutAction = .deny
  types : ∀ t, (s.actionsByLog.get? t).isSome ↔ ∃ h ∈ hits, t ∈ h.1.auditTypes
  sound : ∀ t i item, recorded s.actionsByLog t i = some item →
    ∃ h ∈ hits, t ∈ h.1.auditTypes ∧ (i, item) ∈ boundItems h.1 h.2
  complete : ∀ t i, recorded s.actionsByLog t i = none →
    ∀ h ∈ hits, t ∈ h.1.auditTypes → ∀ item, (i, item) ∉ boundItems h.1 h.2

theorem records_new : Records [] EvalState.new where
  audit := by simp [EvalState.new]
  timeout := by simp [EvalState.new]
  types := by simp [EvalState.new, OrdMap.get?_empty]
  sound := by simp [EvalState.new, recorded, OrdMap.get?_empty]
  complete := by simp

theorem records_record {hits : List (CompiledRule × Binding)} {s : EvalState}
    (hr : Records hits s) (rule : CompiledRule) (b : Binding) :
    Records (hits ++ [(rule, b)]) (s.record rule b) where
  audit := by simp [EvalState.record]
  timeout := by
    simp only [EvalState.record, TimeoutAction.stricter_eq_deny, hr.timeout, List.mem_append,
      List.mem_singleton]
    constructor
    · rintro (⟨h, hh, hd⟩ | hd)
      · exact ⟨h, .inl hh, hd⟩
      · exact ⟨(rule, b), .inr rfl, hd⟩
    · rintro ⟨h, hh | rfl, hd⟩
      · exact .inl ⟨h, hh, hd⟩
      · exact .inr hd
  types := by
    intro t
    simp only [EvalState.record, isSome_insertTypes, hr.types, List.mem_append,
      List.mem_singleton]
    constructor
    · rintro (ht | ⟨h, hh, ht⟩)
      · exact ⟨(rule, b), .inr rfl, ht⟩
      · exact ⟨h, .inl hh, ht⟩
    · rintro ⟨h, hh | rfl, ht⟩
      · exact .inr ⟨h, hh, ht⟩
      · exact .inl ht
  sound := by
    intro t i item h
    simp only [EvalState.record, recorded_insertTypes] at h
    have hold : recorded s.actionsByLog t i = some item →
        ∃ h ∈ hits ++ [(rule, b)], t ∈ h.1.auditTypes ∧ (i, item) ∈ boundItems h.1 h.2 := by
      intro ho
      obtain ⟨h, hh, ht, hb⟩ := hr.sound t i item ho
      exact ⟨h, List.mem_append_left _ hh, ht, hb⟩
    split at h
    · rename_i ht
      rcases Option.or_eq_some_iff.mp h with h | ⟨-, h⟩
      · exact hold h
      · exact ⟨(rule, b), by simp, ht, itemFor_eq_some h⟩
    · exact hold h
  complete := by
    intro t i h g hg ht item
    simp only [EvalState.record, recorded_insertTypes] at h
    rcases List.mem_append.mp hg with hg | hg
    · refine hr.complete t i ?_ g hg ht item
      split at h
      · exact (Option.or_eq_none_iff.mp h).1
      · exact h
    · rw [List.mem_singleton.mp hg] at ht ⊢
      rw [if_pos ht] at h
      exact itemFor_eq_none (Option.or_eq_none_iff.mp h).2 item

/-- **The accumulators describe exactly the hits folded into them.** -/
theorem records_recordAll : ∀ (hits pre : List (CompiledRule × Binding)) {s : EvalState},
    Records pre s → Records (pre ++ hits) (recordAll s hits)
  | [], pre, s, h => by simpa [recordAll] using h
  | x :: hits, pre, s, h => by
    have := records_recordAll hits (pre ++ [x]) (records_record h x.1 x.2)
    rwa [List.append_assoc] at this

/-! ## Hits, declaratively -/

theorem denies_iff {abi : Abi} {rules : RuleSet} {input : ScreenInput} :
    (∃ rule ∈ rules.rules, denies abi input rule = true) ↔
      ∃ rule binding, Hit abi rules input .deny rule binding := by
  constructor
  · rintro ⟨rule, hmem, hd⟩
    simp only [denies, Bool.and_eq_true, beq_iff_eq, List.any_eq_true] at hd
    obtain ⟨⟨hadm, hact⟩, b, hb, hsat⟩ := hd
    exact ⟨rule, b, hmem, hact, hadm, mem_bindingsOf.mp hb, hsat⟩
  · rintro ⟨rule, b, h⟩
    refine ⟨rule, h.mem, ?_⟩
    simp only [denies, Bool.and_eq_true, beq_iff_eq, List.any_eq_true]
    exact ⟨⟨h.admitted, h.act⟩, b, mem_bindingsOf.mpr h.complete, h.satisfied⟩

theorem mem_auditHits {abi : Abi} {rules : RuleSet} {input : ScreenInput}
    {h : CompiledRule × Binding} :
    h ∈ auditHits abi input rules.rules ↔ AuditHit abi rules input h.1 h.2 := by
  have hphys : ∀ b : Binding, b.any Option.isSome = true ↔ ∃ m, some m ∈ b := by
    intro b
    simp only [List.any_eq_true]
    constructor
    · rintro ⟨x, hx, hs⟩
      obtain ⟨m, rfl⟩ := Option.isSome_iff_exists.mp hs
      exact ⟨m, hx⟩
    · rintro ⟨m, hm⟩
      exact ⟨some m, hm, rfl⟩
  unfold auditHits
  simp only [List.mem_flatMap, List.mem_map]
  constructor
  · rintro ⟨rule, hmem, b, hb, rfl⟩
    unfold ruleHits at hb
    split at hb
    · rename_i hc
      simp only [Bool.and_eq_true, beq_iff_eq] at hc
      rw [List.mem_filter, Bool.and_eq_true] at hb
      obtain ⟨hb, hsat, hp⟩ := hb
      exact ⟨⟨hmem, hc.2, hc.1, mem_bindingsOf.mp hb, hsat⟩, (hphys b).mp hp⟩
    · cases hb
  · rintro ⟨hit, hp⟩
    refine ⟨h.1, hit.mem, h.2, ?_, rfl⟩
    unfold ruleHits
    rw [if_pos (by simp [hit.admitted, hit.act]), List.mem_filter, Bool.and_eq_true]
    exact ⟨mem_bindingsOf.mpr hit.complete, hit.satisfied, (hphys h.2).mpr hp⟩

theorem mem_boundItems {rule : CompiledRule} {b : Binding} {i : Nat} {item : ActionItem} :
    (i, item) ∈ boundItems rule b ↔
      ∃ event m, (event, some m) ∈ rule.events.zip b ∧ m.logIndex = i ∧
        item = ⟨event.varName, m.address, m.params⟩ := by
  unfold boundItems
  rw [List.mem_filterMap]
  constructor
  · rintro ⟨⟨event, slot⟩, hz, hs⟩
    obtain ⟨m, hm, he⟩ := Option.map_eq_some_iff.mp hs
    cases he
    rw [show slot = some m from hm] at hz
    exact ⟨event, m, hz, rfl, rfl⟩
  · rintro ⟨event, m, hz, rfl, rfl⟩
    exact ⟨(event, some m), hz, rfl⟩

theorem reports_iff {abi : Abi} {rules : RuleSet} {input : ScreenInput} {t : String} {i : Nat}
    {item : ActionItem} :
    Reports abi rules input t i item ↔
      ∃ h ∈ auditHits abi input rules.rules, t ∈ h.1.auditTypes ∧
        (i, item) ∈ boundItems h.1 h.2 := by
  constructor
  · rintro ⟨rule, b, hit, ht, event, m, hz, hi, hitem⟩
    refine ⟨(rule, b), mem_auditHits.mpr ⟨hit, m, (List.of_mem_zip hz).2⟩, ht, ?_⟩
    exact mem_boundItems.mpr ⟨event, m, hz, hi, hitem⟩
  · rintro ⟨h, hh, ht, hb⟩
    exact ⟨h.1, h.2, (mem_auditHits.mp hh).1, ht, mem_boundItems.mp hb⟩

/-- A physical log of a complete binding is bound to an event of the rule. -/
theorem boundItems_ne_nil {abi : Abi} {rules : RuleSet} {input : ScreenInput}
    {rule : CompiledRule} {b : Binding} (h : AuditHit abi rules input rule b) :
    ∃ i item, (i, item) ∈ boundItems rule b := by
  obtain ⟨hit, m, hm⟩ := h
  have hlen : b.length ≤ rule.events.length := le_of_eq hit.complete.length_eq.symm
  have hsnd : (rule.events.zip b).map Prod.snd = b := List.map_snd_zip hlen
  rw [← hsnd] at hm
  obtain ⟨⟨event, slot⟩, hz, hs⟩ := List.mem_map.mp hm
  rw [show slot = some m from hs] at hz
  exact ⟨m.logIndex, _, mem_boundItems.mpr ⟨event, m, hz, rfl, rfl⟩⟩

/-! ## The specification -/

/-- What the reported actions of an audited transaction are. -/
structure ReportedActions (abi : Abi) (rules : RuleSet) (input : ScreenInput)
    (actions : Actions) : Prop where
  /-- The keys are the types under which some log is bound. -/
  keys : ∀ t, (actions.get? t).isSome ↔ ∃ i, Binds abi rules input t i
  /-- Under a type there is one item for each bound log, in ascending log order. -/
  items : ∀ t items, actions.get? t = some items →
    items ≠ [] ∧ ∃ indices : List Nat, indices.Pairwise (· < ·) ∧
      (∀ i, i ∈ indices ↔ Binds abi rules input t i) ∧
      List.Forall₂ (fun i item => Reports abi rules input t i item) indices items
  nonempty : actions.keys ≠ []

theorem reportedActions_of_records {abi : Abi} {rules : RuleSet} {input : ScreenInput}
    {s : EvalState} (hr : Records (auditHits abi input rules.rules) s)
    (htypes : ∀ rule ∈ rules.rules, rule.action = .audit → rule.auditTypes ≠ [])
    (haudit : s.hasAudit = true) :
    ReportedActions abi rules input (s.actionsByLog.mapValues OrdMap.values) := by
  have hbinds : ∀ t i, (∃ item, recorded s.actionsByLog t i = some item) ↔
      Binds abi rules input t i := by
    intro t i
    constructor
    · rintro ⟨item, h⟩
      exact ⟨item, reports_iff.mpr (hr.sound t i item h)⟩
    · rintro ⟨item, h⟩
      obtain ⟨g, hg, ht, hb⟩ := reports_iff.mp h
      rw [← Option.ne_none_iff_exists']
      exact fun hn => hr.complete t i hn g hg ht item hb
  have hkeys : ∀ t, (s.actionsByLog.get? t).isSome ↔ ∃ i, Binds abi rules input t i := by
    intro t
    rw [hr.types]
    constructor
    · rintro ⟨h, hh, ht⟩
      obtain ⟨i, item, hb⟩ := boundItems_ne_nil (mem_auditHits.mp hh)
      exact ⟨i, item, reports_iff.mpr ⟨h, hh, ht, hb⟩⟩
    · rintro ⟨i, item, h⟩
      obtain ⟨g, hg, ht, -⟩ := reports_iff.mp h
      exact ⟨g, hg, ht⟩
  refine ⟨fun t => ?_, fun t items h => ?_, ?_⟩
  · rw [OrdMap.get?_mapValues, Option.isSome_map, hkeys]
  · rw [OrdMap.get?_mapValues] at h
    obtain ⟨byLog, hlog, rfl⟩ := Option.map_eq_some_iff.mp h
    have hrec : ∀ i, recorded s.actionsByLog t i = byLog.get? i := by
      intro i
      rw [recorded, hlog, Option.bind_some]
    have hidx : ∀ i, i ∈ byLog.keys ↔ Binds abi rules input t i := by
      intro i
      rw [OrdMap.mem_keys, ← hbinds]
      simp only [hrec]
    have hall : List.Forall₂ (fun i item => Reports abi rules input t i item) byLog.keys
        byLog.values := by
      refine OrdMap.values_keys byLog fun i item hi => reports_iff.mpr (hr.sound t i item ?_)
      rw [hrec, hi]
    refine ⟨?_, byLog.keys, byLog.sorted, hidx, hall⟩
    obtain ⟨i, hi⟩ := (hkeys t).mp (by simp [hlog])
    intro hnil
    rw [hnil, List.forall₂_nil_right_iff] at hall
    have := (hidx i).mpr hi
    rw [hall] at this
    cases this
  · obtain ⟨h, hits, hh⟩ := List.exists_cons_of_ne_nil (hr.audit.mp haudit)
    have hmem : h ∈ auditHits abi input rules.rules := by rw [hh]; exact List.mem_cons_self
    have hit := (mem_auditHits.mp hmem).1
    obtain ⟨t, ts, ht⟩ := List.exists_cons_of_ne_nil (htypes h.1 hit.mem hit.act)
    have hsome := (hr.types t).mpr ⟨h, hmem, by rw [ht]; exact List.mem_cons_self⟩
    have hk : t ∈ (s.actionsByLog.mapValues OrdMap.values).keys := by
      rw [OrdMap.mem_keys, ← Option.isSome_iff_exists, OrdMap.get?_mapValues, Option.isSome_map]
      exact hsome
    intro hnil
    rw [hnil] at hk
    cases hk

/-- **Matcher specification**, for every snapshot that `loadRules` produces, every transaction
    and every budget within which the evaluation succeeds. -/
theorem evaluateChecked_spec (abi : Abi) (protocolVersion contentVersion : Nat)
    (raw : List RawRule) (input : ScreenInput) (budget : Nat) (out : MatchOutcome)
    (h : evaluateChecked abi (loadRules abi protocolVersion contentVersion raw) input budget =
      .ok out) :
    let rules := loadRules abi protocolVersion contentVersion raw
    let Denied := ∃ rule binding, Hit abi rules input .deny rule binding
    let Audited := ∃ rule binding, AuditHit abi rules input rule binding
    (out = .deny ↔ Denied) ∧
      ((∃ actions timeout, out = .audit actions timeout) ↔ ¬ Denied ∧ Audited) ∧
      (out = .allow ↔ ¬ Denied ∧ ¬ Audited) ∧
      (∀ actions timeout, out = .audit actions timeout →
        ReportedActions abi rules input actions ∧
        (timeout = .deny ↔ ∃ rule binding, AuditHit abi rules input rule binding ∧
          rule.auditTimeoutAction = .deny)) ∧
      -- the compiled condition that decides `Satisfies` is the rule's condition, but for flips
      (∀ rule ∈ rules.rules, ∀ binding, Satisfies rule input binding ↔
        (truthy rule.condition (buildBindings rule input binding) !=
          flips (buildBindings rule input binding) rule.condition) = true) := by
  intro rules Denied Audited
  have hverdict : ∀ rule ∈ rules.rules, ∀ binding, Satisfies rule input binding ↔
      (truthy rule.condition (buildBindings rule input binding) !=
        flips (buildBindings rule input binding) rule.condition) = true := by
    intro rule hrule binding
    rw [Satisfies, loadRules_verdict hrule]
  rcases evaluateChecked_ok h with ⟨rfl, hd⟩ | ⟨hnd, rfl⟩
  · have hden : Denied := denies_iff.mp hd
    refine ⟨⟨fun _ => hden, fun _ => rfl⟩, ?_, ?_, ?_, hverdict⟩
    · exact ⟨fun ⟨_, _, h⟩ => (by cases h), fun h => absurd hden h.1⟩
    · exact ⟨fun h => (by cases h), fun h => absurd hden h.1⟩
    · intro _ _ h
      cases h
  · have hden : ¬ Denied := by
      intro hd
      obtain ⟨rule, hmem, hd⟩ := denies_iff.mpr hd
      rw [hnd rule hmem] at hd
      cases hd
    have hr := records_recordAll (auditHits abi input rules.rules) [] records_new
    rw [List.nil_append] at hr
    have haud : (recordAll EvalState.new (auditHits abi input rules.rules)).hasAudit = true ↔
        Audited := by
      rw [hr.audit]
      constructor
      · intro hne
        obtain ⟨g, hits, hg⟩ := List.exists_cons_of_ne_nil hne
        exact ⟨g.1, g.2, mem_auditHits.mp (by rw [hg]; exact List.mem_cons_self)⟩
      · rintro ⟨rule, b, hit⟩ hnil
        have : (rule, b) ∈ auditHits abi input rules.rules := mem_auditHits.mpr hit
        rw [hnil] at this
        cases this
    unfold EvalState.finish
    cases hb : (recordAll EvalState.new (auditHits abi input rules.rules)).hasAudit with
    | false =>
      have hna : ¬ Audited := fun ha => by rw [haud.mpr ha] at hb; cases hb
      refine ⟨⟨fun h => (by cases h), fun h => absurd h hden⟩, ?_, ?_, ?_, hverdict⟩
      · exact ⟨fun ⟨_, _, h⟩ => (by cases h), fun h => absurd h.2 hna⟩
      · exact ⟨fun _ => ⟨hden, hna⟩, fun _ => rfl⟩
      · intro _ _ h
        cases h
    | true =>
      have ha : Audited := haud.mp hb
      refine ⟨⟨fun h => (by cases h), fun h => absurd h hden⟩, ?_, ?_, ?_, hverdict⟩
      · exact ⟨fun _ => ⟨hden, ha⟩, fun _ => ⟨_, _, rfl⟩⟩
      · exact ⟨fun h => (by cases h), fun h => absurd ha h.2⟩
      · intro actions timeout h
        cases h
        refine ⟨reportedActions_of_records hr (fun rule => loadRules_auditTypes) hb, ?_⟩
        rw [hr.timeout]
        constructor
        · rintro ⟨g, hg, hd⟩
          exact ⟨g.1, g.2, mem_auditHits.mp hg, hd⟩
        · rintro ⟨rule, b, hit, hd⟩
          exact ⟨(rule, b), mem_auditHits.mpr hit, hd⟩

section Transfer

/-- The ABI library on the types and logs of an ERC20 transfer. -/
def transferAbi : Abi where
  parse s := if s = "address" then .ok .address else if s = "uint256" then .ok (.uint 256)
    else .error "unsupported type"
  solTypeName
    | .address => "address"
    | _ => "uint256"
  -- the two byte strings hashed for `transferInput`: the event signature and its quota encoding
  keccak256 bytes :=
    if bytes = "Transfer(address,address,uint256)".toUTF8.data.toList then
      0xddf252ad1be2c89b69c2b068fc378daa952ba7f163c4a11628f55a4df523b3ef
    else 0x0f7a64184a980dc43d015e312cd2260966bc467b0df309d1d521747ce7066fcf
  decodeLogParts selector _ _ topics data :=
    match topics with
    | [t, src, dst] =>
      if selector = some t ∧ data.length = 32 then
        some ⟨[.address (src.setWidth 160), .address (dst.setWidth 160)],
          [.uint (data.foldl (fun n b => n * 256 + b.toNat) 0) 256]⟩
      else none
    | _ => none
  debugValue _ := ""
  addressError _ := "invalid address"

/-- An audit rule on every ERC20 transfer. -/
def transferRule : RawRule where
  id := "transfers"
  contractAddress := none
  origin := none
  eventAbis := OrdMap.ofList [("transfer", ⟨"event", "Transfer",
    [⟨some "from", "address", true⟩, ⟨some "to", "address", true⟩,
      ⟨some "value", "uint256", false⟩], false⟩)]
  auditTypes := [quota]
  condition := .bool true
  action := .audit
  auditTimeoutAction := some .deny

/-- A transaction with one transfer of 5 units. -/
def transferInput : ScreenInput where
  txHash := 1
  origin := 0xa
  txTo := some 0xc
  nonce := 7
  value := 0
  blockHeight := 100
  logs := [⟨0xc, [0xddf252ad1be2c89b69c2b068fc378daa952ba7f163c4a11628f55a4df523b3ef, 0xa, 0xb],
    List.replicate 31 0 ++ [5]⟩]

/-- The single reported action of `transferInput`. -/
def transferItem : ActionItem :=
  ⟨"transfer", "0x000000000000000000000000000000000000000c", OrdMap.ofList
    [("from", .str "0x000000000000000000000000000000000000000a"),
      ("to", .str "0x000000000000000000000000000000000000000b"), ("value", .str "5")]⟩

theorem evaluateChecked_spec_transfer :
    ReportedActions transferAbi (loadRules transferAbi 1 1 [transferRule]) transferInput
      (OrdMap.ofList [(quota, [transferItem])]) :=
  ((evaluateChecked_spec transferAbi 1 1 [transferRule] transferInput 10000
    (.audit (OrdMap.ofList [(quota, [transferItem])]) .deny) (by decide)).2.2.2.1
      _ _ rfl).1

end Transfer

end XLayerReth.RcsFilter
