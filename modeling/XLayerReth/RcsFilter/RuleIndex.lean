import XLayerReth.RcsFilter.RuleOrder
import Mathlib.Algebra.Order.BigOperators.Group.List
import Mathlib.Data.List.Sort

/-!
# The rule index

Model of the two indices that `load_rules` builds over its rules, by `topic0` and by the number of
indexed topics of an anonymous event, and of `candidate_rule_indices`, the rules that a
transaction's logs select.  The matcher evaluates every rule; the candidates are kept for a faster
path.

* `indexRules`, `candidateRuleIndices` — the indices and the lookup.
* `evaluateCandidates` — the evaluation of the candidates alone.

Principal results: `mem_candidateRuleIndices` — the candidates are exactly the rules with an event
whose shape fits some log; `candidates_agree` — when judging the candidates alone is enough.
-/

set_option autoImplicit false

namespace XLayerReth.RcsFilter

open Lib

/-! ## Building the index -/

/-- The indices of a `RuleSet`. -/
structure RuleIndex where
  index : B256 → List Nat
  anonymousIndex : Nat → List Nat

/-- `entry(key).or_default().push(idx)`. -/
def pushAt {κ : Type} [DecidableEq κ] (index : κ → List Nat) (key : κ) (idx : Nat) : κ → List Nat :=
  fun k => if k = key then index k ++ [idx] else index k

/-- One event of the rule at `idx`. -/
def RuleIndex.addEvent (idx : Nat) (ix : RuleIndex) (event : CompiledEvent) : RuleIndex :=
  if event.anonymous then
    { ix with anonymousIndex :=
        pushAt ix.anonymousIndex (event.inputs.countP (fun input => input.indexed)) idx }
  else { ix with index := pushAt ix.index event.topic0 idx }

/-- The loop of `load_rules` over the rules that passed. -/
def indexRules (rules : List CompiledRule) : RuleIndex :=
  rules.zipIdx.foldl (fun ix p => p.1.events.foldl (RuleIndex.addEvent p.2) ix)
    ⟨fun _ => [], fun _ => []⟩

/-! ## The candidates -/

/-- `set.insert(idx)` for each index. -/
def insertIndices (set : OrdMap Nat Unit) (indices : List Nat) : OrdMap Nat Unit :=
  indices.foldl (fun set idx => set.insert idx ()) set

/-- The rules that one log selects. -/
def RuleIndex.forLog (ix : RuleIndex) (log : Log) : List Nat :=
  (match log.topics.head? with
    | some topic0 => ix.index topic0
    | none => []) ++ ix.anonymousIndex log.topics.length

/-- `candidate_rule_indices`. -/
def candidateRuleIndices (rules : List CompiledRule) (logs : List Log) : List Nat :=
  (logs.foldl (fun set log => insertIndices set ((indexRules rules).forLog log)) OrdMap.empty).keys

/-- The snapshot with the rules at the given indices only. -/
def RuleSet.restrict (rules : RuleSet) (indices : List Nat) : RuleSet :=
  { rules with rules := indices.filterMap (fun idx => rules.rules[idx]?) }

/-- `evaluate_checked` over the candidates. -/
def evaluateCandidates (abi : Abi) (rules : RuleSet) (input : ScreenInput) (budget : Nat) :
    Except MatchError MatchOutcome :=
  evaluateChecked abi (rules.restrict (candidateRuleIndices rules.rules input.logs)) input budget

/-! ## What the index holds -/

theorem mem_pushAt {κ : Type} [DecidableEq κ] {index : κ → List Nat} {key k : κ} {idx i : Nat} :
    i ∈ pushAt index key idx k ↔ i ∈ index k ∨ k = key ∧ i = idx := by
  unfold pushAt
  by_cases hk : k = key
  · simp [hk]
  · simp [hk]

/-- An event adds its rule for the logs whose shape fits it. -/
theorem mem_forLog_addEvent (ix : RuleIndex) (idx i : Nat) (event : CompiledEvent) (log : Log) :
    i ∈ (ix.addEvent idx event).forLog log ↔
      i ∈ ix.forLog log ∨ i = idx ∧ eventMatchesShape event log = true := by
  unfold RuleIndex.addEvent RuleIndex.forLog eventMatchesShape
  cases hanon : event.anonymous with
  | true =>
    rw [if_pos rfl, List.mem_append, mem_pushAt, List.mem_append, or_assoc, if_pos rfl]
    simp only [beq_iff_eq, and_comm]
  | false =>
    cases hhead : log.topics.head? with
    | none => simp
    | some topic0 =>
      simp only [Bool.false_eq_true, if_false, List.mem_append, mem_pushAt, beq_iff_eq,
        Option.some.injEq]
      tauto

theorem mem_forLog_indexRules {rules : List CompiledRule} {log : Log} {i : Nat} :
    i ∈ (indexRules rules).forLog log ↔
      ∃ rule, rules[i]? = some rule ∧ ∃ event ∈ rule.events,
        eventMatchesShape event log = true := by
  have hrule : ∀ (ix : RuleIndex) (p : CompiledRule × Nat),
      i ∈ (p.1.events.foldl (RuleIndex.addEvent p.2) ix).forLog log ↔ i ∈ ix.forLog log ∨
        ∃ event ∈ p.1.events, i = p.2 ∧ eventMatchesShape event log = true := fun ix p =>
    foldl_or_iff (P := fun ix => i ∈ RuleIndex.forLog ix log)
      (fun ix event => mem_forLog_addEvent ix p.2 i event log) p.1.events ix
  have hempty : i ∉ RuleIndex.forLog ⟨fun _ => [], fun _ => []⟩ log := by
    unfold RuleIndex.forLog
    cases log.topics.head? <;> simp
  rw [indexRules, foldl_or_iff (P := fun ix => i ∈ RuleIndex.forLog ix log) hrule]
  constructor
  · rintro (h | ⟨p, hp, event, hevent, rfl, hshape⟩)
    · exact absurd h hempty
    · exact ⟨p.1, List.mem_zipIdx_iff_getElem?.mp hp, event, hevent, hshape⟩
  · rintro ⟨rule, hrule, event, hevent, hshape⟩
    exact .inr ⟨(rule, i), List.mem_zipIdx_iff_getElem?.mpr hrule, event, hevent, rfl, hshape⟩

theorem isSome_insertIndices (i : Nat) (set : OrdMap Nat Unit) (indices : List Nat) :
    i ∈ (insertIndices set indices).keys ↔ i ∈ set.keys ∨ i ∈ indices := by
  have hone : ∀ (set : OrdMap Nat Unit) (idx : Nat),
      i ∈ (set.insert idx ()).keys ↔ i ∈ set.keys ∨ i = idx := by
    intro set idx
    rw [OrdMap.mem_keys, OrdMap.mem_keys]
    simp only [OrdMap.get?_insert]
    by_cases h : i = idx
    · simp [h]
    · simp [h]
  rw [insertIndices, foldl_or_iff (P := fun set => i ∈ OrdMap.keys set) hone]
  simp

/-- **The candidates are exactly the rules with an event whose shape fits some log.** -/
theorem mem_candidateRuleIndices {rules : List CompiledRule} {logs : List Log} {i : Nat} :
    i ∈ candidateRuleIndices rules logs ↔
      ∃ rule, rules[i]? = some rule ∧
        ∃ event ∈ rule.events, ∃ log ∈ logs, eventMatchesShape event log = true := by
  rw [candidateRuleIndices, foldl_or_iff (P := fun set => i ∈ OrdMap.keys set)
    (fun set log => isSome_insertIndices i set ((indexRules rules).forLog log))]
  simp only [mem_forLog_indexRules]
  constructor
  · rintro (h | ⟨log, hlog, rule, hrule, event, hevent, hshape⟩)
    · cases h
    · exact ⟨rule, hrule, event, hevent, log, hlog, hshape⟩
  · rintro ⟨rule, hrule, event, hevent, log, hlog, hshape⟩
    exact .inr ⟨log, hlog, rule, hrule, event, hevent, hshape⟩

theorem sorted_candidateRuleIndices (rules : List CompiledRule) (logs : List Log) :
    (candidateRuleIndices rules logs).Pairwise (· < ·) := OrdMap.sorted _

/-! ## Judging the candidates alone -/

/-- No event of the rule has a shape that fits a log of the transaction. -/
def Unmatched (rule : CompiledRule) (logs : List Log) : Prop :=
  ∀ event ∈ rule.events, ∀ log ∈ logs, eventMatchesShape event log = false

/-- A deny rule that is admitted and satisfied with all its events null. -/
structure DeniesUnbound (input : ScreenInput) (rule : CompiledRule) : Prop where
  act : rule.action = .deny
  admitted : rule.admits input = true
  satisfied : Satisfies rule input (rule.events.map (fun _ => none))

theorem not_mem_candidates {rules : List CompiledRule} {logs : List Log} {i : Nat}
    {rule : CompiledRule} (hrule : rules[i]? = some rule) :
    i ∉ candidateRuleIndices rules logs ↔ Unmatched rule logs := by
  rw [mem_candidateRuleIndices]
  constructor
  · intro h event hevent log hlog
    by_contra hshape
    exact h ⟨rule, hrule, event, hevent, log, hlog, by simpa using hshape⟩
  · rintro h ⟨rule', hrule', event, hevent, log, hlog, hshape⟩
    cases hrule.symm.trans hrule'
    rw [h event hevent log hlog] at hshape
    cases hshape

/-- An unmatched rule has one binding, with every event null. -/
theorem bindingsOf_unmatched {abi : Abi} {input : ScreenInput} {rule : CompiledRule}
    (h : Unmatched rule input.logs) :
    bindingsOf abi input rule = [rule.events.map (fun _ => none)] := by
  have hnone : ∀ event ∈ rule.events, eventCandidates abi event input.logs = [none] := by
    intro event hevent
    have hnil : findLogsForEvent abi event input.logs = [] := by
      rw [List.eq_nil_iff_forall_not_mem]
      intro m hm
      obtain ⟨log, hlog, hshape, -⟩ := mem_findLogsForEvent.mp hm
      rw [h event hevent log (List.mem_of_getElem? hlog)] at hshape
      cases hshape
    rw [eventCandidates, hnil]
    rfl
  rw [bindingsOf, CompiledRule.candidates, List.map_congr_left hnone]
  generalize rule.events = events
  induction events with
  | nil => rfl
  | cons event events ih =>
    rw [List.map_cons, combinations, ih]
    rfl

/-- An unmatched rule reports nothing. -/
theorem ruleHits_unmatched {abi : Abi} {input : ScreenInput} {rule : CompiledRule}
    (h : Unmatched rule input.logs) : ruleHits abi input rule = [] := by
  unfold ruleHits
  rw [bindingsOf_unmatched h]
  split
  · simp
  · rfl

theorem denies_unmatched {abi : Abi} {input : ScreenInput} {rule : CompiledRule}
    (h : Unmatched rule input.logs) : denies abi input rule = true ↔ DeniesUnbound input rule := by
  unfold denies
  rw [bindingsOf_unmatched h]
  simp only [List.any_cons, List.any_nil, Bool.or_false, Bool.and_eq_true, beq_iff_eq]
  constructor
  · rintro ⟨⟨hadm, hact⟩, hsat⟩
    exact ⟨hact, hadm, hsat⟩
  · rintro ⟨hact, hadm, hsat⟩
    exact ⟨⟨hadm, hact⟩, hsat⟩

/-- The candidates are the rules of the snapshot that are not skipped, in order. -/
theorem restrict_candidates (rules : RuleSet) (logs : List Log) :
    (rules.restrict (candidateRuleIndices rules.rules logs)).rules =
      (rules.rules.zipIdx.filter
        (fun p => p.2 ∈ candidateRuleIndices rules.rules logs)).map Prod.fst := by
  have hindices : candidateRuleIndices rules.rules logs =
      (rules.rules.zipIdx.filter
        (fun p => p.2 ∈ candidateRuleIndices rules.rules logs)).map Prod.snd := by
    have hsorted : ((rules.rules.zipIdx.filter
        (fun p => p.2 ∈ candidateRuleIndices rules.rules logs)).map Prod.snd).Pairwise (· < ·) := by
      refine List.Pairwise.sublist ((List.filter_sublist).map Prod.snd) ?_
      rw [List.zipIdx_map_snd]
      exact List.pairwise_lt_range'
    refine List.Pairwise.eq_of_mem_iff (sorted_candidateRuleIndices _ _) hsorted ?_
    intro i
    rw [List.mem_map]
    constructor
    · intro hi
      obtain ⟨rule, hrule, -⟩ := mem_candidateRuleIndices.mp hi
      have hmem : (rule, i) ∈ rules.rules.zipIdx := List.mem_zipIdx_iff_getElem?.mpr hrule
      exact ⟨(rule, i), List.mem_filter.mpr ⟨hmem, by simpa using hi⟩, rfl⟩
    · rintro ⟨p, hp, rfl⟩
      simpa using (List.mem_filter.mp hp).2
  have hget : ∀ p ∈ rules.rules.zipIdx.filter
      (fun p => p.2 ∈ candidateRuleIndices rules.rules logs),
      ((fun idx => rules.rules[idx]?) ∘ Prod.snd) p = some p.1 := by
    intro p hp
    exact List.mem_zipIdx_iff_getElem?.mp (List.mem_filter.mp hp).1
  calc (rules.restrict (candidateRuleIndices rules.rules logs)).rules
      = ((rules.rules.zipIdx.filter
          (fun p => p.2 ∈ candidateRuleIndices rules.rules logs)).map Prod.snd).filterMap
            (fun idx => rules.rules[idx]?) := congrArg (List.filterMap _) hindices
    _ = _ := by
      rw [List.filterMap_map, List.filterMap_congr hget, List.filterMap_eq_map']

/-- Nothing is reported for the rules that are skipped. -/
theorem auditHits_candidates (abi : Abi) (rules : RuleSet) (input : ScreenInput) :
    auditHits abi input (rules.restrict (candidateRuleIndices rules.rules input.logs)).rules =
      auditHits abi input rules.rules := by
  rw [restrict_candidates]
  have hskip : ∀ l : List (CompiledRule × Nat), (∀ p ∈ l, rules.rules[p.2]? = some p.1) →
      auditHits abi input ((l.filter
        (fun p => p.2 ∈ candidateRuleIndices rules.rules input.logs)).map Prod.fst) =
          auditHits abi input (l.map Prod.fst) := by
    intro l
    induction l with
    | nil => exact fun _ => rfl
    | cons p l ih =>
      intro hl
      have hrest := ih (fun q hq => hl q (List.mem_cons_of_mem _ hq))
      simp only [auditHits] at hrest ⊢
      by_cases hp : p.2 ∈ candidateRuleIndices rules.rules input.logs
      · rw [List.filter_cons_of_pos (by simpa using hp), List.map_cons, List.flatMap_cons, hrest,
          List.map_cons, List.flatMap_cons]
      · have hunmatched := (not_mem_candidates (hl p (List.mem_cons_self ..))).mp hp
        rw [List.filter_cons_of_neg (by simpa using hp), hrest, List.map_cons, List.flatMap_cons,
          ruleHits_unmatched hunmatched, List.map_nil, List.nil_append]
  have hall := hskip rules.rules.zipIdx (fun p hp => List.mem_zipIdx_iff_getElem?.mp hp)
  rwa [List.zipIdx_map_fst] at hall

/-- The candidates add no more bindings than all rules. -/
theorem totalWeight_candidates (abi : Abi) (rules : RuleSet) (input : ScreenInput) :
    totalWeight abi input (rules.restrict (candidateRuleIndices rules.rules input.logs)).rules ≤
      totalWeight abi input rules.rules := by
  rw [restrict_candidates]
  have hsub : ((rules.rules.zipIdx.filter
      (fun p => p.2 ∈ candidateRuleIndices rules.rules input.logs)).map Prod.fst).Sublist
        rules.rules := by
    have := (List.filter_sublist (l := rules.rules.zipIdx)
      (p := fun p => p.2 ∈ candidateRuleIndices rules.rules input.logs)).map Prod.fst
    rwa [List.zipIdx_map_fst] at this
  exact (hsub.map (bindingWeight abi input)).sum_le_sum (fun _ _ => Nat.zero_le _)

/-- A rule denies exactly if a candidate does, or one that is skipped does with its events null. -/
theorem denies_candidates (abi : Abi) (rules : RuleSet) (input : ScreenInput) :
    (∀ rule ∈ rules.rules, denies abi input rule = false) ↔
      (∀ rule ∈ (rules.restrict (candidateRuleIndices rules.rules input.logs)).rules,
        denies abi input rule = false) ∧
      ∀ rule ∈ rules.rules, Unmatched rule input.logs → ¬ DeniesUnbound input rule := by
  have hmem : ∀ rule, rule ∈ (rules.restrict (candidateRuleIndices rules.rules input.logs)).rules ↔
      ∃ i, rules.rules[i]? = some rule ∧ i ∈ candidateRuleIndices rules.rules input.logs := by
    intro rule
    rw [RuleSet.restrict, List.mem_filterMap]
    simp only [and_comm]
  constructor
  · intro h
    refine ⟨fun rule hrule => ?_, fun rule hrule hunmatched hdenies => ?_⟩
    · obtain ⟨i, hi, -⟩ := (hmem rule).mp hrule
      exact h rule (List.mem_of_getElem? hi)
    · have := h rule hrule
      rw [(denies_unmatched hunmatched).mpr hdenies] at this
      cases this
  · rintro ⟨hcandidates, hskipped⟩ rule hrule
    obtain ⟨i, hi⟩ := List.getElem?_of_mem hrule
    by_cases hcand : i ∈ candidateRuleIndices rules.rules input.logs
    · exact hcandidates rule ((hmem rule).mpr ⟨i, hi, hcand⟩)
    · have hunmatched := (not_mem_candidates hi).mp hcand
      rw [Bool.eq_false_iff]
      exact fun hd => hskipped rule hrule hunmatched ((denies_unmatched hunmatched).mp hd)

theorem verdictClass_finish (s : EvalState) : verdictClass (.ok s.finish) ≠ .refused := by
  unfold EvalState.finish
  split <;> exact fun h => by cases h

/-- A result that is not refused comes from a loop that ran to its end. -/
theorem not_refused_iff {abi : Abi} {rules : RuleSet} {input : ScreenInput} {budget : Nat} :
    verdictClass (evaluateChecked abi rules input budget) ≠ .refused ↔
      ∃ s, ruleLoop abi input budget rules = .ok s := by
  cases hloop : ruleLoop abi input budget rules with
  | error r => simp [verdictClass_of_error hloop]
  | ok s =>
    rw [evaluateChecked_of_ok hloop]
    exact ⟨fun _ => ⟨s, rfl⟩, fun _ => verdictClass_finish s⟩

/-- **Judging the candidates alone**, for every snapshot, transaction and budget: a transaction is
    let through by the whole evaluation exactly if the candidates let it through, no skipped rule
    denies with its events null, and the bindings of all rules fit the budget; the outcome is then
    that of the candidates, with the same reported actions and timeout action. -/
theorem candidates_agree (abi : Abi) (rules : RuleSet) (input : ScreenInput) (budget : Nat) :
    (verdictClass (evaluateChecked abi rules input budget) ≠ .refused ↔
      verdictClass (evaluateCandidates abi rules input budget) ≠ .refused ∧
        (∀ rule ∈ rules.rules, Unmatched rule input.logs → ¬ DeniesUnbound input rule) ∧
        Fits budget (totalWeight abi input rules.rules)) ∧
    (verdictClass (evaluateChecked abi rules input budget) ≠ .refused →
      evaluateChecked abi rules input budget = evaluateCandidates abi rules input budget) := by
  have hends : (∃ s, ruleLoop abi input budget rules = .ok s) ↔
      (∃ s, ruleLoop abi input budget
        (rules.restrict (candidateRuleIndices rules.rules input.logs)) = .ok s) ∧
        (∀ rule ∈ rules.rules, Unmatched rule input.logs → ¬ DeniesUnbound input rule) ∧
        Fits budget (totalWeight abi input rules.rules) := by
    rw [ruleLoop_ok_iff, ruleLoop_ok_iff, denies_candidates]
    constructor
    · rintro ⟨⟨hcandidates, hskipped⟩, hfits⟩
      exact ⟨⟨hcandidates, hfits.mono (totalWeight_candidates abi rules input)⟩, hskipped, hfits⟩
    · rintro ⟨⟨hcandidates, -⟩, hskipped, hfits⟩
      exact ⟨⟨hcandidates, hskipped⟩, hfits⟩
  unfold evaluateCandidates
  refine ⟨by rw [not_refused_iff, not_refused_iff, hends], fun hfull => ?_⟩
  obtain ⟨s, hs⟩ := not_refused_iff.mp hfull
  obtain ⟨⟨s', hs'⟩, -⟩ := hends.mp ⟨s, hs⟩
  rw [evaluateChecked_of_ok hs, evaluateChecked_of_ok hs']
  -- both loops recorded the same hits, and the outcome does not depend on the count
  have hsame : s.noCount = s'.noCount := by
    rw [(screened_of_ruleLoop hs).accumulators, (screened_of_ruleLoop hs').accumulators,
      auditHits_candidates]
  have hfinish : s.noCount.finish = s'.noCount.finish := congrArg EvalState.finish hsame
  exact congrArg Except.ok hfinish

end XLayerReth.RcsFilter
