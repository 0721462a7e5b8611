import XLayerReth.RcsFilter.MatchingSpec
import Mathlib.Algebra.BigOperators.Group.List.Basic

/-!
# The order of the rules

The loop of `evaluate_checked` leaves at the first satisfied deny rule and at the first rule whose
bindings do not fit into what the rules before it left of the budget, so two orders of the same
rules take different exits.

* `bindingWeight` — the complete bindings a rule adds to the count.
* `ruleLoop_ok_iff` — the loop runs to its end exactly when no rule denies and the whole weight
  fits; neither depends on the order.
* `EvalState.reportedLogs` — for each audit type, the reported logs with their addresses.

Principal result: `ruleOrder_irrelevant`.
-/

set_option autoImplicit false

namespace XLayerReth.RcsFilter

open Lib

/-! ## Verdict classes -/

/-- The fail-closed class of a result: a budget error counts as a denial. -/
inductive VerdictClass where
  | refused
  | audit
  | allow
  deriving DecidableEq, Repr

def verdictClass : Except MatchError MatchOutcome → VerdictClass
  | .error _ => .refused
  | .ok .deny => .refused
  | .ok (.audit _ _) => .audit
  | .ok .allow => .allow

/-- The loop over the rules of `evaluate_checked`. -/
def ruleLoop (abi : Abi) (input : ScreenInput) (budget : Nat) (rules : RuleSet) :
    Except (Except MatchError MatchOutcome) EvalState :=
  rules.rules.foldlM (evalRule abi input budget) EvalState.new

/-- For each audit type, the index and the address of every log reported under it. -/
def EvalState.reportedLogs (s : EvalState) : OrdMap String (OrdMap Nat String) :=
  s.actionsByLog.mapValues (fun byLog => byLog.mapValues ActionItem.address)

/-! ## Binding counts -/

/-- The complete bindings a rule adds to the count of its transaction. -/
def bindingWeight (abi : Abi) (input : ScreenInput) (rule : CompiledRule) : Nat :=
  if rule.admits input then ((rule.candidates abi input).map List.length).prod else 0

/-- Every event has a candidate, null if nothing else. -/
theorem one_le_candidates {abi : Abi} {input : ScreenInput} {rule : CompiledRule} {n : Nat}
    (h : n ∈ (rule.candidates abi input).map List.length) : 1 ≤ n := by
  simp only [CompiledRule.candidates, List.map_map, List.mem_map, Function.comp] at h
  obtain ⟨event, -, rfl⟩ := h
  unfold eventCandidates
  cases findLogsForEvent abi event input.logs with
  | nil => simp
  | cons m ms => simp

theorem one_le_prod : ∀ {counts : List Nat}, (∀ n ∈ counts, 1 ≤ n) → 1 ≤ counts.prod
  | [], _ => by simp
  | n :: counts, h => by
    rw [List.prod_cons]
    have hn : 1 ≤ n := h n (by simp)
    have hrest : 1 ≤ counts.prod := one_le_prod (fun m hm => h m (by simp [hm]))
    exact Nat.mul_le_mul hn hrest

/-- With every factor at least one a partial product never exceeds the whole one, so the checked
    product fails exactly when the product does not fit. -/
theorem foldlM_checkedMul : ∀ (counts : List Nat) (acc : Nat), (∀ n ∈ counts, 1 ≤ n) →
    1 ≤ acc → acc < 2 ^ 64 →
    counts.foldlM checkedMul acc =
      if acc * counts.prod < 2 ^ 64 then some (acc * counts.prod) else none
  | [], acc, _, _, hlt => by
    rw [List.prod_nil, Nat.mul_one, if_pos hlt]
    rfl
  | n :: counts, acc, h, hacc, hlt => by
    have hn : 1 ≤ n := h n (by simp)
    have hrest : ∀ m ∈ counts, 1 ≤ m := fun m hm => h m (by simp [hm])
    have hprod : acc * n ≤ acc * n * counts.prod :=
      Nat.le_mul_of_pos_right _ (one_le_prod hrest)
    rw [List.foldlM_cons, List.prod_cons, ← Nat.mul_assoc]
    unfold checkedMul
    by_cases hfit : acc * n < 2 ^ 64
    · rw [if_pos hfit]
      have hone : 1 ≤ acc * n := Nat.mul_le_mul hacc hn
      exact foldlM_checkedMul counts (acc * n) hrest hone hfit
    · rw [if_neg hfit, if_neg (by omega)]
      rfl

theorem checkedBindingCount_eq {abi : Abi} {input : ScreenInput} {rule : CompiledRule}
    (h : rule.admits input = true) :
    checkedBindingCount ((rule.candidates abi input).map List.length) =
      if bindingWeight abi input rule < 2 ^ 64 then some (bindingWeight abi input rule)
      else none := by
  unfold checkedBindingCount bindingWeight
  rw [foldlM_checkedMul _ 1 (fun _ hn => one_le_candidates hn) (by simp) (by simp), if_pos h,
    Nat.one_mul]

/-- A count of complete bindings within the machine word and the budget. -/
def Fits (budget count : Nat) : Prop := count < 2 ^ 64 ∧ count ≤ budget

instance (budget count : Nat) : Decidable (Fits budget count) :=
  inferInstanceAs (Decidable (_ ∧ _))

theorem Fits.mono {budget m n : Nat} (h : Fits budget n) (hle : m ≤ n) : Fits budget m :=
  ⟨lt_of_le_of_lt hle h.1, le_trans hle h.2⟩

/-! ## One rule -/

/-- The error of a rule whose bindings do not fit. -/
def budgetError (budget : Nat) (rule : CompiledRule) (count : Nat) : MatchError :=
  if count < 2 ^ 64 then .bindingBudgetExceeded rule.id count budget
  else .bindingCountOverflow rule.id

/-- The checked count of an admitted rule by its exits: the two overflows and the budget are one
    comparison with the exact count. -/
theorem checkedCount_exits {γ : Type} {abi : Abi} {input : ScreenInput} {rule : CompiledRule}
    (hadm : rule.admits input = true) (budget sofar : Nat) (overflow : γ)
    (exceeded visited : Nat → γ) :
    (match checkedBindingCount ((rule.candidates abi input).map List.length) with
      | none => overflow
      | some ruleBindingCount =>
        match checkedAdd sofar ruleBindingCount with
        | none => overflow
        | some count => if count > budget then exceeded count else visited count) =
      let count := sofar + bindingWeight abi input rule
      if Fits budget count then visited count
      else if count < 2 ^ 64 then exceeded count else overflow := by
  rw [checkedBindingCount_eq hadm]
  by_cases hweight : bindingWeight abi input rule < 2 ^ 64
  · rw [if_pos hweight]
    dsimp only [checkedAdd]
    by_cases hlt : sofar + bindingWeight abi input rule < 2 ^ 64
    · rw [if_pos hlt]
      dsimp only
      by_cases hle : sofar + bindingWeight abi input rule ≤ budget
      · rw [if_neg (Nat.not_lt.mpr hle), if_pos ⟨hlt, hle⟩]
      · rw [if_pos (Nat.not_le.mp hle), if_neg (fun h => hle h.2), if_pos hlt]
    · rw [if_neg hlt, if_neg (fun h => hlt h.1), if_neg hlt]
  · have hlt : ¬ sofar + bindingWeight abi input rule < 2 ^ 64 := by omega
    rw [if_neg hweight]
    dsimp only
    rw [if_neg (fun h => hlt h.1), if_neg hlt]

/-- **One iteration by its three exits**: a rule that is not admitted is skipped, one whose bindings
    do not fit is an error before any of them is visited, and otherwise they are visited in
    order. -/
theorem evalRule_eq (abi : Abi) (input : ScreenInput) (budget : Nat) (s : EvalState)
    (rule : CompiledRule) :
    evalRule abi input budget s rule =
      let count := s.completeBindingCount + bindingWeight abi input rule
      if rule.admits input then
        if Fits budget count then
          match (bindingsOf abi input rule).foldlM (visit rule input)
            { s with completeBindingCount := count } with
          | .error outcome => .error (.ok outcome)
          | .ok s' => .ok s'
        else .error (.error (budgetError budget rule count))
      else .ok s := by
  unfold evalRule
  dsimp only
  by_cases hadm : rule.admits input = true
  · rw [if_pos hadm, if_pos hadm]
    refine (checkedCount_exits hadm budget s.completeBindingCount _ _ _).trans ?_
    dsimp only
    rw [visitCombinations_eq, ← bindingsOf]
    simp only [List.nil_append]
    unfold budgetError
    split
    · rfl
    · split <;> rfl
  · rw [if_neg hadm, if_neg hadm]

theorem completeBindingCount_recordAll : ∀ (hits : List (CompiledRule × Binding)) (s : EvalState),
    (recordAll s hits).completeBindingCount = s.completeBindingCount
  | [], _ => rfl
  | h :: hits, s => completeBindingCount_recordAll hits (s.record h.1 h.2)

/-- The count after a rule that does not leave the loop. -/
theorem evalRule_count {abi : Abi} {input : ScreenInput} {budget : Nat} {s s' : EvalState}
    {rule : CompiledRule} (hfit : Fits budget s.completeBindingCount)
    (h : evalRule abi input budget s rule = .ok s') :
    s'.completeBindingCount = s.completeBindingCount + bindingWeight abi input rule ∧
      Fits budget s'.completeBindingCount := by
  rw [evalRule_eq] at h
  dsimp only at h
  split at h
  · split at h
    · rename_i hfits
      rw [visitAll_eq] at h
      split at h
      · cases h
      · rename_i s₁ hs₁
        cases h
        split at hs₁
        · cases hs₁
        · cases hs₁
          rw [completeBindingCount_recordAll]
          exact ⟨rfl, hfits⟩
    · cases h
  · rename_i hadm
    cases h
    rw [bindingWeight, if_neg hadm]
    exact ⟨rfl, hfit⟩

/-- A rule that is no satisfied deny rule and whose bindings fit does not leave the loop. -/
theorem evalRule_total {abi : Abi} {input : ScreenInput} {budget : Nat} {s : EvalState}
    {rule : CompiledRule} (hd : denies abi input rule = false)
    (hfit : Fits budget (s.completeBindingCount + bindingWeight abi input rule)) :
    ∃ s', evalRule abi input budget s rule = .ok s' := by
  rw [evalRule_eq]
  dsimp only
  by_cases hadm : rule.admits input = true
  · rw [if_pos hadm, if_pos hfit, visitAll_eq]
    have hno : ((bindingsOf abi input rule).any (satisfied rule input) &&
        rule.action == .deny) = false := by
      rw [denies, hadm, Bool.true_and, Bool.and_comm] at hd
      exact hd
    rw [hno]
    exact ⟨_, rfl⟩
  · rw [if_neg hadm]
    exact ⟨s, rfl⟩

/-! ## The whole loop -/

/-- The complete bindings of a rule list. -/
def totalWeight (abi : Abi) (input : ScreenInput) (rules : List CompiledRule) : Nat :=
  (rules.map (bindingWeight abi input)).sum

/-- The state of the accumulators after a list of rules. -/
structure Screened (abi : Abi) (input : ScreenInput) (budget : Nat) (rules : List CompiledRule)
    (s : EvalState) : Prop where
  undenied : ∀ rule ∈ rules, denies abi input rule = false
  count : s.completeBindingCount = totalWeight abi input rules
  fits : Fits budget s.completeBindingCount
  accumulators : s.noCount = recordAll EvalState.new (auditHits abi input rules)

theorem screened_step {abi : Abi} {input : ScreenInput} {budget : Nat} {pre : List CompiledRule}
    {rule : CompiledRule} {s s' : EvalState} (h : Screened abi input budget pre s)
    (hstep : evalRule abi input budget s rule = .ok s') :
    Screened abi input budget (pre ++ [rule]) s' := by
  obtain ⟨hd, hrec⟩ := evalRule_ok hstep
  obtain ⟨hcount, hfits⟩ := evalRule_count h.fits hstep
  refine ⟨?_, ?_, hfits, ?_⟩
  · intro r hr
    rcases List.mem_append.mp hr with hr | hr
    · exact h.undenied r hr
    · rw [List.mem_singleton.mp hr]
      exact hd
  · rw [hcount, h.count]
    simp [totalWeight]
  · rw [hrec, h.accumulators, ← recordAll_append]
    simp [auditHits]

theorem screened_of_ruleLoop {abi : Abi} {input : ScreenInput} {budget : Nat} {rules : RuleSet}
    {s : EvalState} (h : ruleLoop abi input budget rules = .ok s) :
    Screened abi input budget rules.rules s := by
  have hnew : Screened abi input budget [] EvalState.new :=
    ⟨by simp, rfl, ⟨by simp [EvalState.new], Nat.zero_le _⟩, rfl⟩
  exact foldlM_ok (Screened abi input budget) (fun _ _ _ _ hp hstep => screened_step hp hstep)
    [] hnew h

/-- **When the loop runs to its end**: no rule denies, and all bindings together fit. -/
theorem ruleLoop_ok_iff {abi : Abi} {input : ScreenInput} {budget : Nat} {rules : RuleSet} :
    (∃ s, ruleLoop abi input budget rules = .ok s) ↔
      (∀ rule ∈ rules.rules, denies abi input rule = false) ∧
        Fits budget (totalWeight abi input rules.rules) := by
  constructor
  · rintro ⟨s, hs⟩
    have h := screened_of_ruleLoop hs
    refine ⟨h.undenied, ?_⟩
    rw [← h.count]
    exact h.fits
  · rintro ⟨hd, hfit⟩
    -- the weight of the rules that are left still fits on top of the count so far
    obtain ⟨s, hs, -⟩ := foldlM_total (f := evalRule abi input budget)
      (fun rest s => (∀ rule ∈ rest, denies abi input rule = false) ∧
        Fits budget (s.completeBindingCount + totalWeight abi input rest))
      (fun rule rest s hp => by
        obtain ⟨hdeny, hfits⟩ := hp
        rw [totalWeight, List.map_cons, List.sum_cons, ← Nat.add_assoc] at hfits
        obtain ⟨s', hs'⟩ := evalRule_total (hdeny rule (by simp))
          (hfits.mono (Nat.le_add_right _ _))
        have hcount := (evalRule_count (hfits.mono (by omega)) hs').1
        refine ⟨s', hs', fun r hr => hdeny r (by simp [hr]), ?_⟩
        rw [hcount]
        exact hfits)
      (l := rules.rules) (s := EvalState.new) ⟨hd, by simpa [EvalState.new] using hfit⟩
    exact ⟨s, hs⟩

theorem verdictClass_of_error {abi : Abi} {input : ScreenInput} {budget : Nat} {rules : RuleSet}
    {r : Except MatchError MatchOutcome} (h : ruleLoop abi input budget rules = .error r) :
    verdictClass (evaluateChecked abi rules input budget) = .refused := by
  have heval : evaluateChecked abi rules input budget = r := by
    unfold evaluateChecked
    rw [← ruleLoop, h]
  obtain ⟨pre, rule, post, s, -, -, hrule⟩ := foldlM_error h
  rw [heval]
  rcases evalRule_error hrule with ⟨e, rfl⟩ | ⟨rfl, -⟩
  · rfl
  · rfl

theorem evaluateChecked_of_ok {abi : Abi} {input : ScreenInput} {budget : Nat} {rules : RuleSet}
    {s : EvalState} (h : ruleLoop abi input budget rules = .ok s) :
    evaluateChecked abi rules input budget = .ok s.finish := by
  unfold evaluateChecked
  rw [← ruleLoop, h]

/-! ## The reported logs -/

theorem auditHits_perm {abi : Abi} {input : ScreenInput} {rules rules' : List CompiledRule}
    (h : rules.Perm rules') : (auditHits abi input rules).Perm (auditHits abi input rules') :=
  h.flatMap_right _

/-- The address reported for a log is the log's own. -/
theorem address_of_auditHit {abi : Abi} {rules : RuleSet} {input : ScreenInput}
    {h : CompiledRule × Binding} {i : Nat} {item : ActionItem}
    (hh : h ∈ auditHits abi input rules.rules) (hitem : (i, item) ∈ boundItems h.1 h.2) :
    input.logs[i]?.map (fun log => log.address.lowerHex) = some item.address := by
  obtain ⟨event, m, hz, rfl, rfl⟩ := mem_boundItems.mp hitem
  have hslot := List.forall₂_iff_zip.mp (mem_auditHits.mp hh).1.complete
  obtain ⟨log, hlog, -, -, haddr⟩ := mem_findLogsForEvent.mp (hslot.2 hz)
  rw [hlog, Option.map_some, haddr]

theorem keys_reportedLogs (s : EvalState) : s.reportedLogs.keys = s.actionsByLog.keys :=
  OrdMap.keys_mapValues _ _

theorem get?_reportedLogs (s : EvalState) (t : String) :
    s.reportedLogs.get? t =
      (s.actionsByLog.get? t).map (fun byLog => byLog.mapValues ActionItem.address) :=
  OrdMap.get?_mapValues _ _ _

/-- What the loop ends with describes the audit hits of the rules. -/
theorem records_of_screened {abi : Abi} {input : ScreenInput} {budget : Nat}
    {rules : List CompiledRule} {s : EvalState} (h : Screened abi input budget rules s) :
    Records (auditHits abi input rules) s := by
  have hr := records_recordAll (auditHits abi input rules) [] records_new
  rw [List.nil_append, ← h.accumulators] at hr
  exact ⟨hr.audit, hr.timeout, hr.types, hr.sound, hr.complete⟩

/-- **Accumulators that describe the same set of hits report the same logs.** -/
theorem reportedLogs_eq {abi : Abi} {rules rules' : RuleSet} {input : ScreenInput}
    {s s' : EvalState} (hperm : rules.rules.Perm rules'.rules)
    (hr : Records (auditHits abi input rules.rules) s)
    (hr' : Records (auditHits abi input rules'.rules) s') : s.reportedLogs = s'.reportedLogs := by
  have hmem : ∀ h, h ∈ auditHits abi input rules.rules ↔ h ∈ auditHits abi input rules'.rules :=
    fun h => (auditHits_perm hperm).mem_iff
  have htypes : ∀ t, (s.actionsByLog.get? t).isSome ↔ (s'.actionsByLog.get? t).isSome := by
    intro t
    rw [hr.types, hr'.types]
    simp only [hmem]
  have haddr : ∀ t i, (recorded s.actionsByLog t i).map ActionItem.address =
      (recorded s'.actionsByLog t i).map ActionItem.address := by
    intro t i
    cases hx : recorded s.actionsByLog t i with
    | none =>
      cases hy : recorded s'.actionsByLog t i with
      | none => rfl
      | some item =>
        obtain ⟨h, hh, ht, hb⟩ := hr'.sound t i item hy
        exact absurd hb (hr.complete t i hx h ((hmem h).mpr hh) ht item)
    | some item =>
      obtain ⟨h, hh, ht, hb⟩ := hr.sound t i item hx
      cases hy : recorded s'.actionsByLog t i with
      | none => exact absurd hb (hr'.complete t i hy h ((hmem h).mp hh) ht item)
      | some item' =>
        obtain ⟨h', hh', -, hb'⟩ := hr'.sound t i item' hy
        rw [Option.map_some, Option.map_some, ← address_of_auditHit hh hb,
          ← address_of_auditHit hh' hb']
  apply OrdMap.eq_of_get?
  intro t
  rw [get?_reportedLogs, get?_reportedLogs]
  cases hx : s.actionsByLog.get? t with
  | none =>
    have hy : s'.actionsByLog.get? t = none := by
      rw [← Option.not_isSome_iff_eq_none, ← htypes, hx]
      simp
    rw [hy]
  | some byLog =>
    obtain ⟨byLog', hy⟩ := Option.isSome_iff_exists.mp ((htypes t).mp (by rw [hx]; rfl))
    rw [hy, Option.map_some, Option.map_some]
    congr 1
    apply OrdMap.eq_of_get?
    intro i
    have := haddr t i
    rw [recorded, recorded, hx, hy, Option.bind_some, Option.bind_some] at this
    rw [OrdMap.get?_mapValues, OrdMap.get?_mapValues, this]

/-- The addresses listed under each type are those of the reported logs, in log order. -/
theorem mapValues_address (s : EvalState) :
    (s.actionsByLog.mapValues OrdMap.values).mapValues (fun items => items.map ActionItem.address) =
      s.reportedLogs.mapValues OrdMap.values := by
  apply OrdMap.eq_of_get?
  intro t
  rw [OrdMap.get?_mapValues, OrdMap.get?_mapValues, OrdMap.get?_mapValues, get?_reportedLogs,
    Option.map_map, Option.map_map]
  congr 1
  funext byLog
  simp [OrdMap.values, OrdMap.mapValues]

/-! ## Rule order -/

/-- **The order of the rules does not matter**, for every rule list, every permutation of it, every
    transaction and every budget: the verdict class is the same, and an audited transaction is
    reported under the same types with the same logs, addresses and timeout action. -/
theorem ruleOrder_irrelevant (abi : Abi) (rules rules' : RuleSet) (input : ScreenInput)
    (budget : Nat) (hperm : rules.rules.Perm rules'.rules) :
    verdictClass (evaluateChecked abi rules input budget) =
      verdictClass (evaluateChecked abi rules' input budget) ∧
    ∀ actions timeout, evaluateChecked abi rules input budget = .ok (.audit actions timeout) →
      ∃ actions' s s', evaluateChecked abi rules' input budget = .ok (.audit actions' timeout) ∧
        -- the items are listed by audit type and physical log at the end of the loop
        ruleLoop abi input budget rules = .ok s ∧ ruleLoop abi input budget rules' = .ok s' ∧
        actions = s.actionsByLog.mapValues OrdMap.values ∧
        actions' = s'.actionsByLog.mapValues OrdMap.values ∧
        s.reportedLogs = s'.reportedLogs ∧
        actions.keys = actions'.keys ∧
        ∀ t, (actions.get? t).map (fun items => items.map ActionItem.address) =
          (actions'.get? t).map (fun items => items.map ActionItem.address) := by
  have hends : (∃ s, ruleLoop abi input budget rules = .ok s) ↔
      ∃ s', ruleLoop abi input budget rules' = .ok s' := by
    rw [ruleLoop_ok_iff, ruleLoop_ok_iff, totalWeight, totalWeight,
      (hperm.map (bindingWeight abi input)).sum_nat]
    simp only [hperm.mem_iff]
  cases hloop : ruleLoop abi input budget rules with
  | error r =>
    cases hloop' : ruleLoop abi input budget rules' with
    | error r' =>
      have hclass := verdictClass_of_error hloop
      refine ⟨by rw [hclass, verdictClass_of_error hloop'], ?_⟩
      intro actions timeout h
      rw [h] at hclass
      cases hclass
    | ok s' =>
      obtain ⟨s, hs⟩ := hends.mpr ⟨s', hloop'⟩
      rw [hs] at hloop
      cases hloop
  | ok s =>
    obtain ⟨s', hloop'⟩ := hends.mp ⟨s, hloop⟩
    have hr := records_of_screened (screened_of_ruleLoop hloop)
    have hr' := records_of_screened (screened_of_ruleLoop hloop')
    have haudit : s.hasAudit = s'.hasAudit := by
      have hlen : (auditHits abi input rules.rules).length =
          (auditHits abi input rules'.rules).length := (auditHits_perm hperm).length_eq
      rw [Bool.eq_iff_iff, hr.audit, hr'.audit, ← List.length_pos_iff, ← List.length_pos_iff, hlen]
    have htimeout : s.timeoutAction = s'.timeoutAction := by
      have hdeny : s.timeoutAction = .deny ↔ s'.timeoutAction = .deny := by
        rw [hr.timeout, hr'.timeout]
        simp only [(auditHits_perm hperm).mem_iff]
      cases hx : s.timeoutAction with
      | deny => exact (hdeny.mp hx).symm
      | allow =>
        cases hy : s'.timeoutAction with
        | deny => rw [hdeny.mpr hy] at hx; cases hx
        | allow => rfl
    have hlogs := reportedLogs_eq hperm hr hr'
    rw [evaluateChecked_of_ok hloop, evaluateChecked_of_ok hloop']
    unfold EvalState.finish
    rw [← haudit, ← htimeout]
    cases s.hasAudit with
    | false => exact ⟨rfl, fun _ _ h => by cases h⟩
    | true =>
      refine ⟨rfl, fun actions timeout h => ?_⟩
      cases h
      refine ⟨_, s, s', rfl, rfl, hloop', rfl, rfl, hlogs, ?_, fun t => ?_⟩
      · rw [OrdMap.keys_mapValues, OrdMap.keys_mapValues, ← keys_reportedLogs, hlogs,
          keys_reportedLogs]
      · rw [← OrdMap.get?_mapValues, ← OrdMap.get?_mapValues, mapValues_address,
          mapValues_address, hlogs]

/-- A second audit rule on the same transfers, under another name and failing open. -/
def paymentRule : RawRule :=
  { transferRule with
    id := "payments"
    eventAbis := OrdMap.ofList [("payment", ⟨"event", "Transfer",
      [⟨some "from", "address", true⟩, ⟨some "to", "address", true⟩,
        ⟨some "value", "uint256", false⟩], false⟩)]
    auditTimeoutAction := none }

theorem ruleOrder_irrelevant_transfer :
    let rules := loadRules transferAbi 1 1 [transferRule, paymentRule]
    let reversed := { rules with rules := rules.rules.reverse }
    rules.rules.length = 2 ∧
    verdictClass (evaluateChecked transferAbi rules transferInput 2) = .audit ∧
    verdictClass (evaluateChecked transferAbi reversed transferInput 2) = .audit := by
  intro rules reversed
  have hclass := (ruleOrder_irrelevant transferAbi rules reversed transferInput 2
    (List.reverse_perm rules.rules).symm).1
  have haudit : verdictClass (evaluateChecked transferAbi rules transferInput 2) = .audit := by
    decide
  exact ⟨by decide, haudit, hclass.symm.trans haudit⟩

end XLayerReth.RcsFilter
