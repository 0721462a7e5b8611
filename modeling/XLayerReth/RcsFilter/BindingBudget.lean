import XLayerReth.RcsFilter.RuleOrder

/-!
# The binding budget

`evaluate_checked` computes the number of complete bindings of a rule before it visits any of them,
with checked machine arithmetic, while the visit is a recursion of its own over the candidate lists.

* `evaluateLogged` — the evaluation with a record of every binding handed to the visitor, under the
  index of its rule; `evaluateLogged_eq` is its erasure.
* `nodup_bindingsOf`, `length_bindingsOf` — the product holds each binding once, and has as many as
  the exact product of the candidate counts.
* `Visited` — what has been visited after a list of rules, carried by `evalRuleLogged_ok`.

Principal result: `binding_budget`.
-/

set_option autoImplicit false

namespace XLayerReth.RcsFilter

open Lib

/-! ## The evaluation with a record of its visits -/

/-- The index of a rule and a binding that was visited for it. -/
abbrev Visit := Nat × Binding

/-- `evalRule`, recording the visited bindings. -/
def evalRuleLogged (abi : Abi) (input : ScreenInput) (maxEventBindings : Nat)
    (s : EvalState × List Visit) (rule : CompiledRule × Nat) :
    Except (Except MatchError MatchOutcome × List Visit) (EvalState × List Visit) :=
  if rule.1.admits input then
    let candidates := rule.1.candidates abi input
    match checkedBindingCount (candidates.map List.length) with
    | none => .error (.error (.bindingCountOverflow rule.1.id), s.2)
    | some ruleBindingCount =>
      match checkedAdd s.1.completeBindingCount ruleBindingCount with
      | none => .error (.error (.bindingCountOverflow rule.1.id), s.2)
      | some count =>
        if count > maxEventBindings then
          .error (.error (.bindingBudgetExceeded rule.1.id count maxEventBindings), s.2)
        else
          match visitCombinations (logged (rule.2, ·) (visit rule.1 input)) candidates []
            ({ s.1 with completeBindingCount := count }, s.2) with
          | .error (outcome, log) => .error (.ok outcome, log)
          | .ok s' => .ok s'
  else .ok s

/-- `evaluateChecked`, with the visited bindings in order. -/
def evaluateLogged (abi : Abi) (rules : RuleSet) (input : ScreenInput) (maxEventBindings : Nat) :
    Except MatchError MatchOutcome × List Visit :=
  match rules.rules.zipIdx.foldlM (evalRuleLogged abi input maxEventBindings)
    (EvalState.new, []) with
  | .error result => result
  | .ok s => (.ok s.1.finish, s.2)

/-- The bindings visited for the rule at an index, in order. -/
def visitsOf (visits : List Visit) (i : Nat) : List Binding :=
  (visits.filter (fun v => v.1 = i)).map Prod.snd

/-! ## The product of the candidates -/

/-- A log is bound at most once to an event. -/
theorem nodup_findLogsForEvent (abi : Abi) (event : CompiledEvent) (logs : List Log) :
    (findLogsForEvent abi event logs).Nodup := by
  have hidx : logs.zipIdx.Pairwise (fun p q => p.2 ≠ q.2) := by
    have hrange : (logs.zipIdx.map Prod.snd).Nodup := by
      rw [List.zipIdx_map_snd]
      exact List.nodup_range'
    rwa [List.Nodup, List.pairwise_map] at hrange
  unfold findLogsForEvent List.Nodup
  rw [List.pairwise_filterMap]
  refine hidx.imp ?_
  intro p q hne m hm m' hm' heq
  have hindex : ∀ {p : Log × Nat} {m : MatchedEvent}, matchLog abi event p.1 p.2 = some m →
      m.logIndex = p.2 := by
    intro p m hm
    unfold matchLog at hm
    split at hm
    · obtain ⟨params, -, rfl⟩ := Option.map_eq_some_iff.mp hm
      rfl
    · cases hm
  rw [heq] at hm
  exact hne ((hindex hm).symm.trans (hindex hm'))

theorem nodup_bindingsOf (abi : Abi) (input : ScreenInput) (rule : CompiledRule) :
    (bindingsOf abi input rule).Nodup := by
  apply nodup_combinations
  intro cs hcs
  obtain ⟨event, -, rfl⟩ := List.mem_map.mp hcs
  unfold eventCandidates
  dsimp only
  split
  · exact List.nodup_singleton _
  · exact (nodup_findLogsForEvent abi event input.logs).map (fun _ _ h => Option.some.inj h)

/-- The exact product of the candidate counts is the number of bindings. -/
theorem length_bindingsOf {abi : Abi} {input : ScreenInput} {rule : CompiledRule}
    (h : rule.admits input = true) :
    (bindingsOf abi input rule).length = bindingWeight abi input rule := by
  rw [bindingsOf, length_combinations, bindingWeight, if_pos h]

/-! ## What is visited -/

/-- The bindings of an admitted rule; a rule that is not admitted is skipped. -/
def product (abi : Abi) (input : ScreenInput) (rule : CompiledRule) : List Binding :=
  if rule.admits input then bindingsOf abi input rule else []

/-- Every visit of a list of rules, each to its end. -/
def allVisits (abi : Abi) (input : ScreenInput) (rules : List (CompiledRule × Nat)) : List Visit :=
  rules.flatMap (fun r => (product abi input r.1).map (r.2, ·))

theorem length_product (abi : Abi) (input : ScreenInput) (rule : CompiledRule) :
    (product abi input rule).length = bindingWeight abi input rule := by
  unfold product
  split
  · rename_i h
    exact length_bindingsOf h
  · rename_i h
    rw [bindingWeight, if_neg h]
    rfl

theorem length_allVisits (abi : Abi) (input : ScreenInput) (rules : List (CompiledRule × Nat)) :
    (allVisits abi input rules).length = totalWeight abi input (rules.map Prod.fst) := by
  unfold allVisits totalWeight
  rw [List.length_flatMap, List.map_map]
  simp only [List.length_map, length_product]
  rfl

theorem visitsOf_append (v w : List Visit) (i : Nat) :
    visitsOf (v ++ w) i = visitsOf v i ++ visitsOf w i := by
  unfold visitsOf
  rw [List.filter_append, List.map_append]

theorem visitsOf_tagged (bs : List Binding) (i j : Nat) :
    visitsOf (bs.map (j, ·)) i = if j = i then bs else [] := by
  unfold visitsOf
  rw [List.filter_map, List.map_map]
  split
  · rename_i h
    simp [Function.comp_def, h]
  · rename_i h
    simp [Function.comp_def, h]

theorem visitsOf_allVisits_of_notMem {abi : Abi} {input : ScreenInput} {i : Nat} :
    ∀ {rules : List (CompiledRule × Nat)}, i ∉ rules.map Prod.snd →
      visitsOf (allVisits abi input rules) i = []
  | [], _ => rfl
  | r :: rules, h => by
    rw [List.map_cons, List.mem_cons, not_or] at h
    rw [allVisits, List.flatMap_cons, visitsOf_append, visitsOf_tagged, if_neg (Ne.symm h.1),
      List.nil_append]
    exact visitsOf_allVisits_of_notMem h.2

/-- Under distinct indices each rule's visits are its own product. -/
theorem visitsOf_allVisits {abi : Abi} {input : ScreenInput} {rule : CompiledRule} {i : Nat} :
    ∀ {rules : List (CompiledRule × Nat)}, (rules.map Prod.snd).Nodup → (rule, i) ∈ rules →
      visitsOf (allVisits abi input rules) i = product abi input rule
  | [], _, h => by cases h
  | r :: rules, hn, h => by
    rw [List.map_cons, List.nodup_cons] at hn
    rw [allVisits, List.flatMap_cons, visitsOf_append, visitsOf_tagged]
    rcases List.mem_cons.mp h with rfl | h
    · rw [if_pos rfl]
      exact (congrArg _ (visitsOf_allVisits_of_notMem hn.1)).trans (List.append_nil _)
    · have hne : r.2 ≠ i := by
        rintro rfl
        exact hn.1 (List.mem_map.mpr ⟨_, h, rfl⟩)
      rw [if_neg hne, List.nil_append]
      exact visitsOf_allVisits hn.2 h

theorem nodup_allVisits {abi : Abi} {input : ScreenInput} {rules : List (CompiledRule × Nat)}
    (hn : (rules.map Prod.snd).Nodup) : (allVisits abi input rules).Nodup := by
  unfold allVisits
  rw [List.nodup_flatMap]
  constructor
  · intro r _
    refine List.Nodup.map (fun _ _ h => (Prod.mk.inj h).2) ?_
    unfold product
    split
    · exact nodup_bindingsOf abi input r.1
    · exact List.nodup_nil
  · rw [List.Nodup, List.pairwise_map] at hn
    refine hn.imp ?_
    intro r t hne v hv hw
    obtain ⟨b, -, rfl⟩ := List.mem_map.mp hv
    obtain ⟨c, -, heq⟩ := List.mem_map.mp hw
    exact hne (Prod.mk.inj heq).1.symm

/-! ## One rule -/

theorem evalRuleLogged_eq (abi : Abi) (input : ScreenInput) (budget : Nat) (s : EvalState)
    (log : List Visit) (rule : CompiledRule) (i : Nat) :
    evalRuleLogged abi input budget (s, log) (rule, i) =
      let count := s.completeBindingCount + bindingWeight abi input rule
      if rule.admits input then
        if Fits budget count then
          match (bindingsOf abi input rule).foldlM (logged (i, ·) (visit rule input))
            ({ s with completeBindingCount := count }, log) with
          | .error (outcome, log) => .error (.ok outcome, log)
          | .ok s' => .ok s'
        else .error (.error (budgetError budget rule count), log)
      else .ok (s, log) := by
  unfold evalRuleLogged
  dsimp only
  by_cases hadm : rule.admits input = true
  · rw [if_pos hadm, if_pos hadm]
    refine (checkedCount_exits hadm budget s.completeBindingCount _ _ _).trans ?_
    dsimp only
    rw [visitCombinations_eq, ← bindingsOf]
    simp only [List.nil_append]
    unfold budgetError
    split
    · rfl
    · split <;> rfl
  · rw [if_neg hadm, if_neg hadm]

/-- A rule that does not leave the loop is visited to its end. -/
theorem evalRuleLogged_ok {abi : Abi} {input : ScreenInput} {budget : Nat} {s s' : EvalState}
    {rule : CompiledRule} (i : Nat) (log : List Visit)
    (h : evalRule abi input budget s rule = .ok s') :
    evalRuleLogged abi input budget (s, log) (rule, i) =
      .ok (s', log ++ (product abi input rule).map (i, ·)) := by
  rw [evalRule_eq] at h
  rw [evalRuleLogged_eq]
  dsimp only at h ⊢
  unfold product
  by_cases hadm : rule.admits input = true
  · rw [if_pos hadm] at h ⊢
    by_cases hfit : Fits budget (s.completeBindingCount + bindingWeight abi input rule)
    · rw [if_pos hfit] at h ⊢
      split at h
      · cases h
      · rename_i s₁ hs₁
        cases h
        rw [foldlM_logged_ok (i, ·) log hs₁, if_pos hadm]
    · rw [if_neg hfit] at h
      cases h
  · rw [if_neg hadm] at h ⊢
    cases h
    rw [if_neg hadm, List.map_nil, List.append_nil]

/-- How a rule leaves the loop: its bindings do not fit and none is visited, or they fit and some
    first ones are visited. -/
inductive LeavesAt (abi : Abi) (input : ScreenInput) (budget count : Nat) (rule : CompiledRule) :
    Except MatchError MatchOutcome → List Binding → Prop where
  | overBudget (h : ¬ Fits budget count) :
      LeavesAt abi input budget count rule (.error (budgetError budget rule count)) []
  | denied {seen : List Binding} (h : Fits budget count) (hd : denies abi input rule = true)
      (hseen : seen <+: bindingsOf abi input rule) :
      LeavesAt abi input budget count rule (.ok .deny) seen

theorem evalRuleLogged_error {abi : Abi} {input : ScreenInput} {budget : Nat} {s : EvalState}
    {rule : CompiledRule} {r : Except MatchError MatchOutcome} (i : Nat) (log : List Visit)
    (h : evalRule abi input budget s rule = .error r) :
    rule.admits input = true ∧ ∃ seen,
      LeavesAt abi input budget (s.completeBindingCount + bindingWeight abi input rule) rule r
        seen ∧
      evalRuleLogged abi input budget (s, log) (rule, i) = .error (r, log ++ seen.map (i, ·)) := by
  have hexit := evalRule_error h
  rw [evalRule_eq] at h
  rw [evalRuleLogged_eq]
  dsimp only at h ⊢
  by_cases hadm : rule.admits input = true
  · rw [if_pos hadm] at h ⊢
    refine ⟨hadm, ?_⟩
    by_cases hfit : Fits budget (s.completeBindingCount + bindingWeight abi input rule)
    · rw [if_pos hfit] at h ⊢
      split at h
      · rename_i outcome herr
        cases h
        obtain ⟨seen, hseen, -, hrun⟩ := foldlM_logged_error (i, ·) log herr
        rcases hexit with ⟨e, he⟩ | ⟨hout, hd⟩
        · cases he
        · cases hout
          exact ⟨seen, .denied hfit hd hseen, by rw [hrun]⟩
      · cases h
    · rw [if_neg hfit] at h ⊢
      cases h
      exact ⟨[], .overBudget hfit, by rw [List.map_nil, List.append_nil]⟩
  · rw [if_neg hadm] at h
    cases h

/-! ## The whole loop -/

theorem loopLogged_ok {abi : Abi} {input : ScreenInput} {budget : Nat} :
    ∀ {l : List (CompiledRule × Nat)} {s s' : EvalState} (log : List Visit),
      (l.map Prod.fst).foldlM (evalRule abi input budget) s = .ok s' →
        l.foldlM (evalRuleLogged abi input budget) (s, log) =
          .ok (s', log ++ allVisits abi input l)
  | [], s, s', log, h => by
    rw [List.map_nil, foldlM_nil] at h
    cases h
    rw [foldlM_nil, allVisits, List.flatMap_nil, List.append_nil]
  | (rule, i) :: l, s, s', log, h => by
    rw [List.map_cons, foldlM_cons] at h
    cases hx : evalRule abi input budget s rule with
    | error r =>
      dsimp only at h
      rw [hx] at h
      cases h
    | ok s₁ =>
      dsimp only at h
      rw [hx] at h
      rw [foldlM_cons, evalRuleLogged_ok i log hx]
      refine (loopLogged_ok _ h).trans ?_
      rw [allVisits, allVisits, List.flatMap_cons, List.append_assoc]

/-- How an evaluation ends, with what it visited. -/
inductive Ends (abi : Abi) (rules : RuleSet) (input : ScreenInput) (budget : Nat) :
    Except MatchError MatchOutcome → List Visit → Prop where
  /-- Every rule is visited to its end. -/
  | finished {s : EvalState} (hs : Screened abi input budget rules.rules s) :
      Ends abi rules input budget (.ok s.finish) (allVisits abi input rules.rules.zipIdx)
  /-- The rules before one are visited to their end, and that one leaves the loop. -/
  | left {pre post : List (CompiledRule × Nat)} {rule : CompiledRule} {i : Nat} {s : EvalState}
      {r : Except MatchError MatchOutcome} {seen : List Binding}
      (hsplit : rules.rules.zipIdx = pre ++ (rule, i) :: post)
      (hs : Screened abi input budget (pre.map Prod.fst) s)
      (hadm : rule.admits input = true)
      (hleaves : LeavesAt abi input budget (totalWeight abi input (pre.map Prod.fst ++ [rule]))
        rule r seen) :
      Ends abi rules input budget r (allVisits abi input pre ++ seen.map (i, ·))

/-- **The recorded evaluation is the evaluation**, and it ends in one of two ways. -/
theorem evaluateLogged_eq (abi : Abi) (rules : RuleSet) (input : ScreenInput) (budget : Nat) :
    (evaluateLogged abi rules input budget).1 = evaluateChecked abi rules input budget ∧
      Ends abi rules input budget (evaluateLogged abi rules input budget).1
        (evaluateLogged abi rules input budget).2 := by
  have hfst : rules.rules.zipIdx.map Prod.fst = rules.rules := List.zipIdx_map_fst 0 rules.rules
  cases hloop : ruleLoop abi input budget rules with
  | ok s =>
    have hlogged : evaluateLogged abi rules input budget =
        (.ok s.finish, allVisits abi input rules.rules.zipIdx) := by
      unfold evaluateLogged
      rw [loopLogged_ok [] (s := EvalState.new) (by rw [hfst]; exact hloop), List.nil_append]
    rw [hlogged, evaluateChecked_of_ok hloop]
    exact ⟨rfl, .finished (screened_of_ruleLoop hloop)⟩
  | error r =>
    have heval : evaluateChecked abi rules input budget = r := by
      unfold evaluateChecked
      rw [← ruleLoop, hloop]
    rw [ruleLoop, ← hfst, foldlM_map] at hloop
    obtain ⟨pre, ⟨rule, i⟩, post, s, hsplit, hpre, hrule⟩ := foldlM_error hloop
    rw [← foldlM_map] at hpre
    have hs : Screened abi input budget (pre.map Prod.fst) s :=
      @screened_of_ruleLoop abi input budget { rules with rules := pre.map Prod.fst } s hpre
    obtain ⟨hadm, seen, hleaves, hrun⟩ := evalRuleLogged_error i (allVisits abi input pre) hrule
    have hcount : s.completeBindingCount + bindingWeight abi input rule =
        totalWeight abi input (pre.map Prod.fst ++ [rule]) := by
      rw [hs.count]
      simp [totalWeight]
    rw [hcount] at hleaves
    have hlogged : evaluateLogged abi rules input budget =
        (r, allVisits abi input pre ++ seen.map (i, ·)) := by
      unfold evaluateLogged
      rw [hsplit, foldlM_append, loopLogged_ok [] hpre, List.nil_append]
      dsimp only [Except.bind]
      rw [foldlM_cons, hrun]
      rfl
    rw [hlogged, heval]
    exact ⟨rfl, .left hsplit hs hadm hleaves⟩

section Ended

variable {abi : Abi} {rules : RuleSet} {input : ScreenInput} {budget : Nat}
  {r : Except MatchError MatchOutcome} {visits : List Visit}

theorem nodup_indices (rules : List CompiledRule) : (rules.zipIdx.map Prod.snd).Nodup := by
  rw [List.zipIdx_map_snd]
  exact List.nodup_range'

/-- The rule at an index occurs with it, and the others occur with other indices. -/
theorem mem_split {pre post : List (CompiledRule × Nat)} {rule : CompiledRule} {i : Nat}
    (hsplit : rules.rules.zipIdx = pre ++ (rule, i) :: post) :
    (pre.map Prod.snd).Nodup ∧ i ∉ pre.map Prod.snd ∧ rules.rules[i]? = some rule := by
  have hn := nodup_indices rules.rules
  rw [hsplit, List.map_append, List.map_cons, List.nodup_append] at hn
  refine ⟨hn.1, fun hi => hn.2.2 i hi i List.mem_cons_self rfl, ?_⟩
  have hmem : (rule, i) ∈ rules.rules.zipIdx := by
    rw [hsplit]
    simp
  exact List.mem_zipIdx_iff_getElem?.mp hmem

/-- The visits are a beginning of the enumeration of all products, rule by rule. -/
theorem Ends.visits_initial (h : Ends abi rules input budget r visits) :
    visits <+: allVisits abi input rules.rules.zipIdx := by
  cases h with
  | finished => exact List.prefix_refl _
  | @left pre post rule i s _ seen hsplit hs hadm hleaves =>
    have hseen : seen <+: product abi input rule := by
      rw [product, if_pos hadm]
      cases hleaves with
      | overBudget => exact List.nil_prefix
      | denied _ _ hseen => exact hseen
    rw [hsplit]
    unfold allVisits
    rw [List.flatMap_append, List.flatMap_cons]
    exact (List.prefix_append_right_inj _).mpr
      ((hseen.map (i, ·)).trans (List.prefix_append _ _))

theorem Ends.length_le (h : Ends abi rules input budget r visits) : visits.length ≤ budget := by
  cases h with
  | @finished s hs =>
    rw [length_allVisits, List.zipIdx_map_fst, ← hs.count]
    exact hs.fits.2
  | @left pre post rule i s _ seen hsplit hs hadm hleaves =>
    rw [List.length_append, length_allVisits, List.length_map]
    cases hleaves with
    | overBudget =>
      rw [← hs.count]
      exact hs.fits.2
    | denied hfit hd hseen =>
      have hle : seen.length ≤ bindingWeight abi input rule := by
        rw [← length_bindingsOf hadm]
        exact hseen.length_le
      have htotal := hfit.2
      rw [totalWeight, List.map_append, List.sum_append] at htotal
      simp only [List.map_cons, List.map_nil, List.sum_cons, List.sum_nil] at htotal
      unfold totalWeight
      omega

/-- A rule that is visited at all and does not deny is visited to its end. -/
theorem Ends.whole (h : Ends abi rules input budget r visits) {i : Nat} {rule : CompiledRule}
    (hi : rules.rules[i]? = some rule) (hv : visitsOf visits i ≠ [])
    (hd : denies abi input rule = false) : visitsOf visits i = product abi input rule := by
  have hmem : (rule, i) ∈ rules.rules.zipIdx := List.mem_zipIdx_iff_getElem?.mpr hi
  cases h with
  | finished => exact visitsOf_allVisits (nodup_indices _) hmem
  | @left pre post rule' j s _ seen hsplit hs hadm hleaves =>
    obtain ⟨hn, hj, hrule'⟩ := mem_split hsplit
    rw [visitsOf_append, visitsOf_tagged] at hv ⊢
    by_cases hij : j = i
    · -- the rule that left the loop: over the budget it has no visit, and otherwise it denies
      subst hij
      rw [hi, Option.some.injEq] at hrule'
      subst hrule'
      cases hleaves with
      | overBudget =>
        rw [visitsOf_allVisits_of_notMem hj, if_pos rfl] at hv
        exact absurd rfl hv
      | denied _ hd' _ =>
        rw [hd] at hd'
        cases hd'
    · rw [if_neg hij, List.append_nil] at hv ⊢
      have hpre : i ∈ pre.map Prod.snd := by
        by_contra hnot
        exact hv (visitsOf_allVisits_of_notMem hnot)
      obtain ⟨⟨rule₁, i₁⟩, hm, rfl⟩ := List.mem_map.mp hpre
      have hmem₁ : (rule₁, i₁) ∈ rules.rules.zipIdx := by
        rw [hsplit]
        exact List.mem_append_left _ hm
      have hrule₁ : rules.rules[i₁]? = some rule₁ := List.mem_zipIdx_iff_getElem?.mp hmem₁
      dsimp only at hi
      rw [hi, Option.some.injEq] at hrule₁
      subst hrule₁
      exact visitsOf_allVisits hn hm

/-- A verdict other than a denial comes after every rule. -/
theorem Ends.all_of_ok (h : Ends abi rules input budget r visits) {out : MatchOutcome}
    (hr : r = .ok out) (hout : out ≠ .deny) {i : Nat} {rule : CompiledRule}
    (hi : rules.rules[i]? = some rule) : visitsOf visits i = product abi input rule := by
  cases h with
  | finished =>
    exact visitsOf_allVisits (nodup_indices _) (List.mem_zipIdx_iff_getElem?.mpr hi)
  | left hsplit hs hadm hleaves =>
    cases hleaves with
    | overBudget => cases hr
    | denied => exact absurd (Except.ok.inj hr).symm hout

end Ended

/-- **When the budget is exceeded**: at some admitted rule that no denying rule precedes the exact
    running count does not fit. -/
theorem evaluateChecked_error_iff (abi : Abi) (rules : RuleSet) (input : ScreenInput)
    (budget : Nat) :
    (∃ e, evaluateChecked abi rules input budget = .error e) ↔
      ∃ pre rule post, rules.rules = pre ++ rule :: post ∧ rule.admits input = true ∧
        (∀ r ∈ pre, denies abi input r = false) ∧
        ¬ Fits budget (totalWeight abi input (pre ++ [rule])) := by
  obtain ⟨heq, hends⟩ := evaluateLogged_eq abi rules input budget
  rw [heq] at hends
  constructor
  · rintro ⟨e, he⟩
    rw [he] at hends
    generalize hr : (Except.error e : Except MatchError MatchOutcome) = r at hends
    generalize (evaluateLogged abi rules input budget).2 = visits at hends
    cases hends with
    | finished => cases hr
    | @left pre post rule i s _ seen hsplit hs hadm hleaves =>
      refine ⟨pre.map Prod.fst, rule, post.map Prod.fst, ?_, hadm, hs.undenied, ?_⟩
      · have hfst := congrArg (List.map Prod.fst) hsplit
        rwa [List.zipIdx_map_fst, List.map_append, List.map_cons] at hfst
      · cases hleaves with
        | overBudget h => exact h
        | denied => cases hr
  · rintro ⟨pre, rule, post, hsplit, hadm, hd, hfit⟩
    have hloop : ruleLoop abi input budget rules = (ruleLoop abi input budget
        { rules with rules := pre }).bind
          (fun s => (rule :: post).foldlM (evalRule abi input budget) s) := by
      rw [ruleLoop, hsplit, foldlM_append, ruleLoop]
    cases hpre : ruleLoop abi input budget { rules with rules := pre } with
    | ok s =>
      -- the rules before fit, so the loop leaves at this one
      have hs := screened_of_ruleLoop hpre
      have hcount : s.completeBindingCount + bindingWeight abi input rule =
          totalWeight abi input (pre ++ [rule]) := by
        rw [hs.count]
        simp [totalWeight]
      have hrule : evalRule abi input budget s rule =
          .error (.error (budgetError budget rule (totalWeight abi input (pre ++ [rule])))) := by
        rw [evalRule_eq]
        dsimp only
        rw [if_pos hadm, hcount, if_neg hfit]
      rw [hpre] at hloop
      dsimp only [Except.bind] at hloop
      rw [foldlM_cons, hrule] at hloop
      unfold evaluateChecked
      rw [← ruleLoop, hloop]
      exact ⟨_, rfl⟩
    | error r =>
      -- the loop left earlier, and no earlier rule denies
      obtain ⟨pre', rule', post', s', hpre', -, hrule'⟩ := foldlM_error hpre
      have hmem : rule' ∈ pre := by
        rw [show pre = pre' ++ rule' :: post' from hpre']
        simp
      rw [hpre] at hloop
      rcases evalRule_error hrule' with ⟨e, rfl⟩ | ⟨-, hdeny⟩
      · unfold evaluateChecked
        rw [← ruleLoop, hloop]
        exact ⟨e, rfl⟩
      · rw [hd rule' hmem] at hdeny
        cases hdeny

/-- The checked product over some first candidate counts is exact: it is the product of these counts
    and fits a `usize`, or there is none. -/
theorem checkedBindingCount_exact {counts : List Nat} {n : Nat}
    (h : checkedBindingCount counts = some n) : n = counts.prod ∧ n < 2 ^ 64 := by
  have key : ∀ (counts : List Nat) (acc : Nat), acc < 2 ^ 64 →
      counts.foldlM checkedMul acc = some n → n = acc * counts.prod ∧ n < 2 ^ 64 := by
    intro counts
    induction counts with
    | nil =>
      intro acc hacc h
      cases h
      exact ⟨by rw [List.prod_nil, Nat.mul_one], hacc⟩
    | cons m counts ih =>
      intro acc _ h
      rw [List.foldlM_cons] at h
      unfold checkedMul at h
      by_cases hfit : acc * m < 2 ^ 64
      · rw [if_pos hfit] at h
        obtain ⟨hn, hlt⟩ := ih (acc * m) hfit h
        exact ⟨by rw [hn, List.prod_cons, Nat.mul_assoc], hlt⟩
      · rw [if_neg hfit] at h
        cases h
  have hcounts := key counts 1 (by decide) h
  rwa [Nat.one_mul] at hcounts

/-- `usize::MAX`. -/
def usizeMax : Nat := 2 ^ 64 - 1

/-- **The binding budget**, for every rule set, transaction and budget. -/
theorem binding_budget (abi : Abi) (rules : RuleSet) (input : ScreenInput) (budget : Nat) :
    -- the record of the visits does not change the evaluation
    (evaluateLogged abi rules input budget).1 = evaluateChecked abi rules input budget ∧
    -- at most `budget` visits in total, no binding of a rule twice
    (evaluateLogged abi rules input budget).2.length ≤ budget ∧
    (evaluateLogged abi rules input budget).2.Nodup ∧
    -- the visits of each rule are a beginning of its product, and the whole of it unless it denies
    (∀ i rule, rules.rules[i]? = some rule →
      visitsOf (evaluateLogged abi rules input budget).2 i <+: product abi input rule ∧
      (visitsOf (evaluateLogged abi rules input budget).2 i ≠ [] →
        denies abi input rule = false →
        visitsOf (evaluateLogged abi rules input budget).2 i = product abi input rule) ∧
      ∀ out, evaluateChecked abi rules input budget = .ok out → out ≠ .deny →
        visitsOf (evaluateLogged abi rules input budget).2 i = product abi input rule) ∧
    (∀ rule binding, rule.admits input = true →
      (binding ∈ product abi input rule ↔ IsBinding abi rule input.logs binding)) ∧
    -- an error exactly when the exact running count exceeds the budget or the machine word
    ((∃ e, evaluateChecked abi rules input budget = .error e) ↔
      ∃ pre rule post, rules.rules = pre ++ rule :: post ∧ rule.admits input = true ∧
        (∀ r ∈ pre, denies abi input r = false) ∧
        (budget < totalWeight abi input (pre ++ [rule]) ∨
          usizeMax < totalWeight abi input (pre ++ [rule]))) ∧
    -- no machine product or sum differs from the exact one
    (∀ (rule : CompiledRule) k n,
      checkedBindingCount (((rule.candidates abi input).map List.length).take k) = some n →
      n = (((rule.candidates abi input).map List.length).take k).prod ∧ n ≤ usizeMax) ∧
    ∀ pre post s, rules.rules = pre ++ post →
      pre.foldlM (evalRule abi input budget) EvalState.new = .ok s →
      s.completeBindingCount = totalWeight abi input pre ∧ s.completeBindingCount ≤ usizeMax := by
  obtain ⟨heq, hends⟩ := evaluateLogged_eq abi rules input budget
  have hinitial := hends.visits_initial
  refine ⟨heq, hends.length_le, ?_, ?_, ?_, ?_, ?_, ?_⟩
  · exact hinitial.sublist.nodup (nodup_allVisits (nodup_indices _))
  · intro i rule hi
    refine ⟨?_, hends.whole hi, ?_⟩
    · rw [← visitsOf_allVisits (nodup_indices rules.rules)
        (List.mem_zipIdx_iff_getElem?.mpr hi : (rule, i) ∈ rules.rules.zipIdx)]
      exact (hinitial.filter _).map _
    · intro out hout hne
      exact hends.all_of_ok (heq.trans hout) hne hi
  · intro rule binding hadm
    rw [product, if_pos hadm, mem_bindingsOf]
  · rw [evaluateChecked_error_iff]
    have hover : ∀ n, ¬ Fits budget n ↔ budget < n ∨ usizeMax < n := by
      intro n
      unfold Fits usizeMax
      omega
    simp only [hover]
  · intro rule k n h
    obtain ⟨hn, hlt⟩ := checkedBindingCount_exact h
    exact ⟨hn, Nat.le_sub_one_of_lt hlt⟩
  · intro pre post s _ hpre
    have hs : Screened abi input budget pre s :=
      @screened_of_ruleLoop abi input budget { rules with rules := pre } s hpre
    exact ⟨hs.count, Nat.le_sub_one_of_lt hs.fits.1⟩

end XLayerReth.RcsFilter
