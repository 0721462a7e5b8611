import XLayerReth.Lib.Loops
import XLayerReth.RcsFilter.Rules

/-!
# The matcher

Model of `matching.rs`: the screening of one transaction against a rule snapshot.

* `decodeEvent`, `findLogsForEvent` — the decoded physical logs of a declared event.
* `buildBindings` — the JSONLogic variables of one complete binding.
* `evaluateChecked` — every admitted rule's bindings are visited lazily, within the budget of
  complete bindings; a satisfied deny rule ends the loop, satisfied audit rules are merged per
  audit type and physical log.

Principal results: `mem_findLogsForEvent` (which logs an event binds) and `mem_eventCandidates`
(null stands for an event without a decoded log).
-/

set_option autoImplicit false

namespace XLayerReth.RcsFilter

open Lib

/-! ## Inputs and outcomes -/

/-- `alloy_primitives::Log`. -/
structure Log where
  address : Address
  topics : List B256
  data : List UInt8
  deriving DecidableEq

/-- `ScreenInput`: a simulated transaction with its execution logs. -/
structure ScreenInput where
  txHash : B256
  origin : Address
  txTo : Option Address
  nonce : Nat
  value : Nat
  blockHeight : Nat
  logs : List Log
  deriving DecidableEq

/-- One decoded audit event, as submitted to RCS. -/
structure ActionItem where
  name : String
  address : String
  params : OrdMap String Json
  deriving DecidableEq

/-- The actions of a submission, by audit type. -/
abbrev Actions := OrdMap String (List ActionItem)

inductive MatchOutcome where
  | allow
  | deny
  | audit (actions : Actions) (timeoutAction : TimeoutAction)
  deriving DecidableEq

inductive MatchError where
  | bindingCountOverflow (ruleId : String)
  | bindingBudgetExceeded (ruleId : String) (attempted limit : Nat)
  deriving DecidableEq

/-- A matched named event and the physical log that produced it. -/
structure MatchedEvent where
  logIndex : Nat
  address : String
  params : OrdMap String Json
  deriving DecidableEq

/-- One complete binding: a log or null for each declared event. -/
abbrev Binding := List (Option MatchedEvent)

/-! ## Decoding -/

/-- `0x` and two lower-case digits for each byte. -/
def hexBytes (bytes : List UInt8) : String :=
  String.ofList ('0' :: 'x' :: bytes.flatMap (fun b => Digits.toHex 2 b.toNat))

mutual

/-- `dyn_value_to_json`. -/
def dynValueToJson (abi : Abi) : DynSolValue → Json
  | .address a => .str a.lowerHex
  | .uint u _ => .str (toString u)
  | .int i _ => .str (toString i)
  | .bool b => .str (toString b)
  | .string s => .str s
  | .fixedBytes word _ => .str word.lowerHex
  | .bytes bytes => .str (hexBytes bytes)
  | .array values => .arr (dynValuesToJson abi values)
  | .fixedArray values => .arr (dynValuesToJson abi values)
  | .tuple values => .arr (dynValuesToJson abi values)
  | .function bytes => .str (abi.debugValue (.function bytes))

def dynValuesToJson (abi : Abi) : List DynSolValue → List Json
  | [] => []
  | v :: vs => dynValueToJson abi v :: dynValuesToJson abi vs

end

/-- The decoded values in declared input order: the next indexed value for an indexed input, the
    next body value for another; an input without a value is left out. -/
def assembleParams (abi : Abi) : List CompiledInput → List DynSolValue → List DynSolValue →
    OrdMap String Json → OrdMap String Json
  | [], _, _, out => out
  | input :: rest, indexed, body, out =>
    let value := if input.indexed then indexed.head? else body.head?
    let out' := match value with
      | some v => out.insert input.name (dynValueToJson abi v)
      | none => out
    if input.indexed then assembleParams abi rest indexed.tail body out'
    else assembleParams abi rest indexed body.tail out'

/-- `decode_event`. -/
def decodeEvent (abi : Abi) (event : CompiledEvent) (log : Log) : Option (OrdMap String Json) :=
  let indexedTypes := (event.inputs.filter (·.indexed)).map (·.solType)
  let bodyTypes := (event.inputs.filter (!·.indexed)).map (·.solType)
  let topic0 := if event.anonymous then none else some event.topic0
  (abi.decodeLogParts topic0 indexedTypes bodyTypes log.topics log.data).map
    (fun decoded => assembleParams abi event.inputs decoded.indexed decoded.body OrdMap.empty)

/-- `event_matches_shape`. -/
def eventMatchesShape (event : CompiledEvent) (log : Log) : Bool :=
  if event.anonymous then log.topics.length == event.inputs.countP (·.indexed)
  else log.topics.head? == some event.topic0

/-- The match of one physical log, if its shape fits and it decodes. -/
def matchLog (abi : Abi) (event : CompiledEvent) (log : Log) (logIndex : Nat) :
    Option MatchedEvent :=
  if eventMatchesShape event log then
    (decodeEvent abi event log).map (fun params => ⟨logIndex, log.address.lowerHex, params⟩)
  else none

/-- `find_logs_for_event`: every decoded log, in log order. -/
def findLogsForEvent (abi : Abi) (event : CompiledEvent) (logs : List Log) : List MatchedEvent :=
  logs.zipIdx.filterMap (fun p => matchLog abi event p.1 p.2)

/-! ## Bindings -/

/-- `HashMap::insert`. -/
def Bindings.insert (b : Bindings) (name : String) (v : Json) : Bindings :=
  fun n => if n = name then some v else b n

/-- The variables of one declared event. -/
def bindEvent (b : Bindings) (event : CompiledEvent) : Option MatchedEvent → Bindings
  | some matched =>
    (matched.params.entries.foldl
      (fun b p => b.insert (event.varName ++ "." ++ p.1) p.2) b).insert
        (event.varName ++ ".address") (.str matched.address)
  | none =>
    (event.inputs.foldl
      (fun b input => b.insert (event.varName ++ "." ++ input.name) .null) b).insert
        (event.varName ++ ".address") .null

/-- The transaction-level variables. -/
def txBindings (input : ScreenInput) : Bindings :=
  Bindings.insert (Bindings.insert (Bindings.insert (Bindings.insert (fun _ => none)
    "contract_address" ((input.txTo.map (fun a => Json.str a.lowerHex)).getD .null))
    "origin" (.str input.origin.lowerHex))
    "value" (.str (toString input.value)))
    "nonce" (.num (.posInt input.nonce))

/-- `build_bindings`. -/
def buildBindings (rule : CompiledRule) (input : ScreenInput) (binding : Binding) : Bindings :=
  (rule.events.zip binding).foldl (fun b p => bindEvent b p.1 p.2) (txBindings input)

/-! ## Evaluation -/

/-- Stage one: the address filters of a rule. -/
def CompiledRule.admits (rule : CompiledRule) (input : ScreenInput) : Bool :=
  (match rule.contractAddress with
    | some ca => input.txTo == some ca
    | none => true) &&
  (match rule.origin with
    | some o => input.origin == o
    | none => true)

/-- The candidates of one event: its decoded logs, or null alone. -/
def eventCandidates (abi : Abi) (event : CompiledEvent) (logs : List Log) :
    List (Option MatchedEvent) :=
  let matched := findLogsForEvent abi event logs
  if matched.isEmpty then [none] else matched.map some

def CompiledRule.candidates (abi : Abi) (rule : CompiledRule) (input : ScreenInput) :
    List (List (Option MatchedEvent)) :=
  rule.events.map (fun event => eventCandidates abi event input.logs)

/-- `usize::checked_mul`. -/
def checkedMul (a b : Nat) : Option Nat := if a * b < 2 ^ 64 then some (a * b) else none

/-- `usize::checked_add`. -/
def checkedAdd (a b : Nat) : Option Nat := if a + b < 2 ^ 64 then some (a + b) else none

/-- `checked_binding_count`. -/
def checkedBindingCount (candidateCounts : List Nat) : Option Nat :=
  candidateCounts.foldlM checkedMul 1

/-- `ActionsByLog`: for each audit type, one action for each physical log. -/
abbrev ActionsByLog := OrdMap String (OrdMap Nat ActionItem)

/-- The accumulators of the loop over the rules. -/
structure EvalState where
  actionsByLog : ActionsByLog
  hasAudit : Bool
  timeoutAction : TimeoutAction
  completeBindingCount : Nat

def EvalState.new : EvalState := ⟨OrdMap.empty, false, .allow, 0⟩

/-- The log index and the action of each physical log of a binding. -/
def boundItems (rule : CompiledRule) (binding : Binding) : List (Nat × ActionItem) :=
  (rule.events.zip binding).filterMap
    (fun p => p.2.map (fun m => (m.logIndex, ⟨p.1.varName, m.address, m.params⟩)))

/-- `by_log.entry(log_index).or_insert_with(..)` for each item. -/
def insertItems (items : List (Nat × ActionItem)) (byLog : OrdMap Nat ActionItem) :
    OrdMap Nat ActionItem :=
  items.foldl (fun m p => m.orInsert p.1 p.2) byLog

/-- The loop over the audit types of a satisfied audit rule. -/
def insertTypes (items : List (Nat × ActionItem)) (types : List String) (acts : ActionsByLog) :
    ActionsByLog :=
  types.foldl (fun acts t => acts.alter t (fun old => insertItems items (old.getD OrdMap.empty)))
    acts

/-- The effect of one satisfying binding of an audit rule. -/
def EvalState.record (s : EvalState) (rule : CompiledRule) (binding : Binding) : EvalState :=
  { s with
    hasAudit := true
    timeoutAction := s.timeoutAction.stricter rule.auditTimeoutAction
    actionsByLog := insertTypes (boundItems rule binding) rule.auditTypes s.actionsByLog }

/-- The visitor of one rule: `error` is a `Break` with its outcome. -/
def visit (rule : CompiledRule) (input : ScreenInput) (s : EvalState) (binding : Binding) :
    Except MatchOutcome EvalState :=
  if evalCompiled (buildBindings rule input binding) rule.compiledCondition then
    match rule.action with
    | .deny => .error .deny
    | .allow => .ok s
    | .audit => if binding.any Option.isSome then .ok (s.record rule binding) else .ok s
  else .ok s

/-- One iteration of the loop over the rules: `error` is an early return. -/
def evalRule (abi : Abi) (input : ScreenInput) (maxEventBindings : Nat) (s : EvalState)
    (rule : CompiledRule) : Except (Except MatchError MatchOutcome) EvalState :=
  if rule.admits input then
    let candidates := rule.candidates abi input
    match checkedBindingCount (candidates.map List.length) with
    | none => .error (.error (.bindingCountOverflow rule.id))
    | some ruleBindingCount =>
      match checkedAdd s.completeBindingCount ruleBindingCount with
      | none => .error (.error (.bindingCountOverflow rule.id))
      | some count =>
        if count > maxEventBindings then
          .error (.error (.bindingBudgetExceeded rule.id count maxEventBindings))
        else
          match visitCombinations (visit rule input) candidates []
            { s with completeBindingCount := count } with
          | .error outcome => .error (.ok outcome)
          | .ok s' => .ok s'
  else .ok s

/-- The outcome after the loop over the rules. -/
def EvalState.finish (s : EvalState) : MatchOutcome :=
  if s.hasAudit then .audit (s.actionsByLog.mapValues OrdMap.values) s.timeoutAction else .allow

/-- `evaluate_checked`. -/
def evaluateChecked (abi : Abi) (rules : RuleSet) (input : ScreenInput) (maxEventBindings : Nat) :
    Except MatchError MatchOutcome :=
  match rules.rules.foldlM (evalRule abi input maxEventBindings) EvalState.new with
  | .error result => result
  | .ok s => .ok s.finish

/-- `DEFAULT_MAX_EVENT_BINDINGS_PER_TX`. -/
def defaultMaxEventBindingsPerTx : Nat := 10000

/-- `evaluate`: a budget error fails closed. -/
def evaluate (abi : Abi) (rules : RuleSet) (input : ScreenInput) : MatchOutcome :=
  match evaluateChecked abi rules input defaultMaxEventBindingsPerTx with
  | .ok outcome => outcome
  | .error _ => .deny

/-! ## What a decoded event holds -/

/-- One round of the assembly inserts at most one decoded value, under the input's name. -/
theorem assembleParams_cons (abi : Abi) (input : CompiledInput) (rest : List CompiledInput)
    (indexed body : List DynSolValue) (out : OrdMap String Json) :
    ∃ indexed' body' out',
      assembleParams abi (input :: rest) indexed body out =
        assembleParams abi rest indexed' body' out' ∧
      (out' = out ∨ ∃ d, out' = out.insert input.name (dynValueToJson abi d)) := by
  conv in assembleParams abi (input :: rest) _ _ _ => unfold assembleParams
  dsimp only
  split
  · cases indexed.head? with
    | none => exact ⟨_, _, _, rfl, .inl rfl⟩
    | some d => exact ⟨_, _, _, rfl, .inr ⟨d, rfl⟩⟩
  · cases body.head? with
    | none => exact ⟨_, _, _, rfl, .inl rfl⟩
    | some d => exact ⟨_, _, _, rfl, .inr ⟨d, rfl⟩⟩

theorem assembleParams_get? {abi : Abi} {inputs : List CompiledInput}
    {indexed body : List DynSolValue} {out : OrdMap String Json} {k : String} {v : Json}
    (h : (assembleParams abi inputs indexed body out).get? k = some v) :
    out.get? k = some v ∨ ∃ i ∈ inputs, i.name = k ∧ ∃ d, v = dynValueToJson abi d := by
  induction inputs generalizing indexed body out with
  | nil => exact .inl h
  | cons input rest ih =>
    obtain ⟨indexed', body', out', heq, hout⟩ :=
      assembleParams_cons abi input rest indexed body out
    rw [heq] at h
    rcases ih h with h | ⟨i, hi, hk, hv⟩
    · rcases hout with rfl | ⟨d, rfl⟩
      · exact .inl h
      · rw [OrdMap.get?_insert] at h
        split at h
        · rename_i hk
          exact .inr ⟨input, List.mem_cons_self, hk.symm, d, (Option.some.inj h).symm⟩
        · exact .inl h
    · exact .inr ⟨i, List.mem_cons_of_mem _ hi, hk, hv⟩

/-- A decoded parameter has the name of an input and the JSON form of a decoded value. -/
theorem decodeEvent_get? {abi : Abi} {event : CompiledEvent} {log : Log}
    {params : OrdMap String Json} (h : decodeEvent abi event log = some params) {k : String}
    {v : Json} (hk : params.get? k = some v) :
    ∃ i ∈ event.inputs, i.name = k ∧ ∃ d, v = dynValueToJson abi d := by
  obtain ⟨decoded, -, rfl⟩ := Option.map_eq_some_iff.mp h
  rcases assembleParams_get? hk with hk | hk
  · rw [OrdMap.get?_empty] at hk
    cases hk
  · exact hk

/-! ## Which logs an event binds -/

/-- **A log is bound to an event exactly when its shape fits and it decodes**, with its own index,
    address and parameters. -/
theorem mem_findLogsForEvent {abi : Abi} {event : CompiledEvent} {logs : List Log}
    {m : MatchedEvent} :
    m ∈ findLogsForEvent abi event logs ↔
      ∃ log, logs[m.logIndex]? = some log ∧ eventMatchesShape event log = true ∧
        decodeEvent abi event log = some m.params ∧ m.address = log.address.lowerHex := by
  unfold findLogsForEvent
  rw [List.mem_filterMap]
  constructor
  · rintro ⟨⟨log, i⟩, hmem, hm⟩
    rw [List.mem_zipIdx_iff_getElem?] at hmem
    unfold matchLog at hm
    split at hm
    · rename_i hshape
      obtain ⟨params, hp, rfl⟩ := Option.map_eq_some_iff.mp hm
      exact ⟨log, hmem, hshape, hp, rfl⟩
    · cases hm
  · rintro ⟨log, hlog, hshape, hdec, haddr⟩
    refine ⟨(log, m.logIndex), List.mem_zipIdx_iff_getElem?.mpr hlog, ?_⟩
    unfold matchLog
    rw [if_pos hshape, hdec, Option.map_some, ← haddr]

theorem mem_eventCandidates {abi : Abi} {event : CompiledEvent} {logs : List Log}
    {slot : Option MatchedEvent} :
    slot ∈ eventCandidates abi event logs ↔
      match slot with
      | some m => m ∈ findLogsForEvent abi event logs
      | none => findLogsForEvent abi event logs = [] := by
  unfold eventCandidates
  by_cases hnil : findLogsForEvent abi event logs = []
  · cases slot <;> simp [hnil]
  · cases slot <;> simp [hnil]

end XLayerReth.RcsFilter
