import Mathlib.Data.String.Basic
import XLayerReth.Lib.OrdMap
import XLayerReth.RcsFilter.JsonLogicExact

/-!
# Rules: wire shapes, validation and loading

Model of `rules/model.rs` and `rules/validation.rs`:

* `RawRule`, `EventAbi`, `AbiInput` — the rules as RCS delivers them.
* `compileEvent`, `compileRuleWithInterner` — validation and compilation of one rule, with the
  reason of every rejection.
* `loadRules` — a batch into a `RuleSet`; a rejected rule is left out whole.

`Abi` stands for the ABI library: type parsing, canonical type names, log decoding and the
texts of its errors.

Principal results: `loadRules_compiled` (every loaded rule is the compilation of a raw rule of
the batch), `loadRules_auditTypes` (a loaded audit rule has an audit type) and
`loadRules_verdict` (the verdict of a loaded rule's compiled condition in terms of its
condition).
-/

set_option autoImplicit false

namespace XLayerReth.RcsFilter

open Lib

/-! ## The ABI library -/

/-- `DynSolType`. -/
inductive DynSolType where
  | bool
  | int (bits : Nat)
  | uint (bits : Nat)
  | fixedBytes (size : Nat)
  | address
  | function
  | bytes
  | string
  | array (item : DynSolType)
  | fixedArray (item : DynSolType) (size : Nat)
  | tuple (items : List DynSolType)

/-- `DynSolValue`. -/
inductive DynSolValue where
  | bool (b : Bool)
  | int (i : Int) (bits : Nat)
  | uint (u : Nat) (bits : Nat)
  | fixedBytes (word : B256) (size : Nat)
  | address (a : Address)
  | function (bytes : List UInt8)
  | bytes (bytes : List UInt8)
  | string (s : String)
  | array (items : List DynSolValue)
  | fixedArray (items : List DynSolValue)
  | tuple (items : List DynSolValue)

/-- `DecodedEvent`: the indexed and the data values of a decoded log. -/
structure DecodedEvent where
  indexed : List DynSolValue
  body : List DynSolValue

/-- The functions of the ABI and hashing libraries that the filter calls. -/
structure Abi where
  /-- `DynSolType::parse`, with the text of its error. -/
  parse : String → Except String DynSolType
  /-- `DynSolType::sol_type_name`. -/
  solTypeName : DynSolType → String
  /-- `keccak256` of a byte string. -/
  keccak256 : List UInt8 → B256
  /-- `DynSolEvent::decode_log_parts` of the event with this selector, indexed types and body
      types, on the topics and data of a log. -/
  decodeLogParts : Option B256 → List DynSolType → List DynSolType → List B256 → List UInt8 →
    Option DecodedEvent
  /-- `{:?}` of a value. -/
  debugValue : DynSolValue → String
  /-- The text of the error of `Address::from_str`. -/
  addressError : String → String

/-! ## Rule shapes -/

/-- Rule action. -/
inductive Action where
  | deny
  | allow
  | audit
  deriving DecidableEq, Repr

/-- Fallback applied when RCS is unresponsive past the total retry timeout. -/
inductive TimeoutAction where
  | deny
  | allow
  deriving DecidableEq, Repr

/-- `TimeoutAction::stricter`: `deny` wins. -/
def TimeoutAction.stricter : TimeoutAction → TimeoutAction → TimeoutAction
  | .deny, _ => .deny
  | _, .deny => .deny
  | .allow, .allow => .allow

theorem TimeoutAction.stricter_eq_deny (x y : TimeoutAction) :
    x.stricter y = .deny ↔ x = .deny ∨ y = .deny := by
  cases x <;> cases y <;> decide

structure AbiInput where
  name : Option String
  paramType : String
  indexed : Bool

structure EventAbi where
  abiType : String
  name : String
  inputs : List AbiInput
  anonymous : Bool

/-- A rule as RCS delivers it. -/
structure RawRule where
  id : String
  contractAddress : Option String
  origin : Option String
  eventAbis : OrdMap String EventAbi
  auditTypes : List String
  condition : Json
  action : Action
  auditTimeoutAction : Option TimeoutAction

structure CompiledInput where
  name : String
  solType : DynSolType
  indexed : Bool

/-- A compiled named event; `varName` is the rule-local name. -/
structure CompiledEvent where
  varName : String
  abiName : String
  inputs : List CompiledInput
  anonymous : Bool
  topic0 : B256

/-- A rule that passed validation. -/
structure CompiledRule where
  id : String
  contractAddress : Option Address
  origin : Option Address
  events : List CompiledEvent
  auditTypes : List String
  condition : Json
  action : Action
  auditTimeoutAction : TimeoutAction
  compiledCondition : CompiledCondition

structure RejectedRule where
  id : String
  reason : String
  deriving DecidableEq

/-- An immutable, validated rule snapshot. -/
structure RuleSet where
  protocolVersion : Nat
  contentVersion : Nat
  rules : List CompiledRule
  rejected : List RejectedRule

/-- `RuleSet::default`: the snapshot used before the first rules are loaded. -/
def RuleSet.default : RuleSet := ⟨0, 0, [], []⟩

/-! ## Validation of one rule -/

/-- `MAX_EVENTS_PER_RULE`. -/
def maxEventsPerRule : Nat := 8

/-- `ERC20_TRANSFER_SHAPE`. -/
def erc20TransferShape : List String := ["from", "to", "value"]

/-- `ERC1155_TRANSFER_SINGLE_SHAPE`. -/
def erc1155TransferSingleShape : List String := ["operator", "from", "to", "id", "value"]

/-- `ERC1155_TRANSFER_BATCH_SHAPE`. -/
def erc1155TransferBatchShape : List String := ["operator", "from", "to", "ids", "values"]

/-- `QUOTA`: the only audit type implemented. -/
def quota : String := "quota"

/-- The loop over the declared inputs: every name is present and new, every type parses. -/
def compileInputs (abi : Abi) (varName : String) :
    List String → List AbiInput → Except String (List CompiledInput)
  | _, [] => .ok []
  | seen, input :: rest =>
    match input.name.filter (· ≠ "") with
    | none => .error ("event '" ++ varName ++ "' has an input with a missing name")
    | some name =>
      if name ∈ seen then
        .error ("event '" ++ varName ++ "' has a duplicate input name '" ++ name ++ "'")
      else
        match abi.parse input.paramType with
        | .error e =>
          .error ("event '" ++ varName ++ "' input '" ++ name ++ "' has invalid type: " ++ e)
        | .ok solType => do
          let inputs ← compileInputs abi varName (name :: seen) rest
          .ok (⟨name, solType, input.indexed⟩ :: inputs)

/-- `compile_event`: resolve the input types and precompute the selector. -/
def compileEvent (abi : Abi) (varName : String) (event : EventAbi) :
    Except String CompiledEvent :=
  let indexedCount := event.inputs.countP (·.indexed)
  let maxIndexed := if event.anonymous then 4 else 3
  if event.abiType ≠ "event" then
    .error ("event '" ++ varName ++ "' has unsupported ABI type '" ++ event.abiType ++ "'")
  else if indexedCount > maxIndexed then
    .error ("event '" ++ varName ++ "' declares " ++ toString indexedCount ++
      " indexed inputs; maximum is " ++ toString maxIndexed)
  else do
    let inputs ← compileInputs abi varName [] event.inputs
    let typeNames := inputs.map (fun i => abi.solTypeName i.solType)
    let signature := event.name ++ "(" ++ ",".intercalate typeNames ++ ")"
    .ok ⟨varName, event.name, inputs, event.anonymous, abi.keccak256 signature.toUTF8.data.toList⟩

/-- `matches_quota_shape`. -/
def matchesQuotaShape (event : CompiledEvent) : Bool :=
  let names := event.inputs.map (·.name)
  names == erc20TransferShape || names == erc1155TransferSingleShape ||
    names == erc1155TransferBatchShape

/-- The loop over the declared events, in alias order. -/
def compileEvents (abi : Abi) (isQuotaAudit : Bool) :
    List (String × EventAbi) → Except String (List CompiledEvent)
  | [] => .ok []
  | (varName, event) :: rest => do
    let compiled ← compileEvent abi varName event
    if isQuotaAudit && !matchesQuotaShape compiled then
      .error ("event '" ++ varName ++ "' does not match a fixed quota shape " ++
        "(ERC20 Transfer / ERC1155 TransferSingle / ERC1155 TransferBatch)")
    else do
      let events ← compileEvents abi isQuotaAudit rest
      .ok (compiled :: events)

/-- `parse_opt_address`: an address that is present must be well formed. -/
def parseOptAddress (abi : Abi) (field : String) : Option String → Except String (Option Address)
  | none => .ok none
  | some s =>
    match Address.fromStr s with
    | some a => .ok (some a)
    | none => .error (field ++ " is not a valid address: " ++ abi.addressError s)

/-- Whether every event of the rule must have a fixed quota shape. -/
def RawRule.isQuotaAudit (raw : RawRule) : Bool :=
  raw.action == .audit && raw.auditTypes.any (· == quota)

/-- `compile_rule_with_interner`. -/
def compileRuleWithInterner (abi : Abi) (raw : RawRule) (interner : AddressSetInterner) :
    Except String (CompiledRule × AddressSetInterner) :=
  if raw.eventAbis.isEmpty then .error "event_abis is empty"
  else if raw.eventAbis.size > maxEventsPerRule then
    .error ("event_abis declares " ++ toString raw.eventAbis.size ++ " aliases; at most " ++
      toString maxEventsPerRule ++ " are allowed")
  else if raw.action = .audit ∧ raw.auditTypes = [] then .error "audit rule has no audit_types"
  else do
    validate raw.condition
    let events ← compileEvents abi raw.isQuotaAudit raw.eventAbis.entries
    let contractAddress ← parseOptAddress abi "contract_address" raw.contractAddress
    let origin ← parseOptAddress abi "origin" raw.origin
    let compiled := compile raw.condition interner
    .ok (⟨raw.id, contractAddress, origin, events, raw.auditTypes, raw.condition, raw.action,
      raw.auditTimeoutAction.getD .allow, compiled.1⟩, compiled.2)

/-- `compile_rule`: one rule with an interner of its own. -/
def compileRule (abi : Abi) (raw : RawRule) : Except String CompiledRule :=
  (compileRuleWithInterner abi raw AddressSetInterner.new).map Prod.fst

/-! ## Loading a batch -/

/-- The loop of `load_rules`; `ids` are the ids of the whole batch. -/
def loadLoop (abi : Abi) (ids : List String) :
    List RawRule → AddressSetInterner → List CompiledRule × List RejectedRule
  | [], _ => ([], [])
  | raw :: rest, interner =>
    if ids.count raw.id > 1 then
      let loaded := loadLoop abi ids rest interner
      (loaded.1, ⟨raw.id, "duplicate rule id"⟩ :: loaded.2)
    else
      match compileRuleWithInterner abi raw interner with
      | .ok (compiled, interner') =>
        let loaded := loadLoop abi ids rest interner'
        (compiled :: loaded.1, loaded.2)
      | .error reason =>
        let loaded := loadLoop abi ids rest interner
        (loaded.1, ⟨raw.id, reason⟩ :: loaded.2)

/-- `load_rules`. -/
def loadRules (abi : Abi) (protocolVersion contentVersion : Nat) (raw : List RawRule) : RuleSet :=
  let loaded := loadLoop abi (raw.map (·.id)) raw AddressSetInterner.new
  ⟨protocolVersion, contentVersion, loaded.1, loaded.2⟩

/-! ## What a loaded rule has passed -/

/-- Everything the compilation of one rule checked and kept. -/
theorem compileRuleWithInterner_ok {abi : Abi} {raw : RawRule} {i i' : AddressSetInterner}
    {rule : CompiledRule} (h : compileRuleWithInterner abi raw i = .ok (rule, i')) :
    (raw.action = .audit → raw.auditTypes ≠ []) ∧ validate raw.condition = .ok () ∧
      rule.id = raw.id ∧ rule.auditTypes = raw.auditTypes ∧ rule.condition = raw.condition ∧
      rule.action = raw.action ∧ rule.auditTimeoutAction = raw.auditTimeoutAction.getD .allow ∧
      rule.compiledCondition = (compile raw.condition i).1 ∧ i' = (compile raw.condition i).2 ∧
      compileEvents abi raw.isQuotaAudit raw.eventAbis.entries = .ok rule.events := by
  unfold compileRuleWithInterner at h
  split at h
  · cases h
  · split at h
    · cases h
    · split at h
      · cases h
      · rename_i hne
        simp only [bind, Except.bind] at h
        split at h
        · cases h
        · rename_i hv
          split at h
          · cases h
          · rename_i hevents
            split at h
            · cases h
            · split at h
              · cases h
              · cases h
                exact ⟨fun ha he => hne ⟨ha, he⟩, hv, rfl, rfl, rfl, rfl, rfl, rfl, rfl, hevents⟩

theorem compileRule_eq_ok {abi : Abi} {raw : RawRule} {rule : CompiledRule}
    (h : compileRule abi raw = .ok rule) :
    ∃ i', compileRuleWithInterner abi raw AddressSetInterner.new = .ok (rule, i') := by
  unfold compileRule at h
  cases hc : compileRuleWithInterner abi raw AddressSetInterner.new with
  | error e =>
    rw [hc] at h
    cases h
  | ok r =>
    rw [hc] at h
    cases h
    exact ⟨r.2, rfl⟩

theorem loadLoop_compiled {abi : Abi} {ids : List String} : ∀ {raw : List RawRule}
    {i : AddressSetInterner} {rule : CompiledRule}, rule ∈ (loadLoop abi ids raw i).1 →
      ∃ r ∈ raw, ∃ j j', compileRuleWithInterner abi r j = .ok (rule, j')
  | [], _, _, h => by cases h
  | r :: rest, i, rule, h => by
    unfold loadLoop at h
    split at h
    · obtain ⟨r', hr', hc⟩ := loadLoop_compiled h
      exact ⟨r', List.mem_cons_of_mem _ hr', hc⟩
    · split at h
      · rename_i compiled i' hc
        rcases List.mem_cons.mp h with rfl | h
        · exact ⟨r, List.mem_cons_self, i, i', hc⟩
        · obtain ⟨r', hr', hc'⟩ := loadLoop_compiled h
          exact ⟨r', List.mem_cons_of_mem _ hr', hc'⟩
      · obtain ⟨r', hr', hc⟩ := loadLoop_compiled h
        exact ⟨r', List.mem_cons_of_mem _ hr', hc⟩

/-- **Every loaded rule is the compilation of a raw rule of the batch.** -/
theorem loadRules_compiled {abi : Abi} {pv cv : Nat} {raw : List RawRule} {rule : CompiledRule}
    (h : rule ∈ (loadRules abi pv cv raw).rules) :
    ∃ r ∈ raw, ∃ j j', compileRuleWithInterner abi r j = .ok (rule, j') := loadLoop_compiled h

/-- A loaded audit rule names at least one audit type. -/
theorem loadRules_auditTypes {abi : Abi} {pv cv : Nat} {raw : List RawRule} {rule : CompiledRule}
    (h : rule ∈ (loadRules abi pv cv raw).rules) (ha : rule.action = .audit) :
    rule.auditTypes ≠ [] := by
  obtain ⟨r, -, j, j', hc⟩ := loadRules_compiled h
  obtain ⟨hne, -, -, htypes, -, haction, -, -, -⟩ := compileRuleWithInterner_ok hc
  rw [htypes]
  exact hne (haction ▸ ha)

/-- The compiled condition of a loaded rule decides as its condition does, except where an
    accelerated membership test flips the verdict. -/
theorem loadRules_verdict {abi : Abi} {pv cv : Nat} {raw : List RawRule} {rule : CompiledRule}
    (h : rule ∈ (loadRules abi pv cv raw).rules) (b : Bindings) :
    evalCompiled b rule.compiledCondition =
      (truthy rule.condition b != flips b rule.condition) := by
  obtain ⟨r, -, j, j', hc⟩ := loadRules_compiled h
  obtain ⟨-, -, -, -, hcond, -, -, hcomp, -⟩ := compileRuleWithInterner_ok hc
  rw [hcomp, hcond]
  exact evalCompiled_compile r.condition j b

end XLayerReth.RcsFilter
