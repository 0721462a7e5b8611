import XLayerReth.RcsFilter.MatchingSpec

/-!
# The variables of a rule's events

`build_bindings` joins the alias of an event and the name of a parameter with a dot and writes all
variables of a rule into one flat map.  This module says when a variable gets the value it stands
for.

* `ownVariables` — the declared variables of one event with the values they stand for;
* `inserted` — the insertions `build_bindings` makes for it, in order;
* `Resolves` — every variable of a rule resolves to its own value;
* `NoClash` — no two variables of one name stand for different values;
* `DistinctNames` — no two variables have the same name.

Aliases and parameter names are free text.  `compile_event` only checks that the parameters of one
event have different names, so a parameter called `address`, or dots in the names, can make two
variables coincide; the one written last then hides the other.

Principal result: `eventVariables_iff`.
-/

set_option autoImplicit false

namespace XLayerReth.RcsFilter

open Lib

/-! ## Insertions -/

theorem foldl_insert_of_notMem {name : String} : ∀ {l : List (String × Json)} (b : Bindings),
    (∀ v, (name, v) ∉ l) → l.foldl (fun b p => b.insert p.1 p.2) b name = b name
  | [], _, _ => rfl
  | (n, v) :: l, b, h => by
    have hne : name ≠ n := fun heq => h v (by rw [heq]; exact List.mem_cons_self)
    rw [List.foldl_cons, foldl_insert_of_notMem _ (fun v hv => h v (List.mem_cons_of_mem _ hv))]
    exact if_neg hne

/-- A name that is always inserted with one value has it in the end. -/
theorem foldl_insert_of_mem {name : String} {v : Json} :
    ∀ {l : List (String × Json)} (b : Bindings),
    (name, v) ∈ l → (∀ w, (name, w) ∈ l → w = v) →
      l.foldl (fun b p => b.insert p.1 p.2) b name = some v
  | [], _, h, _ => by cases h
  | (n, w) :: l, b, h, hone => by
    rw [List.foldl_cons]
    by_cases hlater : ∃ w', (name, w') ∈ l
    · obtain ⟨w', hw'⟩ := hlater
      have hv := hone w' (List.mem_cons_of_mem _ hw')
      exact foldl_insert_of_mem _ (hv ▸ hw') (fun w hw => hone w (List.mem_cons_of_mem _ hw))
    · -- this is the last insertion of the name
      rw [foldl_insert_of_notMem _ (fun w' hw' => hlater ⟨w', hw'⟩)]
      rcases List.mem_cons.mp h with heq | hmem
      · cases heq
        exact if_pos rfl
      · exact absurd ⟨v, hmem⟩ hlater

/-! ## The variables of one event -/

/-- The names `build_bindings` uses for an event. -/
def CompiledEvent.variableNames (event : CompiledEvent) : List String :=
  event.inputs.map (fun i => event.varName ++ "." ++ i.name) ++ [event.varName ++ ".address"]

/-- The decoded value of a parameter in the bound log, or null without one. -/
def paramValue (slot : Option MatchedEvent) (name : String) : Option Json :=
  match slot with
  | some m => m.params.get? name
  | none => some .null

/-- The address of the bound log, or null without one. -/
def addressValue (slot : Option MatchedEvent) : Json :=
  match slot with
  | some m => .str m.address
  | none => .null

/-- The declared variables of an event with the values they stand for. -/
def ownVariables (event : CompiledEvent) (slot : Option MatchedEvent) :
    List (String × Option Json) :=
  event.inputs.map (fun i => (event.varName ++ "." ++ i.name, paramValue slot i.name)) ++
    [(event.varName ++ ".address", some (addressValue slot))]

/-- The insertions for an event. -/
def inserted (event : CompiledEvent) (slot : Option MatchedEvent) : List (String × Json) :=
  (match slot with
    | some m => m.params.entries.map (fun p => (event.varName ++ "." ++ p.1, p.2))
    | none => event.inputs.map (fun i => (event.varName ++ "." ++ i.name, .null))) ++
  [(event.varName ++ ".address", addressValue slot)]

theorem ownVariables_names (event : CompiledEvent) (slot : Option MatchedEvent) :
    (ownVariables event slot).map Prod.fst = event.variableNames := by
  simp [ownVariables, CompiledEvent.variableNames]

theorem bindEvent_eq (b : Bindings) (event : CompiledEvent) (slot : Option MatchedEvent) :
    bindEvent b event slot = (inserted event slot).foldl (fun b p => b.insert p.1 p.2) b := by
  cases slot with
  | some m => simp [bindEvent, inserted, List.foldl_map, addressValue]
  | none => simp [bindEvent, inserted, List.foldl_map, addressValue]

theorem joined_inj {a p q : String} : a ++ "." ++ p = a ++ "." ++ q ↔ p = q :=
  String.append_right_inj (a ++ ".")

theorem joined_address (a : String) : a ++ ".address" = a ++ "." ++ "address" := by
  rw [String.append_assoc]
  rfl

/-- Every name of an event has a dot in it. -/
theorem dot_mem_of_variableName {event : CompiledEvent} {name : String}
    (h : name ∈ event.variableNames) : '.' ∈ name.toList := by
  unfold CompiledEvent.variableNames at h
  rcases List.mem_append.mp h with h | h
  · obtain ⟨i, -, rfl⟩ := List.mem_map.mp h
    simp
  · rw [List.mem_singleton] at h
    subst h
    simp

/-! ## All variables of a rule -/

/-- Every declared variable of the rule, with the value it stands for under a binding. -/
def declared (rule : CompiledRule) (binding : Binding) : List (String × Option Json) :=
  (rule.events.zip binding).flatMap (fun p => ownVariables p.1 p.2)

/-- No two variables of one name stand for different values. -/
def NoClash (rule : CompiledRule) (binding : Binding) : Prop :=
  ∀ x ∈ declared rule binding, ∀ y ∈ declared rule binding, x.1 = y.1 → x.2 = y.2

/-- The bindings resolve every variable to what it stands for. -/
structure Resolves (abi : Abi) (rule : CompiledRule) (input : ScreenInput) (binding : Binding)
    (b : Bindings) : Prop where
  contractAddress : b "contract_address" =
    some ((input.txTo.map (fun a => Json.str a.lowerHex)).getD .null)
  origin : b "origin" = some (.str input.origin.lowerHex)
  value : b "value" = some (.str (toString input.value))
  nonce : b "nonce" = some (.num (.posInt input.nonce))
  /-- An event bound to a log: the decoded parameters and the address of that log. -/
  bound : ∀ event m, (event, some m) ∈ rule.events.zip binding →
    ∃ log params, input.logs[m.logIndex]? = some log ∧ decodeEvent abi event log = some params ∧
      (∀ i ∈ event.inputs, b (event.varName ++ "." ++ i.name) = params.get? i.name) ∧
      b (event.varName ++ ".address") = some (.str log.address.lowerHex)
  unbound : ∀ event, (event, none) ∈ rule.events.zip binding →
    (∀ i ∈ event.inputs, b (event.varName ++ "." ++ i.name) = some .null) ∧
      b (event.varName ++ ".address") = some .null

theorem buildBindings_eq (rule : CompiledRule) (input : ScreenInput) (binding : Binding) :
    buildBindings rule input binding =
      ((rule.events.zip binding).flatMap (fun p => inserted p.1 p.2)).foldl
        (fun b p => b.insert p.1 p.2) (txBindings input) := by
  rw [List.foldl_flatMap]
  unfold buildBindings
  simp only [bindEvent_eq]

section Binding

variable {abi : Abi} {rule : CompiledRule} {input : ScreenInput} {binding : Binding}

theorem match_of_mem (hb : IsBinding abi rule input.logs binding) {event : CompiledEvent}
    {m : MatchedEvent} (h : (event, some m) ∈ rule.events.zip binding) :
    m ∈ findLogsForEvent abi event input.logs :=
  List.forall₂_zip hb h

/-- What is inserted is what is declared, except for parameters the log has no value for. -/
theorem mem_inserted_iff (hb : IsBinding abi rule input.logs binding) {event : CompiledEvent}
    {slot : Option MatchedEvent} (hmem : (event, slot) ∈ rule.events.zip binding) {name : String}
    {v : Json} : (name, v) ∈ inserted event slot ↔ (name, some v) ∈ ownVariables event slot := by
  cases slot with
  | none => simp [inserted, ownVariables, paramValue]
  | some m =>
    obtain ⟨log, -, -, hdecode, -⟩ := mem_findLogsForEvent.mp (match_of_mem hb hmem)
    simp only [inserted, ownVariables, paramValue, List.mem_append, List.mem_map,
      List.mem_singleton,
      Prod.mk.injEq, Option.some.injEq]
    apply or_congr_left
    constructor
    · rintro ⟨⟨k, w⟩, hk, rfl, rfl⟩
      obtain ⟨i, hi, rfl, -⟩ := decodeEvent_get? hdecode (OrdMap.mem_entries.mp hk)
      exact ⟨i, hi, rfl, OrdMap.mem_entries.mp hk⟩
    · rintro ⟨i, hi, rfl, hv⟩
      exact ⟨(i.name, v), OrdMap.mem_entries.mpr hv, rfl, rfl⟩

theorem mem_flatMap_inserted_iff (hb : IsBinding abi rule input.logs binding) {name : String}
    {v : Json} :
    (name, v) ∈ (rule.events.zip binding).flatMap (fun p => inserted p.1 p.2) ↔
      (name, some v) ∈ declared rule binding := by
  unfold declared
  rw [List.mem_flatMap, List.mem_flatMap]
  constructor
  · rintro ⟨p, hp, h⟩
    exact ⟨p, hp, (mem_inserted_iff hb hp).mp h⟩
  · rintro ⟨p, hp, h⟩
    exact ⟨p, hp, (mem_inserted_iff hb hp).mpr h⟩

theorem dot_mem_of_declared {x : String × Option Json} (h : x ∈ declared rule binding) :
    '.' ∈ x.1.toList := by
  obtain ⟨p, -, hx⟩ := List.mem_flatMap.mp h
  have hname : x.1 ∈ p.1.variableNames := by
    rw [← ownVariables_names p.1 p.2]
    exact List.mem_map_of_mem hx
  exact dot_mem_of_variableName hname

/-- A name without a dot is a variable of the transaction. -/
theorem buildBindings_of_no_dot (hb : IsBinding abi rule input.logs binding) {name : String}
    (h : '.' ∉ name.toList) : buildBindings rule input binding name = txBindings input name := by
  rw [buildBindings_eq]
  apply foldl_insert_of_notMem
  intro v hv
  exact h (dot_mem_of_declared ((mem_flatMap_inserted_iff hb).mp hv))

theorem txBindings_of_dot {name : String} (h : '.' ∈ name.toList) :
    txBindings input name = none := by
  have hne : ∀ s : String, '.' ∉ s.toList → name ≠ s := fun s hs heq => hs (heq ▸ h)
  simp [txBindings, Bindings.insert, hne "contract_address" (by decide), hne "origin" (by decide),
    hne "value" (by decide), hne "nonce" (by decide)]

/-- Without a clash every declared variable gets its own value. -/
theorem buildBindings_of_noClash (hb : IsBinding abi rule input.logs binding)
    (hclash : NoClash rule binding) {name : String} {v : Option Json}
    (h : (name, v) ∈ declared rule binding) : buildBindings rule input binding name = v := by
  rw [buildBindings_eq]
  cases v with
  | some v =>
    apply foldl_insert_of_mem _ ((mem_flatMap_inserted_iff hb).mpr h)
    intro w hw
    have := hclash _ ((mem_flatMap_inserted_iff hb).mp hw) _ h rfl
    exact Option.some.inj this
  | none =>
    rw [foldl_insert_of_notMem, txBindings_of_dot (dot_mem_of_declared h)]
    intro w hw
    have := hclash _ ((mem_flatMap_inserted_iff hb).mp hw) _ h rfl
    cases this

theorem mem_declared_param {event : CompiledEvent} {slot : Option MatchedEvent}
    (h : (event, slot) ∈ rule.events.zip binding) {i : CompiledInput} (hi : i ∈ event.inputs) :
    (event.varName ++ "." ++ i.name, paramValue slot i.name) ∈ declared rule binding :=
  List.mem_flatMap.mpr ⟨(event, slot), h, List.mem_append_left _ (List.mem_map.mpr ⟨i, hi, rfl⟩)⟩

theorem mem_declared_address {event : CompiledEvent} {slot : Option MatchedEvent}
    (h : (event, slot) ∈ rule.events.zip binding) :
    (event.varName ++ ".address", some (addressValue slot)) ∈ declared rule binding :=
  List.mem_flatMap.mpr ⟨(event, slot), h, List.mem_append_right _ (List.mem_singleton.mpr rfl)⟩

/-- A rule resolves its variables exactly when each declared variable gets its own value. -/
theorem resolves_iff_declared (hb : IsBinding abi rule input.logs binding) :
    Resolves abi rule input binding (buildBindings rule input binding) ↔
      ∀ x ∈ declared rule binding, buildBindings rule input binding x.1 = x.2 := by
  constructor
  · intro h x hx
    obtain ⟨⟨event, slot⟩, hp, hown⟩ := List.mem_flatMap.mp hx
    cases slot with
    | some m =>
      obtain ⟨log, params, hlog, hdecode, hparams, haddr⟩ := h.bound event m hp
      obtain ⟨log', hlog', -, hdecode', haddr'⟩ :=
        mem_findLogsForEvent.mp (match_of_mem hb hp)
      cases hlog.symm.trans hlog'
      cases hdecode.symm.trans hdecode'
      rcases List.mem_append.mp hown with hown | hown
      · obtain ⟨i, hi, rfl⟩ := List.mem_map.mp hown
        exact hparams i hi
      · rw [List.mem_singleton] at hown
        subst hown
        rw [haddr]
        simp only [addressValue, haddr']
    | none =>
      obtain ⟨hparams, haddr⟩ := h.unbound event hp
      rcases List.mem_append.mp hown with hown | hown
      · obtain ⟨i, hi, rfl⟩ := List.mem_map.mp hown
        exact hparams i hi
      · rw [List.mem_singleton] at hown
        subst hown
        exact haddr
  · intro h
    refine ⟨?_, ?_, ?_, ?_, fun event m hp => ?_, fun event hp => ⟨fun i hi => ?_, ?_⟩⟩
    · rw [buildBindings_of_no_dot hb (by decide)]
      rfl
    · rw [buildBindings_of_no_dot hb (by decide)]
      rfl
    · rw [buildBindings_of_no_dot hb (by decide)]
      rfl
    · rw [buildBindings_of_no_dot hb (by decide)]
      rfl
    · obtain ⟨log, hlog, -, hdecode, haddr⟩ := mem_findLogsForEvent.mp (match_of_mem hb hp)
      refine ⟨log, m.params, hlog, hdecode, fun i hi => h _ (mem_declared_param hp hi), ?_⟩
      rw [← haddr]
      exact h _ (mem_declared_address hp)
    · exact h _ (mem_declared_param hp hi)
    · exact h _ (mem_declared_address hp)

theorem resolves_iff_noClash (hb : IsBinding abi rule input.logs binding) :
    Resolves abi rule input binding (buildBindings rule input binding) ↔ NoClash rule binding := by
  rw [resolves_iff_declared hb]
  constructor
  · intro h x hx y hy hname
    rw [← h x hx, ← h y hy, hname]
  · intro h x hx
    exact buildBindings_of_noClash hb h hx

end Binding

/-! ## Accepted rules -/

/-- No parameter is called `address`, and no name of an event is a name of another event. -/
structure DistinctNames (rule : CompiledRule) : Prop where
  noAddress : ∀ event ∈ rule.events, ∀ i ∈ event.inputs, i.name ≠ "address"
  apart : rule.events.Pairwise (fun e e' => List.Disjoint e.variableNames e'.variableNames)

/-- What the loop over the inputs checks: each name is new. -/
theorem compileInputs_names {abi : Abi} {varName : String} :
    ∀ {l : List AbiInput} {seen : List String}
    {inputs : List CompiledInput}, compileInputs abi varName seen l = .ok inputs →
      (inputs.map (fun i => i.name)).Nodup ∧ ∀ i ∈ inputs, i.name ∉ seen
  | [], _, _, h => by
    cases h
    exact ⟨List.nodup_nil, fun _ hi => by cases hi⟩
  | input :: rest, seen, inputs, h => by
    unfold compileInputs at h
    split at h
    · cases h
    · rename_i name _
      split at h
      · cases h
      · rename_i hseen
        split at h
        · cases h
        · rename_i solType _
          simp only [bind, Except.bind] at h
          split at h
          · cases h
          · rename_i compiled hrest
            cases h
            obtain ⟨hnodup, hnew⟩ := compileInputs_names hrest
            refine ⟨?_, fun i hi => ?_⟩
            · rw [List.map_cons, List.nodup_cons]
              refine ⟨fun hmem => ?_, hnodup⟩
              obtain ⟨i, hi, hname⟩ := List.mem_map.mp hmem
              exact hnew i hi (by rw [hname]; exact List.mem_cons_self)
            · rcases List.mem_cons.mp hi with rfl | hi
              · exact hseen
              · exact fun hmem => hnew i hi (List.mem_cons_of_mem _ hmem)

theorem compileEvent_names {abi : Abi} {varName : String} {raw : EventAbi} {event : CompiledEvent}
    (h : compileEvent abi varName raw = .ok event) :
    (event.inputs.map (fun i => i.name)).Nodup := by
  by_cases htype : raw.abiType ≠ "event"
  · simp only [compileEvent, if_pos htype] at h
    cases h
  · by_cases hindexed : raw.inputs.countP (fun i => i.indexed) > if raw.anonymous then 4 else 3
    · simp only [compileEvent, if_neg htype, if_pos hindexed] at h
      cases h
    · simp only [compileEvent, if_neg htype, if_neg hindexed, bind, Except.bind] at h
      split at h
      · cases h
      · rename_i inputs hinputs
        cases h
        exact (compileInputs_names hinputs).1

theorem compileEvents_names {abi : Abi} {quotaAudit : Bool} : ∀ {l : List (String × EventAbi)}
    {events : List CompiledEvent}, compileEvents abi quotaAudit l = .ok events →
      ∀ event ∈ events, (event.inputs.map (fun i => i.name)).Nodup
  | [], _, h, event, he => by
    cases h
    cases he
  | (varName, raw) :: rest, events, h, event, he => by
    unfold compileEvents at h
    simp only [bind, Except.bind] at h
    split at h
    · cases h
    · rename_i compiled hcompiled
      split at h
      · cases h
      · split at h
        · cases h
        · rename_i events' hrest
          cases h
          rcases List.mem_cons.mp he with rfl | he
          · exact compileEvent_names hcompiled
          · exact compileEvents_names hrest event he

/-- The parameters of an event of an accepted rule have different names. -/
theorem compileRule_names {abi : Abi} {raw : RawRule} {rule : CompiledRule}
    (h : compileRule abi raw = .ok rule) :
    ∀ event ∈ rule.events, (event.inputs.map (fun i => i.name)).Nodup := by
  obtain ⟨i', hc⟩ := compileRule_eq_ok h
  obtain ⟨-, -, -, -, -, -, -, -, -, hevents⟩ := compileRuleWithInterner_ok hc
  exact compileEvents_names hevents

theorem variableNames_nodup {event : CompiledEvent}
    (hnames : (event.inputs.map (fun i => i.name)).Nodup)
    (haddress : ∀ i ∈ event.inputs, i.name ≠ "address") : event.variableNames.Nodup := by
  unfold CompiledEvent.variableNames
  rw [List.nodup_append]
  refine ⟨?_, by simp, ?_⟩
  · have hinj : Function.Injective (fun p => event.varName ++ "." ++ p) :=
      fun p q h => joined_inj.mp h
    have := hnames.map hinj
    rwa [List.map_map] at this
  · intro name hname name' hname' heq
    obtain ⟨i, hi, rfl⟩ := List.mem_map.mp hname
    rw [List.mem_singleton] at hname'
    rw [hname', joined_address, joined_inj] at heq
    exact haddress i hi heq

/-- In a rule with distinct names nothing clashes, under any binding. -/
theorem noClash_of_distinctNames {rule : CompiledRule} {binding : Binding}
    (hnames : ∀ event ∈ rule.events, (event.inputs.map (fun i => i.name)).Nodup)
    (hdistinct : DistinctNames rule) (hlen : rule.events.length = binding.length) :
    NoClash rule binding := by
  have hall : ((declared rule binding).map Prod.fst) =
      rule.events.flatMap CompiledEvent.variableNames := by
    unfold declared
    rw [List.map_flatMap]
    simp only [ownVariables_names]
    rw [← List.flatMap_map Prod.fst CompiledEvent.variableNames,
      List.map_fst_zip (Nat.le_of_eq hlen)]
  have hnodup : ((declared rule binding).map Prod.fst).Nodup := by
    rw [hall, List.nodup_flatMap]
    refine ⟨fun event he => ?_, hdistinct.apart⟩
    exact variableNames_nodup (hnames event he) (hdistinct.noAddress event he)
  intro x hx y hy hname
  rw [List.inj_on_of_nodup_map hnodup hx hy hname]

/-- **Event variables are unambiguous exactly when no two of them clash.**  For every accepted rule,
transaction and complete binding, `build_bindings` resolves every variable of the rule to the value
it stands for if and only if no two declared variables of one name stand for different values; and
it does so under every binding when no parameter is called `address` and no name of an event is a
name of another event. -/
theorem eventVariables_iff (abi : Abi) (raw : RawRule) (rule : CompiledRule)
    (hrule : compileRule abi raw = .ok rule) (input : ScreenInput) (binding : Binding)
    (hb : IsBinding abi rule input.logs binding) :
    (Resolves abi rule input binding (buildBindings rule input binding) ↔ NoClash rule binding) ∧
    (DistinctNames rule → Resolves abi rule input binding (buildBindings rule input binding)) := by
  refine ⟨resolves_iff_noClash hb, fun hdistinct => ?_⟩
  rw [resolves_iff_noClash hb]
  exact noClash_of_distinctNames (compileRule_names hrule) hdistinct hb.length_eq

section Samples

/-- The ABI library on the types of a transfer and on the selectors of two events. -/
def tokenAbi : Abi :=
  { transferAbi with
    keccak256 := fun bytes =>
      if bytes = "Approval(address,address,uint256)".toUTF8.data.toList then
        0x8c5be1e5ebec7d5bd14f71427d1e84f3dd0314c0f7b2291e5b200ac8c7c3b925
      else transferAbi.keccak256 bytes }

/-- A deny rule with these events. -/
def denyRule (events : List (String × EventAbi)) : RawRule where
  id := "deny"
  contractAddress := none
  origin := none
  eventAbis := OrdMap.ofList events
  auditTypes := []
  condition := .bool true
  action := .deny
  auditTimeoutAction := none

/-- An ERC20 event with two indexed addresses and an amount, under these names. -/
def tokenEvent (name first second amount : String) : EventAbi :=
  ⟨"event", name, [⟨some first, "address", true⟩, ⟨some second, "address", true⟩,
    ⟨some amount, "uint256", false⟩], false⟩

/-- `Transfer` and `Approval`, compiled under an alias and these parameter names. -/
def tokenCompiled (varName name : String) (topic0 : B256) (first second amount : String) :
    CompiledEvent :=
  ⟨varName, name, [⟨first, .address, true⟩, ⟨second, .address, true⟩, ⟨amount, .uint 256, false⟩],
    false,
    topic0⟩

def transferTopic : B256 := 0xddf252ad1be2c89b69c2b068fc378daa952ba7f163c4a11628f55a4df523b3ef

def approvalTopic : B256 := 0x8c5be1e5ebec7d5bd14f71427d1e84f3dd0314c0f7b2291e5b200ac8c7c3b925

/-- `denyRule`, compiled. -/
def denyCompiled (events : List CompiledEvent) : CompiledRule :=
  ⟨"deny", none, none, events, [], .bool true, .deny, .allow,
    (compile (.bool true) AddressSetInterner.new).1⟩

/-- The transfer of `transferInput` as a match of an event with these parameter names. -/
def transferMatch (first second amount : String) : MatchedEvent :=
  ⟨0, "0x000000000000000000000000000000000000000c", OrdMap.ofList
    [(first, .str "0x000000000000000000000000000000000000000a"),
      (second, .str "0x000000000000000000000000000000000000000b"), (amount, .str "5")]⟩

/-- A rule on transfers with the usual names resolves them. -/
theorem eventVariables_transfer :
    let rule := denyCompiled [tokenCompiled "transfer" "Transfer" transferTopic "from" "to" "value"]
    compileRule tokenAbi (denyRule [("transfer", tokenEvent "Transfer" "from" "to" "value")]) =
      .ok rule ∧
    Resolves tokenAbi rule transferInput [some (transferMatch "from" "to" "value")]
      (buildBindings rule transferInput [some (transferMatch "from" "to" "value")]) := by
  intro rule
  have hrule : compileRule tokenAbi
      (denyRule [("transfer", tokenEvent "Transfer" "from" "to" "value")]) = .ok rule := by rfl
  refine ⟨hrule, (eventVariables_iff tokenAbi _ rule hrule transferInput _ ?_).2 ⟨?_, ?_⟩⟩
  · exact List.Forall₂.cons (by decide) List.Forall₂.nil
  · decide
  · exact List.pairwise_singleton _ _

/-- Two accepted rules on the same transfer: `a.b.c` is the first parameter of the transfer bound to
`a`, and is null because nothing is bound to `a.b`; `transfer.address` is the first parameter of the
transfer, and is the address of its log. -/
theorem eventVariables_clash :
    let dotted := denyCompiled [tokenCompiled "a" "Transfer" transferTopic "b.c" "to" "value",
      tokenCompiled "a.b" "Approval" approvalTopic "c" "to" "value"]
    let hidden :=
      denyCompiled [tokenCompiled "transfer" "Transfer" transferTopic "address" "to" "value"]
    let dottedBinding : Binding := [some (transferMatch "b.c" "to" "value"), none]
    let hiddenBinding : Binding := [some (transferMatch "address" "to" "value")]
    (compileRule tokenAbi (denyRule [("a", tokenEvent "Transfer" "b.c" "to" "value"),
        ("a.b", tokenEvent "Approval" "c" "to" "value")]) = .ok dotted ∧
      IsBinding tokenAbi dotted transferInput.logs dottedBinding ∧
      buildBindings dotted transferInput dottedBinding "a.b.c" = some .null ∧
      ¬ Resolves tokenAbi dotted transferInput dottedBinding
        (buildBindings dotted transferInput dottedBinding)) ∧
    (compileRule tokenAbi (denyRule [("transfer", tokenEvent "Transfer" "address" "to" "value")]) =
        .ok hidden ∧
      IsBinding tokenAbi hidden transferInput.logs hiddenBinding ∧
      buildBindings hidden transferInput hiddenBinding "transfer.address" =
        some (.str "0x000000000000000000000000000000000000000c") ∧
      ¬ Resolves tokenAbi hidden transferInput hiddenBinding
        (buildBindings hidden transferInput hiddenBinding)) := by
  intro dotted hidden dottedBinding hiddenBinding
  have hdotted : IsBinding tokenAbi dotted transferInput.logs dottedBinding :=
    .cons (by decide) (.cons (by decide) .nil)
  have hhidden : IsBinding tokenAbi hidden transferInput.logs hiddenBinding :=
    .cons (by decide) .nil
  refine ⟨⟨by rfl, hdotted, by decide, fun h => ?_⟩, by rfl, hhidden, by decide, fun h => ?_⟩
  · have := (resolves_iff_declared hdotted).mp h
      ("a.b.c", some (.str "0x000000000000000000000000000000000000000a")) (by decide)
    revert this
    decide
  · have := (resolves_iff_declared hhidden).mp h
      ("transfer.address", some (.str "0x000000000000000000000000000000000000000a")) (by decide)
    revert this
    decide

end Samples

end XLayerReth.RcsFilter
