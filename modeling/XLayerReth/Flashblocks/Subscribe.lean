import XLayerReth.Flashblocks.Pubsub

/-!
# Subscribing

Model of `subscribe` and `handle_accepted` in `flashblocks/src/subscription.rs`, from the JSON of a
request to the stream or to the standard handler that serves it.

* `request` — the method; `direct` — what the standard handler would be called with if it read the
  request itself.
* `StandardParams` — the parameters of standard subscriptions.

Principal result: `standard_subscription_iff`.

A connection that is gone before it is accepted, and what is sent after that, are left out.
-/

set_option autoImplicit false

namespace XLayerReth.Flashblocks

open RcsFilter

/-! ## The method -/

/-- What becomes of a request. -/
inductive Outcome (A : Alloy) where
  /-- The kind or the parameters cannot be read. -/
  | unreadable
  /-- Rejected before it is accepted. -/
  | rejected (message : String)
  /-- Accepted, and ended with an error. -/
  | failed (message : String)
  | flashblocks (filter : FlashblocksFilter)
  /-- Passed to `eth_pubsub.handle_accepted`. -/
  | ethPubsub (kind : A.Kind) (params : Option A.Params)

section

variable (A : Alloy) (maxSubscribedAddresses : Nat)

/-- `FlashblockParams::validate`. -/
def FlashblockParams.validate : FlashblockParams A → Except String Unit
  | .flashblocksFilter filter =>
    if filter.subTxFilter.subscribeAddresses.card > maxSubscribedAddresses then
      .error "too many subscribe addresses"
    else .ok ()
  | .standard _ => .ok ()

/-- `handle_accepted`. -/
def handleAccepted (kind : FlashblockSubscriptionKind A) (params : Option (FlashblockParams A)) :
    Outcome A :=
  match kind with
  | .flashblocks =>
    match params with
    | some (.flashblocksFilter filter) => .flashblocks filter
    | _ => .failed "invalid params for flashblocks"
  | .standard alloyKind =>
    match params with
    | some (.standard p) => .ethPubsub alloyKind (some p)
    | none => .ethPubsub alloyKind none
    | _ => .failed "invalid params for standard eth subscription"

/-- `subscribe`. -/
def subscribe (kind : FlashblockSubscriptionKind A) (params : Option (FlashblockParams A)) :
    Outcome A :=
  match kind with
  | .flashblocks =>
    match params with
    | none => .rejected "flashblocks subscription requires filter params, no params specified"
    | some p =>
      match p.validate A maxSubscribedAddresses with
      | .error err => .rejected err
      | .ok () => handleAccepted A kind params
  | .standard _ => handleAccepted A kind params

/-- A request: the text of its kind, and its parameters if it has any. -/
def request (kind : KindText) (params : Option Json) : Outcome A :=
  match FlashblockSubscriptionKind.deserialize A kind with
  | none => .unreadable
  | some k =>
    match deserializeOption (FlashblockParams.deserialize A) params with
    | none => .unreadable
    | some p => subscribe A maxSubscribedAddresses k p

/-- The kind and the parameters as the standard handler reads them. -/
def direct (kind : KindText) (params : Option Json) : Option (A.Kind × Option A.Params) :=
  (A.kind kind.value).bind (fun k => (deserializeOption A.params params).map (fun p => (k, p)))

end

/-! ## Standard subscriptions -/

/-- The fields of a log filter. -/
def logFilterFields : List String := ["fromBlock", "toBlock", "blockHash", "address", "topics"]

/-- The parameters of standard subscriptions: none, a boolean, or an object with fields of a log
    filter. -/
inductive StandardParams : Option Json → Prop where
  | absent : StandardParams none
  | null : StandardParams (some .null)
  | bool (b : Bool) : StandardParams (some (.bool b))
  | logs (fields : List (String × Json)) (h : ∀ e ∈ fields, e.1 ∈ logFilterFields) :
    StandardParams (some (.obj fields))

section

variable {A : Alloy}

/-- A field of a log filter is not one of a flashblocks filter. -/
theorem known_of_mem_logFilterFields {key : String} (h : key ∈ logFilterFields) :
    FlashblocksFilter.known A key = none := by
  have hheader : key ≠ "headerInfo" := fun heq => absurd (heq ▸ h) (by decide)
  have hsub : key ≠ "subTxFilter" := fun heq => absurd (heq ▸ h) (by decide)
  rw [FlashblocksFilter.known, if_neg hheader, if_neg hsub]

/-- **The empty object** is a flashblocks filter, the default one. -/
theorem deserialize_empty :
    FlashblocksFilter.deserialize A (.obj []) = some FlashblocksFilter.default := rfl

theorem deserialize_logs {fields : List (String × Json)} (hne : fields ≠ [])
    (h : ∀ e ∈ fields, e.1 ∈ logFilterFields) :
    FlashblocksFilter.deserialize A (.obj fields) = none := by
  obtain ⟨e, rest, rfl⟩ := List.exists_cons_of_ne_nil hne
  rw [FlashblocksFilter.deserialize, visitMap_of_unknown
    (known_of_mem_logFilterFields (h e List.mem_cons_self)) (e :: rest) [] List.mem_cons_self]
  rfl

/-- **Parameters other than the empty object** are read as the standard handler reads them. -/
theorem deserialize_standard {params : Option Json} (hparams : StandardParams params)
    (hne : params ≠ some (.obj [])) :
    deserializeOption (FlashblockParams.deserialize A) params =
      (deserializeOption A.params params).map (Option.map .standard) := by
  cases hparams with
  | absent => rfl
  | null => rfl
  | bool b =>
    show ((A.params (.bool b)).map FlashblockParams.standard).map some = _
    rw [deserializeOption, Option.map_map, Option.map_map]
    · rfl
    · intro heq
      cases heq
  | logs fields h =>
    have hfields : fields ≠ [] := fun heq => hne (by rw [heq])
    rw [deserializeOption, deserializeOption, FlashblockParams.deserialize,
      deserialize_logs hfields h]
    dsimp only
    rw [Option.map_map, Option.map_map]
    · rfl
    · intro heq
      cases heq
    · intro heq
      cases heq

/-- A kind that the standard handler can read is not read as `flashblocks`. -/
theorem deserialize_kind (hkind : A.kind (.str "flashblocks") = none) {text : KindText}
    {kind : A.Kind} (h : A.kind text.value = some kind) :
    FlashblockSubscriptionKind.deserialize A text = some (.standard kind) := by
  have hnone : deserializeFlashblocks text = none := by
    obtain ⟨value, escaped⟩ := text
    cases value with
    | str s =>
      have hs : s ≠ "flashblocks" := by
        rintro rfl
        rw [hkind] at h
        cases h
      simp [deserializeFlashblocks, hs]
    | null => rfl
    | bool b => rfl
    | num n => rfl
    | arr items => rfl
    | obj fields => rfl
  rw [FlashblockSubscriptionKind.deserialize, hnone]
  dsimp only
  rw [h]
  rfl

/-- The empty object is not passed on. -/
theorem request_empty {maxSubscribedAddresses : Nat} (hkind : A.kind (.str "flashblocks") = none)
    {text : KindText} {kind : A.Kind} (h : A.kind text.value = some kind) :
    request A maxSubscribedAddresses text (some (.obj [])) =
      .failed "invalid params for standard eth subscription" := by
  have hparams : deserializeOption (FlashblockParams.deserialize A) (some (.obj [])) =
      some (some (.flashblocksFilter FlashblocksFilter.default)) := by
    show (FlashblockParams.deserialize A (.obj [])).map some = _
    rw [FlashblockParams.deserialize, deserialize_empty]
    rfl
  rw [request, deserialize_kind hkind h, hparams]
  rfl

/-- **A flashblocks request** is never passed to the standard handler. -/
theorem request_flashblocks {maxSubscribedAddresses : Nat}
    (hkind : A.kind (.str "flashblocks") = none) (escaped : Bool) (params : Option Json)
    (kind : A.Kind) (p : Option A.Params) :
    request A maxSubscribedAddresses ⟨.str "flashblocks", escaped⟩ params ≠ .ethPubsub kind p := by
  intro h
  rw [request] at h
  cases escaped with
  | true =>
    have hnone : FlashblockSubscriptionKind.deserialize A ⟨.str "flashblocks", true⟩ = none := by
      show (A.kind (.str "flashblocks")).map _ = none
      rw [hkind]
      rfl
    rw [hnone] at h
    cases h
  | false =>
    rw [show FlashblockSubscriptionKind.deserialize A ⟨.str "flashblocks", false⟩ =
      some .flashblocks from rfl] at h
    dsimp only at h
    cases hparams : deserializeOption (FlashblockParams.deserialize A) params with
    | none =>
      rw [hparams] at h
      cases h
    | some decoded =>
      rw [hparams] at h
      dsimp only [subscribe] at h
      cases decoded with
      | none => cases h
      | some q =>
        dsimp only at h
        cases hvalid : q.validate A maxSubscribedAddresses with
        | error err =>
          rw [hvalid] at h
          cases h
        | ok u =>
          rw [hvalid] at h
          cases q with
          | flashblocksFilter filter => cases h
          | standard q => cases h

/-- A flashblocks request with the filter that an object denotes: the filter serves it, unless it
    has too many addresses. -/
theorem request_filter {maxSubscribedAddresses : Nat} {fields : List (String × Json)}
    {filter : FlashblocksFilter} (h : filter.DenotedBy A fields) :
    request A maxSubscribedAddresses ⟨.str "flashblocks", false⟩ (some (.obj fields)) =
      if filter.subTxFilter.subscribeAddresses.card > maxSubscribedAddresses then
        .rejected "too many subscribe addresses"
      else .flashblocks filter := by
  have hparams : deserializeOption (FlashblockParams.deserialize A) (some (.obj fields)) =
      some (some (.flashblocksFilter filter)) := by
    show (FlashblockParams.deserialize A (.obj fields)).map some = _
    rw [FlashblockParams.deserialize, FlashblocksFilter.deserialize_of_denotedBy h]
    rfl
  rw [request, show FlashblockSubscriptionKind.deserialize A ⟨.str "flashblocks", false⟩ =
    some .flashblocks from rfl, hparams]
  dsimp only [subscribe, FlashblockParams.validate]
  by_cases hcard : filter.subTxFilter.subscribeAddresses.card > maxSubscribedAddresses
  · rw [if_pos hcard, if_pos hcard]
  · rw [if_neg hcard, if_neg hcard]
    rfl

/-- The standard handler is called with the kind and the parameters that it would read itself. -/
def PassedOn (A : Alloy) (maxSubscribedAddresses : Nat) (text : KindText) (params : Option Json) :
    Prop :=
  ∃ kind p, direct A text params = some (kind, p) ∧
    request A maxSubscribedAddresses text params = .ethPubsub kind p

end

/-- **Standard subscriptions.**  For every kind and parameters of a standard subscription that the
    standard handler can read, it is called with them exactly if the parameters are not the empty
    object.  An object whose fields are those of a flashblocks filter is read as the filter that
    it denotes, and a flashblocks request is never passed to the standard handler. -/
theorem standard_subscription_iff (A : Alloy) (hkind : A.kind (.str "flashblocks") = none)
    (maxSubscribedAddresses : Nat) :
    (∀ (text : KindText) (params : Option Json), StandardParams params →
      (direct A text params).isSome = true →
        (PassedOn A maxSubscribedAddresses text params ↔ params ≠ some (.obj []))) ∧
    (∀ (fields : List (String × Json)) (filter : FlashblocksFilter), filter.DenotedBy A fields →
      FlashblockParams.deserialize A (.obj fields) = some (.flashblocksFilter filter) ∧
      request A maxSubscribedAddresses ⟨.str "flashblocks", false⟩ (some (.obj fields)) =
        if filter.subTxFilter.subscribeAddresses.card > maxSubscribedAddresses then
          .rejected "too many subscribe addresses"
        else .flashblocks filter) ∧
    (∀ (escaped : Bool) (params : Option Json) (kind : A.Kind) (p : Option A.Params),
      request A maxSubscribedAddresses ⟨.str "flashblocks", escaped⟩ params ≠
        .ethPubsub kind p) := by
  refine ⟨?_, ?_, fun escaped params kind p => request_flashblocks hkind escaped params kind p⟩
  · intro text params hparams hdirect
    obtain ⟨⟨kind, p⟩, hread⟩ := Option.isSome_iff_exists.mp hdirect
    obtain ⟨kind', hk, hp⟩ := Option.bind_eq_some_iff.mp hread
    obtain ⟨p', hp', heq⟩ := Option.map_eq_some_iff.mp hp
    cases heq
    constructor
    · rintro ⟨kind', p', -, hrequest⟩ rfl
      rw [request_empty hkind hk] at hrequest
      cases hrequest
    · intro hne
      refine ⟨kind, p, hread, ?_⟩
      rw [request, deserialize_kind hkind hk, deserialize_standard hparams hne, hp']
      cases p with
      | none => rfl
      | some q => rfl
  · intro fields filter hdenoted
    refine ⟨?_, request_filter hdenoted⟩
    rw [FlashblockParams.deserialize, FlashblocksFilter.deserialize_of_denotedBy hdenoted]

/-! ## A log subscription -/

/-- Parameters of a standard subscription. -/
inductive LogParams where
  | bool (b : Bool)
  | logs (fields : List (String × Json))

/-- The standard subscriptions: four kinds, and booleans or objects with fields of a log filter. -/
abbrev pubsub : Alloy where
  Kind := String
  Params := LogParams
  kind
    | .str s =>
      if s ∈ ["newHeads", "logs", "newPendingTransactions", "syncing"] then some s else none
    | _ => none
  params
    | .bool b => some (.bool b)
    | .obj fields => if ∀ e ∈ fields, e.1 ∈ logFilterFields then some (.logs fields) else none
    | _ => none
  address
    | .str s => Address.fromStr s
    | _ => none

/-- A subscription to the logs of one contract is passed on. -/
theorem standard_subscription_logs :
    pubsub.kind (.str "flashblocks") = none ∧
    PassedOn pubsub 100 ⟨.str "logs", false⟩
      (some (.obj [("address", .str "0x0303030303030303030303030303030303030303")])) := by
  refine ⟨by decide, ((standard_subscription_iff pubsub (by decide) 100).1 ⟨.str "logs", false⟩ _
    (.logs _ ?_) rfl).mpr ?_⟩
  · decide
  · intro heq
    cases heq

/-- A subscription to all logs, written with an empty filter, is not passed on. -/
theorem standard_subscription_empty :
    direct pubsub ⟨.str "logs", false⟩ (some (.obj [])) = some ("logs", some (.logs [])) ∧
    request pubsub 100 ⟨.str "logs", false⟩ (some (.obj [])) =
      .failed "invalid params for standard eth subscription" ∧
    ¬ PassedOn pubsub 100 ⟨.str "logs", false⟩ (some (.obj [])) := by
  have hfailed : request pubsub 100 ⟨.str "logs", false⟩ (some (.obj [])) =
      .failed "invalid params for standard eth subscription" :=
    request_empty (by decide) (show pubsub.kind (.str "logs") = some "logs" by decide)
  refine ⟨rfl, hfailed, ?_⟩
  rintro ⟨kind, p, -, hrequest⟩
  rw [hfailed] at hrequest
  cases hrequest

end XLayerReth.Flashblocks
