import Mathlib.Data.Finset.Card
import XLayerReth.RcsFilter.JsonLogic

/-!
# Subscription kinds, filters and parameters

Model of `flashblocks/src/pubsub.rs`: what a client of `eth_subscribe` can ask for, and how it is
read from JSON.

* `FlashblocksFilter`, `SubTxFilter` — the filter of a flashblocks subscription, read from an object
  or from an array.
* `FlashblockSubscriptionKind`, `FlashblockParams` — untagged: the first variant that can be read.
* `Alloy` — the kinds, the parameters and the addresses of the standard subscriptions, with their
  deserializers.

The fields of an object are those of its text, in its order and with their repetitions.

Principal result: `FlashblocksFilter.deserialize_of_denotedBy` (an object whose fields are those of
a filter is read as that filter).
-/

set_option autoImplicit false

namespace XLayerReth.Flashblocks

open RcsFilter

/-! ## Filters -/

structure SubTxFilter where
  subscribeAddresses : Finset Address
  txInfo : Bool
  txReceipt : Bool
  deriving DecidableEq

/-- `SubTxFilter::default`. -/
def SubTxFilter.default : SubTxFilter := ⟨∅, false, false⟩

/-- `has_address_filter`. -/
def SubTxFilter.hasAddressFilter (filter : SubTxFilter) : Bool :=
  decide (filter.subscribeAddresses ≠ ∅)

structure FlashblocksFilter where
  headerInfo : Bool
  subTxFilter : SubTxFilter
  deriving DecidableEq

/-- `FlashblocksFilter::default`. -/
def FlashblocksFilter.default : FlashblocksFilter := ⟨false, SubTxFilter.default⟩

/-- `requires_address_filtering`. -/
def FlashblocksFilter.requiresAddressFiltering (filter : FlashblocksFilter) : Bool :=
  filter.subTxFilter.hasAddressFilter

/-! ## Derived deserializers -/

/-- The loop over the entries of an object: an unknown key, a repeated key and a value that cannot
    be read end it. -/
def visitMap (known : String → Option (Json → Bool)) :
    List (String × Json) → List (String × Json) → Option (List (String × Json))
  | read, [] => some read
  | read, (key, value) :: rest =>
    match known key with
    | none => none
    | some readable =>
      if key ∈ read.map Prod.fst then none
      else if readable value then visitMap known (read ++ [(key, value)]) rest
      else none

/-- A field that was read, or its default. -/
def fieldOr {T : Type} (read : List (String × Json)) (key : String) (deserialize : Json → Option T)
    (default : T) : Option T :=
  match read.lookup key with
  | none => some default
  | some value => deserialize value

/-- An element of an array, or its default. -/
def elementOr {T : Type} (items : List Json) (index : Nat) (deserialize : Json → Option T)
    (default : T) : Option T :=
  match items[index]? with
  | none => some default
  | some value => deserialize value

def deserializeBool : Json → Option Bool
  | .bool b => some b
  | _ => none

/-- The types of the standard subscriptions and their deserializers. -/
structure Alloy where
  Kind : Type
  Params : Type
  kind : Json → Option Kind
  params : Json → Option Params
  address : Json → Option Address

section

variable (A : Alloy)

/-- `HashSet<Address>`. -/
def deserializeAddresses : Json → Option (Finset Address)
  | .arr items => (items.mapM A.address).map List.toFinset
  | _ => none

/-- The fields of `SubTxFilter`. -/
def SubTxFilter.known (key : String) : Option (Json → Bool) :=
  if key = "subscribeAddresses" then some (fun v => (deserializeAddresses A v).isSome)
  else if key = "txInfo" then some (fun v => (deserializeBool v).isSome)
  else if key = "txReceipt" then some (fun v => (deserializeBool v).isSome)
  else none

/-- `SubTxFilter::deserialize`. -/
def SubTxFilter.deserialize : Json → Option SubTxFilter
  | .obj fields =>
    (visitMap (SubTxFilter.known A) [] fields).bind (fun read =>
      (fieldOr read "subscribeAddresses" (deserializeAddresses A) ∅).bind (fun addresses =>
        (fieldOr read "txInfo" deserializeBool false).bind (fun txInfo =>
          (fieldOr read "txReceipt" deserializeBool false).map (fun txReceipt =>
            ⟨addresses, txInfo, txReceipt⟩))))
  | .arr items =>
    if items.length ≤ 3 then
      (elementOr items 0 (deserializeAddresses A) ∅).bind (fun addresses =>
        (elementOr items 1 deserializeBool false).bind (fun txInfo =>
          (elementOr items 2 deserializeBool false).map (fun txReceipt =>
            ⟨addresses, txInfo, txReceipt⟩)))
    else none
  | _ => none

/-- The fields of `FlashblocksFilter`. -/
def FlashblocksFilter.known (key : String) : Option (Json → Bool) :=
  if key = "headerInfo" then some (fun v => (deserializeBool v).isSome)
  else if key = "subTxFilter" then some (fun v => (SubTxFilter.deserialize A v).isSome)
  else none

/-- `FlashblocksFilter::deserialize`. -/
def FlashblocksFilter.deserialize : Json → Option FlashblocksFilter
  | .obj fields =>
    (visitMap (FlashblocksFilter.known A) [] fields).bind (fun read =>
      (fieldOr read "headerInfo" deserializeBool false).bind (fun headerInfo =>
        (fieldOr read "subTxFilter" (SubTxFilter.deserialize A) SubTxFilter.default).map
          (fun subTxFilter => ⟨headerInfo, subTxFilter⟩)))
  | .arr items =>
    if items.length ≤ 2 then
      (elementOr items 0 deserializeBool false).bind (fun headerInfo =>
        (elementOr items 1 (SubTxFilter.deserialize A) SubTxFilter.default).map
          (fun subTxFilter => ⟨headerInfo, subTxFilter⟩))
    else none
  | _ => none

/-! ## Kinds and parameters -/

/-- `FlashblockSubscriptionKind`. -/
inductive FlashblockSubscriptionKind where
  | flashblocks
  | standard (kind : A.Kind)

/-- The text of a kind: its value, and whether a string is written with an escape sequence. -/
structure KindText where
  value : Json
  escaped : Bool

/-- `deserialize_flashblocks`: a string that can be borrowed from the text. -/
def deserializeFlashblocks (text : KindText) : Option Unit :=
  match text.value with
  | .str s => if text.escaped then none else if s = "flashblocks" then some () else none
  | _ => none

/-- `FlashblockSubscriptionKind::deserialize`. -/
def FlashblockSubscriptionKind.deserialize (text : KindText) :
    Option (FlashblockSubscriptionKind A) :=
  match deserializeFlashblocks text with
  | some () => some .flashblocks
  | none => (A.kind text.value).map .standard

/-- `FlashblockParams`. -/
inductive FlashblockParams where
  | flashblocksFilter (filter : FlashblocksFilter)
  | standard (params : A.Params)

/-- `FlashblockParams::deserialize`. -/
def FlashblockParams.deserialize (json : Json) : Option (FlashblockParams A) :=
  match FlashblocksFilter.deserialize A json with
  | some filter => some (.flashblocksFilter filter)
  | none => (A.params json).map .standard

/-- A parameter that may be absent or null. -/
def deserializeOption {T : Type} (deserialize : Json → Option T) : Option Json → Option (Option T)
  | none => some none
  | some .null => some none
  | some json => (deserialize json).map some

end

/-! ## What a filter is read from -/

/-- What the loop over the entries accepts. -/
theorem visitMap_of_known {known : String → Option (Json → Bool)} :
    ∀ (fields read : List (String × Json)), ((read ++ fields).map Prod.fst).Nodup →
      (∀ e ∈ fields, ∃ readable, known e.1 = some readable ∧ readable e.2 = true) →
      visitMap known read fields = some (read ++ fields)
  | [], read, _, _ => by simp [visitMap]
  | (key, value) :: fields, read, hnodup, hknown => by
    obtain ⟨readable, hkey, hvalue⟩ := hknown _ List.mem_cons_self
    rw [List.append_cons] at hnodup
    have hnew : key ∉ read.map Prod.fst := by
      have hread := List.Nodup.of_append_left ((List.map_append ..) ▸ hnodup)
      intro hmem
      rw [List.map_append] at hread
      exact List.disjoint_of_nodup_append hread hmem (by simp)
    rw [visitMap, hkey]
    dsimp only
    rw [if_neg hnew, if_pos hvalue,
      visitMap_of_known fields (read ++ [(key, value)]) hnodup
        (fun e he => hknown e (List.mem_cons_of_mem _ he)), List.append_assoc]
    rfl

/-- An entry with an unknown key ends the loop. -/
theorem visitMap_of_unknown {known : String → Option (Json → Bool)} {e : String × Json}
    (he : known e.1 = none) : ∀ (fields read : List (String × Json)), e ∈ fields →
      visitMap known read fields = none
  | [], _, h => by cases h
  | (key, value) :: fields, read, h => by
    rw [visitMap]
    rcases List.mem_cons.mp h with rfl | h
    · rw [he]
    · cases known key with
      | none => rfl
      | some readable =>
        dsimp only
        split
        · rfl
        · split
          · exact visitMap_of_unknown he fields _ h
          · rfl

theorem fieldOr_of_mem {T : Type} {fields : List (String × Json)} {key : String} {value : Json}
    {deserialize : Json → Option T} {default : T} (hnodup : (fields.map Prod.fst).Nodup)
    (h : (key, value) ∈ fields) : fieldOr fields key deserialize default = deserialize value := by
  have hlookup : fields.lookup key = some value := by
    induction fields with
    | nil => cases h
    | cons e fields ih =>
      obtain ⟨k, v⟩ := e
      rw [List.map_cons, List.nodup_cons] at hnodup
      rcases List.mem_cons.mp h with heq | h
      · cases heq
        rw [List.lookup_cons, beq_self_eq_true]
      · have hne : key ≠ k := fun heq => hnodup.1 (List.mem_map.mpr ⟨(key, value), h, heq⟩)
        rw [List.lookup_cons, beq_false_of_ne hne]
        exact ih hnodup.2 h
  rw [fieldOr, hlookup]

theorem fieldOr_of_not_mem {T : Type} {fields : List (String × Json)} {key : String}
    {deserialize : Json → Option T} {default : T} (h : key ∉ fields.map Prod.fst) :
    fieldOr fields key deserialize default = some default := by
  have hlookup : fields.lookup key = none := by
    rw [List.lookup_eq_none_iff]
    intro e he
    exact bne_iff_ne.mpr (fun heq => h (List.mem_map.mpr ⟨e, he, heq.symm⟩))
  rw [fieldOr, hlookup]

section

variable {A : Alloy}

/-- A value that an optional field denotes, or the default where the field is absent. -/
structure Denotes {T : Type} (fields : List (String × Json)) (key : String)
    (value : Json → T → Prop) (default : T) (field : T) : Prop where
  present : ∀ v, (key, v) ∈ fields → value v field
  absent : key ∉ fields.map Prod.fst → field = default

/-- The entries of an object are fields of these names, each at most once. -/
structure FieldsAmong (names : List String) (fields : List (String × Json)) : Prop where
  nodup : (fields.map Prod.fst).Nodup
  names : ∀ e ∈ fields, e.1 ∈ names

/-- An array of addresses. -/
def DenotesAddresses (A : Alloy) (value : Json) (addresses : Finset Address) : Prop :=
  ∃ (items : List Json) (list : List Address), value = .arr items ∧
    items.map A.address = list.map some ∧
    addresses = list.toFinset

/-- A boolean. -/
def DenotesBool (value : Json) (b : Bool) : Prop := value = .bool b

/-- The filter that an object denotes. -/
structure SubTxFilter.DenotedBy (A : Alloy) (fields : List (String × Json))
    (filter : SubTxFilter) : Prop where
  among : FieldsAmong ["subscribeAddresses", "txInfo", "txReceipt"] fields
  subscribeAddresses :
    Denotes fields "subscribeAddresses" (DenotesAddresses A) ∅ filter.subscribeAddresses
  txInfo : Denotes fields "txInfo" DenotesBool false filter.txInfo
  txReceipt : Denotes fields "txReceipt" DenotesBool false filter.txReceipt

/-- The filter that an object denotes. -/
structure FlashblocksFilter.DenotedBy (A : Alloy) (fields : List (String × Json))
    (filter : FlashblocksFilter) : Prop where
  among : FieldsAmong ["headerInfo", "subTxFilter"] fields
  headerInfo : Denotes fields "headerInfo" DenotesBool false filter.headerInfo
  subTxFilter : Denotes fields "subTxFilter"
    (fun value sub => ∃ inner, value = .obj inner ∧ SubTxFilter.DenotedBy A inner sub)
    SubTxFilter.default filter.subTxFilter

/-- **One field**: when every value that denotes something is read as that, so is the field. -/
theorem Denotes.fieldOr_eq {T : Type} {fields : List (String × Json)} {key : String}
    {value : Json → T → Prop} {default field : T} {deserialize : Json → Option T}
    (h : Denotes fields key value default field) (hnodup : (fields.map Prod.fst).Nodup)
    (hread : ∀ v x, value v x → deserialize v = some x) :
    fieldOr fields key deserialize default = some field := by
  by_cases hmem : key ∈ fields.map Prod.fst
  · obtain ⟨e, he, rfl⟩ := List.mem_map.mp hmem
    rw [fieldOr_of_mem hnodup he]
    exact hread _ _ (h.present e.2 he)
  · rw [fieldOr_of_not_mem hmem, h.absent hmem]

theorem deserializeBool_of_denotes (v : Json) (b : Bool) (h : DenotesBool v b) :
    deserializeBool v = some b := by
  rw [show v = .bool b from h]
  rfl

theorem mapM_eq_some_of_map {T : Type} {f : Json → Option T} :
    ∀ {items : List Json} {list : List T}, items.map f = list.map some → items.mapM f = some list
  | [], [], _ => rfl
  | item :: items, x :: list, h => by
    rw [List.map_cons, List.map_cons, List.cons.injEq] at h
    rw [List.mapM_cons, h.1, mapM_eq_some_of_map h.2]
    rfl

theorem deserializeAddresses_of_denotes (v : Json) (addresses : Finset Address)
    (h : DenotesAddresses A v addresses) : deserializeAddresses A v = some addresses := by
  obtain ⟨items, list, rfl, hmap, rfl⟩ := h
  rw [deserializeAddresses, mapM_eq_some_of_map hmap]
  rfl

/-- What an entry of an object denotes can be read. -/
theorem Denotes.readable {T : Type} {fields : List (String × Json)} {key : String}
    {value : Json → T → Prop} {default field : T} {deserialize : Json → Option T}
    (h : Denotes fields key value default field)
    (hread : ∀ v x, value v x → deserialize v = some x) {v : Json} (hv : (key, v) ∈ fields) :
    (deserialize v).isSome = true := by
  rw [hread v field (h.present v hv)]
  rfl

theorem SubTxFilter.deserialize_of_denotedBy {fields : List (String × Json)}
    {filter : SubTxFilter} (h : filter.DenotedBy A fields) :
    SubTxFilter.deserialize A (.obj fields) = some filter := by
  have hknown : ∀ e ∈ fields, ∃ readable, SubTxFilter.known A e.1 = some readable ∧
      readable e.2 = true := by
    rintro ⟨key, v⟩ he
    have hkey := h.among.names _ he
    rcases List.mem_cons.mp hkey with heq | hkey
    · obtain rfl : key = "subscribeAddresses" := heq
      exact ⟨_, rfl, h.subscribeAddresses.readable deserializeAddresses_of_denotes he⟩
    · rcases List.mem_cons.mp hkey with heq | hkey
      · obtain rfl : key = "txInfo" := heq
        exact ⟨_, rfl, h.txInfo.readable deserializeBool_of_denotes he⟩
      · obtain rfl : key = "txReceipt" := List.mem_singleton.mp hkey
        exact ⟨_, rfl, h.txReceipt.readable deserializeBool_of_denotes he⟩
  rw [SubTxFilter.deserialize, visitMap_of_known fields [] h.among.nodup hknown, List.nil_append,
    Option.bind_some,
    h.subscribeAddresses.fieldOr_eq h.among.nodup deserializeAddresses_of_denotes,
    Option.bind_some, h.txInfo.fieldOr_eq h.among.nodup deserializeBool_of_denotes,
    Option.bind_some, h.txReceipt.fieldOr_eq h.among.nodup deserializeBool_of_denotes]
  rfl

/-- **An object whose fields are those of a filter** is read as the filter that it denotes. -/
theorem FlashblocksFilter.deserialize_of_denotedBy {fields : List (String × Json)}
    {filter : FlashblocksFilter} (h : filter.DenotedBy A fields) :
    FlashblocksFilter.deserialize A (.obj fields) = some filter := by
  have hsub : ∀ (v : Json) (sub : SubTxFilter),
      (∃ inner, v = .obj inner ∧ SubTxFilter.DenotedBy A inner sub) →
        SubTxFilter.deserialize A v = some sub := by
    rintro v sub ⟨inner, rfl, hinner⟩
    exact SubTxFilter.deserialize_of_denotedBy hinner
  have hknown : ∀ e ∈ fields, ∃ readable, FlashblocksFilter.known A e.1 = some readable ∧
      readable e.2 = true := by
    rintro ⟨key, v⟩ he
    rcases List.mem_cons.mp (h.among.names _ he) with heq | hkey
    · obtain rfl : key = "headerInfo" := heq
      exact ⟨_, rfl, h.headerInfo.readable deserializeBool_of_denotes he⟩
    · obtain rfl : key = "subTxFilter" := List.mem_singleton.mp hkey
      exact ⟨_, rfl, h.subTxFilter.readable hsub he⟩
  rw [FlashblocksFilter.deserialize, visitMap_of_known fields [] h.among.nodup hknown,
    List.nil_append, Option.bind_some,
    h.headerInfo.fieldOr_eq h.among.nodup deserializeBool_of_denotes, Option.bind_some,
    h.subTxFilter.fieldOr_eq h.among.nodup hsub]
  rfl

end

end XLayerReth.Flashblocks
