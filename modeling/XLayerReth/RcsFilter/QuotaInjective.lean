import XLayerReth.Lib.PrefixCode
import XLayerReth.RcsFilter.HandleSafety

/-!
# What the quota consistency hash distinguishes

The buffer hashed for two action lists is the same exactly when the lists are the same up to the
case of the string values.

* `Json.lowered`, `ActionItem.lowered` — the values with every string in lower case, at any depth
  of arrays.
* `MatcherItem` — what the matcher puts into an action (`matcherItem_of_evaluate`).
* `ActionItem.Short` — every length fits the 32-bit length prefix.

Each field of the encoding is self-delimiting (`Lib.ReadsOff`), from the length prefix up to the
whole list.

Principal results: `encodeQuota_eq_iff` and `quota_change_detected`.
-/

set_option autoImplicit false

namespace XLayerReth.RcsFilter

open Lib

/-! ## Letter case -/

theorem toNat_toLower (c : Char) : c.toLower.toNat =
    if 65 ≤ c.toNat ∧ c.toNat ≤ 90 then c.toNat + 32 else c.toNat := by
  have hA : ('A'.val ≤ c.val) = (65 ≤ c.toNat) := by
    rw [UInt32.le_iff_toNat_le]
    rfl
  have hZ : (c.val ≤ 'Z'.val) = (c.toNat ≤ 90) := by
    rw [UInt32.le_iff_toNat_le]
    rfl
  unfold Char.toLower
  simp only [ge_iff_le, hA, hZ]
  split
  · rename_i h
    have hadd : (c.val + ('a'.val - 'A'.val)).toNat = c.toNat + 32 := by
      rw [UInt32.toNat_add]
      have h32 : ('a'.val - 'A'.val).toNat = 32 := rfl
      have hc : c.val.toNat = c.toNat := rfl
      omega
    exact hadd
  · rfl

theorem toLower_toLower (c : Char) : c.toLower.toLower = c.toLower := by
  apply Char.toNat_inj.mp
  rw [toNat_toLower c.toLower, if_neg]
  have hlow := toNat_toLower c
  split at hlow <;> omega

theorem utf8Size_toLower (c : Char) : c.toLower.utf8Size = c.utf8Size := by
  have hone : ∀ d : Char, d.utf8Size = 1 ↔ d.toNat ≤ 127 := by
    intro d
    rw [Char.utf8Size_eq_one_iff, UInt32.le_iff_toNat_le]
    rfl
  by_cases h : 65 ≤ c.toNat ∧ c.toNat ≤ 90
  · have hlow := toNat_toLower c
    rw [if_pos h] at hlow
    rw [(hone c).mpr (by omega), (hone c.toLower).mpr (by omega)]
  · have hlow := toNat_toLower c
    rw [if_neg h] at hlow
    rw [Char.toNat_inj.mp hlow]

theorem asciiLower_asciiLower (s : String) : asciiLower (asciiLower s) = asciiLower s := by
  apply String.toList_inj.mp
  unfold asciiLower
  rw [String.toList_map, String.toList_map, List.map_map]
  exact List.map_congr_left (fun c _ => toLower_toLower c)

theorem utf8_injective {s t : String} (h : utf8 s = utf8 t) : s = t := by
  have hdata : s.toUTF8.data = t.toUTF8.data := Array.toList_inj.mp h
  exact String.toByteArray_inj.mp (ByteArray.ext hdata)

theorem utf8_length (s : String) : (utf8 s).length = s.utf8ByteSize := rfl

theorem utf8_asciiLower_length (s : String) : (utf8 (asciiLower s)).length = (utf8 s).length := by
  have key : ∀ l : List Char,
      (String.ofList (l.map Char.toLower)).utf8ByteSize = (String.ofList l).utf8ByteSize := by
    intro l
    induction l using List.reverseRecOn with
    | nil => rfl
    | append_singleton l c ih =>
      have hone : ∀ d : Char, (String.ofList [d]).utf8ByteSize = d.utf8Size := by
        intro d
        rw [← String.singleton_eq_ofList, String.utf8ByteSize_singleton]
      rw [List.map_append, List.map_singleton, String.ofList_append, String.ofList_append,
        String.utf8ByteSize_append, String.utf8ByteSize_append, ih, hone, hone, utf8Size_toLower]
  rw [utf8_length, utf8_length]
  have h := key s.toList
  rw [String.ofList_toList] at h
  rw [← h, asciiLower, String.map_eq_internal]

mutual

/-- A value with its strings in lower case, at any depth of arrays. -/
def Json.lowered : Json → Json
  | .str s => .str (asciiLower s)
  | .arr values => .arr (loweredItems values)
  | .null => .null
  | .bool b => .bool b
  | .num n => .num n
  | .obj fields => .obj fields

def loweredItems : List Json → List Json
  | [] => []
  | v :: vs => v.lowered :: loweredItems vs

end

/-- An action with the string values of its parameters in lower case. -/
def ActionItem.lowered (item : ActionItem) : ActionItem :=
  { item with params := item.params.mapValues Json.lowered }

/-- The quota lists of two action maps agree up to the case of string values. -/
def SameQuota (a b : Actions) : Prop :=
  (quotaItems a).map ActionItem.lowered = (quotaItems b).map ActionItem.lowered

instance (a b : Actions) : Decidable (SameQuota a b) :=
  inferInstanceAs (Decidable (_ = _))

/-! ## The domain -/

mutual

/-- Made of strings and arrays only. -/
def Json.isText : Json → Bool
  | .str _ => true
  | .arr values => textItems values
  | _ => false

def textItems : List Json → Bool
  | [] => true
  | v :: vs => v.isText && textItems vs

end

mutual

theorem isText_dynValueToJson (abi : Abi) : ∀ v : DynSolValue, (dynValueToJson abi v).isText = true
  | .address _ | .uint _ _ | .int _ _ | .bool _ | .string _ | .fixedBytes _ _ | .bytes _
  | .function _ => rfl
  | .array values | .fixedArray values | .tuple values => textItems_dynValuesToJson abi values

theorem textItems_dynValuesToJson (abi : Abi) : ∀ vs : List DynSolValue,
    textItems (dynValuesToJson abi vs) = true
  | [] => rfl
  | v :: vs => by
    rw [dynValuesToJson, textItems, isText_dynValueToJson abi v, textItems_dynValuesToJson abi vs]
    rfl

end

mutual

/-- Every string and every array is shorter than `2 ^ 32`. -/
def Json.isShort : Json → Bool
  | .str s => (utf8 s).length < 2 ^ 32
  | .arr values => values.length < 2 ^ 32 && shortItems values
  | _ => true

def shortItems : List Json → Bool
  | [] => true
  | v :: vs => v.isShort && shortItems vs

end

/-- What the matcher puts into an action: the address of a log, and decoded values. -/
structure MatcherItem (abi : Abi) (item : ActionItem) : Prop where
  address : ∃ a : Address, item.address = a.lowerHex
  values : ∀ p ∈ item.params.entries, ∃ v, p.2 = dynValueToJson abi v

/-- Every length of an action fits its prefix. -/
structure ActionItem.Short (item : ActionItem) : Prop where
  name : (utf8 item.name).length < 2 ^ 32
  size : item.params.size < 2 ^ 32
  keys : ∀ p ∈ item.params.entries, (utf8 p.1).length < 2 ^ 32
  values : ∀ p ∈ item.params.entries, p.2.isShort = true

/-- The domain of the encoding: actions of the matcher, with lengths that fit. -/
structure QuotaDomain (abi : Abi) (actions : Actions) : Prop where
  length : (quotaItems actions).length < 2 ^ 32
  matched : ∀ item ∈ quotaItems actions, MatcherItem abi item
  short : ∀ item ∈ quotaItems actions, item.Short

/-! ## The fields of the encoding -/

theorem pushU32_readsOff : ReadsOff (fun n => n < 2 ^ 32) pushU32 (fun n => n) := by
  refine readsOff_of_length 4 (fun n _ => rfl) (fun m n hm hn h => ?_)
  unfold pushU32 at h
  simp only [List.cons.injEq, and_true] at h
  obtain ⟨h₃, h₂, h₁, h₀⟩ := h
  have h₃ := congrArg UInt8.toNat h₃
  have h₂ := congrArg UInt8.toNat h₂
  have h₁ := congrArg UInt8.toNat h₁
  have h₀ := congrArg UInt8.toNat h₀
  simp only [UInt8.toNat_ofNat'] at h₃ h₂ h₁ h₀
  omega

theorem pushBytes_readsOff : ReadsOff (fun bs => bs.length < 2 ^ 32) pushBytes (fun bs => bs) := by
  have hbyte : ReadsOff (fun _ : UInt8 => True) (fun b => [b]) (fun b => b) :=
    readsOff_of_length 1 (fun _ _ => rfl) (fun a b _ _ h => by simpa using h)
  intro a b ha hb xs ys h
  have hcounted := hbyte.counted pushU32_readsOff a b ⟨ha, fun _ _ => trivial⟩
    ⟨hb, fun _ _ => trivial⟩ xs ys
  simp only [List.flatMap_singleton', List.map_id'] at hcounted
  exact hcounted h

theorem pushText_readsOff :
    ReadsOff (fun s => (utf8 s).length < 2 ^ 32) (fun s => pushBytes (utf8 s)) (fun s => s) := by
  intro s t hs ht xs ys h
  obtain ⟨hbytes, hend⟩ := pushBytes_readsOff (utf8 s) (utf8 t) hs ht xs ys h
  exact ⟨utf8_injective hbytes, hend⟩

theorem Address.fromStr_lowerHex (a : Address) : Address.fromStr a.lowerHex = some a := by
  have hlt : a.toNat < 16 ^ 40 := a.isLt
  unfold Address.fromStr Address.lowerHex
  rw [String.toList_ofList, stripHexPrefix, Digits.hexValue_toHex hlt, Option.map_some]
  simp

theorem Address.bytes_injective {a b : Address} (h : a.bytes = b.bytes) : a = b := by
  -- the low `k` bytes of the two numbers agree, by induction on `k`
  have hlow : ∀ k ≤ 20, a.toNat % 256 ^ k = b.toNat % 256 ^ k := by
    intro k
    induction k with
    | zero => simp [Nat.mod_one]
    | succ k ih =>
      intro hk
      have hbyte := congrArg (fun bs => bs[19 - k]?) h
      simp only [Address.bytes, List.getElem?_map, List.getElem?_range (show 19 - k < 20 by omega),
        Option.map_some, Option.some.injEq] at hbyte
      have hbyte := congrArg UInt8.toNat hbyte
      rw [UInt8.toNat_ofNat', UInt8.toNat_ofNat', show 19 - (19 - k) = k by omega] at hbyte
      rw [Nat.mod_pow_succ, Nat.mod_pow_succ, ih (by omega)]
      simp only [hbyte]
  have hall := hlow 20 (by omega)
  have ha : a.toNat < 256 ^ 20 := a.isLt
  have hb : b.toNat < 256 ^ 20 := b.isLt
  rw [Nat.mod_eq_of_lt ha, Nat.mod_eq_of_lt hb] at hall
  exact BitVec.eq_of_toNat_eq hall

theorem pushAddress_lowerHex (a : Address) : pushAddress a.lowerHex = pushU32 20 ++ a.bytes := by
  unfold pushAddress
  rw [Address.fromStr_lowerHex]

theorem pushAddress_readsOff :
    ReadsOff (fun s => ∃ a : Address, s = a.lowerHex) pushAddress (fun s => s) := by
  refine readsOff_of_length 24 ?_ ?_
  · rintro s ⟨a, rfl⟩
    rw [pushAddress_lowerHex]
    simp [pushU32, Address.bytes]
  · rintro s t ⟨a, rfl⟩ ⟨b, rfl⟩ h
    rw [pushAddress_lowerHex, pushAddress_lowerHex] at h
    rw [Address.bytes_injective (List.append_cancel_left h)]

mutual

/-- **A value made of strings and arrays is read off its encoding**, up to case: the tag tells a
    string from an array, and each carries its length. -/
theorem pushJsonValue_reads : ∀ v w : Json, v.isText = true → w.isText = true →
    v.isShort = true → w.isShort = true → ∀ xs ys,
      pushJsonValue v ++ xs = pushJsonValue w ++ ys → v.lowered = w.lowered ∧ xs = ys
  | .str s, .str t, _, _, hs, ht, xs, ys, h => by
    have hlower : ∀ u : String, (utf8 u).length < 2 ^ 32 → (utf8 (asciiLower u)).length < 2 ^ 32 :=
      fun u hu => by rwa [utf8_asciiLower_length]
    have hs : (utf8 s).length < 2 ^ 32 := of_decide_eq_true hs
    have ht : (utf8 t).length < 2 ^ 32 := of_decide_eq_true ht
    obtain ⟨heq, hend⟩ := pushText_readsOff _ _ (hlower s hs) (hlower t ht) xs ys
      (List.cons.inj h).2
    exact ⟨congrArg Json.str heq, hend⟩
  | .arr vs, .arr ws, hv, hw, hsv, hsw, xs, ys, h => by
    obtain ⟨hlv, hsv⟩ := Bool.and_eq_true_iff.mp hsv
    obtain ⟨hlw, hsw⟩ := Bool.and_eq_true_iff.mp hsw
    rw [pushJsonValue, pushJsonValue, List.cons_append, List.cons_append, List.cons.injEq,
      List.append_assoc, List.append_assoc] at h
    obtain ⟨hlen, hrest⟩ := pushU32_readsOff _ _ (of_decide_eq_true hlv) (of_decide_eq_true hlw)
      _ _ h.2
    obtain ⟨heq, hend⟩ := pushJsonValues_reads vs ws hv hw hsv hsw hlen xs ys hrest
    exact ⟨congrArg Json.arr heq, hend⟩
  | .str _, .arr _, _, _, _, _, _, _, h => absurd (List.cons.inj h).1 (by decide)
  | .arr _, .str _, _, _, _, _, _, _, h => absurd (List.cons.inj h).1 (by decide)

theorem pushJsonValues_reads : ∀ vs ws : List Json, textItems vs = true → textItems ws = true →
    shortItems vs = true → shortItems ws = true → vs.length = ws.length →
    ∀ xs ys, pushJsonValues vs ++ xs = pushJsonValues ws ++ ys →
      loweredItems vs = loweredItems ws ∧ xs = ys
  | [], [], _, _, _, _, _, xs, ys, h => ⟨rfl, h⟩
  | v :: vs, w :: ws, hv, hw, hsv, hsw, hlen, xs, ys, h => by
    obtain ⟨hsv, hsvs⟩ := Bool.and_eq_true_iff.mp hsv
    obtain ⟨hsw, hsws⟩ := Bool.and_eq_true_iff.mp hsw
    obtain ⟨hv, hvs⟩ := Bool.and_eq_true_iff.mp hv
    obtain ⟨hw, hws⟩ := Bool.and_eq_true_iff.mp hw
    rw [pushJsonValues, pushJsonValues, List.append_assoc, List.append_assoc] at h
    obtain ⟨heq, hrest⟩ := pushJsonValue_reads v w hv hw hsv hsw _ _ h
    obtain ⟨heqs, hend⟩ := pushJsonValues_reads vs ws hvs hws hsvs hsws (by simpa using hlen) xs ys
      hrest
    exact ⟨by rw [loweredItems, loweredItems, heq, heqs], hend⟩

end

theorem loweredItems_length (vs : List Json) : (loweredItems vs).length = vs.length := by
  induction vs with
  | nil => rfl
  | cons v vs ih => rw [loweredItems, List.length_cons, List.length_cons, ih]

mutual

/-- The encoding does not see the case of a string. -/
theorem pushJsonValue_lowered : ∀ v : Json, pushJsonValue v.lowered = pushJsonValue v
  | .str s => by
    rw [Json.lowered, pushJsonValue, pushJsonValue, asciiLower_asciiLower]
  | .arr values => by
    rw [Json.lowered, pushJsonValue, pushJsonValue, pushJsonValues_lowered values,
      loweredItems_length values]
  | .null | .bool _ | .num _ | .obj _ => rfl

theorem pushJsonValues_lowered : ∀ vs : List Json,
    pushJsonValues (loweredItems vs) = pushJsonValues vs
  | [] => rfl
  | v :: vs => by
    rw [loweredItems, pushJsonValues, pushJsonValues, pushJsonValue_lowered v,
      pushJsonValues_lowered vs]

end

/-! ## Actions -/

/-- One parameter of an action. -/
def encodeParam (p : String × Json) : List UInt8 := pushBytes (utf8 p.1) ++ pushJsonValue p.2

theorem encodeParam_readsOff (abi : Abi) :
    ReadsOff (fun p => (utf8 p.1).length < 2 ^ 32 ∧ p.2.isShort = true ∧
      ∃ v, p.2 = dynValueToJson abi v)
      encodeParam (fun p => (p.1, p.2.lowered)) := by
  have hvalue : ReadsOff (fun w : Json => w.isShort = true ∧ ∃ v, w = dynValueToJson abi v)
      pushJsonValue Json.lowered := by
    rintro v w ⟨hv, v', rfl⟩ ⟨hw, w', rfl⟩
    exact pushJsonValue_reads _ _ (isText_dynValueToJson abi v')
      (isText_dynValueToJson abi w') hv hw
  exact (pushText_readsOff.comap Prod.fst).append (hvalue.comap Prod.snd)

theorem encodeItem_readsOff (abi : Abi) :
    ReadsOff (fun item => MatcherItem abi item ∧ item.Short) encodeItem ActionItem.lowered := by
  have hparams := (encodeParam_readsOff abi).counted pushU32_readsOff
  rintro a b ⟨ha, hsa⟩ ⟨hb, hsb⟩ xs ys h
  unfold encodeItem at h
  simp only [List.append_assoc] at h
  obtain ⟨(hname : a.name = b.name), h⟩ := pushText_readsOff _ _ hsa.name hsb.name _ _ h
  obtain ⟨(haddress : a.address = b.address), h⟩ :=
    pushAddress_readsOff _ _ ha.address hb.address _ _ h
  obtain ⟨hentries, hend⟩ := hparams a.params.entries b.params.entries
    ⟨hsa.size, fun p hp => ⟨hsa.keys p hp, hsa.values p hp, ha.values p hp⟩⟩
    ⟨hsb.size, fun p hp => ⟨hsb.keys p hp, hsb.values p hp, hb.values p hp⟩⟩ xs ys
    (by rw [List.append_assoc, List.append_assoc]; exact h)
  refine ⟨?_, hend⟩
  have hlowered : a.params.mapValues Json.lowered = b.params.mapValues Json.lowered :=
    OrdMap.ext hentries
  unfold ActionItem.lowered
  rw [hname, haddress, hlowered]

theorem encodeItem_lowered (item : ActionItem) : encodeItem item.lowered = encodeItem item := by
  unfold encodeItem ActionItem.lowered
  have hsize : (item.params.mapValues Json.lowered).size = item.params.size := List.length_map _
  have hentries : (item.params.mapValues Json.lowered).entries.flatMap encodeParam =
      item.params.entries.flatMap encodeParam := by
    unfold OrdMap.mapValues
    rw [List.flatMap_map]
    exact congrArg (fun e => item.params.entries.flatMap e)
      (funext fun p => by rw [encodeParam, encodeParam, pushJsonValue_lowered])
  show pushBytes (utf8 item.name) ++ pushAddress item.address ++
    pushU32 (item.params.mapValues Json.lowered).size ++
      (item.params.mapValues Json.lowered).entries.flatMap encodeParam = _
  rw [hsize, hentries]
  rfl

/-- **The encoding is injective** up to the case of string values. -/
theorem encodeQuota_eq_iff {abi : Abi} {a b : Actions} (ha : QuotaDomain abi a)
    (hb : QuotaDomain abi b) : encodeQuota a = encodeQuota b ↔ SameQuota a b := by
  constructor
  · exact ((encodeItem_readsOff abi).counted pushU32_readsOff).eq_of_eq
      ⟨ha.length, fun item h => ⟨ha.matched item h, ha.short item h⟩⟩
      ⟨hb.length, fun item h => ⟨hb.matched item h, hb.short item h⟩⟩
  · intro h
    have hencode : ∀ items : List ActionItem,
        items.flatMap encodeItem = (items.map ActionItem.lowered).flatMap encodeItem := by
      intro items
      rw [List.flatMap_map]
      simp only [encodeItem_lowered]
    have hlength := congrArg List.length h
    rw [List.length_map, List.length_map] at hlength
    unfold encodeQuota
    rw [hlength, hencode (quotaItems a), hencode (quotaItems b), h]

/-! ## Actions of the matcher -/

/-- Every item of an audit hit is one of the matcher. -/
theorem matcherItem_of_hit {abi : Abi} {rules : RuleSet} {input : ScreenInput}
    {hit : CompiledRule × Binding} {i : Nat} {item : ActionItem}
    (hhit : AuditHit abi rules input hit.1 hit.2) (hitem : (i, item) ∈ boundItems hit.1 hit.2) :
    MatcherItem abi item := by
  obtain ⟨event, m, hz, -, rfl⟩ := mem_boundItems.mp hitem
  have hm := (List.forall₂_iff_zip.mp hhit.1.complete).2 hz
  obtain ⟨log, -, -, hdec, haddr⟩ := mem_findLogsForEvent.mp hm
  refine ⟨⟨log.address, haddr⟩, fun p hp => ?_⟩
  obtain ⟨-, -, -, hv⟩ := decodeEvent_get? hdec (OrdMap.mem_entries.mp hp)
  exact hv

/-- **What the matcher reports**, under every rule snapshot and budget. -/
theorem matcherItem_of_evaluate {abi : Abi} {rules : RuleSet} {input : ScreenInput} {budget : Nat}
    {actions : Actions} {timeout : TimeoutAction}
    (h : evaluateChecked abi rules input budget = .ok (.audit actions timeout)) :
    ∀ item ∈ quotaItems actions, MatcherItem abi item := by
  rcases evaluateChecked_ok h with ⟨hd, -⟩ | ⟨-, hout⟩
  · cases hd
  · have hr := records_recordAll (auditHits abi input rules.rules) [] records_new
    rw [List.nil_append] at hr
    unfold EvalState.finish at hout
    split at hout
    · injection hout with hactions
      intro item hitem
      unfold quotaItems at hitem
      rw [hactions, OrdMap.get?_mapValues] at hitem
      cases hq : (recordAll EvalState.new (auditHits abi input rules.rules)).actionsByLog.get?
          quota with
      | none =>
        rw [hq] at hitem
        cases hitem
      | some byLog =>
        rw [hq, Option.map_some, Option.getD_some] at hitem
        obtain ⟨⟨i, item'⟩, hmem, rfl⟩ := List.mem_map.mp hitem
        have hrec : recorded (recordAll EvalState.new
            (auditHits abi input rules.rules)).actionsByLog quota i = some item' := by
          rw [recorded, hq, Option.bind_some]
          exact OrdMap.mem_entries.mp hmem
        obtain ⟨hit, hhit, -, hb⟩ := hr.sound quota i item' hrec
        exact matcherItem_of_hit (mem_auditHits.mp hhit) hb
    · cases hout

/-! ## Entries and the actions they were made from -/

/-- An entry as `screen_tx` makes it: the actions the matcher found under its snapshot, and their
    hash. -/
structure BufferEntry.Sealed (env : Env) (e : BufferEntry) : Prop where
  evaluated : ∃ input timeout, evaluateChecked env.abi e.ruleSnapshot input
    env.config.maxEventBindingsPerTx = .ok (.audit e.actions timeout)
  hash : e.quotaConsistencyHash = encodeAndHash env.abi e.actions

/-- Every entry inserted so far is sealed. -/
def InsertsSealed (env : Env) (ops : List PoolOp) : Prop :=
  ∀ entry fresh, PoolOp.insert entry fresh ∈ ops → entry.Sealed env

/-- A call that is about to insert has the matcher's actions for it. -/
def InsertReady (env : Env) (c : Call) : Prop :=
  ∀ rules actions timeout, c.phase = .insert rules actions timeout →
    evaluateChecked env.abi rules c.input env.config.maxEventBindingsPerTx =
      .ok (.audit actions timeout)

theorem sealed_of_get {env : Env} {h : B256} : ∀ {ops : List PoolOp} {e : BufferEntry},
    InsertsSealed env ops → (poolAfter ops).get h = some e → e.Sealed env := by
  intro ops
  induction ops using List.reverseRecOn with
  | nil =>
    intro e _ he
    rw [poolAfter, List.foldl_nil, BufferPool.get_new] at he
    cases he
  | append_singleton ops op ih =>
    intro e hsealed he
    have hold : InsertsSealed env ops := fun entry fresh hm =>
      hsealed entry fresh (List.mem_append_left _ hm)
    rw [poolAfter_concat, PoolOp.get_apply] at he
    cases hp : (poolAfter ops).get h with
    | some e₀ =>
      rw [hp] at he
      have h₀ := ih hold hp
      rcases onEntry_cause he with rfl | ⟨status, now, rfl, -⟩
      · exact h₀
      · exact ⟨h₀.evaluated, h₀.hash⟩
    | none =>
      rw [hp] at he
      cases op with
      | insert entry fresh =>
        have hentry := hsealed entry fresh (by simp)
        simp only [PoolOp.created] at he
        split at he
        · cases he
          exact ⟨hentry.evaluated, hentry.hash⟩
        · cases he
      | _ => cases he

theorem existingPhase_ne_insert (e : BufferEntry) (rules : RuleSet) (actions : Actions)
    (timeout : TimeoutAction) : existingPhase e ≠ .insert rules actions timeout := by
  unfold existingPhase
  split
  · intro h
    cases h
  · intro h
    cases h

/-- A section of a call inserts only what the matcher found for it. -/
theorem advance_sealed {env : Env} {ops : List PoolOp} {rules : RuleSet} {now : Nat} {c : Call}
    {r : List PoolOp × Call} (hready : InsertReady env c)
    (h : c.advance env ops rules now = some r) : InsertsSealed env r.1 ∧ InsertReady env r.2 := by
  have hsilent : InsertsSealed env [] := fun entry fresh hm => by cases hm
  unfold Call.advance at h
  dsimp only at h
  split at h
  · split at h
    · cases h
      exact ⟨hsilent, fun _ _ _ hp => absurd hp (existingPhase_ne_insert _ _ _ _)⟩
    · cases h
      exact ⟨hsilent, fun _ _ _ hp => by cases hp⟩
  · cases h
    refine ⟨hsilent, fun rules' actions timeout hp => ?_⟩
    dsimp only at hp
    unfold evaluatedPhase at hp
    split at hp
    · cases hp
    · cases hp
    · cases hp
    · rename_i heval
      cases hp
      exact heval
  · split at h
    · cases h
      exact ⟨hsilent, fun _ _ _ hp => absurd hp (existingPhase_ne_insert _ _ _ _)⟩
    · cases h
      exact ⟨hsilent, fun _ _ _ hp => by cases hp⟩
  · rename_i rules' actions timeout hphase
    cases h
    refine ⟨fun entry fresh hm => ?_, fun _ _ _ hp => by cases hp⟩
    cases List.mem_singleton.mp hm
    exact ⟨⟨c.input, timeout, hready rules' actions timeout hphase⟩, rfl⟩
  · split at h
    · cases h
      exact ⟨hsilent, fun _ _ _ hp => by cases hp⟩
    · cases h
      exact ⟨hsilent, fun _ _ _ hp => by cases hp⟩
    · cases h
      refine ⟨fun entry fresh hm => ?_, fun _ _ _ hp => by cases hp⟩
      cases List.mem_singleton.mp hm
    · cases h
      exact ⟨hsilent, fun _ _ _ hp => by cases hp⟩
  · cases h
    exact ⟨hsilent, fun _ _ _ hp => by cases hp⟩
  · cases h

theorem InsertsSealed.append {env : Env} {ops more : List PoolOp} (h : InsertsSealed env ops)
    (hmore : ∀ op ∈ more, op.isInsert = false) : InsertsSealed env (ops ++ more) := by
  intro entry fresh hm
  rcases List.mem_append.mp hm with hm | hm
  · exact h entry fresh hm
  · cases hmore _ hm

/-- One step keeps every inserted entry sealed: only a call inserts. -/
theorem step_sealed {env : Env} {s s' : State} {a : Act} (h : step env s a = some s')
    (hops : InsertsSealed env s.ops) (hcalls : ∀ c ∈ s.calls, InsertReady env c) :
    InsertsSealed env s'.ops := by
  cases a with
  | screen input =>
    cases h
    exact hops
  | callStep i now =>
    obtain ⟨c, hc, h⟩ := Option.bind_eq_some_iff.mp h
    obtain ⟨r, hr, rfl⟩ := Option.map_eq_some_iff.mp h
    have hr := (advance_sealed (hcalls c (List.mem_of_getElem? hc)) hr).1
    intro entry fresh hm
    rcases List.mem_append.mp hm with hm | hm
    · exact hops entry fresh hm
    · exact hr entry fresh hm
  | submitGroup i now =>
    obtain ⟨group, -, rfl⟩ := Option.map_eq_some_iff.mp h
    dsimp only
    split
    · exact hops.append (by simp [PoolOp.isInsert])
    · exact hops.append (by simp [PoolOp.isInsert])
  | submitReply i reply now =>
    obtain ⟨expected, -, rfl⟩ := Option.map_eq_some_iff.mp h
    cases reply with
    | none => exact hops.append (by simp [PoolOp.isInsert])
    | some accepted => exact hops.append (by simp [PoolOp.isInsert])
  | queryStart now =>
    simp only [step] at h
    split at h
    · cases h
      exact hops.append (by simp [PoolOp.isInsert])
    · cases h
      exact hops.append (by simp [PoolOp.isInsert])
  | queryReply i reply now =>
    obtain ⟨task, -, h⟩ := Option.bind_eq_some_iff.mp h
    dsimp only at h
    split at h
    · cases h
    · cases reply with
      | none =>
        cases h
        exact hops.append (by simp [PoolOp.isInsert])
      | some rows =>
        cases h
        refine hops.append (fun op hop => ?_)
        obtain ⟨row, -, rfl⟩ := List.mem_map.mp hop
        rfl
  | installRules rules =>
    cases h
    exact hops
  | emit i =>
    obtain ⟨event, -, rfl⟩ := Option.map_eq_some_iff.mp h
    exact hops
  | submitCollect | timeoutTick | removeCanonical | recoverLag | removeNonTerminal =>
    cases h
    exact hops.append (by simp [PoolOp.isInsert])

/-- **Every entry of every run is sealed.** -/
theorem sealed_of_run {env : Env} (acts : List Act) : ∀ s, run env State.new acts = some s →
    InsertsSealed env s.ops ∧ ∀ c ∈ s.calls, InsertReady env c := by
  refine run_induction
    (fun _ s => InsertsSealed env s.ops ∧ ∀ c ∈ s.calls, InsertReady env c)
    ⟨fun _ _ hm => (by cases hm), fun c hc => (by cases hc)⟩
    (fun acts s a s' hrun ih hstep => ⟨step_sealed hstep ih.1 ih.2, fun c hc => ?_⟩) acts
  obtain ⟨-, hcalls⟩ := step_calls hstep
  rcases hcalls with ⟨input, -, hcalls⟩ | ⟨i, now, c₀, r, -, hget, hadv, -, hcalls⟩ | hcalls
  · rw [hcalls] at hc
    rcases List.mem_append.mp hc with hc | hc
    · exact ih.2 c hc
    · rw [List.mem_singleton.mp hc]
      exact fun _ _ _ hp => by cases hp
  · rw [hcalls] at hc
    rcases List.mem_or_eq_of_mem_set hc with hc | rfl
    · exact ih.2 c hc
    · exact (advance_sealed (ih.2 c₀ (List.mem_of_getElem? hget)) hadv).2
  · rw [hcalls] at hc
    exact ih.2 c hc

/-! ## The check before packaging -/

/-- The two encodings are no collision of the hash. -/
def NoCollision (abi : Abi) (a b : Actions) : Prop :=
  encodeAndHash abi a = encodeAndHash abi b → encodeQuota a = encodeQuota b

/-- The entry a call found. -/
def Call.foundEntry (c : Call) : Option BufferEntry :=
  (c.consults.find? (fun sec => (c.entryAt sec).isSome)).bind c.entryAt

/-- The actions of the call's own logs, under the snapshot of the entry it found, are those of the
    entry, up to case. -/
def QuotaUnchanged (env : Env) (c : Call) (e : BufferEntry) : Prop :=
  ∃ actions timeout, evaluateChecked env.abi e.ruleSnapshot c.input
      env.config.maxEventBindingsPerTx = .ok (.audit actions timeout) ∧
    (QuotaDomain env.abi actions → QuotaDomain env.abi e.actions →
      NoCollision env.abi actions e.actions → SameQuota actions e.actions)

theorem quotaUnchanged_of_consistent {env : Env} {c : Call} {e : BufferEntry}
    (hsealed : e.Sealed env)
    (h : consistentWith env c.input e.ruleSnapshot e.quotaConsistencyHash = true) :
    QuotaUnchanged env c e := by
  unfold consistentWith at h
  split at h
  · rename_i actions timeout heval
    refine ⟨actions, timeout, heval, fun hactions hentry hcollision => ?_⟩
    rw [hsealed.hash, beq_iff_eq] at h
    exact (encodeQuota_eq_iff hactions hentry).mp (hcollision h)
  · cases h

/-- **The consistency hash**: (a) on actions of the matcher with lengths that fit, the hashed
    buffers are equal exactly when the quota lists are equal up to case; (b) the matcher reports
    only such actions; (c) in every run, a call that returns `AuditApproved` found an entry that was
    released by its timeout, or whose quota actions are those of the call's own logs. -/
theorem quota_change_detected (env : Env) :
    (∀ a b, QuotaDomain env.abi a → QuotaDomain env.abi b →
      (encodeQuota a = encodeQuota b ↔ SameQuota a b)) ∧
    (∀ rules input budget actions timeout,
      evaluateChecked env.abi rules input budget = .ok (.audit actions timeout) →
        ∀ item ∈ quotaItems actions, MatcherItem env.abi item) ∧
    ∀ acts s, run env State.new acts = some s → ∀ c ∈ s.calls,
      c.result = some .auditApproved → ∃ e last e', c.foundEntry = some e ∧
        c.consults.getLast? = some last ∧ c.entryAt last = some e' ∧
        e'.generation = e.generation ∧ e.Sealed env ∧
        (e'.status = .timedOutAllow ∨ (e'.status = .approved ∧ QuotaUnchanged env c e)) := by
  refine ⟨fun a b => encodeQuota_eq_iff, fun _ _ _ _ _ => matcherItem_of_evaluate, ?_⟩
  intro acts s hrun c hc hresult
  obtain ⟨found, last, e₀, e₁, hfound, h₀, hlast, h₁, hstarts, hgen, hok⟩ :=
    confirmed_of_result hrun hc hresult
  have hmem : found ∈ c.sections :=
    List.mem_of_mem_filter (List.mem_of_find?_eq_some hfound)
  have hseen : found.ops <+: s.ops := (calls_inv acts s hrun c hc).2 found hmem
  have hsealed : e₀.Sealed env :=
    sealed_of_get (fun entry fresh hm => (sealed_of_run acts s hrun).1 entry fresh
      (hseen.subset hm)) h₀
  refine ⟨e₀, last, e₁, ?_, hlast, h₁, hgen, hsealed, ?_⟩
  · rw [Call.foundEntry, hfound, Option.bind_some, h₀]
  · rcases hok with hok | ⟨hstatus, hconsistent⟩
    · exact .inl hok
    · exact .inr ⟨hstatus, quotaUnchanged_of_consistent hsealed hconsistent⟩

section Runs

/-- The approved transfer is packaged with the actions it was submitted with. -/
theorem packaged_quota_unchanged :
    ∃ s c e, run transferEnv State.new packagedRun = some s ∧ c ∈ s.calls ∧
      c.result = some .auditApproved ∧ c.foundEntry = some e ∧ QuotaUnchanged transferEnv c e := by
  have hsum : ((run transferEnv State.new packagedRun).bind (fun s => s.calls[1]?)).map (fun c =>
      (c.result, (c.consults.getLast?.bind c.entryAt).map BufferEntry.status)) =
      some (some .auditApproved, some .approved) := by decide +kernel
  obtain ⟨c, hcall, hc⟩ := Option.map_eq_some_iff.mp hsum
  obtain ⟨s, hs, hget⟩ := Option.bind_eq_some_iff.mp hcall
  obtain ⟨hresult, hstatus⟩ := Prod.mk.inj hc
  have hmem : c ∈ s.calls := List.mem_of_getElem? hget
  obtain ⟨e, last, e', he, hlast, he', -, -, hok⟩ :=
    (quota_change_detected transferEnv).2.2 packagedRun s hs c hmem hresult
  rw [hlast, Option.bind_some, he', Option.map_some, Option.some.injEq] at hstatus
  rcases hok with hok | ⟨-, hok⟩
  · rw [hstatus] at hok
    cases hok
  · exact ⟨s, c, e, hs, hmem, hresult, he, hok⟩

/-- The transaction of `transferInput` when its execution transfers 6 units. -/
def changedInput : ScreenInput :=
  { transferInput with
    logs := [⟨0xc, [0xddf252ad1be2c89b69c2b068fc378daa952ba7f163c4a11628f55a4df523b3ef, 0xa, 0xb],
      List.replicate 31 0 ++ [6]⟩] }

/-- The reported actions when `value` units are transferred. -/
def transferActions (value : String) : Actions :=
  OrdMap.ofList [(quota, [{ transferItem with
    params := transferItem.params.insert "value" (.str value) }])]

/-- A filter whose hash tells the two transfers apart. -/
def quotaEnv : Env :=
  { transferEnv with
    abi := { transferAbi with
      keccak256 := fun bytes =>
        if bytes = encodeQuota (transferActions "6") then
          0xed08c0086c737f2c6d32991caa736eafc5cc09507977263d11ac84aac9b56279
        else transferAbi.keccak256 bytes } }

/-- The transfer rule with a fail-open timeout. -/
def failOpenRules : RuleSet :=
  loadRules quotaEnv.abi 1 1 [{ transferRule with auditTimeoutAction := none }]

/-- The transfer is buffered, its retry deadline passes, and the execution that is packaged
    transfers 6 units. -/
def releasedRun : List Act :=
  [.installRules failOpenRules, .screen transferInput, .callStep 0 0, .callStep 0 0, .callStep 0 0,
    .callStep 0 0, .timeoutTick 61, .screen changedInput, .callStep 1 62, .callStep 1 62]

theorem transferActions_short (value : String) (h : value = "5" ∨ value = "6") :
    ∀ item ∈ quotaItems (transferActions value), item.Short := by
  rcases h with rfl | rfl
  · intro item hitem
    have hitem : item ∈ [{ transferItem with
        params := transferItem.params.insert "value" (.str "5") }] := hitem
    rw [List.mem_singleton.mp hitem]
    exact ⟨by decide +kernel, by decide +kernel, by decide +kernel, by decide +kernel⟩
  · intro item hitem
    have hitem : item ∈ [{ transferItem with
        params := transferItem.params.insert "value" (.str "6") }] := hitem
    rw [List.mem_singleton.mp hitem]
    exact ⟨by decide +kernel, by decide +kernel, by decide +kernel, by decide +kernel⟩

/-- **A released transaction is packaged without a check**: its quota action has changed, and the
    hashes of the two actions differ. -/
theorem released_quota_changed :
    ¬ ∀ (env : Env) (acts : List Act) (s : State), run env State.new acts = some s →
      ∀ c ∈ s.calls, c.result = some .auditApproved →
        ∃ e, c.foundEntry = some e ∧ QuotaUnchanged env c e := by
  intro hall
  have hsum : ((run quotaEnv State.new releasedRun).bind (fun s => s.calls[1]?)).map (fun c =>
      (c.result, c.foundEntry.map (fun e => (e.actions, evaluateChecked quotaEnv.abi e.ruleSnapshot
        c.input quotaEnv.config.maxEventBindingsPerTx)))) =
      some (some .auditApproved, some (transferActions "5",
        .ok (.audit (transferActions "6") .allow))) := by
    decide +kernel
  obtain ⟨c, hcall, hc⟩ := Option.map_eq_some_iff.mp hsum
  obtain ⟨s, hs, hget⟩ := Option.bind_eq_some_iff.mp hcall
  obtain ⟨hresult, hfound⟩ := Prod.mk.inj hc
  obtain ⟨e, he, actions, timeout, heval, hsame⟩ :=
    hall quotaEnv releasedRun s hs c (List.mem_of_getElem? hget) hresult
  rw [he, Option.map_some, Option.some.injEq, Prod.mk.injEq, heval] at hfound
  obtain ⟨hbefore, hafter⟩ := hfound
  cases hafter
  have hfirst : evaluateChecked quotaEnv.abi failOpenRules transferInput 10000 =
      .ok (.audit (transferActions "5") .allow) := by decide +kernel
  have hdiffer : encodeAndHash quotaEnv.abi (transferActions "6") ≠
      encodeAndHash quotaEnv.abi (transferActions "5") := by decide +kernel
  rw [hbefore] at hsame
  have hsame := hsame
    ⟨by decide +kernel, matcherItem_of_evaluate heval, transferActions_short "6" (.inr rfl)⟩
    ⟨by decide +kernel, matcherItem_of_evaluate hfirst, transferActions_short "5" (.inl rfl)⟩
    (fun h => absurd h hdiffer)
  revert hsame
  decide +kernel

end Runs

end XLayerReth.RcsFilter
