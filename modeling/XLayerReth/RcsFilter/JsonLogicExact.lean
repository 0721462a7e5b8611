import XLayerReth.RcsFilter.JsonLogic

/-!
# How exact compiled conditions are

`eval_compiled` is documented as mirroring `truthy` exactly.  The accelerated membership node
compares *addresses*, while the linear scan of the raw evaluator compares uint256 readings
first, and an unprefixed spelling made of 40 decimal digits (or of `0b` and 38 bits) has a
uint256 reading that is not its address value.  This file states when the difference shows.

* `sameReading`, `membershipFlips` — the linear comparison of two address spellings, and whether
  it and the address comparison disagree on a needle and a static list;
* `flips` — whether such a disagreement reaches the verdict of an expression through `and`, `or`
  and `!`;
* `evalCompiled_compile` — the compiled verdict is the raw verdict, inverted exactly when the
  expression flips.
-/

set_option autoImplicit false

namespace XLayerReth.RcsFilter

/-! ## Two readings of one membership test -/

/-- The linear scan's comparison of two address spellings: as uint256 when both have a uint256
    reading, as addresses otherwise. -/
def sameReading (s x : String) : Bool :=
  match toU256 (.str s), toU256 (.str x) with
  | some m, some n => m == n
  | _, _ => Address.fromStr s == Address.fromStr x

/-- The two readings disagree on whether a needle spelling is listed. -/
def membershipFlips (s : String) (spellings : List String) : Bool :=
  spellings.any (fun x => Address.fromStr s == Address.fromStr x) != spellings.any (sameReading s)

/-- The listed spellings of an `in` argument. -/
def spellings : Json → List String
  | .arr [_, .arr items] => items.filterMap Json.asStr
  | _ => []

/-- Whether the readings disagree at an accelerable `in` node. -/
def nodeFlips (b : Bindings) (needle arg : Json) : Bool :=
  match eval b needle with
  | .str s => (Address.fromStr s).isSome && membershipFlips s (spellings arg)
  | _ => false

mutual

/-- Whether a disagreement of the readings decides the verdict of an expression.  Under `and`
    and `or` it does so only when no other operand masks it. -/
def flips (b : Bindings) : Json → Bool
  | .obj [(op, arg)] =>
    match staticMembership op arg with
    | some (needle, _) => nodeFlips b needle arg
    | none =>
      if op = "and" then
        match arg with
        | .arr items =>
          if items.all (fun e => truthy e b) then anyFlips b items else allReadAs b true items
        | _ => false
      else if op = "or" then
        match arg with
        | .arr items =>
          if items.any (fun e => truthy e b) then allReadAs b false items else anyFlips b items
        | _ => false
      else if op = "!" then
        match arg with
        | .arr [] => false
        | .arr (inner :: _) => flips b inner
        | other => flips b other
      else false
  | _ => false

def anyFlips (b : Bindings) : List Json → Bool
  | [] => false
  | e :: es => flips b e || anyFlips b es

/-- Every operand reads as `v` once its flip is taken into account. -/
def allReadAs (b : Bindings) (v : Bool) : List Json → Bool
  | [] => true
  | e :: es => ((truthy e b != flips b e) == v) && allReadAs b v es

end

theorem anyFlips_eq (b : Bindings) : ∀ es, anyFlips b es = es.any (flips b)
  | [] => rfl
  | e :: es => by rw [anyFlips, anyFlips_eq b es, List.any_cons]

theorem allReadAs_eq (b : Bindings) (v : Bool) : ∀ es,
    allReadAs b v es = es.all (fun e => (truthy e b != flips b e) == v)
  | [] => rfl
  | e :: es => by rw [allReadAs, allReadAs_eq b v es, List.all_cons]

/-- On address spellings `value_eq` is `sameReading`. -/
theorem valueEq_spellings {s x : String} {a a' : Address} (hs : Address.fromStr s = some a)
    (hx : Address.fromStr x = some a') : valueEq (.str s) (.str x) = sameReading s x := by
  unfold valueEq sameReading
  rw [if_neg (by simp)]
  cases toU256 (.str s) <;> cases toU256 (.str x) <;> simp [addressPair, Json.asStr, hs, hx]

theorem staticMembership_eq_some {op : String} {arg needle : Json} {addrs : List Address}
    (h : staticMembership op arg = some (needle, addrs)) :
    ∃ items, op = "in" ∧ arg = .arr [needle, .arr items] ∧
      items.mapM (fun it => it.asStr.bind Address.fromStr) = some addrs := by
  unfold staticMembership at h
  split at h
  · rename_i n hay
    split at h
    · rename_i hop
      obtain ⟨as, has, he⟩ := Option.map_eq_some_iff.mp h
      cases he
      unfold staticAddressList at has
      split at has
      · cases has
      · rename_i items _
        exact ⟨items, hop, rfl, has⟩
      · cases has
    · cases h
  · cases h

theorem staticMembership_ne {op : String} {arg : Json} (h : op ≠ "in") :
    staticMembership op arg = none := by
  cases hm : staticMembership op arg with
  | none => rfl
  | some p =>
    obtain ⟨_, hop, _⟩ := @staticMembership_eq_some _ _ p.1 p.2 hm
    exact absurd hop h

/-- A static list consists of strings, each spelling its address. -/
theorem staticList_strings {items : List Json} {addrs : List Address}
    (h : items.mapM (fun it => it.asStr.bind Address.fromStr) = some addrs) :
    items = (items.filterMap Json.asStr).map Json.str ∧
      (items.filterMap Json.asStr).map Address.fromStr = addrs.map some := by
  induction items generalizing addrs with
  | nil => simp at h; subst h; simp
  | cons it items ih =>
    rw [List.mapM_cons] at h
    obtain ⟨a, ha, h⟩ := Option.bind_eq_some_iff.mp h
    obtain ⟨as, has, h⟩ := Option.bind_eq_some_iff.mp h
    cases h
    obtain ⟨ih1, ih2⟩ := ih has
    obtain ⟨s, hs, hsa⟩ := Option.bind_eq_some_iff.mp ha
    have hit : it = .str s := by
      cases it <;> simp [Json.asStr] at hs
      rw [hs]
    subst hit
    refine ⟨?_, ?_⟩
    · rw [List.filterMap_cons_some (show (Json.str s).asStr = some s from rfl), List.map_cons,
        ← ih1]
    · rw [List.filterMap_cons_some (show (Json.str s).asStr = some s from rfl), List.map_cons, ih2,
        hsa, List.map_cons]

theorem evalItems_strings (b : Bindings) : ∀ ss : List String,
    evalItems b (ss.map Json.str) = ss.map Json.str
  | [] => rfl
  | s :: ss => by rw [List.map_cons, evalItems, evalItems_strings b ss]; rfl

/-- **One accelerated node**: the address-set lookup is the linear scan, inverted exactly when
    the readings disagree. -/
theorem evalCompiled_addressSetIn (b : Bindings) (i : AddressSetInterner) {op : String}
    {arg needle : Json} {addrs : List Address}
    (h : staticMembership op arg = some (needle, addrs)) :
    evalCompiled b (.addressSetIn needle (i.intern addrs).1 (.obj [(op, arg)])) =
      (truthy (.obj [(op, arg)]) b != nodeFlips b needle arg) := by
  obtain ⟨items, rfl, rfl, hlist⟩ := staticMembership_eq_some h
  obtain ⟨hstr, haddr⟩ := staticList_strings hlist
  unfold evalCompiled nodeFlips
  cases hv : eval b needle with
  | str s =>
    cases ha : Address.fromStr s with
    | none => simp [ha]
    | some a =>
      have hmem : decide (a ∈ (i.intern addrs).1) =
          (items.filterMap Json.asStr).any (fun x => Address.fromStr s == Address.fromStr x) := by
        rw [Bool.eq_iff_iff, decide_eq_true_iff, mem_intern, List.any_eq_true]
        constructor
        · intro hm
          have : some a ∈ (items.filterMap Json.asStr).map Address.fromStr := by
            rw [haddr]; exact List.mem_map_of_mem hm
          obtain ⟨x, hx, hxa⟩ := List.mem_map.mp this
          exact ⟨x, hx, by simp [ha, hxa]⟩
        · rintro ⟨x, hx, hxa⟩
          have : Address.fromStr x ∈ addrs.map some := by
            rw [← haddr]; exact List.mem_map_of_mem hx
          obtain ⟨a', ha', he⟩ := List.mem_map.mp this
          have hxa' : a = a' := by simpa [ha, ← he] using hxa
          exact hxa' ▸ ha'
      have hlin : truthy (.obj [("in", .arr [needle, .arr items])]) b =
          (items.filterMap Json.asStr).any (sameReading s) := by
        rw [truthy_in, hv]
        conv => lhs; rw [hstr]
        rw [eval, evalItems_strings]
        simp only [evalIn, List.any_map]
        rw [Bool.eq_iff_iff, List.any_eq_true, List.any_eq_true]
        refine exists_congr fun x => and_congr_right fun hx => ?_
        have : Address.fromStr x ∈ addrs.map some := by
          rw [← haddr]; exact List.mem_map_of_mem hx
        obtain ⟨a', -, he⟩ := List.mem_map.mp this
        rw [Function.comp_apply, valueEq_spellings ha he.symm]
      simp only [ha, Option.isSome_some, Bool.true_and, membershipFlips, spellings] at hmem ⊢
      rw [hmem, hlin]
      cases (items.filterMap Json.asStr).any (sameReading s) <;> simp
  | null | bool | num | arr | obj => simp

/-! ## Whole expressions -/

theorem and_verdict (b : Bindings) (items : List Json) :
    items.all (fun e => truthy e b != flips b e) =
      (items.all (fun e => truthy e b) !=
        if items.all (fun e => truthy e b) then anyFlips b items else allReadAs b true items) := by
  rw [anyFlips_eq, allReadAs_eq]
  split
  · rename_i hall
    rw [hall, Bool.eq_iff_iff]
    rw [List.all_eq_true] at hall
    simp only [List.all_eq_true, Bool.true_bne, Bool.not_eq_true', List.any_eq_false]
    refine forall_congr' fun e => ?_
    constructor
    · intro h he; simpa [hall e he] using h he
    · intro h he; simpa [hall e he] using h he
  · rename_i hall
    simp [hall]

theorem or_verdict (b : Bindings) (items : List Json) :
    items.any (fun e => truthy e b != flips b e) =
      (items.any (fun e => truthy e b) !=
        if items.any (fun e => truthy e b) then allReadAs b false items else anyFlips b items) := by
  rw [anyFlips_eq, allReadAs_eq]
  split
  · rename_i hany
    rw [hany, Bool.true_bne, Bool.eq_iff_iff]
    simp [List.any_eq_true]
  · rename_i hany
    have hnone : ∀ e ∈ items, truthy e b = false := by simpa using hany
    rw [Bool.eq_false_iff.mpr hany, Bool.false_bne, Bool.eq_iff_iff, List.any_eq_true,
      List.any_eq_true]
    refine exists_congr fun e => and_congr_right fun he => ?_
    rw [hnone e he, Bool.false_bne]

theorem flips_and (b : Bindings) (items : List Json) :
    flips b (.obj [("and", .arr items)]) =
      if items.all (fun e => truthy e b) then anyFlips b items else allReadAs b true items := by
  unfold flips
  rw [staticMembership_ne (by decide)]
  simp

theorem flips_or (b : Bindings) (items : List Json) :
    flips b (.obj [("or", .arr items)]) =
      if items.any (fun e => truthy e b) then allReadAs b false items else anyFlips b items := by
  unfold flips
  rw [staticMembership_ne (by decide)]
  simp

theorem flips_not (b : Bindings) {arg : Json} (h : arg ≠ .arr []) :
    flips b (.obj [("!", arg)]) = flips b (firstOperand arg) := by
  conv => lhs; unfold flips
  rw [staticMembership_ne (by decide)]
  cases arg with
  | arr items =>
    cases items with
    | nil => exact absurd rfl h
    | cons x xs => rfl
  | null | bool | num | str | obj => rfl

/-- What compilation guarantees of one node: its verdict is the raw one up to the flip, and a
    tree without an accelerated node never flips. -/
structure Agrees (b : Bindings) (e : Json) (c : CompiledCondition) : Prop where
  verdict : evalCompiled b c = (truthy e b != flips b e)
  plain : containsAddressSet c = false → flips b e = false

theorem agrees_raw {b : Bindings} {e : Json} (h : flips b e = false) : Agrees b e (.raw e) :=
  ⟨by rw [evalCompiled, h, Bool.bne_false], fun _ => h⟩

theorem evalAll_agrees {b : Bindings} {es : List Json} {cs : List CompiledCondition}
    (h : List.Forall₂ (Agrees b) es cs) :
    evalAll b cs = es.all (fun e => truthy e b != flips b e) := by
  induction h with
  | nil => rfl
  | cons h _ ih => rw [evalAll, List.all_cons, h.verdict, ih]

theorem evalAny_agrees {b : Bindings} {es : List Json} {cs : List CompiledCondition}
    (h : List.Forall₂ (Agrees b) es cs) :
    evalAny b cs = es.any (fun e => truthy e b != flips b e) := by
  induction h with
  | nil => rfl
  | cons h _ ih => rw [evalAny, List.any_cons, h.verdict, ih]

theorem anyFlips_agrees {b : Bindings} {es : List Json} {cs : List CompiledCondition}
    (h : List.Forall₂ (Agrees b) es cs) (hc : anyContainsAddressSet cs = false) :
    ∀ e ∈ es, flips b e = false := by
  induction h with
  | nil => simp
  | cons h _ ih =>
    simp only [anyContainsAddressSet, Bool.or_eq_false_iff] at hc
    intro e he
    rcases List.mem_cons.mp he with rfl | he
    · exact h.plain hc.1
    · exact ih hc.2 e he

theorem ne_nil_of_contains {b : Bindings} {es : List Json} {cs : List CompiledCondition}
    (h : List.Forall₂ (Agrees b) es cs) (hc : anyContainsAddressSet cs = true) : es ≠ [] := by
  cases h with
  | nil => cases hc
  | cons _ _ => simp

theorem agrees_and {b : Bindings} {es : List Json} {cs : List CompiledCondition}
    (h : List.Forall₂ (Agrees b) es cs) :
    Agrees b (.obj [("and", .arr es)])
      (if anyContainsAddressSet cs then .and cs else .raw (.obj [("and", .arr es)])) := by
  split
  · rename_i hc
    refine ⟨?_, fun hn => ?_⟩
    · rw [evalCompiled, evalAll_agrees h, and_verdict, truthy_and b (ne_nil_of_contains h hc),
        flips_and]
    · rw [containsAddressSet, hc] at hn; cases hn
  · rename_i hc
    have hf := anyFlips_agrees h (Bool.eq_false_iff.mpr hc)
    refine agrees_raw ?_
    rw [flips_and, anyFlips_eq, allReadAs_eq]
    split
    · simpa using hf
    · rename_i hall
      obtain ⟨e, he, ht⟩ : ∃ e ∈ es, truthy e b = false := by simpa using hall
      rw [List.all_eq_false]
      exact ⟨e, he, by simp [ht, hf e he]⟩

theorem agrees_or {b : Bindings} {es : List Json} {cs : List CompiledCondition}
    (h : List.Forall₂ (Agrees b) es cs) :
    Agrees b (.obj [("or", .arr es)])
      (if anyContainsAddressSet cs then .or cs else .raw (.obj [("or", .arr es)])) := by
  split
  · rename_i hc
    refine ⟨?_, fun hn => ?_⟩
    · rw [evalCompiled, evalAny_agrees h, or_verdict, truthy_or b (ne_nil_of_contains h hc),
        flips_or]
    · rw [containsAddressSet, hc] at hn; cases hn
  · rename_i hc
    have hf := anyFlips_agrees h (Bool.eq_false_iff.mpr hc)
    refine agrees_raw ?_
    rw [flips_or, anyFlips_eq, allReadAs_eq]
    split
    · rename_i hany
      obtain ⟨e, he, ht⟩ := List.any_eq_true.mp hany
      rw [List.all_eq_false]
      exact ⟨e, he, by simp [ht, hf e he]⟩
    · simpa using hf

theorem agrees_not {b : Bindings} {arg : Json} {c : CompiledCondition} (harg : arg ≠ .arr [])
    (h : Agrees b (firstOperand arg) c) :
    Agrees b (.obj [("!", arg)])
      (if containsAddressSet c then .not c else .raw (.obj [("!", arg)])) := by
  split
  · rename_i hc
    refine ⟨?_, fun hn => ?_⟩
    · rw [evalCompiled, h.verdict, truthy_not b harg, flips_not b harg]
      cases truthy (firstOperand arg) b <;> cases flips b (firstOperand arg) <;> rfl
    · rw [containsAddressSet, hc] at hn; cases hn
  · rename_i hc
    exact agrees_raw ((flips_not b harg).trans (h.plain (Bool.eq_false_iff.mpr hc)))

mutual

/-- Compilation agrees with the raw evaluator up to the flip, for every interner state. -/
theorem compile_agrees (b : Bindings) : ∀ (e : Json) (i : AddressSetInterner),
    Agrees b e (compile e i).1
  | .obj [(op, arg)], i => by
    unfold compile
    split
    · rename_i needle addrs hm
      refine ⟨?_, fun hn => by cases hn⟩
      rw [evalCompiled_addressSetIn b i hm]
      unfold flips
      rw [hm]
    · rename_i hm
      split
      · rename_i hop
        split
        · rename_i items
          have hitems := compileItems_agrees b items i
          rcases hop with rfl | rfl
          · rw [apply_ite Prod.fst]
            exact agrees_and hitems
          · rw [apply_ite Prod.fst]
            exact agrees_or hitems
        · refine agrees_raw ?_
          unfold flips
          rw [hm]
          rcases hop with rfl | rfl <;> simp
      · rename_i hop
        split
        · rename_i hnot
          subst hnot
          split
          · exact agrees_raw (by unfold flips; rw [hm]; rfl)
          · rename_i inner rest
            rw [apply_ite Prod.fst]
            exact @agrees_not b (.arr (inner :: rest)) _ (by simp) (compile_agrees b inner i)
          · rename_i h1 h2
            have hfo : firstOperand arg = arg := by
              cases arg with
              | arr items =>
                cases items with
                | nil => exact absurd rfl h1
                | cons x xs => exact absurd rfl (h2 x xs)
              | null | bool | num | str | obj => rfl
            rw [apply_ite Prod.fst]
            exact agrees_not h1 (hfo.symm ▸ compile_agrees b arg i)
        · rename_i hnot
          refine agrees_raw ?_
          unfold flips
          rw [hm]
          simp_all
  | .null, _ | .bool _, _ | .num _, _ | .str _, _ | .arr _, _ | .obj [], _
  | .obj (_ :: _ :: _), _ => agrees_raw rfl

theorem compileItems_agrees (b : Bindings) : ∀ (items : List Json) (i : AddressSetInterner),
    List.Forall₂ (Agrees b) items (compileItems items i).1
  | [], _ => .nil
  | item :: items, i => .cons (compile_agrees b item i) (compileItems_agrees b items _)

end

/-- **The compiled verdict is the raw verdict, inverted exactly when the expression flips**, for
    every expression, every interner state and every bindings map. -/
theorem evalCompiled_compile (e : Json) (i : AddressSetInterner) (b : Bindings) :
    evalCompiled b (compile e i).1 = (truthy e b != flips b e) := (compile_agrees b e i).verdict

/-- **When compiled conditions are exact**: for every expression, every interner state reachable
    by compiling earlier expressions and every bindings map, the compiled verdict is the raw one
    exactly when no disagreement of the two address readings decides it. -/
theorem compiled_exact_iff (earlier : List Json) (e : Json) (b : Bindings) :
    evalCompiled b (compile e (internerAfter earlier)).1 = truthy e b ↔ flips b e = false := by
  rw [evalCompiled_compile]
  cases truthy e b <;> cases flips b e <;> simp

/-- A membership test on a token amount, as a rule may write it. -/
def amountListed : Json :=
  .obj [("in", .arr [.obj [("var", .str "transfer.value")],
    .arr [.str "0x1111111111111111111111111111111111111111"]])]

/-- A transfer whose amount has 40 decimal digits. -/
def fortyDigitAmount : Bindings := fun name =>
  if name = "transfer.value" then some (.str "1111111111111111111111111111111111111111") else none

/-- The accepted condition `amountListed` is compiled to a test that matches an amount the raw
    evaluator does not match. -/
theorem compiled_differs :
    ¬ ∀ (earlier : List Json) (e : Json) (b : Bindings), validate e = .ok () →
      evalCompiled b (compile e (internerAfter earlier)).1 = truthy e b := by
  intro h
  have hbad := h [] amountListed fortyDigitAmount (by decide)
  revert hbad
  decide +kernel

/-! ## Prefixed spellings never flip -/

section Prefixed

open Lib.Digits

theorem not_special_of_digit {c : Char} {d : Nat} (h : digitIn 16 c = some d) :
    isWhitespace c = false ∧ c ≠ '_' := by
  unfold digitIn digitVal at h
  simp only [Char.le_def, UInt32.le_iff_toNat_le] at h
  have hc : c.val.toNat = c.toNat := rfl
  refine ⟨?_, ?_⟩
  · unfold isWhitespace
    rw [hc] at h
    simp only [Bool.or_eq_false_iff, Bool.and_eq_false_iff, decide_eq_false_iff_not,
      beq_eq_false_iff_ne]
    split at h
    · rename_i hr
      simp at hr
      omega
    · split at h
      · rename_i hr
        simp at hr
        omega
      · split at h
        · rename_i hr
          simp at hr
          omega
        · cases h
  · rintro rfl
    exact absurd h (by simp)

theorem trim_of_no_space {cs : List Char} (h : ∀ c ∈ cs, isWhitespace c = false) :
    trim cs = cs := by
  have hdrop :
      ∀ l : List Char, (∀ c ∈ l, isWhitespace c = false) → l.dropWhile isWhitespace = l := by
    intro l hl
    cases l with
    | nil => rfl
    | cons c l => simp [hl c (by simp)]
  unfold trim
  rw [hdrop cs h, hdrop cs.reverse (by simpa using h), List.reverse_reverse]

theorem digits_not_special : ∀ {cs : List Char} {ds : List Nat},
    cs.mapM (digitIn 16) = some ds → ∀ c ∈ cs, isWhitespace c = false ∧ c ≠ '_'
  | [], _, _ => by simp
  | c :: cs, ds, h => by
    rw [List.mapM_cons] at h
    obtain ⟨d, hd, h⟩ := Option.bind_eq_some_iff.mp h
    obtain ⟨es, he, -⟩ := Option.bind_eq_some_iff.mp h
    intro x hx
    rcases List.mem_cons.mp hx with rfl | hx
    · exact not_special_of_digit hd
    · exact digits_not_special he x hx

/-- The uint256 reading of a prefixed address spelling is the address itself. -/
theorem toU256_prefixed {s : String} {rest : List Char} {a : Address}
    (hs : s.toList = '0' :: 'x' :: rest) (ha : Address.fromStr s = some a) :
    toU256 (.str s) = some a.toNat := by
  unfold Address.fromStr at ha
  rw [hs, stripHexPrefix] at ha
  obtain ⟨n, hn, rfl⟩ := Option.map_eq_some_iff.mp ha
  obtain ⟨ds, hds, hv, -, -⟩ := hexValue_eq_some hn
  have hlt : n < 16 ^ 40 := hexValue_lt hn
  have hspec := digits_not_special hds
  have htrim : trim s.toList = '0' :: 'x' :: rest := by
    rw [hs]
    refine trim_of_no_space ?_
    intro c hc
    rcases List.mem_cons.mp hc with rfl | hc
    · decide
    · rcases List.mem_cons.mp hc with rfl | hc
      · decide
      · exact (hspec c hc).1
  simp only [toU256, htrim, U256.fromStrRadix]
  have hfilter : rest.filter (· ≠ '_') = rest := by
    rw [List.filter_eq_self]
    intro c hc
    simpa using (hspec c hc).2
  rw [hfilter, hds]
  simp only [Option.bind_some, hv, BitVec.toNat_ofNat]
  rw [if_pos (by omega), Nat.mod_eq_of_lt (by omega)]

/-- **Prefixed spellings never flip**: when the needle and every listed address carry the `0x`
    prefix, the linear scan and the address comparison agree. -/
theorem membershipFlips_prefixed {s : String} {xs : List String} {rest : List Char} {a : Address}
    (hs : s.toList = '0' :: 'x' :: rest) (ha : Address.fromStr s = some a)
    (hxs : ∀ x ∈ xs, ∃ r a', x.toList = '0' :: 'x' :: r ∧ Address.fromStr x = some a') :
    membershipFlips s xs = false := by
  unfold membershipFlips
  rw [bne_eq_false_iff_eq, Bool.eq_iff_iff, List.any_eq_true, List.any_eq_true]
  refine exists_congr fun x => and_congr_right fun hx => ?_
  obtain ⟨r, a', hr, ha'⟩ := hxs x hx
  unfold sameReading
  rw [toU256_prefixed hs ha, toU256_prefixed hr ha', ha, ha']
  simp [BitVec.toNat_inj]

end Prefixed

end XLayerReth.RcsFilter
