import Mathlib.Data.List.Infix
import Mathlib.Data.Finset.Dedup
import Mathlib.Data.Finset.Basic
import Mathlib.Data.List.Sort
import XLayerReth.RcsFilter.Primitives

/-!
# The JSONLogic evaluator and its compiled form

Model of `rules/jsonlogic.rs`:

* `Json` — `serde_json::Value`.
* `eval`, `truthy` — the raw evaluator over the supported operators (`var`, `==`, `!=`, `in`,
  `and`, `or`, `!`, `>`, `>=`, `<`, `<=`), with its uint256 and address coercions.
* `compile`, `evalCompiled` — the load-time specialisation of static address membership tests,
  with the interner that shares equal address sets across the rules of one batch.
* `validate` — the load-time check of operators and arities, with its error texts.

Principal results: `mem_intern` (an interned set has exactly the members of the list it was
built from), `truthy_and`, `truthy_or`, `truthy_not` (the raw combinators on truth values) and
`truthy_in` (the linear membership scan over a static list).
-/

set_option autoImplicit false

namespace XLayerReth.RcsFilter

/-! ## JSON values -/

/-- `serde_json::Number`: unsigned and negative integers, and finite floats.  A float is given
    by its shortest decimal rendering; the two zeros, which compare equal, share `0.0`. -/
inductive Number where
  | posInt (n : Nat)
  | negInt (n : Nat)
  | float (text : String)
  deriving DecidableEq, Repr

/-- `Number::to_string`. -/
def Number.render : Number → String
  | .posInt n => toString n
  | .negInt n => "-" ++ toString n
  | .float text => text

/-- `n.as_f64() != 0.0`. -/
def Number.nonzero : Number → Bool
  | .posInt n => n != 0
  | .negInt n => n != 0
  | .float text => text != "0.0"

/-- `serde_json::Value`; the fields of an object are listed in ascending key order. -/
inductive Json where
  | null
  | bool (b : Bool)
  | num (n : Number)
  | str (s : String)
  | arr (items : List Json)
  | obj (fields : List (String × Json))

mutual

def Json.decEq : (x y : Json) → Decidable (x = y)
  | .null, .null => isTrue rfl
  | .bool a, .bool b => decidable_of_iff (a = b) (by simp)
  | .num a, .num b => decidable_of_iff (a = b) (by simp)
  | .str a, .str b => decidable_of_iff (a = b) (by simp)
  | .arr xs, .arr ys => @decidable_of_iff _ _ (by simp) (Json.decEqItems xs ys)
  | .obj xs, .obj ys => @decidable_of_iff _ _ (by simp) (Json.decEqFields xs ys)
  | .null, .bool _ | .null, .num _ | .null, .str _ | .null, .arr _ | .null, .obj _
  | .bool _, .null | .bool _, .num _ | .bool _, .str _ | .bool _, .arr _ | .bool _, .obj _
  | .num _, .null | .num _, .bool _ | .num _, .str _ | .num _, .arr _ | .num _, .obj _
  | .str _, .null | .str _, .bool _ | .str _, .num _ | .str _, .arr _ | .str _, .obj _
  | .arr _, .null | .arr _, .bool _ | .arr _, .num _ | .arr _, .str _ | .arr _, .obj _
  | .obj _, .null | .obj _, .bool _ | .obj _, .num _ | .obj _, .str _ | .obj _, .arr _ =>
    isFalse (by simp)

def Json.decEqItems : (xs ys : List Json) → Decidable (xs = ys)
  | [], [] => isTrue rfl
  | [], _ :: _ | _ :: _, [] => isFalse (by simp)
  | x :: xs, y :: ys =>
    match Json.decEq x y, Json.decEqItems xs ys with
    | isTrue h, isTrue h' => isTrue (by rw [h, h'])
    | isFalse h, _ => isFalse (fun e => h (by injection e))
    | _, isFalse h => isFalse (fun e => h (by injection e))

def Json.decEqFields : (xs ys : List (String × Json)) → Decidable (xs = ys)
  | [], [] => isTrue rfl
  | [], _ :: _ | _ :: _, [] => isFalse (by simp)
  | (k, x) :: xs, (l, y) :: ys =>
    match instDecidableEqString k l, Json.decEq x y, Json.decEqFields xs ys with
    | isTrue h, isTrue h', isTrue h'' => isTrue (by rw [h, h', h''])
    | isFalse h, _, _ => isFalse (fun e => h (by injection e with e _; injection e))
    | _, isFalse h, _ => isFalse (fun e => h (by injection e with e _; injection e))
    | _, _, isFalse h => isFalse (fun e => h (by injection e))

end

instance : DecidableEq Json := Json.decEq

/-- `Value::as_str`. -/
def Json.asStr : Json → Option String
  | .str s => some s
  | _ => none

/-- `Value::as_array`. -/
def Json.asArray : Json → Option (List Json)
  | .arr items => some items
  | _ => none

/-- Variable bindings of one rule evaluation. -/
abbrev Bindings := String → Option Json

/-! ## The raw evaluator -/

/-- JSONLogic truthiness: `false`, `null`, `0`, `""` and `[]` are falsy. -/
def isTruthy : Json → Bool
  | .bool b => b
  | .null => false
  | .num n => n.nonzero
  | .str s => s != ""
  | .arr items => !items.isEmpty
  | .obj _ => true

/-- Best-effort uint256 reading of a number or of a decimal or hexadecimal string. -/
def toU256 : Json → Option Nat
  | .num n => U256.fromStr n.render.toList
  | .str s =>
    match trim s.toList with
    | '0' :: 'x' :: hex => U256.fromStrRadix 16 hex
    | '0' :: 'X' :: hex => U256.fromStrRadix 16 hex
    | cs => U256.fromStr cs
  | _ => none

/-- The two sides as addresses, when both are strings that spell one. -/
def addressPair (l r : Json) : Option (Address × Address) :=
  match l.asStr.bind Address.fromStr, r.asStr.bind Address.fromStr with
  | some la, some ra => some (la, ra)
  | _, _ => none

/-- Equality with uint256 coercion first, then address comparison, then plain equality. -/
def valueEq (l r : Json) : Bool :=
  if l = .null ∨ r = .null then decide (l = .null ∧ r = .null)
  else
    match toU256 l, toU256 r with
    | some lu, some ru => lu == ru
    | _, _ =>
      match addressPair l r with
      | some (la, ra) => la == ra
      | none => decide (l = r)

/-- `var`: `"name"`, `["name"]` or `["name", default]`; the default is returned as written. -/
def evalVar (b : Bindings) : Json → Json
  | .str name => (b name).getD .null
  | .arr parts =>
    match (parts.head?.bind Json.asStr).bind b with
    | some v => v
    | none => parts[1]?.getD .null
  | _ => .null

/-- The two operands of a binary operator, from the argument and its value. -/
def two : Json → Json → Json × Json
  | .arr _, .arr vs => (vs[0]?.getD .null, vs[1]?.getD .null)
  | _, v => (v, .null)

/-- The operand of a unary operator (`x` or `[x]`). -/
def firstOperand : Json → Json
  | .arr items => items.head?.getD .null
  | other => other

/-- The value of the operand of a unary operator, from the argument and its value. -/
def firstValue : Json → Json → Json
  | .arr _, .arr vs => vs.head?.getD .null
  | _, v => v

/-- `in`: membership in an array, or substring. -/
def evalIn (operands : Json × Json) : Bool :=
  match operands.2 with
  | .arr items => items.any (fun item => valueEq operands.1 item)
  | .str s =>
    match operands.1.asStr with
    | some n => decide (n.toList <:+: s.toList)
    | none => false
  | _ => false

/-- First falsy value, or the last one. -/
def andLoop (last : Json) : List Json → Json
  | [] => last
  | v :: vs => if isTruthy v then andLoop v vs else v

/-- First truthy value, or the last one. -/
def orLoop (last : Json) : List Json → Json
  | [] => last
  | v :: vs => if isTruthy v then v else orLoop v vs

def evalAnd : Json → Json → Json
  | .arr _, .arr vs => andLoop .null vs
  | _, _ => .null

def evalOr : Json → Json → Json
  | .arr _, .arr vs => orLoop .null vs
  | _, _ => .null

/-- Numeric comparison; `false` when a side has no uint256 reading. -/
def cmp (operands : Json × Json) (pass : Ordering → Bool) : Json :=
  match toU256 operands.1, toU256 operands.2 with
  | some lu, some ru => .bool (pass (compare lu ru))
  | _, _ => .bool false

/-- Operator dispatch, from the argument and its value. -/
def evalOp (b : Bindings) (op : String) (arg v : Json) : Json :=
  if op = "var" then evalVar b arg
  else if op = "==" then .bool (valueEq (two arg v).1 (two arg v).2)
  else if op = "!=" then .bool (!valueEq (two arg v).1 (two arg v).2)
  else if op = "in" then .bool (evalIn (two arg v))
  else if op = "and" then evalAnd arg v
  else if op = "or" then evalOr arg v
  else if op = "!" then .bool (!isTruthy (firstValue arg v))
  else if op = ">" then cmp (two arg v) (· == .gt)
  else if op = ">=" then cmp (two arg v) (· != .lt)
  else if op = "<" then cmp (two arg v) (· == .lt)
  else if op = "<=" then cmp (two arg v) (· != .gt)
  else .null

mutual

/-- The recursive evaluator.  The operands of an operator are the items of its array argument,
    or the argument itself: `evalOp` reads their values off the value of the whole argument. -/
def eval (b : Bindings) : Json → Json
  | .obj [(op, arg)] => evalOp b op arg (eval b arg)
  | .arr items => .arr (evalItems b items)
  | other => other

def evalItems (b : Bindings) : List Json → List Json
  | [] => []
  | item :: items => eval b item :: evalItems b items

end

theorem evalItems_eq_map (b : Bindings) : ∀ items, evalItems b items = items.map (eval b)
  | [] => rfl
  | item :: items => by rw [evalItems, evalItems_eq_map b items, List.map_cons]

/-- `truthy`. -/
def truthy (e : Json) (b : Bindings) : Bool := isTruthy (eval b e)

/-! ## Load-time validation -/

/-- Operators with two operands. -/
def isBinary (op : String) : Bool :=
  op == "==" || op == "!=" || op == "in" || op == ">" || op == ">=" || op == "<" || op == "<="

/-- The check of one operator's argument shape; `operands` are the items of an array argument or
    the argument alone. -/
def checkOperator (op : String) (arg : Json) (operands : List Json) : Except String Unit :=
  if op = "var" then
    if (operands.length = 1 ∨ operands.length = 2) ∧ (operands.head?.bind Json.asStr).isSome then
      .ok ()
    else .error "JSONLogic 'var' expects a name and optional default"
  else if isBinary op then
    if operands.length = 2 then .ok ()
    else .error ("JSONLogic '" ++ op ++ "' expects exactly two operands")
  else if op = "!" then
    if operands.length = 1 then .ok () else .error "JSONLogic '!' expects exactly one operand"
  else if op = "and" ∨ op = "or" then
    match arg with
    | .arr _ => .ok ()
    | _ => .error ("JSONLogic '" ++ op ++ "' expects an operand array")
  else .error ("unsupported JSONLogic operator '" ++ op ++ "'")

mutual

/-- `validate`. -/
def validate : Json → Except String Unit
  | .obj [(op, .arr items)] => do
    checkOperator op (.arr items) items
    validateItems items
  | .obj [(op, arg)] => do
    checkOperator op arg [arg]
    validate arg
  | .obj _ => .error "JSONLogic expression objects must contain exactly one operator"
  | .arr items => validateItems items
  | _ => .ok ()

def validateItems : List Json → Except String Unit
  | [] => .ok ()
  | item :: items => do
    validate item
    validateItems items

end

/-! ## Compilation -/

/-- `CompiledCondition`. -/
inductive CompiledCondition where
  | addressSetIn (needle : Json) (set : Finset Address) (orig : Json)
  | and (children : List CompiledCondition)
  | or (children : List CompiledCondition)
  | not (child : CompiledCondition)
  | raw (e : Json)

/-- `Vec::dedup`: drop an element equal to its predecessor. -/
def vecDedup {α : Type} [DecidableEq α] : List α → List α
  | [] => []
  | [x] => [x]
  | x :: y :: rest => if x = y then vecDedup (y :: rest) else x :: vecDedup (y :: rest)

theorem mem_vecDedup {α : Type} [DecidableEq α] {a : α} : ∀ {l : List α}, a ∈ vecDedup l ↔ a ∈ l
  | [] => Iff.rfl
  | [x] => Iff.rfl
  | x :: y :: rest => by
    unfold vecDedup
    split
    · rename_i h
      rw [mem_vecDedup, h]
      simp
    · rw [List.mem_cons, mem_vecDedup, List.mem_cons (a := a) (b := x)]

/-- `AddressSetInterner`: normalised address lists with the shared set of each.  A set always
    has exactly the members of its key. -/
structure AddressSetInterner where
  byAddresses : List (List Address × Finset Address)
  exact : ∀ p ∈ byAddresses, ∀ a, a ∈ p.2 ↔ a ∈ p.1

def AddressSetInterner.new : AddressSetInterner := ⟨[], fun _ h => by cases h⟩

/-- The interner's key of an address list: `sort_unstable` then `dedup`. -/
def normalise (addrs : List Address) : List Address :=
  vecDedup (addrs.mergeSort (fun x y => decide (x ≤ y)))

/-- `AddressSetInterner::intern`. -/
def AddressSetInterner.intern (i : AddressSetInterner) (addrs : List Address) :
    Finset Address × AddressSetInterner :=
  match i.byAddresses.find? (fun p => p.1 = normalise addrs) with
  | some p => (p.2, i)
  | none =>
    ((normalise addrs).toFinset,
      ⟨(normalise addrs, (normalise addrs).toFinset) :: i.byAddresses, by
        intro p hp a
        rcases List.mem_cons.mp hp with rfl | hp
        · exact List.mem_toFinset
        · exact i.exact p hp a⟩)

theorem mem_normalise {addrs : List Address} {a : Address} : a ∈ normalise addrs ↔ a ∈ addrs := by
  unfold normalise
  rw [mem_vecDedup, List.mem_mergeSort]

/-- **An interned set has exactly the members of the list it stands for**, whether it was built
    now or shared with an earlier rule. -/
theorem mem_intern (i : AddressSetInterner) (addrs : List Address) (a : Address) :
    a ∈ (i.intern addrs).1 ↔ a ∈ addrs := by
  unfold AddressSetInterner.intern
  split
  · rename_i p hp
    have hk : p.1 = normalise addrs := by simpa using List.find?_some hp
    rw [i.exact p (List.mem_of_find?_eq_some hp) a, hk, mem_normalise]
  · rw [List.mem_toFinset, mem_normalise]

/-- `static_address_list`: the addresses of a non-empty array of address strings. -/
def staticAddressList : Json → Option (List Address)
  | .arr [] => none
  | .arr items => items.mapM (fun it => it.asStr.bind Address.fromStr)
  | _ => none

/-- The needle and address list of an accelerable `in` node. -/
def staticMembership (op : String) (arg : Json) : Option (Json × List Address) :=
  match arg with
  | .arr [needle, hay] => if op = "in" then (staticAddressList hay).map (needle, ·) else none
  | _ => none

mutual

/-- `contains_address_set`. -/
def containsAddressSet : CompiledCondition → Bool
  | .addressSetIn _ _ _ => true
  | .and xs => anyContainsAddressSet xs
  | .or xs => anyContainsAddressSet xs
  | .not x => containsAddressSet x
  | .raw _ => false

def anyContainsAddressSet : List CompiledCondition → Bool
  | [] => false
  | x :: xs => containsAddressSet x || anyContainsAddressSet xs

end

mutual

/-- `compile`: specialise static address membership reached through `and`, `or` and `!`. -/
def compile : Json → AddressSetInterner → CompiledCondition × AddressSetInterner
  | .obj [(op, arg)], i =>
    match staticMembership op arg with
    | some (needle, addrs) =>
      (.addressSetIn needle (i.intern addrs).1 (.obj [(op, arg)]), (i.intern addrs).2)
    | none =>
      if op = "and" ∨ op = "or" then
        match arg with
        | .arr items =>
          let compiled := compileItems items i
          if anyContainsAddressSet compiled.1 then
            (if op = "and" then .and compiled.1 else .or compiled.1, compiled.2)
          else (.raw (.obj [(op, .arr items)]), compiled.2)
        | other => (.raw (.obj [(op, other)]), i)
      else if op = "!" then
        match arg with
        | .arr [] => (.raw (.obj [(op, .arr [])]), i)
        | .arr (inner :: rest) =>
          let child := compile inner i
          if containsAddressSet child.1 then (.not child.1, child.2)
          else (.raw (.obj [(op, .arr (inner :: rest))]), child.2)
        | other =>
          let child := compile other i
          if containsAddressSet child.1 then (.not child.1, child.2)
          else (.raw (.obj [(op, other)]), child.2)
      else (.raw (.obj [(op, arg)]), i)
  | other, i => (.raw other, i)

def compileItems : List Json → AddressSetInterner → List CompiledCondition × AddressSetInterner
  | [], i => ([], i)
  | item :: items, i =>
    let first := compile item i
    let rest := compileItems items first.2
    (first.1 :: rest.1, rest.2)

end

mutual

/-- `eval_compiled`. -/
def evalCompiled (b : Bindings) : CompiledCondition → Bool
  | .raw e => truthy e b
  | .addressSetIn needle set orig =>
    match eval b needle with
    | .str s =>
      match Address.fromStr s with
      | some addr => decide (addr ∈ set)
      | none => truthy orig b
    | _ => truthy orig b
  | .and xs => evalAll b xs
  | .or xs => evalAny b xs
  | .not x => !evalCompiled b x

def evalAll (b : Bindings) : List CompiledCondition → Bool
  | [] => true
  | x :: xs => evalCompiled b x && evalAll b xs

def evalAny (b : Bindings) : List CompiledCondition → Bool
  | [] => false
  | x :: xs => evalCompiled b x || evalAny b xs

end

/-- The interner after compiling a batch of expressions with it, from a new one. -/
def internerAfter (earlier : List Json) : AddressSetInterner :=
  earlier.foldl (fun i e => (compile e i).2) AddressSetInterner.new

/-! ## The raw combinators on truth values -/

theorem isTruthy_andLoop : ∀ (vs : List Json) (last : Json), vs ≠ [] →
    isTruthy (andLoop last vs) = vs.all isTruthy
  | [], _, h => absurd rfl h
  | [v], _, _ => by
    unfold andLoop
    split
    · rename_i hv; simp [andLoop, hv]
    · rename_i hv; simp [hv]
  | v :: w :: vs, _, _ => by
    rw [andLoop, List.all_cons]
    split
    · rename_i hv
      rw [isTruthy_andLoop (w :: vs) v (by simp), hv, Bool.true_and]
    · rename_i hv; simp [hv]

theorem isTruthy_orLoop : ∀ (vs : List Json) (last : Json), vs ≠ [] →
    isTruthy (orLoop last vs) = vs.any isTruthy
  | [], _, h => absurd rfl h
  | [v], _, _ => by
    unfold orLoop
    split
    · rename_i hv; simp [hv]
    · rename_i hv; simp [orLoop, hv]
  | v :: w :: vs, _, _ => by
    rw [orLoop, List.any_cons]
    split
    · rename_i hv; simp [hv]
    · rename_i hv
      rw [isTruthy_orLoop (w :: vs) v (by simp)]
      simp [hv]

theorem truthy_and (b : Bindings) {items : List Json} (h : items ≠ []) :
    truthy (.obj [("and", .arr items)]) b = items.all (fun e => truthy e b) := by
  unfold truthy
  rw [eval, eval, evalOp]
  simp only [String.reduceEq, if_false, if_true, evalAnd, evalItems_eq_map]
  rw [isTruthy_andLoop _ _ (by simpa using h), List.all_map]
  rfl

theorem truthy_or (b : Bindings) {items : List Json} (h : items ≠ []) :
    truthy (.obj [("or", .arr items)]) b = items.any (fun e => truthy e b) := by
  unfold truthy
  rw [eval, eval, evalOp]
  simp only [String.reduceEq, if_false, if_true, evalOr, evalItems_eq_map]
  rw [isTruthy_orLoop _ _ (by simpa using h), List.any_map]
  rfl

theorem firstValue_eval (b : Bindings) (arg : Json) (h : arg ≠ .arr []) :
    firstValue arg (eval b arg) = eval b (firstOperand arg) := by
  cases arg with
  | arr items =>
    cases items with
    | nil => exact absurd rfl h
    | cons x xs => rw [eval, evalItems]; rfl
  | null | bool | num | str | obj => rfl

theorem truthy_not (b : Bindings) {arg : Json} (h : arg ≠ .arr []) :
    truthy (.obj [("!", arg)]) b = !truthy (firstOperand arg) b := by
  unfold truthy
  rw [eval, evalOp]
  simp only [String.reduceEq, if_false, if_true, firstValue_eval b arg h]
  rfl

/-- The linear membership scan. -/
theorem truthy_in (b : Bindings) (needle hay : Json) :
    truthy (.obj [("in", .arr [needle, hay])]) b = evalIn (eval b needle, eval b hay) := by
  unfold truthy
  rw [eval, eval, evalOp]
  simp only [String.reduceEq, if_false, if_true, evalItems, two]
  rfl

end XLayerReth.RcsFilter
