import XLayerReth.RcsFilter.JsonLogic

/-!
# The JSONLogic evaluators with their fallback arms

`eval` is total: an operator it does not know, an object without exactly one key, an operand that is
not there, an argument of `and`/`or` that is no array and a `var` without a name each have an arm of
their own.  The evaluators are repeated here as the source runs them (`and`/`or` stop at the
deciding operand), with the fallback arms they pass through.

* `evalTraced`, `evalCompiledTraced` — `eval` and `eval_compiled`; `compileFallbacks` — `compile`.
* `Fallback.rawSyntax` — a `var` default that contains an operator and is returned as written.

Principal results: `evalTraced_value` and `evalCompiledTraced_value`, the erasures.
-/

set_option autoImplicit false

namespace XLayerReth.RcsFilter

/-! ## Fallback arms -/

inductive Fallback where
  /-- The `_` arm of `eval_op`. -/
  | unknownOperator
  /-- An object with other than one key. -/
  | notOneKey
  /-- An operand of a binary or unary operator that is not there. -/
  | missingOperand
  /-- An argument of `and` or `or` that is no array. -/
  | nonArrayArgument
  /-- A `var` whose name is not a string. -/
  | varName
  /-- A sub-expression returned as raw syntax. -/
  | rawSyntax
  deriving DecidableEq, Repr

mutual

/-- The expression contains an operator. -/
def hasOperator : Json → Bool
  | .obj _ => true
  | .arr items => anyHasOperator items
  | _ => false

def anyHasOperator : List Json → Bool
  | [] => false
  | item :: items => hasOperator item || anyHasOperator items

end

/-! ## The raw evaluator -/

/-- The value of a binary operator on the values of its operands. -/
def binaryValue (op : String) (operands : Json × Json) : Json :=
  if op = "==" then .bool (valueEq operands.1 operands.2)
  else if op = "!=" then .bool (!valueEq operands.1 operands.2)
  else if op = "in" then .bool (evalIn operands)
  else if op = ">" then cmp operands (· == .gt)
  else if op = ">=" then cmp operands (· != .lt)
  else if op = "<" then cmp operands (· == .lt)
  else cmp operands (· != .gt)

/-- The default of a `var`: returned as written. -/
def defaultTraced : Option Json → Json × List Fallback
  | none => (.null, [])
  | some d => (d, if hasOperator d then [.rawSyntax] else [])

/-- `eval_var`. -/
def varTraced (b : Bindings) : Json → Json × List Fallback
  | .str name => ((b name).getD .null, [])
  | .arr parts =>
    match parts.head?.bind Json.asStr with
    | none => ((defaultTraced parts[1]?).1, .varName :: (defaultTraced parts[1]?).2)
    | some name =>
      match b name with
      | some v => (v, [])
      | none => defaultTraced parts[1]?
  | _ => (.null, [.varName])

mutual

/-- `eval`, with the fallback arms it passes through. -/
def evalTraced (b : Bindings) : Json → Json × List Fallback
  | .obj [(op, .arr items)] =>
    if op = "var" then varTraced b (.arr items)
    else if isBinary op then (binaryValue op (twoTraced b items).1, (twoTraced b items).2)
    else if op = "and" then andTraced b items .null
    else if op = "or" then orTraced b items .null
    else if op = "!" then (.bool (!isTruthy (firstTraced b items).1), (firstTraced b items).2)
    else (.null, [.unknownOperator])
  | .obj [(op, arg)] =>
    if op = "var" then varTraced b arg
    else if isBinary op then
      (binaryValue op ((evalTraced b arg).1, .null), (evalTraced b arg).2 ++ [.missingOperand])
    else if op = "and" ∨ op = "or" then (.null, [.nonArrayArgument])
    else if op = "!" then (.bool (!isTruthy (evalTraced b arg).1), (evalTraced b arg).2)
    else (.null, [.unknownOperator])
  | .obj fields => (.obj fields, [.notOneKey])
  | .arr items => (.arr (itemsTraced b items).1, (itemsTraced b items).2)
  | .null => (.null, [])
  | .bool v => (.bool v, [])
  | .num n => (.num n, [])
  | .str s => (.str s, [])

def itemsTraced (b : Bindings) : List Json → List Json × List Fallback
  | [] => ([], [])
  | item :: items =>
    ((evalTraced b item).1 :: (itemsTraced b items).1,
      (evalTraced b item).2 ++ (itemsTraced b items).2)

/-- `two` on an array argument. -/
def twoTraced (b : Bindings) : List Json → (Json × Json) × List Fallback
  | [] => ((.null, .null), [.missingOperand, .missingOperand])
  | [l] => (((evalTraced b l).1, .null), (evalTraced b l).2 ++ [.missingOperand])
  | l :: r :: _ =>
    (((evalTraced b l).1, (evalTraced b r).1), (evalTraced b l).2 ++ (evalTraced b r).2)

/-- `first_operand` of an array argument, evaluated. -/
def firstTraced (b : Bindings) : List Json → Json × List Fallback
  | [] => (.null, [.missingOperand])
  | x :: _ => evalTraced b x

/-- `eval_and`. -/
def andTraced (b : Bindings) : List Json → Json → Json × List Fallback
  | [], last => (last, [])
  | item :: items, _ =>
    if isTruthy (evalTraced b item).1 then
      ((andTraced b items (evalTraced b item).1).1,
        (evalTraced b item).2 ++ (andTraced b items (evalTraced b item).1).2)
    else evalTraced b item

/-- `eval_or`. -/
def orTraced (b : Bindings) : List Json → Json → Json × List Fallback
  | [], last => (last, [])
  | item :: items, _ =>
    if isTruthy (evalTraced b item).1 then evalTraced b item
    else
      ((orTraced b items (evalTraced b item).1).1,
        (evalTraced b item).2 ++ (orTraced b items (evalTraced b item).1).2)

end

/-! ### Erasure -/

theorem isBinary_iff {op : String} : isBinary op = true ↔
    op = "==" ∨ op = "!=" ∨ op = "in" ∨ op = ">" ∨ op = ">=" ∨ op = "<" ∨ op = "<=" := by
  simp only [isBinary, Bool.or_eq_true, beq_iff_eq, or_assoc]

theorem evalOp_binary (b : Bindings) {op : String} (h : isBinary op = true) (arg v : Json) :
    evalOp b op arg v = binaryValue op (two arg v) := by
  rcases isBinary_iff.mp h with rfl | rfl | rfl | rfl | rfl | rfl | rfl <;>
    simp only [evalOp, binaryValue, String.reduceEq, if_false, if_true]

theorem varTraced_value (b : Bindings) (arg : Json) : (varTraced b arg).1 = evalVar b arg := by
  unfold varTraced evalVar
  cases arg with
  | arr parts =>
    dsimp only
    have hdefault : (defaultTraced parts[1]?).1 = parts[1]?.getD .null := by
      cases parts[1]? <;> rfl
    cases parts.head?.bind Json.asStr with
    | none => exact hdefault
    | some name =>
      dsimp only [Option.bind_some]
      cases b name with
      | none => exact hdefault
      | some v => rfl
  | null | bool | num | str | obj => rfl

/-- An operator by its arm of `eval_op`. -/
theorem operator_cases (op : String) :
    op = "var" ∨ isBinary op = true ∨ op = "and" ∨ op = "or" ∨ op = "!" ∨
      (op ≠ "var" ∧ isBinary op = false ∧ op ≠ "and" ∧ op ≠ "or" ∧ op ≠ "!") := by
  by_cases hvar : op = "var"
  · exact .inl hvar
  · cases hbin : isBinary op with
    | true => exact .inr (.inl rfl)
    | false =>
      simp only [hvar, Bool.false_eq_true, false_or, ne_eq, not_false_eq_true, true_and]
      tauto

theorem ne_var_of_isBinary {op : String} (h : isBinary op = true) : op ≠ "var" := by
  rintro rfl
  revert h
  decide

/-- An operator of no arm has the value of the last one. -/
theorem evalOp_unknown (b : Bindings) {op : String} (hvar : op ≠ "var") (hbin : isBinary op = false)
    (hand : op ≠ "and") (hor : op ≠ "or") (hnot : op ≠ "!") (arg v : Json) :
    evalOp b op arg v = .null := by
  have hother : ¬ (op = "==" ∨ op = "!=" ∨ op = "in" ∨ op = ">" ∨ op = ">=" ∨ op = "<" ∨
      op = "<=") := by
    rw [← isBinary_iff, hbin]
    exact Bool.false_ne_true
  simp only [not_or] at hother
  simp only [evalOp, hvar, hand, hor, hnot, hother, if_false]

/-- An argument that is no array is the one operand. -/
theorem two_scalar {arg : Json} (h : ∀ items, arg ≠ .arr items) (v : Json) :
    two arg v = (v, .null) := by
  cases arg with
  | arr items => exact absurd rfl (h items)
  | null | bool | num | str | obj => rfl

theorem firstValue_scalar {arg : Json} (h : ∀ items, arg ≠ .arr items) (v : Json) :
    firstValue arg v = v := by
  cases arg with
  | arr items => exact absurd rfl (h items)
  | null | bool | num | str | obj => rfl

theorem evalAnd_scalar {arg : Json} (h : ∀ items, arg ≠ .arr items) (v : Json) :
    evalAnd arg v = .null ∧ evalOr arg v = .null := by
  cases arg with
  | arr items => exact absurd rfl (h items)
  | null | bool | num | str | obj => exact ⟨rfl, rfl⟩

/-- `evalTraced` of an operator whose argument is no array. -/
theorem evalTraced_scalar (b : Bindings) (op : String) {arg : Json}
    (h : ∀ items, arg ≠ .arr items) :
    evalTraced b (.obj [(op, arg)]) =
      if op = "var" then varTraced b arg
      else if isBinary op then
        (binaryValue op ((evalTraced b arg).1, .null), (evalTraced b arg).2 ++ [.missingOperand])
      else if op = "and" ∨ op = "or" then (.null, [.nonArrayArgument])
      else if op = "!" then (.bool (!isTruthy (evalTraced b arg).1), (evalTraced b arg).2)
      else (.null, [.unknownOperator]) := by
  cases arg with
  | arr items => exact absurd rfl (h items)
  | null | bool | num | str | obj =>
    rw [evalTraced]
    exact h

/-- Erasure at an operator whose argument is no array, from that of the argument. -/
theorem scalar_value (b : Bindings) (op : String) {arg : Json} (h : ∀ items, arg ≠ .arr items)
    (hv : (evalTraced b arg).1 = eval b arg) :
    (evalTraced b (.obj [(op, arg)])).1 = eval b (.obj [(op, arg)]) := by
  rw [eval, evalTraced_scalar b op h]
  rcases operator_cases op with rfl | hbin | rfl | rfl | rfl | ⟨hvar, hbin, hand, hor, hnot⟩
  · rw [if_pos rfl, evalOp, if_pos rfl, varTraced_value]
  · rw [if_neg (ne_var_of_isBinary hbin), if_pos hbin, evalOp_binary b hbin, two_scalar h, hv]
  · exact (evalAnd_scalar h (eval b arg)).1.symm
  · exact (evalAnd_scalar h (eval b arg)).2.symm
  · exact congrArg (fun v => Json.bool (!isTruthy v)) (hv.trans (firstValue_scalar h _).symm)
  · rw [if_neg hvar, hbin, if_neg Bool.false_ne_true, if_neg (not_or.mpr ⟨hand, hor⟩), if_neg hnot,
      evalOp_unknown b hvar hbin hand hor hnot]

mutual

/-- **Erasure**: the trace does not change the value. -/
theorem evalTraced_value (b : Bindings) : ∀ e, (evalTraced b e).1 = eval b e
  | .obj [(op, .arr items)] => by
    rw [evalTraced, eval, eval]
    rcases operator_cases op with rfl | hbin | rfl | rfl | rfl | ⟨hvar, hbin, hand, hor, hnot⟩
    · rw [if_pos rfl, evalOp, if_pos rfl, varTraced_value]
    · rw [if_neg (ne_var_of_isBinary hbin), if_pos hbin, evalOp_binary b hbin, twoTraced_value]
    · exact andTraced_value b items .null
    · exact orTraced_value b items .null
    · exact congrArg (fun v => Json.bool (!isTruthy v)) (firstTraced_value b items)
    · rw [if_neg hvar, hbin, if_neg Bool.false_ne_true, if_neg hand, if_neg hor, if_neg hnot,
        evalOp_unknown b hvar hbin hand hor hnot]
  | .obj [(op, .null)] => scalar_value b op (by simp) (evalTraced_value b .null)
  | .obj [(op, .bool v)] => scalar_value b op (by simp) (evalTraced_value b (.bool v))
  | .obj [(op, .num n)] => scalar_value b op (by simp) (evalTraced_value b (.num n))
  | .obj [(op, .str s)] => scalar_value b op (by simp) (evalTraced_value b (.str s))
  | .obj [(op, .obj fields)] => scalar_value b op (by simp) (evalTraced_value b (.obj fields))
  | .obj [] => by simp [evalTraced, eval]
  | .obj (_ :: _ :: _) => by simp [evalTraced, eval]
  | .arr items => by rw [evalTraced, eval, itemsTraced_value b items]
  | .null => by simp [evalTraced, eval]
  | .bool v => by simp [evalTraced, eval]
  | .num n => by simp [evalTraced, eval]
  | .str s => by simp [evalTraced, eval]

theorem itemsTraced_value (b : Bindings) : ∀ items, (itemsTraced b items).1 = evalItems b items
  | [] => rfl
  | item :: items => by
    rw [itemsTraced, evalItems, evalTraced_value b item, itemsTraced_value b items]

theorem twoTraced_value (b : Bindings) : ∀ items,
    (twoTraced b items).1 = two (.arr items) (.arr (evalItems b items))
  | [] => rfl
  | [l] => by rw [twoTraced, evalTraced_value b l]; rfl
  | l :: r :: _ => by rw [twoTraced, evalTraced_value b l, evalTraced_value b r]; rfl

theorem firstTraced_value (b : Bindings) : ∀ items,
    (firstTraced b items).1 = firstValue (.arr items) (.arr (evalItems b items))
  | [] => rfl
  | x :: _ => by rw [firstTraced, evalTraced_value b x]; rfl

theorem andTraced_value (b : Bindings) : ∀ items last,
    (andTraced b items last).1 = andLoop last (evalItems b items)
  | [], _ => rfl
  | item :: items, last => by
    rw [andTraced, evalItems, andLoop, evalTraced_value b item]
    split
    · exact andTraced_value b items _
    · exact evalTraced_value b item

theorem orTraced_value (b : Bindings) : ∀ items last,
    (orTraced b items last).1 = orLoop last (evalItems b items)
  | [], _ => rfl
  | item :: items, last => by
    rw [orTraced, evalItems, orLoop, evalTraced_value b item]
    split
    · exact evalTraced_value b item
    · exact orTraced_value b items _

end

/-! ## The compiled form -/

mutual

/-- The fallback arms `compile` passes through. -/
def compileFallbacks : Json → List Fallback
  | .obj [(op, .arr items)] =>
    if (staticMembership op (.arr items)).isSome then []
    else if op = "and" ∨ op = "or" then itemsCompileFallbacks items
    else if op = "!" then firstCompileFallbacks items
    else if op = "var" ∨ isBinary op then []
    else [.unknownOperator]
  | .obj [(op, arg)] =>
    if op = "and" ∨ op = "or" then [.nonArrayArgument]
    else if op = "!" then compileFallbacks arg
    else if op = "var" ∨ isBinary op then []
    else [.unknownOperator]
  | .obj _ => [.notOneKey]
  | _ => []

def itemsCompileFallbacks : List Json → List Fallback
  | [] => []
  | item :: items => compileFallbacks item ++ itemsCompileFallbacks items

/-- `first_operand` of an array argument, compiled. -/
def firstCompileFallbacks : List Json → List Fallback
  | [] => [.missingOperand]
  | x :: _ => compileFallbacks x

end

mutual

/-- `eval_compiled`, with the fallback arms it passes through. -/
def evalCompiledTraced (b : Bindings) : CompiledCondition → Bool × List Fallback
  | .raw e => (isTruthy (evalTraced b e).1, (evalTraced b e).2)
  | .addressSetIn needle set orig =>
    match (evalTraced b needle).1 with
    | .str s =>
      match Address.fromStr s with
      | some addr => (decide (addr ∈ set), (evalTraced b needle).2)
      | none =>
        (isTruthy (evalTraced b orig).1, (evalTraced b needle).2 ++ (evalTraced b orig).2)
    | _ => (isTruthy (evalTraced b orig).1, (evalTraced b needle).2 ++ (evalTraced b orig).2)
  | .and xs => allTraced b xs
  | .or xs => anyTraced b xs
  | .not x => (!(evalCompiledTraced b x).1, (evalCompiledTraced b x).2)

def allTraced (b : Bindings) : List CompiledCondition → Bool × List Fallback
  | [] => (true, [])
  | x :: xs =>
    if (evalCompiledTraced b x).1 then
      ((allTraced b xs).1, (evalCompiledTraced b x).2 ++ (allTraced b xs).2)
    else (false, (evalCompiledTraced b x).2)

def anyTraced (b : Bindings) : List CompiledCondition → Bool × List Fallback
  | [] => (false, [])
  | x :: xs =>
    if (evalCompiledTraced b x).1 then (true, (evalCompiledTraced b x).2)
    else ((anyTraced b xs).1, (evalCompiledTraced b x).2 ++ (anyTraced b xs).2)

end

mutual

/-- **Erasure** of the compiled evaluator. -/
theorem evalCompiledTraced_value (b : Bindings) :
    ∀ c, (evalCompiledTraced b c).1 = evalCompiled b c
  | .raw e => by rw [evalCompiledTraced, evalCompiled, truthy, evalTraced_value]
  | .addressSetIn needle set orig => by
    rw [evalCompiledTraced, evalCompiled, truthy, evalTraced_value, evalTraced_value]
    cases eval b needle with
    | str s =>
      dsimp only
      cases Address.fromStr s <;> rfl
    | null | bool | num | arr | obj => rfl
  | .and xs => by rw [evalCompiledTraced, evalCompiled, allTraced_value b xs]
  | .or xs => by rw [evalCompiledTraced, evalCompiled, anyTraced_value b xs]
  | .not x => by rw [evalCompiledTraced, evalCompiled, evalCompiledTraced_value b x]

theorem allTraced_value (b : Bindings) : ∀ xs, (allTraced b xs).1 = evalAll b xs
  | [] => by rw [allTraced, evalAll]
  | x :: xs => by
    rw [allTraced, evalAll, evalCompiledTraced_value b x]
    cases evalCompiled b x with
    | true => exact allTraced_value b xs
    | false => rfl

theorem anyTraced_value (b : Bindings) : ∀ xs, (anyTraced b xs).1 = evalAny b xs
  | [] => by rw [anyTraced, evalAny]
  | x :: xs => by
    rw [anyTraced, evalAny, evalCompiledTraced_value b x]
    cases evalCompiled b x with
    | true => rfl
    | false => exact anyTraced_value b xs

end

end XLayerReth.RcsFilter
