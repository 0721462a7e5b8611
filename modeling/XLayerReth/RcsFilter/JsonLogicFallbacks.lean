import XLayerReth.RcsFilter.JsonLogicExact
import XLayerReth.RcsFilter.JsonLogicTrace

/-!
# Accepted conditions and the fallback arms

`validate` is there so that no accepted condition gets to a fallback arm of the evaluator.  It
checks a `var` default like any other operand, but `eval_var` clones the default instead of
evaluating it.

* `readsRaw`, `compiledReadsRaw` — whether an evaluation gets to an unbound `var` whose default
  contains an operator.
* `OnlyRaw` — the trace holds the raw default and nothing else, and exactly when one is read.
* `CompiledFrom` — what the leaves of a compiled condition have from the expression it was made of.
* `plainDefaults` — no default of the expression contains an operator.

Principal result: `validated_no_fallback_iff`.
-/

set_option autoImplicit false

namespace XLayerReth.RcsFilter

/-! ## Defaults that are read as raw syntax -/

/-- An unbound `var` with a default that contains an operator. -/
def varReadsRaw (b : Bindings) : List Json → Bool
  | [.str name, d] => (b name).isNone && hasOperator d
  | _ => false

mutual

/-- The evaluation of an expression gets to an unbound `var` whose default contains an operator.
    The operands of `and` and `or` count up to the deciding one. -/
def readsRaw (b : Bindings) : Json → Bool
  | .obj [(op, .arr items)] =>
    if op = "var" then varReadsRaw b items
    else if op = "and" then andReadsRaw b items
    else if op = "or" then orReadsRaw b items
    else itemsReadRaw b items
  | .obj [(_, arg)] => readsRaw b arg
  | .arr items => itemsReadRaw b items
  | _ => false

def itemsReadRaw (b : Bindings) : List Json → Bool
  | [] => false
  | item :: items => readsRaw b item || itemsReadRaw b items

def andReadsRaw (b : Bindings) : List Json → Bool
  | [] => false
  | item :: items => readsRaw b item || (truthy item b && andReadsRaw b items)

def orReadsRaw (b : Bindings) : List Json → Bool
  | [] => false
  | item :: items => readsRaw b item || (!truthy item b && orReadsRaw b items)

end

mutual

/-- The same of a compiled condition. -/
def compiledReadsRaw (b : Bindings) : CompiledCondition → Bool
  | .raw e => readsRaw b e
  | .addressSetIn needle _ _ => readsRaw b needle
  | .and xs => allReadsRaw b xs
  | .or xs => anyReadsRaw b xs
  | .not x => compiledReadsRaw b x

def allReadsRaw (b : Bindings) : List CompiledCondition → Bool
  | [] => false
  | x :: xs => compiledReadsRaw b x || (evalCompiled b x && allReadsRaw b xs)

def anyReadsRaw (b : Bindings) : List CompiledCondition → Bool
  | [] => false
  | x :: xs => compiledReadsRaw b x || (!evalCompiled b x && anyReadsRaw b xs)

end

/-! ## What `validate` accepts -/

/-- The shape of an accepted operator. -/
theorem checkOperator_ok {op : String} {arg : Json} {operands : List Json}
    (h : checkOperator op arg operands = .ok ()) :
    (op = "var" ∧ ∃ name, operands = [.str name] ∨ ∃ d, operands = [.str name, d]) ∨
    (isBinary op = true ∧ ∃ l r, operands = [l, r]) ∨
    (op = "!" ∧ ∃ x, operands = [x]) ∨
    ((op = "and" ∨ op = "or") ∧ ∃ items, arg = .arr items) := by
  unfold checkOperator at h
  split at h
  · rename_i hop
    refine .inl ⟨hop, ?_⟩
    split at h
    · rename_i hshape
      obtain ⟨hlen, hname⟩ := hshape
      match operands, hlen, hname with
      | [.str name], _, _ => exact ⟨name, .inl rfl⟩
      | [.str name, d], _, _ => exact ⟨name, .inr ⟨d, rfl⟩⟩
    · cases h
  · split at h
    · rename_i hbin
      refine .inr (.inl ⟨hbin, ?_⟩)
      split at h
      · rename_i hlen
        exact List.length_eq_two.mp hlen
      · cases h
    · split at h
      · rename_i hop
        refine .inr (.inr (.inl ⟨hop, ?_⟩))
        split at h
        · rename_i hlen
          exact List.length_eq_one_iff.mp hlen
        · cases h
      · split at h
        · rename_i hop
          refine .inr (.inr (.inr ⟨hop, ?_⟩))
          split at h
          · exact ⟨_, rfl⟩
          · cases h
        · cases h

theorem bind_ok {x : Except String Unit} {y : Except String Unit}
    (h : (x >>= fun _ => y) = .ok ()) : x = .ok () ∧ y = .ok () := by
  cases x with
  | error e => cases h
  | ok u => exact ⟨rfl, h⟩

theorem validateItems_ok : ∀ {items : List Json}, validateItems items = .ok () →
    ∀ item ∈ items, validate item = .ok ()
  | [], _ => by simp
  | x :: items, h => by
    rw [validateItems] at h
    obtain ⟨hx, hitems⟩ := bind_ok h
    intro item hitem
    rcases List.mem_cons.mp hitem with rfl | hitem
    · exact hx
    · exact validateItems_ok hitems item hitem

theorem validate_array {op : String} {items : List Json}
    (h : validate (.obj [(op, .arr items)]) = .ok ()) :
    checkOperator op (.arr items) items = .ok () ∧ ∀ item ∈ items, validate item = .ok () := by
  rw [validate] at h
  obtain ⟨hcheck, hitems⟩ := bind_ok h
  exact ⟨hcheck, validateItems_ok hitems⟩

/-- An accepted operator whose argument is no array is a `var` with its name, or a `!`. -/
theorem validate_scalar {op : String} {arg : Json} (harg : ∀ items, arg ≠ .arr items)
    (h : validate (.obj [(op, arg)]) = .ok ()) :
    (op = "var" ∧ ∃ name, arg = .str name) ∨ (op = "!" ∧ validate arg = .ok ()) := by
  have hparts : checkOperator op arg [arg] = .ok () ∧ validate arg = .ok () := by
    cases arg with
    | arr items => exact absurd rfl (harg items)
    | null | bool | num | str | obj =>
      rw [validate] at h
      · exact bind_ok h
      · exact harg
  rcases checkOperator_ok hparts.1 with ⟨hop, name, hname | ⟨d, hd⟩⟩ | ⟨-, l, r, hlr⟩ |
    ⟨hop, -⟩ | ⟨-, items, hitems⟩
  · exact .inl ⟨hop, name, by simpa using hname⟩
  · simp at hd
  · simp at hlr
  · exact .inr ⟨hop, hparts.2⟩
  · exact absurd hitems (harg items)

/-! ## Raw evaluation of an accepted expression -/

/-- The only arm passed through is the raw default, and exactly when one is read. -/
def OnlyRaw (fallbacks : List Fallback) (reads : Bool) : Prop :=
  ∀ f, f ∈ fallbacks ↔ f = .rawSyntax ∧ reads = true

theorem OnlyRaw.nil : OnlyRaw [] false := by simp [OnlyRaw]

theorem OnlyRaw.append {fs gs : List Fallback} {r q : Bool} (hf : OnlyRaw fs r)
    (hg : OnlyRaw gs q) : OnlyRaw (fs ++ gs) (r || q) := by
  intro f
  rw [List.mem_append, hf f, hg f, Bool.or_eq_true, and_or_left]

theorem OnlyRaw.eq_nil_iff {fs : List Fallback} {r : Bool} (h : OnlyRaw fs r) :
    fs = [] ↔ r = false := by
  rw [List.eq_nil_iff_forall_not_mem]
  constructor
  · intro hnone
    cases r with
    | false => rfl
    | true => exact absurd ((h .rawSyntax).mpr ⟨rfl, rfl⟩) (hnone _)
  · rintro rfl f hf
    exact Bool.false_ne_true ((h f).mp hf).2

/-- The loops of `and` and `or` read as far as they evaluate. -/
theorem onlyRaw_and {b : Bindings} : ∀ {items : List Json} (last : Json),
    (∀ item ∈ items, OnlyRaw (evalTraced b item).2 (readsRaw b item)) →
      OnlyRaw (andTraced b items last).2 (andReadsRaw b items)
  | [], last, _ => by
    rw [andTraced, andReadsRaw]
    exact .nil
  | item :: items, last, h => by
    have hitem := h item List.mem_cons_self
    have hitems := onlyRaw_and (evalTraced b item).1 (fun x hx => h x (List.mem_cons_of_mem _ hx))
    rw [andTraced, andReadsRaw, truthy, ← evalTraced_value]
    cases isTruthy (evalTraced b item).1 with
    | true => exact hitem.append hitems
    | false => exact (Bool.or_false _).symm ▸ hitem

theorem onlyRaw_or {b : Bindings} : ∀ {items : List Json} (last : Json),
    (∀ item ∈ items, OnlyRaw (evalTraced b item).2 (readsRaw b item)) →
      OnlyRaw (orTraced b items last).2 (orReadsRaw b items)
  | [], last, _ => by
    rw [orTraced, orReadsRaw]
    exact .nil
  | item :: items, last, h => by
    have hitem := h item List.mem_cons_self
    have hitems := onlyRaw_or (evalTraced b item).1 (fun x hx => h x (List.mem_cons_of_mem _ hx))
    rw [orTraced, orReadsRaw, truthy, ← evalTraced_value]
    cases isTruthy (evalTraced b item).1 with
    | true => exact (Bool.or_false _).symm ▸ hitem
    | false => exact hitem.append hitems

theorem onlyRaw_items {b : Bindings} : ∀ {items : List Json},
    (∀ item ∈ items, OnlyRaw (evalTraced b item).2 (readsRaw b item)) →
      OnlyRaw (itemsTraced b items).2 (itemsReadRaw b items)
  | [], _ => by
    rw [itemsTraced, itemsReadRaw]
    exact .nil
  | item :: items, h => by
    rw [itemsTraced, itemsReadRaw]
    exact (h item List.mem_cons_self).append
      (onlyRaw_items (fun x hx => h x (List.mem_cons_of_mem _ hx)))

/-- A `var` with its name, and perhaps a default. -/
theorem onlyRaw_var {b : Bindings} {name : String} {parts : List Json}
    (h : parts = [.str name] ∨ ∃ d, parts = [.str name, d]) :
    OnlyRaw (varTraced b (.arr parts)).2 (varReadsRaw b parts) := by
  rcases h with rfl | ⟨d, rfl⟩
  · cases hb : b name with
    | none => simpa [varTraced, varReadsRaw, Json.asStr, hb, defaultTraced] using OnlyRaw.nil
    | some v => simpa [varTraced, varReadsRaw, Json.asStr, hb] using OnlyRaw.nil
  · cases hb : b name with
    | some v => simpa [varTraced, varReadsRaw, Json.asStr, hb] using OnlyRaw.nil
    | none =>
      cases hd : hasOperator d with
      | false => simpa [varTraced, varReadsRaw, Json.asStr, hb, defaultTraced, hd] using OnlyRaw.nil
      | true => simp [varTraced, varReadsRaw, Json.asStr, hb, defaultTraced, hd, OnlyRaw]

/-- An accepted operator over its operands, from the operands. -/
theorem onlyRaw_operator {b : Bindings} {op : String} {items : List Json}
    (hcheck : checkOperator op (.arr items) items = .ok ())
    (h : ∀ item ∈ items, OnlyRaw (evalTraced b item).2 (readsRaw b item)) :
    OnlyRaw (evalTraced b (.obj [(op, .arr items)])).2 (readsRaw b (.obj [(op, .arr items)])) := by
  rw [evalTraced, readsRaw]
  rcases checkOperator_ok hcheck with ⟨rfl, name, hparts⟩ | ⟨hbin, l, r, rfl⟩ | ⟨rfl, x, rfl⟩ |
    ⟨rfl | rfl, -⟩
  · rw [if_pos rfl, if_pos rfl]
    exact onlyRaw_var hparts
  · have hand : op ≠ "and" := by rintro rfl; revert hbin; decide
    have hor : op ≠ "or" := by rintro rfl; revert hbin; decide
    rw [if_neg (ne_var_of_isBinary hbin), if_neg (ne_var_of_isBinary hbin), if_pos hbin,
      if_neg hand, if_neg hor]
    rw [twoTraced, itemsReadRaw, itemsReadRaw, itemsReadRaw, Bool.or_false]
    exact (h l (by simp)).append (h r (by simp))
  · rw [if_neg (by decide), if_neg (by decide), if_neg (by decide), if_neg (by decide),
      if_pos rfl, if_neg (by decide), if_neg (by decide), if_neg (by decide), firstTraced,
      itemsReadRaw, itemsReadRaw, Bool.or_false]
    exact h x (by simp)
  · rw [if_neg (by decide), if_neg (by decide), if_pos rfl, if_neg (by decide), if_pos rfl]
    exact onlyRaw_and .null h
  · rw [if_neg (by decide), if_neg (by decide), if_neg (by decide), if_pos rfl,
      if_neg (by decide), if_neg (by decide), if_pos rfl]
    exact onlyRaw_or .null h

theorem readsRaw_scalar (b : Bindings) (op : String) {arg : Json}
    (h : ∀ items, arg ≠ .arr items) : readsRaw b (.obj [(op, arg)]) = readsRaw b arg := by
  cases arg with
  | arr items => exact absurd rfl (h items)
  | null | bool | num | str | obj =>
    rw [readsRaw]
    exact h

/-- An accepted operator whose argument is no array, from the argument. -/
theorem onlyRaw_scalar {b : Bindings} {op : String} {arg : Json} (harg : ∀ items, arg ≠ .arr items)
    (hv : validate (.obj [(op, arg)]) = .ok ())
    (h : validate arg = .ok () → OnlyRaw (evalTraced b arg).2 (readsRaw b arg)) :
    OnlyRaw (evalTraced b (.obj [(op, arg)])).2 (readsRaw b (.obj [(op, arg)])) := by
  rw [evalTraced_scalar b op harg, readsRaw_scalar b op harg]
  rcases validate_scalar harg hv with ⟨rfl, name, rfl⟩ | ⟨rfl, hok⟩
  · have hname : readsRaw b (.str name) = false := by simp [readsRaw]
    rw [if_pos rfl, hname]
    exact .nil
  · rw [if_neg (by decide), if_neg (by decide), if_neg (by decide), if_pos rfl]
    exact h hok

mutual

/-- **An accepted expression passes through no arm but the raw default**, and through that one
    exactly when its evaluation reads one. -/
theorem onlyRaw_eval (b : Bindings) : ∀ e, validate e = .ok () →
    OnlyRaw (evalTraced b e).2 (readsRaw b e)
  | .obj [(op, .arr items)], h =>
    onlyRaw_operator (validate_array h).1 (onlyRaw_evalItems b items (validate_array h).2)
  | .obj [(op, .null)], h => onlyRaw_scalar (by simp) h (onlyRaw_eval b .null)
  | .obj [(op, .bool v)], h => onlyRaw_scalar (by simp) h (onlyRaw_eval b (.bool v))
  | .obj [(op, .num n)], h => onlyRaw_scalar (by simp) h (onlyRaw_eval b (.num n))
  | .obj [(op, .str s)], h => onlyRaw_scalar (by simp) h (onlyRaw_eval b (.str s))
  | .obj [(op, .obj fields)], h => onlyRaw_scalar (by simp) h (onlyRaw_eval b (.obj fields))
  | .obj [], h => by simp [validate] at h
  | .obj (_ :: _ :: _), h => by simp [validate] at h
  | .arr items, h => by
    rw [evalTraced, readsRaw]
    rw [validate] at h
    exact onlyRaw_items (onlyRaw_evalItems b items (validateItems_ok h))
  | .null, _ => by simpa [evalTraced, readsRaw] using OnlyRaw.nil
  | .bool _, _ => by simpa [evalTraced, readsRaw] using OnlyRaw.nil
  | .num _, _ => by simpa [evalTraced, readsRaw] using OnlyRaw.nil
  | .str _, _ => by simpa [evalTraced, readsRaw] using OnlyRaw.nil

theorem onlyRaw_evalItems (b : Bindings) : ∀ items : List Json,
    (∀ item ∈ items, validate item = .ok ()) →
      ∀ item ∈ items, OnlyRaw (evalTraced b item).2 (readsRaw b item)
  | [], _ => by simp
  | x :: items, h =>
    List.forall_mem_cons.mpr ⟨onlyRaw_eval b x (h x List.mem_cons_self),
      onlyRaw_evalItems b items (fun y hy => h y (List.mem_cons_of_mem _ hy))⟩

end

/-! ## Compiled evaluation of an accepted expression -/

/-- A compiled condition whose leaves all have a property. -/
inductive CompiledFrom (P : Json → Prop) : CompiledCondition → Prop where
  | raw {e : Json} (h : P e) : CompiledFrom P (.raw e)
  | addressSetIn {needle : Json} {items : List Json} {set : Finset Address} {addrs : List Address}
      (h : P (.obj [("in", .arr [needle, .arr items])]))
      (haddrs : items.mapM (fun it => it.asStr.bind Address.fromStr) = some addrs) :
      CompiledFrom P (.addressSetIn needle set (.obj [("in", .arr [needle, .arr items])]))
  | and {xs : List CompiledCondition} (h : ∀ x ∈ xs, CompiledFrom P x) : CompiledFrom P (.and xs)
  | or {xs : List CompiledCondition} (h : ∀ x ∈ xs, CompiledFrom P x) : CompiledFrom P (.or xs)
  | not {x : CompiledCondition} (h : CompiledFrom P x) : CompiledFrom P (.not x)

/-- A property that the operands of `and`, `or` and `!` have from the whole. -/
structure Inherited (P : Json → Prop) : Prop where
  items : ∀ op items, op = "and" ∨ op = "or" ∨ op = "!" → P (.obj [(op, .arr items)]) →
    ∀ item ∈ items, P item
  scalar : ∀ arg, (∀ items, arg ≠ .arr items) → P (.obj [("!", arg)]) → P arg

mutual

/-- Compilation keeps the properties that operands inherit. -/
theorem compiledFrom_compile {P : Json → Prop} (hP : Inherited P) :
    ∀ (e : Json) (i : AddressSetInterner), P e → CompiledFrom P (compile e i).1
  | .obj [(op, arg)], i, h => by
    unfold compile
    split
    · rename_i needle addrs hm
      obtain ⟨items, rfl, rfl, haddrs⟩ := staticMembership_eq_some hm
      exact .addressSetIn h haddrs
    · split
      · rename_i hop
        split
        · rename_i items _
          have hitems := compiledFrom_items hP items i
            (hP.items op items (hop.imp_right .inl) h)
          rw [apply_ite Prod.fst]
          split
          · split
            · exact .and hitems
            · exact .or hitems
          · exact .raw h
        · exact .raw h
      · split
        · rename_i hnot
          subst hnot
          split
          · exact .raw h
          · rename_i inner rest _
            rw [apply_ite Prod.fst]
            split
            · exact .not (compiledFrom_compile hP inner i
                (hP.items "!" _ (.inr (.inr rfl)) h inner List.mem_cons_self))
            · exact .raw h
          · rename_i h1 h2
            have harg : ∀ items, arg ≠ .arr items := by
              rintro (_ | ⟨x, xs⟩) rfl
              · exact h1 rfl
              · exact h2 x xs rfl
            rw [apply_ite Prod.fst]
            split
            · exact .not (compiledFrom_compile hP arg i (hP.scalar arg harg h))
            · exact .raw h
        · exact .raw h
  | .null, _, h | .bool _, _, h | .num _, _, h | .str _, _, h | .arr _, _, h | .obj [], _, h
  | .obj (_ :: _ :: _), _, h => .raw h

theorem compiledFrom_items {P : Json → Prop} (hP : Inherited P) :
    ∀ (items : List Json) (i : AddressSetInterner), (∀ item ∈ items, P item) →
      ∀ c ∈ (compileItems items i).1, CompiledFrom P c
  | [], _, _ => by simp [compileItems]
  | item :: items, i, h => by
    rw [compileItems]
    exact List.forall_mem_cons.mpr ⟨compiledFrom_compile hP item i (h item List.mem_cons_self),
      compiledFrom_items hP items _ (fun y hy => h y (List.mem_cons_of_mem _ hy))⟩

end

theorem inherited_validated : Inherited (fun e => validate e = .ok ()) where
  items _ _ _ h := (validate_array h).2
  scalar arg harg h := by
    rcases validate_scalar harg h with ⟨hop, -⟩ | ⟨-, hok⟩
    · exact absurd hop (by decide)
    · exact hok

/-- A static address list holds strings only, so nothing in it is a default. -/
theorem itemsReadRaw_addresses {b : Bindings} : ∀ {items : List Json} {addrs : List Address},
    items.mapM (fun it => it.asStr.bind Address.fromStr) = some addrs →
      itemsReadRaw b items = false
  | [], _, _ => by rw [itemsReadRaw]
  | .str s :: items, addrs, h => by
    rw [List.mapM_cons] at h
    simp only [Option.bind_eq_bind, Option.bind_eq_some_iff] at h
    obtain ⟨-, -, as, has, -⟩ := h
    have hs : readsRaw b (.str s) = false := by simp [readsRaw]
    rw [itemsReadRaw, hs, itemsReadRaw_addresses has, Bool.or_false]
  | .null :: _, _, h | .bool _ :: _, _, h | .num _ :: _, _, h | .arr _ :: _, _, h
  | .obj _ :: _, _, h => by
    rw [List.mapM_cons] at h
    cases h

theorem onlyRaw_all {b : Bindings} : ∀ {xs : List CompiledCondition},
    (∀ x ∈ xs, OnlyRaw (evalCompiledTraced b x).2 (compiledReadsRaw b x)) →
      OnlyRaw (allTraced b xs).2 (allReadsRaw b xs)
  | [], _ => by
    rw [allTraced, allReadsRaw]
    exact .nil
  | x :: xs, h => by
    have hx := h x List.mem_cons_self
    have hxs := onlyRaw_all (fun y hy => h y (List.mem_cons_of_mem _ hy))
    rw [allTraced, allReadsRaw, ← evalCompiledTraced_value]
    cases (evalCompiledTraced b x).1 with
    | true => exact hx.append hxs
    | false => exact (Bool.or_false _).symm ▸ hx

theorem onlyRaw_any {b : Bindings} : ∀ {xs : List CompiledCondition},
    (∀ x ∈ xs, OnlyRaw (evalCompiledTraced b x).2 (compiledReadsRaw b x)) →
      OnlyRaw (anyTraced b xs).2 (anyReadsRaw b xs)
  | [], _ => by
    rw [anyTraced, anyReadsRaw]
    exact .nil
  | x :: xs, h => by
    have hx := h x List.mem_cons_self
    have hxs := onlyRaw_any (fun y hy => h y (List.mem_cons_of_mem _ hy))
    rw [anyTraced, anyReadsRaw, ← evalCompiledTraced_value]
    cases (evalCompiledTraced b x).1 with
    | true => exact (Bool.or_false _).symm ▸ hx
    | false => exact hx.append hxs

theorem onlyRaw_compiled (b : Bindings) {c : CompiledCondition}
    (h : CompiledFrom (fun e => validate e = .ok ()) c) :
    OnlyRaw (evalCompiledTraced b c).2 (compiledReadsRaw b c) := by
  induction h with
  | raw h =>
    rw [evalCompiledTraced, compiledReadsRaw]
    exact onlyRaw_eval b _ h
  | @addressSetIn needle items set addrs h haddrs =>
    obtain ⟨-, hitems⟩ := validate_array h
    have hneedle := onlyRaw_eval b needle (hitems needle (by simp))
    -- the fallback to the linear scan evaluates the needle again and the static list
    have horig : OnlyRaw (evalTraced b (.obj [("in", .arr [needle, .arr items])])).2
        (readsRaw b needle) := by
      have hreads : readsRaw b (.obj [("in", .arr [needle, .arr items])]) = readsRaw b needle := by
        rw [readsRaw, if_neg (by decide), if_neg (by decide), if_neg (by decide), itemsReadRaw,
          itemsReadRaw, itemsReadRaw, readsRaw, itemsReadRaw_addresses haddrs, Bool.or_false,
          Bool.or_false]
      rw [← hreads]
      exact onlyRaw_eval b _ h
    have hboth := hneedle.append horig
    rw [Bool.or_self] at hboth
    rw [evalCompiledTraced, compiledReadsRaw]
    split
    · split
      · exact hneedle
      · exact hboth
    · exact hboth
  | and _ ih =>
    rw [evalCompiledTraced, compiledReadsRaw]
    exact onlyRaw_all ih
  | or _ ih =>
    rw [evalCompiledTraced, compiledReadsRaw]
    exact onlyRaw_any ih
  | not _ ih =>
    rw [evalCompiledTraced, compiledReadsRaw]
    exact ih

mutual

/-- Compiling an accepted expression passes through no fallback arm. -/
theorem compileFallbacks_nil : ∀ e, validate e = .ok () → compileFallbacks e = []
  | .obj [(op, .arr items)], h => by
    obtain ⟨hcheck, hok⟩ := validate_array h
    have hitems := itemsCompileFallbacks_nil items hok
    rw [compileFallbacks]
    rcases checkOperator_ok hcheck with ⟨rfl, -⟩ | ⟨hbin, -⟩ | ⟨rfl, x, rfl⟩ | ⟨hop, -⟩
    · simp [staticMembership_ne]
    · have hand : ¬ (op = "and" ∨ op = "or") := by
        rintro (rfl | rfl) <;> revert hbin <;> decide
      have hnot : op ≠ "!" := by rintro rfl; revert hbin; decide
      have hknown : op = "var" ∨ isBinary op = true := .inr hbin
      rw [if_neg hand, if_neg hnot, if_pos hknown, ite_self]
    · rw [itemsCompileFallbacks] at hitems
      rw [staticMembership_ne (by decide), if_neg (by simp), if_neg (by decide), if_pos rfl,
        firstCompileFallbacks]
      exact (List.append_eq_nil_iff.mp hitems).1
    · rw [if_pos hop, hitems, ite_self]
  | .obj [(op, .null)], h => by
    rcases validate_scalar (by simp) h with ⟨rfl, -⟩ | ⟨rfl, -⟩ <;> simp [compileFallbacks]
  | .obj [(op, .bool v)], h => by
    rcases validate_scalar (by simp) h with ⟨rfl, -⟩ | ⟨rfl, -⟩ <;> simp [compileFallbacks]
  | .obj [(op, .num n)], h => by
    rcases validate_scalar (by simp) h with ⟨rfl, -⟩ | ⟨rfl, -⟩ <;> simp [compileFallbacks]
  | .obj [(op, .str s)], h => by
    rcases validate_scalar (by simp) h with ⟨rfl, -⟩ | ⟨rfl, -⟩ <;> simp [compileFallbacks]
  | .obj [(op, .obj fields)], h => by
    rcases validate_scalar (by simp) h with ⟨-, name, hname⟩ | ⟨rfl, hok⟩
    · cases hname
    · have harg := compileFallbacks_nil (.obj fields) hok
      rw [compileFallbacks, if_neg (by decide), if_pos rfl]
      · exact harg
      · simp
  | .obj [], h => by simp [validate] at h
  | .obj (_ :: _ :: _), h => by simp [validate] at h
  | .arr _, _ => by simp [compileFallbacks]
  | .null, _ => by simp [compileFallbacks]
  | .bool _, _ => by simp [compileFallbacks]
  | .num _, _ => by simp [compileFallbacks]
  | .str _, _ => by simp [compileFallbacks]

theorem itemsCompileFallbacks_nil : ∀ items : List Json,
    (∀ item ∈ items, validate item = .ok ()) → itemsCompileFallbacks items = []
  | [], _ => by rw [itemsCompileFallbacks]
  | item :: items, h => by
    rw [itemsCompileFallbacks, compileFallbacks_nil item (h item List.mem_cons_self),
      itemsCompileFallbacks_nil items (fun y hy => h y (List.mem_cons_of_mem _ hy))]
    rfl

end

/-! ## Plain defaults -/

mutual

/-- No `var` of the expression has a default that contains an operator. -/
def plainDefaults : Json → Bool
  | .obj [(op, .arr items)] =>
    if op = "var" then varPlain items else allPlain items
  | .obj [(_, arg)] => plainDefaults arg
  | .arr items => allPlain items
  | _ => true

def allPlain : List Json → Bool
  | [] => true
  | item :: items => plainDefaults item && allPlain items

def varPlain : List Json → Bool
  | [_, d] => !hasOperator d
  | _ => true

end

theorem allPlain_iff {items : List Json} :
    allPlain items = true ↔ ∀ item ∈ items, plainDefaults item = true := by
  induction items with
  | nil => simp [allPlain]
  | cons item items ih => rw [allPlain, Bool.and_eq_true, ih, List.forall_mem_cons]

theorem plainDefaults_scalar (op : String) {arg : Json} (h : ∀ items, arg ≠ .arr items) :
    plainDefaults (.obj [(op, arg)]) = plainDefaults arg := by
  cases arg with
  | arr items => exact absurd rfl (h items)
  | null | bool | num | str | obj =>
    rw [plainDefaults]
    exact h

theorem varReadsRaw_plain (b : Bindings) {parts : List Json} (h : varPlain parts = true) :
    varReadsRaw b parts = false := by
  unfold varReadsRaw
  split
  · rename_i name d
    rw [varPlain, Bool.not_eq_true'] at h
    rw [h, Bool.and_false]
  · rfl

mutual

theorem readsRaw_plain (b : Bindings) : ∀ e, plainDefaults e = true → readsRaw b e = false
  | .obj [(op, .arr items)], h => by
    rw [plainDefaults] at h
    rw [readsRaw]
    by_cases hop : op = "var"
    · rw [if_pos hop] at h ⊢
      exact varReadsRaw_plain b h
    · rw [if_neg hop] at h ⊢
      obtain ⟨hitems, hand, hor⟩ := itemsReadRaw_plain b items h
      rw [hitems, hand, hor, ite_self, ite_self]
  | .obj [(op, .null)], _ => by simp [readsRaw]
  | .obj [(op, .bool v)], _ => by simp [readsRaw]
  | .obj [(op, .num n)], _ => by simp [readsRaw]
  | .obj [(op, .str s)], _ => by simp [readsRaw]
  | .obj [(op, .obj fields)], h => by
    rw [plainDefaults_scalar op (by simp)] at h
    rw [readsRaw_scalar b op (by simp)]
    exact readsRaw_plain b (.obj fields) h
  | .arr items, h => by
    rw [plainDefaults] at h
    rw [readsRaw]
    exact (itemsReadRaw_plain b items h).1
  | .obj [], _ => by simp [readsRaw]
  | .obj (_ :: _ :: _), _ => by simp [readsRaw]
  | .null, _ => by simp [readsRaw]
  | .bool _, _ => by simp [readsRaw]
  | .num _, _ => by simp [readsRaw]
  | .str _, _ => by simp [readsRaw]

theorem itemsReadRaw_plain (b : Bindings) : ∀ items, allPlain items = true →
    itemsReadRaw b items = false ∧ andReadsRaw b items = false ∧ orReadsRaw b items = false
  | [], _ => by simp [itemsReadRaw, andReadsRaw, orReadsRaw]
  | item :: items, h => by
    rw [allPlain, Bool.and_eq_true] at h
    obtain ⟨hitems, hand, hor⟩ := itemsReadRaw_plain b items h.2
    have hitem := readsRaw_plain b item h.1
    simp [itemsReadRaw, andReadsRaw, orReadsRaw, hitem, hitems, hand, hor]

end

theorem inherited_plain : Inherited (fun e => plainDefaults e = true) where
  items op items hop h := by
    rw [plainDefaults, if_neg (by rintro rfl; revert hop; decide)] at h
    exact allPlain_iff.mp h
  scalar arg harg h := by rwa [plainDefaults_scalar "!" harg] at h

theorem allReadsRaw_false {b : Bindings} : ∀ {xs : List CompiledCondition},
    (∀ x ∈ xs, compiledReadsRaw b x = false) →
      allReadsRaw b xs = false ∧ anyReadsRaw b xs = false
  | [], _ => by simp [allReadsRaw, anyReadsRaw]
  | x :: xs, h => by
    obtain ⟨hall, hany⟩ := allReadsRaw_false (fun y hy => h y (List.mem_cons_of_mem _ hy))
    simp [allReadsRaw, anyReadsRaw, h x List.mem_cons_self, hall, hany]

theorem compiledReadsRaw_plain (b : Bindings) {c : CompiledCondition}
    (h : CompiledFrom (fun e => plainDefaults e = true) c) : compiledReadsRaw b c = false := by
  induction h with
  | raw h =>
    rw [compiledReadsRaw]
    exact readsRaw_plain b _ h
  | addressSetIn h _ =>
    rw [compiledReadsRaw]
    rw [plainDefaults, if_neg (by decide), allPlain_iff] at h
    exact readsRaw_plain b _ (h _ List.mem_cons_self)
  | and _ ih =>
    rw [compiledReadsRaw]
    exact (allReadsRaw_false ih).1
  | or _ ih =>
    rw [compiledReadsRaw]
    exact (allReadsRaw_false ih).2
  | not _ ih =>
    rw [compiledReadsRaw]
    exact ih

/-! ## Accepted conditions -/

/-- No fallback arm is passed through: not by the raw evaluation, not by the compilation and not by
    the evaluation of the compiled form. -/
structure NoFallback (b : Bindings) (e : Json) (i : AddressSetInterner) : Prop where
  evaluating : (evalTraced b e).2 = []
  compiling : compileFallbacks e = []
  evaluatingCompiled : (evalCompiledTraced b (compile e i).1).2 = []

/-- **When an accepted condition hits no fallback**, for every accepted expression, every bindings
    map and every interner: exactly when neither evaluation gets to an unbound `var` whose default
    contains an operator.  No other arm is ever passed through, and plain defaults are enough. -/
theorem validated_no_fallback_iff (e : Json) (b : Bindings) (i : AddressSetInterner)
    (h : validate e = .ok ()) :
    (NoFallback b e i ↔
      readsRaw b e = false ∧ compiledReadsRaw b (compile e i).1 = false) ∧
    (∀ f, f ∈ (evalTraced b e).2 ++ compileFallbacks e ++ (evalCompiledTraced b (compile e i).1).2 →
      f = .rawSyntax) ∧
    (plainDefaults e = true → NoFallback b e i) := by
  have heval := onlyRaw_eval b e h
  have hcompile := compileFallbacks_nil e h
  have hcompiled := onlyRaw_compiled b (compiledFrom_compile inherited_validated e i h)
  have hiff : NoFallback b e i ↔
      readsRaw b e = false ∧ compiledReadsRaw b (compile e i).1 = false := by
    constructor
    · intro hno
      exact ⟨heval.eq_nil_iff.mp hno.evaluating, hcompiled.eq_nil_iff.mp hno.evaluatingCompiled⟩
    · rintro ⟨hr, hc⟩
      exact ⟨heval.eq_nil_iff.mpr hr, hcompile, hcompiled.eq_nil_iff.mpr hc⟩
  refine ⟨hiff, ?_, ?_⟩
  · intro f hf
    rw [hcompile, List.append_nil, List.mem_append] at hf
    rcases hf with hf | hf
    · exact ((heval f).mp hf).1
    · exact ((hcompiled f).mp hf).1
  · intro hplain
    exact hiff.mpr ⟨readsRaw_plain b e hplain,
      compiledReadsRaw_plain b (compiledFrom_compile inherited_plain e i hplain)⟩

/-- A condition with a literal default. -/
def literalDefault : Json :=
  .obj [("==", .arr [.obj [("var", .arr [.str "transfer.from", .str "none"])], .str "none"])]

theorem validated_no_fallback_literal :
    validate literalDefault = .ok () ∧
      NoFallback (fun _ => none) literalDefault AddressSetInterner.new :=
  ⟨by decide, (validated_no_fallback_iff literalDefault (fun _ => none) AddressSetInterner.new
    (by decide)).2.2 (by decide)⟩

/-- A membership test written as the default of a `var`. -/
def membershipDefault : Json :=
  .obj [("var", .arr [.str "x", .obj [("in", .arr [.obj [("var", .str "origin")],
    .arr [.str "0x0101010101010101010101010101010101010101"]])]])]

/-- The accepted condition `membershipDefault` returns its default unevaluated. -/
theorem default_returned_raw :
    ¬ ∀ (e : Json) (b : Bindings) (i : AddressSetInterner), validate e = .ok () →
      NoFallback b e i := by
  intro h
  have hno := (h membershipDefault (fun _ => none) AddressSetInterner.new (by decide)).evaluating
  revert hno
  decide

end XLayerReth.RcsFilter
