import Mathlib.Data.Finset.Card
import Mathlib.Data.List.Dedup
import Mathlib.Data.List.Induction

/-!
# Filtering a sequence through a cache of recent keys

Items pass a cache of the keys that were used last: an item whose key is in the cache is dropped,
one whose key is not passes, if it is wanted, and its key is put into the cache.

* `stack` — the keys of a history in the order of their last use; `mem_take_stack` reads off it how
  many others were used since.
* `LruCache` — a cache that drops least recently used keys only, and only beyond its capacity;
  `LruCache.exact` — the one that drops every key beyond it.
* `LruCache.unseen` — the items that pass; `firsts` — each key's first wanted item.
* `marked` — the uses of keys that have been wanted; `ReuseBelow` — fewer than so many other keys
  between two successive uses of a key.

`unseen_eq_firsts`: below the capacity, every key passes exactly once.  `nodup_unseen_exact_iff`:
with the exact cache, only then.
-/

set_option autoImplicit false

namespace XLayerReth.Lib

section

variable {α : Type}

/-! ## What is kept -/

/-- What may remain of the keys in the order of last use: the last ones, and no fewer than the
    capacity. -/
structure Kept (capacity : Nat) (all kept : List α) : Prop where
  initial : kept <+: all
  enough : min capacity all.length ≤ kept.length

theorem Kept.refl (capacity : Nat) (l : List α) : Kept capacity l l :=
  ⟨List.prefix_refl l, Nat.min_le_right _ _⟩

theorem Kept.trans {capacity : Nat} {l₁ l₂ l₃ : List α} (h₁ : Kept capacity l₁ l₂)
    (h₂ : Kept capacity l₂ l₃) : Kept capacity l₁ l₃ := by
  refine ⟨h₂.initial.trans h₁.initial, ?_⟩
  have hfirst := h₁.enough
  have hsecond := h₂.enough
  omega

theorem Kept.mem {capacity : Nat} {all kept : List α} (h : Kept capacity all kept) {x : α}
    (hx : x ∈ all.take capacity) : x ∈ kept := by
  obtain ⟨rest, rfl⟩ := h.initial
  have henough := h.enough
  rw [List.length_append] at henough
  rw [List.take_append, List.mem_append] at hx
  rcases hx with hx | hx
  · exact List.mem_of_mem_take hx
  · -- what comes after the kept keys is beyond the capacity
    have hzero : capacity - kept.length = 0 ∨ rest = [] := by
      rcases rest with - | ⟨y, rest⟩
      · exact .inr rfl
      · rw [List.length_cons] at henough
        exact .inl (by omega)
    rcases hzero with hzero | rfl
    · rw [hzero, List.take_zero] at hx
      cases hx
    · rw [List.take_nil] at hx
      cases hx

/-- When no more than the capacity remains, it is known what does. -/
theorem Kept.eq_take {capacity : Nat} {all kept : List α} (h : Kept capacity all kept)
    (hlen : kept.length ≤ capacity) : kept = all.take capacity := by
  obtain ⟨rest, rfl⟩ := h.initial
  have henough := h.enough
  rw [List.length_append] at henough
  rcases Nat.lt_or_eq_of_le hlen with hlt | heq
  · have hnil : rest = [] := List.eq_nil_of_length_eq_zero (by omega)
    rw [hnil, List.append_nil, List.take_of_length_le hlen]
  · rw [← heq, List.take_left]

theorem mem_concat_of_mem {uses : List α} {x y : α} (h : y ∈ uses) :
    x ∈ uses ++ [y] ↔ x ∈ uses := by
  rw [List.mem_append, List.mem_singleton]
  constructor
  · rintro (hx | rfl)
    · exact hx
    · exact h
  · exact .inl

end

section

variable {α : Type} [DecidableEq α]

/-! ## The order of last use -/

/-- A key is used: it becomes the first one. -/
def touch (l : List α) (x : α) : List α := x :: l.erase x

/-- The keys of a history, the last used first. -/
def stack (uses : List α) : List α := uses.foldl touch []

theorem stack_concat (uses : List α) (x : α) : stack (uses ++ [x]) = touch (stack uses) x := by
  rw [stack, List.foldl_append]
  rfl

theorem nodup_stack (uses : List α) : (stack uses).Nodup := by
  induction uses using List.reverseRecOn with
  | nil => exact List.nodup_nil
  | append_singleton uses x ih =>
    rw [stack_concat, touch]
    exact List.nodup_cons.mpr ⟨ih.not_mem_erase, ih.erase x⟩

theorem mem_stack {uses : List α} {x : α} : x ∈ stack uses ↔ x ∈ uses := by
  induction uses using List.reverseRecOn with
  | nil => simp [stack]
  | append_singleton uses y ih =>
    rw [stack_concat, touch, List.mem_cons, (nodup_stack uses).mem_erase_iff, ih, List.mem_append,
      List.mem_singleton]
    tauto

/-- Above a key are those that were used since. -/
theorem stack_split (pre : List α) (x : α) (between : List α) (h : x ∉ between) :
    ∃ newer rest, stack (pre ++ x :: between) = newer ++ x :: rest ∧
      ∀ y, y ∈ newer ↔ y ∈ between := by
  induction between using List.reverseRecOn with
  | nil => exact ⟨[], (stack pre).erase x, stack_concat pre x, fun y => Iff.rfl⟩
  | append_singleton between y ih =>
    rw [List.mem_append, List.mem_singleton, not_or] at h
    obtain ⟨newer, rest, hstack, hnewer⟩ := ih h.1
    have hnodup := nodup_stack (pre ++ x :: between)
    rw [hstack] at hnodup
    have hnext : stack (pre ++ x :: (between ++ [y])) = touch (newer ++ x :: rest) y := by
      rw [← List.cons_append, ← List.append_assoc, stack_concat, hstack]
    by_cases hy : y ∈ newer
    · refine ⟨y :: newer.erase y, rest, ?_, ?_⟩
      · rw [hnext, touch, List.erase_append_left _ hy]
        rfl
      · intro z
        rw [List.mem_cons, (List.Nodup.of_append_left hnodup).mem_erase_iff, hnewer,
          List.mem_append, List.mem_singleton]
        tauto
    · refine ⟨y :: newer, rest.erase y, ?_, ?_⟩
      · rw [hnext, touch, List.erase_append_right _ hy, List.erase_cons_tail (by simpa using h.2)]
        rfl
      · intro z
        rw [List.mem_cons, hnewer, List.mem_append, List.mem_singleton]
        tauto

/-- **Stack distance**: a key is among the first so many exactly when fewer others were used
    since. -/
theorem mem_take_stack {pre between : List α} {x : α} (h : x ∉ between) (n : Nat) :
    x ∈ (stack (pre ++ x :: between)).take n ↔ between.toFinset.card < n := by
  obtain ⟨newer, rest, hstack, hnewer⟩ := stack_split pre x between h
  have hnodup := nodup_stack (pre ++ x :: between)
  rw [hstack] at hnodup ⊢
  have hcard : between.toFinset.card = newer.length := by
    rw [← List.toFinset_card_of_nodup hnodup.of_append_left]
    congr 1
    ext y
    rw [List.mem_toFinset, List.mem_toFinset, hnewer]
  have hx : x ∉ newer := fun hmem => h ((hnewer x).mp hmem)
  rw [hcard]
  constructor
  · intro hmem
    by_contra hle
    rw [List.take_append_of_le_length (Nat.le_of_not_lt hle)] at hmem
    exact hx (List.mem_of_mem_take hmem)
  · intro hlt
    rw [List.take_append, List.mem_append]
    refine .inr ?_
    obtain ⟨k, hk⟩ : ∃ k, n - newer.length = k + 1 := ⟨n - newer.length - 1, by omega⟩
    rw [hk, List.take_succ_cons]
    exact List.mem_cons_self

/-- Fewer than so many other keys are used between two successive uses of a key. -/
def ReuseBelow (capacity : Nat) (uses : List α) : Prop :=
  ∀ pre x between post, uses = pre ++ x :: between ++ x :: post → x ∉ between →
    between.toFinset.card < capacity

/-- A key that has been used, split at its last use. -/
theorem exists_last_use {uses : List α} {x : α} (h : x ∈ uses) :
    ∃ pre between, uses = pre ++ x :: between ∧ x ∉ between := by
  induction uses using List.reverseRecOn with
  | nil => cases h
  | append_singleton uses y ih =>
    by_cases hxy : x = y
    · exact ⟨uses, [], by rw [hxy], List.not_mem_nil⟩
    · have hmem : x ∈ uses := by
        rcases List.mem_append.mp h with hmem | hmem
        · exact hmem
        · exact absurd (List.mem_singleton.mp hmem) hxy
      obtain ⟨pre, between, rfl, hbetween⟩ := ih hmem
      refine ⟨pre, between ++ [y], by simp, ?_⟩
      rw [List.mem_append, List.mem_singleton, not_or]
      exact ⟨hbetween, hxy⟩

theorem ReuseBelow.of_append {capacity : Nat} {uses more : List α}
    (h : ReuseBelow capacity (uses ++ more)) : ReuseBelow capacity uses := by
  intro pre x between post huses hx
  exact h pre x between (post ++ more) (by rw [huses]; simp) hx

/-- **One more use**: the key is new, or it is among the first in the order of last use. -/
theorem reuseBelow_concat {capacity : Nat} {uses : List α} {x : α} :
    ReuseBelow capacity (uses ++ [x]) ↔
      ReuseBelow capacity uses ∧ (x ∈ uses → x ∈ (stack uses).take capacity) := by
  constructor
  · intro h
    refine ⟨h.of_append, fun hx => ?_⟩
    obtain ⟨pre, between, rfl, hbetween⟩ := exists_last_use hx
    exact (mem_take_stack hbetween capacity).mpr (h pre x between [] (by simp) hbetween)
  · rintro ⟨h, hrecent⟩ pre y between post huses hy
    rcases List.eq_nil_or_concat post with rfl | ⟨post, z, rfl⟩
    · obtain ⟨rfl, hxy⟩ := List.append_inj' (huses.trans (by simp) :
        uses ++ [x] = (pre ++ y :: between) ++ [y]) rfl
      cases hxy
      exact (mem_take_stack hy capacity).mp (hrecent (by simp))
    · obtain ⟨rfl, -⟩ := List.append_inj' (huses.trans (by simp) :
        uses ++ [x] = (pre ++ y :: between ++ y :: post) ++ [z]) rfl
      exact h pre y between post rfl hy

/-! ## Caches -/

/-- Using a key keeps what was kept. -/
theorem Kept.touch {capacity : Nat} {all kept : List α} (h : Kept capacity all kept) (x : α) :
    Kept capacity (touch all x) (touch kept x) := by
  obtain ⟨rest, rfl⟩ := h.initial
  have henough := h.enough
  rw [List.length_append] at henough
  by_cases hx : x ∈ kept
  · have hpos := List.length_pos_of_mem hx
    refine ⟨⟨rest, ?_⟩, ?_⟩
    · rw [Lib.touch, Lib.touch, List.erase_append_left _ hx]
      rfl
    · rw [Lib.touch, Lib.touch, List.length_cons, List.length_cons, List.erase_append_left _ hx,
        List.length_append, List.length_erase_of_mem hx]
      omega
  · refine ⟨⟨rest.erase x, ?_⟩, ?_⟩
    · rw [Lib.touch, Lib.touch, List.erase_append_right _ hx, List.erase_of_not_mem hx]
      rfl
    · have hlen := rest.length_erase_le (a := x)
      rw [Lib.touch, Lib.touch, List.length_cons, List.length_cons, List.erase_append_right _ hx,
        List.erase_of_not_mem hx, List.length_append]
      omega

variable (α)

/-- A cache of keys.  Looking up a key that is in it is a use of the key, and so is putting it in;
    a key is dropped only when so many others were used after it as the cache can hold. -/
structure LruCache (capacity : Nat) where
  State : Type
  empty : State
  get : State → α → Bool × State
  insert : State → α → State
  /-- The keys, the last used first. -/
  keys : State → List α
  keys_empty : keys empty = []
  get_fst : ∀ c x, (get c x).1 = decide (x ∈ keys c)
  keys_get : ∀ c x, Kept capacity (if x ∈ keys c then touch (keys c) x else keys c)
    (keys (get c x).2)
  keys_insert : ∀ c x, Kept capacity (touch (keys c) x) (keys (insert c x))

variable {α}

/-- The cache holds at most its capacity. -/
def LruCache.Bounded {capacity : Nat} (L : LruCache α capacity) : Prop :=
  ∀ c, (L.keys c).length ≤ capacity

theorem length_touch_le {l : List α} {n : Nat} (x : α) (hx : x ∈ l) (h : l.length ≤ n) :
    (touch l x).length ≤ n := by
  have hpos := List.length_pos_of_mem hx
  rw [touch, List.length_cons, List.length_erase_of_mem hx]
  omega

variable (α)

/-- The cache that drops every key beyond its capacity at once. -/
def LruCache.exact (capacity : Nat) : LruCache α capacity where
  State := { l : List α // l.length ≤ capacity }
  empty := ⟨[], Nat.zero_le _⟩
  get c x :=
    if hx : x ∈ c.val then (true, ⟨touch c.val x, length_touch_le x hx c.property⟩) else (false, c)
  insert c x := ⟨(touch c.val x).take capacity, by rw [List.length_take]; exact Nat.min_le_left _ _⟩
  keys c := c.val
  keys_empty := rfl
  get_fst c x := by
    by_cases hx : x ∈ c.val
    · rw [dif_pos hx, decide_eq_true hx]
    · rw [dif_neg hx, decide_eq_false hx]
  keys_get c x := by
    by_cases hx : x ∈ c.val
    · rw [if_pos hx, dif_pos hx]
      exact Kept.refl _ _
    · rw [if_neg hx, dif_neg hx]
      exact Kept.refl _ _
  keys_insert c x := ⟨List.take_prefix _ _, by rw [List.length_take]⟩

variable {α}

theorem LruCache.exact_bounded (capacity : Nat) : (LruCache.exact α capacity).Bounded :=
  fun c => c.property

end

/-! ## Filtering -/

section

variable {ι α : Type} [DecidableEq α] (key : ι → α) (wanted : ι → Bool)

namespace LruCache

variable {capacity : Nat} (L : LruCache α capacity)

/-- One item: whether it passes, and the cache after it. -/
def see (c : L.State) (i : ι) : Bool × L.State :=
  match L.get c (key i) with
  | (true, c') => (false, c')
  | (false, c') => if wanted i then (true, L.insert c' (key i)) else (false, c')

/-- The items that pass, in order, and the cache after them. -/
def unseen : L.State → List ι → List ι × L.State
  | c, [] => ([], c)
  | c, i :: items =>
    let next := unseen (L.see key wanted c i).2 items
    if (L.see key wanted c i).1 then (i :: next.1, next.2) else next

end LruCache

/-- The first wanted item of each key that is not among those seen. -/
def firsts : List α → List ι → List ι
  | _, [] => []
  | seen, i :: items =>
    if wanted i ∧ key i ∉ seen then i :: firsts (key i :: seen) items else firsts seen items

/-- The uses of keys that are wanted, or have been used before. -/
def marked : List α → List ι → List α
  | _, [] => []
  | uses, i :: items =>
    if wanted i ∨ key i ∈ uses then key i :: marked (uses ++ [key i]) items
    else marked uses items

section

variable {key wanted} {capacity : Nat} {L : LruCache α capacity} {c : L.State} {i : ι}

/-- The key of an item that is wanted, or of a key that has been used, is used. -/
theorem append_marked_cons {uses : List α} {items : List ι} (h : wanted i = true ∨ key i ∈ uses) :
    uses ++ marked key wanted uses (i :: items) =
      uses ++ [key i] ++ marked key wanted (uses ++ [key i]) items := by
  rw [marked, if_pos h, List.append_cons]

theorem marked_cons_of_not {uses : List α} {items : List ι} (hw : ¬ wanted i = true)
    (h : key i ∉ uses) : marked key wanted uses (i :: items) = marked key wanted uses items := by
  rw [marked, if_neg (not_or_intro hw h)]

/-- When all items are wanted, each is a use. -/
theorem marked_of_forall_wanted : ∀ (items : List ι) (uses : List α),
    (∀ i ∈ items, wanted i = true) → marked key wanted uses items = items.map key
  | [], _, _ => rfl
  | i :: items, uses, h => by
    rw [marked, if_pos (.inl (h i List.mem_cons_self)), List.map_cons,
      marked_of_forall_wanted items _ (fun j hj => h j (List.mem_cons_of_mem _ hj))]

namespace LruCache

variable (wanted) in
/-- An item whose key is in the cache: the key is used. -/
theorem see_hit (h : key i ∈ L.keys c) : (L.see key wanted c i).1 = false ∧
    Kept capacity (touch (L.keys c) (key i)) (L.keys (L.see key wanted c i).2) := by
  have hfst := L.get_fst c (key i)
  have hkeys := L.keys_get c (key i)
  rw [if_pos h] at hkeys
  unfold see
  generalize L.get c (key i) = r at hfst hkeys
  obtain ⟨hit, c'⟩ := r
  rw [decide_eq_true h] at hfst
  cases hfst
  exact ⟨rfl, hkeys⟩

variable (wanted) in
/-- An item whose key is not in the cache: a wanted one passes and its key is used. -/
theorem see_miss (h : key i ∉ L.keys c) : (L.see key wanted c i).1 = wanted i ∧
    Kept capacity (if wanted i then touch (L.keys c) (key i) else L.keys c)
      (L.keys (L.see key wanted c i).2) := by
  have hfst := L.get_fst c (key i)
  have hkeys := L.keys_get c (key i)
  rw [if_neg h] at hkeys
  unfold see
  generalize L.get c (key i) = r at hfst hkeys
  obtain ⟨hit, c'⟩ := r
  rw [decide_eq_false h] at hfst
  cases hfst
  dsimp only
  by_cases hw : wanted i = true
  · rw [if_pos hw, if_pos hw]
    exact ⟨hw.symm, (hkeys.touch (key i)).trans (L.keys_insert c' (key i))⟩
  · rw [if_neg hw, if_neg hw]
    exact ⟨(Bool.eq_false_iff.mpr hw).symm, hkeys⟩

theorem unseen_cons (c : L.State) (i : ι) (items : List ι) :
    (L.unseen key wanted c (i :: items)).1 =
      if (L.see key wanted c i).1 then i :: (L.unseen key wanted (L.see key wanted c i).2 items).1
      else (L.unseen key wanted (L.see key wanted c i).2 items).1 := by
  rw [unseen]
  split
  · rfl
  · rfl

theorem unseen_append (l r : List ι) (c : L.State) :
    L.unseen key wanted c (l ++ r) =
      ((L.unseen key wanted c l).1 ++ (L.unseen key wanted (L.unseen key wanted c l).2 r).1,
        (L.unseen key wanted (L.unseen key wanted c l).2 r).2) := by
  induction l generalizing c with
  | nil => rfl
  | cons i l ih =>
    rw [List.cons_append, unseen, unseen, ih]
    split
    · rfl
    · rfl

/-- Only wanted items pass, in their order. -/
theorem unseen_sublist (items : List ι) (c : L.State) :
    (L.unseen key wanted c items).1.Sublist (items.filter wanted) := by
  induction items generalizing c with
  | nil => exact List.Sublist.refl _
  | cons i items ih =>
    have hrest := ih (L.see key wanted c i).2
    rw [unseen_cons]
    by_cases hw : wanted i = true
    · rw [List.filter_cons_of_pos hw]
      split
      · exact hrest.cons_cons i
      · exact hrest.cons i
    · have hpass : (L.see key wanted c i).1 = false := by
        by_cases h : key i ∈ L.keys c
        · exact (see_hit wanted h).1
        · exact (see_miss wanted h).1.trans (Bool.eq_false_iff.mpr hw)
      rw [List.filter_cons_of_neg hw, hpass, if_neg Bool.false_ne_true]
      exact hrest

/-- **At least once**: what the cache holds has passed, so a wanted item passes or its key has. -/
theorem exists_unseen (items : List ι) (c : L.State) (passed : List α)
    (hkeys : ∀ x ∈ L.keys c, x ∈ passed) {i : ι} (hi : i ∈ items) (hw : wanted i = true) :
    key i ∈ passed ∨ ∃ j ∈ (L.unseen key wanted c items).1, key j = key i := by
  induction items generalizing c passed with
  | nil => cases hi
  | cons j items ih =>
    rw [unseen_cons]
    by_cases h : key j ∈ L.keys c
    · obtain ⟨hpass, hkept⟩ := see_hit wanted h
      have hpassed : ∀ x ∈ L.keys (L.see key wanted c j).2, x ∈ passed := by
        intro x hx
        rcases List.mem_cons.mp (hkept.initial.subset hx) with rfl | hx
        · exact hkeys _ h
        · exact hkeys x (List.mem_of_mem_erase hx)
      rw [hpass, if_neg Bool.false_ne_true]
      rcases List.mem_cons.mp hi with rfl | hi
      · exact .inl (hkeys _ h)
      · exact ih _ passed hpassed hi
    · obtain ⟨hpass, hkept⟩ := see_miss wanted h
      by_cases hwj : wanted j = true
      · have hpassed : ∀ x ∈ L.keys (L.see key wanted c j).2, x ∈ key j :: passed := by
          intro x hx
          rw [if_pos hwj] at hkept
          rcases List.mem_cons.mp (hkept.initial.subset hx) with rfl | hx
          · exact List.mem_cons_self
          · exact List.mem_cons_of_mem _ (hkeys x (List.mem_of_mem_erase hx))
        rw [hpass, if_pos hwj]
        rcases List.mem_cons.mp hi with rfl | hi
        · exact .inr ⟨i, List.mem_cons_self, rfl⟩
        · rcases ih _ (key j :: passed) hpassed hi with hmem | ⟨k, hk, heq⟩
          · rcases List.mem_cons.mp hmem with heq | hmem
            · exact .inr ⟨j, List.mem_cons_self, heq.symm⟩
            · exact .inl hmem
          · exact .inr ⟨k, List.mem_cons_of_mem _ hk, heq⟩
      · have hpassed : ∀ x ∈ L.keys (L.see key wanted c j).2, x ∈ passed := by
          intro x hx
          rw [if_neg hwj] at hkept
          exact hkeys x (hkept.initial.subset hx)
        rw [hpass, if_neg hwj]
        rcases List.mem_cons.mp hi with rfl | hi
        · exact absurd hw hwj
        · exact ih _ passed hpassed hi

/-- **Exactly once**: below the capacity, the first wanted item of each key passes. -/
theorem unseen_eq_firsts (items : List ι) (c : L.State) (uses seen : List α)
    (hkept : Kept capacity (stack uses) (L.keys c)) (hseen : ∀ x, x ∈ seen ↔ x ∈ uses)
    (hreuse : ReuseBelow capacity (uses ++ marked key wanted uses items)) :
    (L.unseen key wanted c items).1 = firsts key wanted seen items := by
  induction items generalizing c uses seen with
  | nil => rfl
  | cons i items ih =>
    rw [unseen_cons, firsts]
    by_cases hused : key i ∈ uses
    · rw [append_marked_cons (.inr hused)] at hreuse
      -- few other keys were used since, so the key is still there
      have hrecent := (reuseBelow_concat.mp hreuse.of_append).2 hused
      obtain ⟨hpass, hkept'⟩ := see_hit wanted (hkept.mem hrecent)
      rw [hpass, if_neg Bool.false_ne_true, if_neg (fun h => h.2 ((hseen _).mpr hused))]
      refine ih _ (uses ++ [key i]) seen ?_ ?_ hreuse
      · rw [stack_concat]
        exact (hkept.touch _).trans hkept'
      · intro x
        rw [hseen, mem_concat_of_mem hused]
    · have hmiss : key i ∉ L.keys c :=
        fun h => hused (mem_stack.mp (hkept.initial.subset h))
      obtain ⟨hpass, hkept'⟩ := see_miss wanted hmiss
      by_cases hw : wanted i = true
      · rw [append_marked_cons (.inl hw)] at hreuse
        rw [if_pos hw] at hkept'
        rw [hpass, if_pos hw, if_pos ⟨hw, fun h => hused ((hseen _).mp h)⟩]
        congr 1
        refine ih _ (uses ++ [key i]) (key i :: seen) ?_ ?_ hreuse
        · rw [stack_concat]
          exact (hkept.touch _).trans hkept'
        · intro x
          rw [List.mem_cons, hseen, List.mem_append, List.mem_singleton, or_comm]
      · rw [marked_cons_of_not hw hused] at hreuse
        rw [if_neg hw] at hkept'
        rw [hpass, if_neg hw, if_neg (fun h => hw h.1)]
        exact ih _ uses seen (hkept.trans hkept') hseen hreuse

/-- **Only then**: with a cache that holds at most its capacity, when a key that has been wanted
    stays wanted, no key passes twice exactly if the uses are below the capacity. -/
theorem nodup_unseen_iff (hbound : L.Bounded) (items : List ι) (c : L.State) (uses passed : List α)
    (hkept : Kept capacity (stack uses) (L.keys c)) (hpassed : ∀ x, x ∈ passed ↔ x ∈ uses)
    (hnodup : passed.Nodup) (hbelow : ReuseBelow capacity uses)
    (hstays : items.Pairwise (fun i j => wanted i = true → key i = key j → wanted j = true))
    (hused : ∀ i ∈ items, key i ∈ uses → wanted i = true) :
    (passed ++ (L.unseen key wanted c items).1.map key).Nodup ↔
      ReuseBelow capacity (uses ++ marked key wanted uses items) := by
  induction items generalizing c uses passed with
  | nil => simp [unseen, marked, hnodup, hbelow]
  | cons i items ih =>
    obtain ⟨hlater, hstays⟩ := List.pairwise_cons.mp hstays
    have hkeys := hkept.eq_take (hbound c)
    rw [unseen_cons]
    by_cases hw : wanted i = true
    · have hused' : ∀ j ∈ items, key j ∈ uses ++ [key i] → wanted j = true := by
        intro j hj hmem
        rcases List.mem_append.mp hmem with hmem | hmem
        · exact hused j (List.mem_cons_of_mem _ hj) hmem
        · exact hlater j hj hw (List.mem_singleton.mp hmem).symm
      rw [append_marked_cons (.inl hw)]
      by_cases h : key i ∈ L.keys c
      · obtain ⟨hpass, hkept'⟩ := see_hit wanted h
        have hmem : key i ∈ uses := mem_stack.mp (hkept.initial.subset h)
        rw [hpass, if_neg Bool.false_ne_true]
        refine ih _ _ passed ?_ ?_ hnodup ?_ hstays hused'
        · rw [stack_concat]
          exact (hkept.touch _).trans hkept'
        · intro x
          rw [hpassed, mem_concat_of_mem hmem]
        · exact reuseBelow_concat.mpr ⟨hbelow, fun _ => hkeys ▸ h⟩
      · obtain ⟨hpass, hkept'⟩ := see_miss wanted h
        rw [if_pos hw] at hkept'
        rw [hpass, if_pos hw, List.map_cons, List.append_cons]
        by_cases hmem : key i ∈ uses
        · -- the key passes again, and too many others were used since
          constructor
          · intro hdup
            have htwice := List.Nodup.of_append_left hdup
            exact absurd ((hpassed _).mpr hmem) (List.disjoint_of_nodup_append htwice · (by simp))
          · intro hreuse
            have hrecent := (reuseBelow_concat.mp hreuse.of_append).2 hmem
            exact absurd (hkeys ▸ hrecent) h
        · refine ih _ _ (passed ++ [key i]) ?_ ?_ ?_ ?_ hstays hused'
          · rw [stack_concat]
            exact (hkept.touch _).trans hkept'
          · intro x
            rw [List.mem_append, List.mem_append, hpassed]
          · refine List.nodup_append.mpr ⟨hnodup, List.nodup_singleton _, ?_⟩
            rintro x hx y hy rfl
            rw [List.mem_singleton.mp hy] at hx
            exact hmem ((hpassed _).mp hx)
          · exact reuseBelow_concat.mpr ⟨hbelow, fun hx => absurd hx hmem⟩
    · have hmem : key i ∉ uses := fun hmem => hw (hused i List.mem_cons_self hmem)
      have hmiss : key i ∉ L.keys c := fun h => hmem (mem_stack.mp (hkept.initial.subset h))
      obtain ⟨hpass, hkept'⟩ := see_miss wanted hmiss
      rw [if_neg hw] at hkept'
      rw [hpass, if_neg hw, marked_cons_of_not hw hmem]
      exact ih _ uses passed (hkept.trans hkept') hpassed hnodup hbelow hstays
        (fun j hj => hused j (List.mem_cons_of_mem _ hj))

end LruCache

/-! ## First items -/

/-- A first item has no wanted item with its key before it. -/
theorem exists_split_firsts (items : List ι) (seen : List α) {i : ι}
    (h : i ∈ firsts key wanted seen items) :
    ∃ pre post, items = pre ++ i :: post ∧ wanted i = true ∧ key i ∉ seen ∧
      ∀ k ∈ pre, wanted k = true → key k ≠ key i := by
  induction items generalizing seen with
  | nil => cases h
  | cons j items ih =>
    rw [firsts] at h
    by_cases hj : wanted j = true ∧ key j ∉ seen
    · rw [if_pos hj] at h
      rcases List.mem_cons.mp h with rfl | h
      · exact ⟨[], items, rfl, hj.1, hj.2, fun k hk => absurd hk List.not_mem_nil⟩
      · obtain ⟨pre, post, rfl, hw, hseen, hfirst⟩ := ih (key j :: seen) h
        rw [List.mem_cons, not_or] at hseen
        refine ⟨j :: pre, post, rfl, hw, hseen.2, ?_⟩
        intro k hk hwk
        rcases List.mem_cons.mp hk with rfl | hk
        · exact fun heq => hseen.1 heq.symm
        · exact hfirst k hk hwk
    · rw [if_neg hj] at h
      obtain ⟨pre, post, rfl, hw, hseen, hfirst⟩ := ih seen h
      refine ⟨j :: pre, post, rfl, hw, hseen, ?_⟩
      intro k hk hwk
      rcases List.mem_cons.mp hk with rfl | hk
      · exact fun heq => hj ⟨hwk, heq ▸ hseen⟩
      · exact hfirst k hk hwk

theorem nodup_firsts (items : List ι) (seen : List α) :
    ((firsts key wanted seen items).map key).Nodup := by
  induction items generalizing seen with
  | nil => exact List.nodup_nil
  | cons i items ih =>
    rw [firsts]
    split
    · rw [List.map_cons]
      refine List.nodup_cons.mpr ⟨?_, ih _⟩
      intro hmem
      obtain ⟨j, hj, heq⟩ := List.mem_map.mp hmem
      obtain ⟨-, -, -, -, hseen, -⟩ := exists_split_firsts items (key i :: seen) hj
      exact hseen (heq ▸ List.mem_cons_self)
    · exact ih seen

/-- **Order of the first items**: a relation that holds of two wanted items, when no wanted item
    before the second has its key, holds of any two first items. -/
theorem pairwise_firsts {R : ι → ι → Prop} (all : List ι)
    (hR : ∀ pre i mid j post, all = pre ++ i :: mid ++ j :: post → wanted i = true →
      wanted j = true → (∀ k ∈ pre ++ i :: mid, wanted k = true → key k ≠ key j) → R i j) :
    ∀ (items pre : List ι), all = pre ++ items → ∀ (seen : List α),
      (∀ k ∈ pre, wanted k = true → key k ∈ seen) → (firsts key wanted seen items).Pairwise R
  | [], _, _, _, _ => List.Pairwise.nil
  | i :: items, pre, hall, seen, hseen => by
    have hall' : all = pre ++ [i] ++ items := by rw [hall]; simp
    rw [firsts]
    by_cases hi : wanted i = true ∧ key i ∉ seen
    · have hseen' : ∀ k ∈ pre ++ [i], wanted k = true → key k ∈ key i :: seen := by
        intro k hk hw
        rcases List.mem_append.mp hk with hk | hk
        · exact List.mem_cons_of_mem _ (hseen k hk hw)
        · rw [List.mem_singleton.mp hk]
          exact List.mem_cons_self
      rw [if_pos hi]
      refine List.pairwise_cons.mpr
        ⟨?_, pairwise_firsts all hR items (pre ++ [i]) hall' (key i :: seen) hseen'⟩
      intro j hj
      obtain ⟨mid, post, hsplit, hw, hfirst⟩ := exists_split_firsts items (key i :: seen) hj
      refine hR pre i mid j post (by rw [hall, hsplit]; simp) hi.1 hw ?_
      intro k hk hwk
      rcases List.mem_append.mp hk with hk | hk
      · exact fun heq => hfirst.1 (heq ▸ List.mem_cons_of_mem _ (hseen k hk hwk))
      · rcases List.mem_cons.mp hk with rfl | hk
        · exact fun heq => hfirst.1 (heq ▸ List.mem_cons_self)
        · exact hfirst.2 k hk hwk
    · rw [if_neg hi]
      refine pairwise_firsts all hR items (pre ++ [i]) hall' seen ?_
      intro k hk hw
      rcases List.mem_append.mp hk with hk | hk
      · exact hseen k hk hw
      · rw [List.mem_singleton.mp hk] at hw ⊢
        by_contra hmem
        exact hi ⟨hw, hmem⟩

end

end

end XLayerReth.Lib
