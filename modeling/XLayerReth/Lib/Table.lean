import Mathlib.Data.List.Nodup

/-!
# Tables of self-keyed values

`Table α key` is a finite collection of values in which no two values have the same key, so a
key determines at most one value.  The values are listed in one fixed order; lookups do not
depend on it.

* `get?` — lookup by key;
* `insertIfAbsent` — add a value unless its key is taken;
* `erase`, `retain` — remove one key, or every value that fails a test;
* `map` — rewrite every value by a function that keeps the key.

Principal results: one `get?_*` lemma for each operation, and `mem_entries` (a value is listed
exactly when its own key finds it).
-/

set_option autoImplicit false

namespace XLayerReth.Lib

variable {α κ : Type}

/-- A list of values with pairwise distinct keys. -/
structure Table (α : Type) {κ : Type} (key : α → κ) where
  entries : List α
  nodup : (entries.map key).Nodup

namespace Table

variable {key : α → κ}

theorem ext {s t : Table α key} (h : s.entries = t.entries) : s = t := by
  cases s; cases t; cases h; rfl

def empty : Table α key := ⟨[], List.nodup_nil⟩

instance : Inhabited (Table α key) := ⟨empty⟩

section Lookup

variable [DecidableEq κ]

/-- The value stored under a key. -/
def get? (t : Table α key) (k : κ) : Option α := t.entries.find? (fun e => key e = k)

theorem get?_empty (k : κ) : (empty : Table α key).get? k = none := rfl

theorem key_of_get? {t : Table α key} {k : κ} {e : α} (h : t.get? k = some e) : key e = k := by
  simpa using List.find?_some h

theorem mem_of_get? {t : Table α key} {k : κ} {e : α} (h : t.get? k = some e) :
    e ∈ t.entries := List.mem_of_find?_eq_some h

theorem find?_eq_of_mem {e : α} : ∀ {l : List α}, (l.map key).Nodup → e ∈ l →
    l.find? (fun x => key x = key e) = some e
  | [], _, h => by cases h
  | x :: l, hn, h => by
    rw [List.map_cons, List.nodup_cons] at hn
    rcases List.mem_cons.mp h with rfl | h
    · simp
    · have hne : key x ≠ key e := fun he => hn.1 (he ▸ List.mem_map_of_mem h)
      rw [List.find?_cons_of_neg (by simpa using hne)]
      exact find?_eq_of_mem hn.2 h

theorem get?_of_mem {t : Table α key} {e : α} (h : e ∈ t.entries) : t.get? (key e) = some e :=
  find?_eq_of_mem t.nodup h

/-- A value is listed exactly when its own key finds it. -/
theorem mem_entries {t : Table α key} {e : α} : e ∈ t.entries ↔ t.get? (key e) = some e :=
  ⟨get?_of_mem, mem_of_get?⟩

theorem get?_eq_none {t : Table α key} {k : κ} :
    t.get? k = none ↔ ∀ e ∈ t.entries, key e ≠ k := by
  simp [get?, List.find?_eq_none]

/-- Add a value unless its key is taken. -/
def insertIfAbsent (t : Table α key) (e : α) : Table α key :=
  if h : t.get? (key e) = none then
    ⟨t.entries ++ [e], by
      rw [List.map_append, List.nodup_append]
      refine ⟨t.nodup, by simp, ?_⟩
      intro a ha b hb hab
      simp only [List.map_cons, List.map_nil, List.mem_singleton] at hb
      obtain ⟨x, hx, rfl⟩ := List.mem_map.mp ha
      exact get?_eq_none.mp h x hx (hab.trans hb)⟩
  else t

theorem insertIfAbsent_of_mem {t : Table α key} {e : α} (h : t.get? (key e) ≠ none) :
    t.insertIfAbsent e = t := by
  unfold insertIfAbsent
  rw [dif_neg h]

theorem entries_insertIfAbsent {t : Table α key} {e : α} (h : t.get? (key e) = none) :
    (t.insertIfAbsent e).entries = t.entries ++ [e] := by
  unfold insertIfAbsent
  rw [dif_pos h]

theorem get?_insertIfAbsent (t : Table α key) (e : α) (k : κ) :
    (t.insertIfAbsent e).get? k = (t.get? k).or (if key e = k then some e else none) := by
  by_cases h : t.get? (key e) = none
  · unfold get?
    rw [entries_insertIfAbsent h, List.find?_append]
    congr 1
    by_cases hk : key e = k <;> simp [hk]
  · rw [insertIfAbsent_of_mem h]
    by_cases hk : key e = k
    · subst hk
      obtain ⟨x, hx⟩ := Option.ne_none_iff_exists'.mp h
      simp [hx]
    · simp [hk]

/-- Remove the value stored under a key. -/
def erase (t : Table α key) (k : κ) : Table α key :=
  ⟨t.entries.filter (fun e => key e ≠ k),
    t.nodup.sublist (List.Sublist.map key List.filter_sublist)⟩

end Lookup

/-- Keep the values that pass a test. -/
def retain (t : Table α key) (p : α → Bool) : Table α key :=
  ⟨t.entries.filter p, t.nodup.sublist (List.Sublist.map key List.filter_sublist)⟩

/-- Rewrite every value by a function that keeps the key. -/
def map (t : Table α key) (f : α → α) (hf : ∀ e, key (f e) = key e) : Table α key :=
  ⟨t.entries.map f, by
    have : key ∘ f = key := funext hf
    rw [List.map_map, this]
    exact t.nodup⟩

theorem map_congr_id (t : Table α key) (f : α → α) (hf : ∀ e, key (f e) = key e)
    (h : ∀ e ∈ t.entries, f e = e) : t.map f hf = t :=
  ext (List.map_congr_left (g := id) h |>.trans (List.map_id _))

section Lookup

variable [DecidableEq κ]

theorem get?_retain (t : Table α key) (p : α → Bool) (k : κ) :
    (t.retain p).get? k = (t.get? k).filter p := by
  cases h : t.get? k with
  | none =>
    rw [Option.filter_none, get?_eq_none]
    intro e he
    exact get?_eq_none.mp h e (List.mem_of_mem_filter he)
  | some e =>
    have hk := key_of_get? h
    by_cases hp : p e = true
    · rw [Option.filter_some_pos hp, ← hk, ← mem_entries]
      exact List.mem_filter.mpr ⟨mem_of_get? h, hp⟩
    · rw [Option.filter_some_neg (by simpa using hp), get?_eq_none]
      intro x hx hxk
      obtain ⟨hx, hpx⟩ := List.mem_filter.mp hx
      have : t.get? k = some x := hxk ▸ get?_of_mem hx
      rw [h, Option.some.injEq] at this
      exact hp (this ▸ hpx)

theorem erase_eq_retain (t : Table α key) (k : κ) :
    t.erase k = t.retain (fun e => key e ≠ k) := rfl

theorem get?_erase (t : Table α key) (k k' : κ) :
    (t.erase k).get? k' = if k' = k then none else t.get? k' := by
  rw [erase_eq_retain, get?_retain]
  cases h : t.get? k' with
  | none => simp
  | some e =>
    have hk := key_of_get? h
    by_cases hkk : k' = k <;> simp [Option.filter, hk, hkk]

theorem find?_map {f : α → α} (hf : ∀ e, key (f e) = key e) (k : κ) : ∀ l : List α,
    (l.map f).find? (fun e => key e = k) = (l.find? (fun e => key e = k)).map f
  | [] => rfl
  | x :: l => by
    by_cases hx : key x = k
    · simp [hf, hx]
    · simp [hf, hx, find?_map hf k l]

theorem get?_map (t : Table α key) (f : α → α) (hf : ∀ e, key (f e) = key e) (k : κ) :
    (t.map f hf).get? k = (t.get? k).map f := find?_map hf k t.entries

theorem filter_filterMap_eq_nil {β : Type} {f : α → Option β} {kb : β → κ}
    (hf : ∀ x y, f x = some y → kb y = key x) {k : κ} {l : List α} (h : k ∉ l.map key) :
    (l.filterMap f).filter (fun y => kb y = k) = [] := by
  rw [List.filter_eq_nil_iff]
  intro y hy hk
  obtain ⟨x, hx, hxy⟩ := List.mem_filterMap.mp hy
  refine h (List.mem_map.mpr ⟨x, hx, ?_⟩)
  rw [← hf x y hxy]
  simpa using hk

/-- **At most one report for each key**: where every listed value contributes at most one result
    with its own key, the results for a key are those of the value stored under it. -/
theorem filter_filterMap {β : Type} (t : Table α key) {f : α → Option β} {kb : β → κ}
    (hf : ∀ x y, f x = some y → kb y = key x) (k : κ) :
    (t.entries.filterMap f).filter (fun y => kb y = k) = ((t.get? k).bind f).toList := by
  have go : ∀ l : List α, (l.map key).Nodup →
      (l.filterMap f).filter (fun y => kb y = k) =
        ((l.find? (fun e => key e = k)).bind f).toList := by
    intro l
    induction l with
    | nil => intro _; rfl
    | cons x l ih =>
      intro hn
      rw [List.map_cons, List.nodup_cons] at hn
      by_cases hx : key x = k
      · subst hx
        have hrest := filter_filterMap_eq_nil hf hn.1
        cases hfx : f x with
        | none => simp [hfx, hrest]
        | some y => simp [hfx, hrest, hf x y hfx]
      · have hrest := ih hn.2
        cases hfx : f x with
        | none => simp [hfx, hrest, hx]
        | some y => simp [hfx, hrest, hx, hf x y hfx]
  exact go t.entries t.nodup

end Lookup

end Table

end XLayerReth.Lib
