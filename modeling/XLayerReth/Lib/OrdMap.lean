import Mathlib.Order.Lattice
import Mathlib.Data.List.Forall2
import Mathlib.Data.List.Induction
import Mathlib.Data.List.Nodup

/-!
# Finite maps in ascending key order

`OrdMap κ α` lists its pairs in strictly ascending key order, so iteration is ascending and two
maps with the same lookups are equal lists.

* `alter` — the one primitive: set the value of a key from the value it had, if any;
* `insert` — set a key, overwriting;
* `orInsert` — set a key only if it is absent.

Principal results: `get?_alter`, `eq_of_get?` (a map is determined by its lookups), and
`values_keys` (the values in key order are the values the ascending key list finds).
-/

set_option autoImplicit false

namespace XLayerReth.Lib

variable {κ α : Type} [LinearOrder κ]

/-- Association list with strictly ascending keys. -/
structure OrdMap (κ α : Type) [LinearOrder κ] where
  entries : List (κ × α)
  sorted : (entries.map Prod.fst).Pairwise (· < ·)

namespace OrdMap

def empty : OrdMap κ α := ⟨[], List.Pairwise.nil⟩

instance : Inhabited (OrdMap κ α) := ⟨empty⟩

theorem ext {m n : OrdMap κ α} (h : m.entries = n.entries) : m = n := by
  cases m; cases n; cases h; rfl

instance [DecidableEq α] : DecidableEq (OrdMap κ α) := fun m n =>
  decidable_of_iff (m.entries = n.entries) ⟨ext, fun h => h ▸ rfl⟩

def lookup (k : κ) : List (κ × α) → Option α
  | [] => none
  | (k', v) :: rest => if k' = k then some v else lookup k rest

/-- The value of a key. -/
def get? (m : OrdMap κ α) (k : κ) : Option α := lookup k m.entries

def keys (m : OrdMap κ α) : List κ := m.entries.map Prod.fst

def values (m : OrdMap κ α) : List α := m.entries.map Prod.snd

def isEmpty (m : OrdMap κ α) : Bool := m.entries.isEmpty

def size (m : OrdMap κ α) : Nat := m.entries.length

def alterList (k : κ) (f : Option α → α) : List (κ × α) → List (κ × α)
  | [] => [(k, f none)]
  | (k', v) :: rest =>
    if k < k' then (k, f none) :: (k', v) :: rest
    else if k = k' then (k', f (some v)) :: rest
    else (k', v) :: alterList k f rest

theorem mem_keys_alterList (k : κ) (f : Option α → α) : ∀ (l : List (κ × α)) (x : κ),
    x ∈ (alterList k f l).map Prod.fst ↔ x = k ∨ x ∈ l.map Prod.fst
  | [], x => by simp [alterList]
  | (k', v) :: rest, x => by
    unfold alterList
    split
    · simp
    · split
      · rename_i hk
        subst hk
        simp
      · simp only [List.map_cons, List.mem_cons, mem_keys_alterList k f rest x]
        exact or_left_comm

theorem sorted_alterList (k : κ) (f : Option α → α) : ∀ (l : List (κ × α)),
    (l.map Prod.fst).Pairwise (· < ·) → ((alterList k f l).map Prod.fst).Pairwise (· < ·)
  | [], _ => by simp [alterList]
  | (k', v) :: rest, h => by
    rw [List.map_cons, List.pairwise_cons] at h
    unfold alterList
    split
    · rename_i hlt
      rw [List.map_cons, List.map_cons, List.pairwise_cons, List.pairwise_cons]
      refine ⟨?_, h⟩
      intro x hx
      rcases List.mem_cons.mp hx with rfl | hx
      · exact hlt
      · exact lt_trans hlt (h.1 x hx)
    · rename_i hnlt
      split
      · rw [List.map_cons, List.pairwise_cons]
        exact h
      · rename_i hne
        rw [List.map_cons, List.pairwise_cons]
        refine ⟨?_, sorted_alterList k f rest h.2⟩
        intro x hx
        rcases (mem_keys_alterList k f rest x).mp hx with rfl | hx
        · exact lt_of_le_of_ne (not_lt.mp hnlt) (Ne.symm hne)
        · exact h.1 x hx

/-- Set the value of a key from the value it had. -/
def alter (m : OrdMap κ α) (k : κ) (f : Option α → α) : OrdMap κ α :=
  ⟨alterList k f m.entries, sorted_alterList k f m.entries m.sorted⟩

/-- Set a key, overwriting. -/
def insert (m : OrdMap κ α) (k : κ) (v : α) : OrdMap κ α := m.alter k (fun _ => v)

/-- Set a key only if it is absent. -/
def orInsert (m : OrdMap κ α) (k : κ) (v : α) : OrdMap κ α := m.alter k (fun old => old.getD v)

theorem lookup_eq_none {k : κ} : ∀ {l : List (κ × α)}, lookup k l = none ↔ k ∉ l.map Prod.fst
  | [] => by simp [lookup]
  | (k', v) :: rest => by
    unfold lookup
    split
    · rename_i h; simp [h]
    · rename_i h
      rw [lookup_eq_none, List.map_cons, List.mem_cons, not_or]
      exact ⟨fun hr => ⟨Ne.symm h, hr⟩, fun hr => hr.2⟩

theorem lookup_alterList (k : κ) (f : Option α → α) (x : κ) : ∀ (l : List (κ × α)),
    (l.map Prod.fst).Pairwise (· < ·) →
    lookup x (alterList k f l) = if x = k then some (f (lookup k l)) else lookup x l
  | [], _ => by
    by_cases h : x = k
    · subst h; simp [alterList, lookup]
    · simp [alterList, lookup, h, Ne.symm h]
  | (k', v) :: rest, hs => by
    rw [List.map_cons, List.pairwise_cons] at hs
    unfold alterList
    split
    · rename_i hlt
      have hnone : lookup k ((k', v) :: rest) = none := by
        rw [lookup_eq_none, List.map_cons, List.mem_cons, not_or]
        exact ⟨ne_of_lt hlt, fun hm => lt_irrefl k (lt_trans hlt (hs.1 k hm))⟩
      rw [hnone]
      by_cases h : x = k
      · subst h; simp [lookup]
      · simp [lookup, h, Ne.symm h]
    · split
      · rename_i hk
        subst hk
        by_cases h : x = k
        · subst h; simp [lookup]
        · simp [lookup, h, Ne.symm h]
      · rename_i hne
        by_cases h : x = k
        · subst h
          simp [lookup, Ne.symm hne, lookup_alterList x f x rest hs.2]
        · simp [lookup, h, lookup_alterList k f x rest hs.2]

/-- **Lookup after `alter`.** -/
theorem get?_alter (m : OrdMap κ α) (k : κ) (f : Option α → α) (x : κ) :
    (m.alter k f).get? x = if x = k then some (f (m.get? k)) else m.get? x :=
  lookup_alterList k f x m.entries m.sorted

theorem get?_empty (k : κ) : (empty : OrdMap κ α).get? k = none := rfl

theorem get?_insert (m : OrdMap κ α) (k : κ) (v : α) (x : κ) :
    (m.insert k v).get? x = if x = k then some v else m.get? x := get?_alter m k _ x

theorem get?_orInsert (m : OrdMap κ α) (k : κ) (v : α) (x : κ) :
    (m.orInsert k v).get? x = if x = k then some ((m.get? k).getD v) else m.get? x :=
  get?_alter m k _ x

theorem mem_keys {m : OrdMap κ α} {k : κ} : k ∈ m.keys ↔ ∃ v, m.get? k = some v := by
  rw [← Option.ne_none_iff_exists', Ne, get?, lookup_eq_none, not_not]
  rfl

theorem lookup_of_mem {k : κ} {v : α} : ∀ {l : List (κ × α)},
    (l.map Prod.fst).Pairwise (· < ·) → (k, v) ∈ l → lookup k l = some v
  | [], _, h => by cases h
  | (k', v') :: rest, hs, h => by
    rw [List.map_cons, List.pairwise_cons] at hs
    unfold lookup
    rcases List.mem_cons.mp h with h | h
    · cases h; simp
    · have : k' < k := hs.1 k (List.mem_map_of_mem h)
      rw [if_neg (ne_of_lt this)]
      exact lookup_of_mem hs.2 h

theorem mem_of_lookup {k : κ} {v : α} : ∀ {l : List (κ × α)},
    lookup k l = some v → (k, v) ∈ l
  | [], h => by cases h
  | (k', v') :: rest, h => by
    unfold lookup at h
    split at h
    · rename_i hk
      cases h
      simp [hk]
    · exact List.mem_cons_of_mem _ (mem_of_lookup h)

theorem mem_entries {m : OrdMap κ α} {k : κ} {v : α} :
    (k, v) ∈ m.entries ↔ m.get? k = some v :=
  ⟨lookup_of_mem m.sorted, mem_of_lookup⟩

/-- **Two maps with the same lookups are equal.** -/
theorem eq_of_get? {m n : OrdMap κ α} (h : ∀ k, m.get? k = n.get? k) : m = n := by
  have nodup : ∀ l : OrdMap κ α, l.entries.Nodup := by
    intro l
    exact List.Nodup.of_map Prod.fst (l.sorted.imp (fun hlt => ne_of_lt hlt))
  have hperm : m.entries.Perm n.entries := by
    rw [List.perm_ext_iff_of_nodup (nodup m) (nodup n)]
    rintro ⟨k, v⟩
    rw [mem_entries, mem_entries, h]
  have hanti : ∀ p q : κ × α, p ∈ m.entries → q ∈ n.entries → p.1 < q.1 → q.1 < p.1 → p = q := by
    intro p q _ _ hpq hqp
    exact absurd (lt_trans hpq hqp) (lt_irrefl p.1)
  apply ext
  exact List.Perm.eq_of_pairwise hanti (List.pairwise_map.mp m.sorted)
    (List.pairwise_map.mp n.sorted) hperm

/-- The values in key order correspond one to one to the ascending keys. -/
theorem values_keys {R : κ → α → Prop} (m : OrdMap κ α)
    (h : ∀ k v, m.get? k = some v → R k v) : List.Forall₂ R m.keys m.values := by
  unfold keys values
  rw [List.forall₂_map_left_iff, List.forall₂_map_right_iff, List.forall₂_same]
  intro p hp
  exact h p.1 p.2 (mem_entries.mp hp)

/-- Rewrite every value. -/
def mapValues {β : Type} (m : OrdMap κ α) (f : α → β) : OrdMap κ β :=
  ⟨m.entries.map (fun p => (p.1, f p.2)), by
    rw [List.map_map]
    exact m.sorted⟩

theorem lookup_map {β : Type} (f : α → β) (k : κ) : ∀ l : List (κ × α),
    lookup k (l.map (fun p => (p.1, f p.2))) = (lookup k l).map f
  | [] => rfl
  | (k', v) :: rest => by
    simp only [List.map_cons, lookup]
    split
    · rfl
    · exact lookup_map f k rest

theorem get?_mapValues {β : Type} (m : OrdMap κ α) (f : α → β) (k : κ) :
    (m.mapValues f).get? k = (m.get? k).map f := lookup_map f k m.entries

theorem keys_mapValues {β : Type} (m : OrdMap κ α) (f : α → β) : (m.mapValues f).keys = m.keys := by
  simp [keys, mapValues]

/-- The map holding the listed pairs, later pairs overwriting earlier ones. -/
def ofList (l : List (κ × α)) : OrdMap κ α :=
  l.foldl (fun m p => m.insert p.1 p.2) empty

/-- **Lookup in a map made from a list**: the last pair with the key. -/
theorem get?_ofList (l : List (κ × α)) (k : κ) :
    (ofList l).get? k = (l.reverse.find? (fun p => p.1 = k)).map Prod.snd := by
  unfold ofList
  induction l using List.reverseRecOn with
  | nil => rfl
  | append_singleton l p ih =>
    rw [List.foldl_append, List.foldl_cons, List.foldl_nil, get?_insert, ih, List.reverse_append,
      List.reverse_singleton, List.singleton_append, List.find?_cons]
    by_cases hk : k = p.1
    · simp [hk]
    · simp [hk, Ne.symm hk]

/-- A list with distinct keys is the list of the entries, in another order. -/
theorem ofList_perm {l : List (κ × α)} (h : (l.map Prod.fst).Nodup) :
    (ofList l).entries.Perm l := by
  have hentries : (ofList l).entries.Nodup :=
    List.Nodup.of_map Prod.fst ((ofList l).sorted.imp (fun hlt => ne_of_lt hlt))
  rw [List.perm_ext_iff_of_nodup hentries (List.Nodup.of_map Prod.fst h)]
  rintro ⟨k, v⟩
  rw [mem_entries, get?_ofList]
  constructor
  · intro hfound
    obtain ⟨⟨k', v'⟩, hfind, rfl⟩ := Option.map_eq_some_iff.mp hfound
    have hkey : k' = k := by simpa using List.find?_some hfind
    rw [← hkey]
    exact List.mem_reverse.mp (List.mem_of_find?_eq_some hfind)
  · intro hmem
    cases hfind : l.reverse.find? (fun p => p.1 = k) with
    | none =>
      have hnone := List.find?_eq_none.mp hfind (k, v) (List.mem_reverse.mpr hmem)
      simp at hnone
    | some p =>
      have hkey : p.1 = k := by simpa using List.find?_some hfind
      have hp := List.mem_reverse.mp (List.mem_of_find?_eq_some hfind)
      have hsame : p = (k, v) := List.inj_on_of_nodup_map h hp hmem hkey
      rw [hsame]
      rfl

end OrdMap

end XLayerReth.Lib
