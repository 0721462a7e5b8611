import Mathlib.Data.List.Basic

/-!
# Self-delimiting encodings

`ReadsOff P enc f` says that, on the values with `P`, the encoding `enc` determines `f` of the
value and where the encoding ends, whatever follows it.

* `readsOff_of_length` — encodings of one fixed length;
* `ReadsOff.append` — two fields, one after the other;
* `ReadsOff.counted` — the number of elements, then the elements.

Principal result: `ReadsOff.eq_of_eq` (equal encodings, equal readings).
-/

set_option autoImplicit false

namespace XLayerReth.Lib

variable {α β γ δ : Type}

/-- The encoding of a value determines `f` of it, and its own end. -/
def ReadsOff (P : α → Prop) (enc : α → List β) (f : α → γ) : Prop :=
  ∀ a b, P a → P b → ∀ xs ys, enc a ++ xs = enc b ++ ys → f a = f b ∧ xs = ys

theorem readsOff_of_length {P : α → Prop} {enc : α → List β} {f : α → γ} (n : Nat)
    (hlen : ∀ a, P a → (enc a).length = n) (hinj : ∀ a b, P a → P b → enc a = enc b → f a = f b) :
    ReadsOff P enc f := by
  intro a b ha hb xs ys h
  obtain ⟨henc, hrest⟩ := List.append_inj h ((hlen a ha).trans (hlen b hb).symm)
  exact ⟨hinj a b ha hb henc, hrest⟩

namespace ReadsOff

variable {P Q : α → Prop} {enc enc' : α → List β} {f : α → γ} {g : α → δ}

theorem eq_of_eq (h : ReadsOff P enc f) {a b : α} (ha : P a) (hb : P b) (he : enc a = enc b) :
    f a = f b :=
  (h a b ha hb [] [] (by rw [he])).1

theorem append (h : ReadsOff P enc f) (h' : ReadsOff Q enc' g) :
    ReadsOff (fun a => P a ∧ Q a) (fun a => enc a ++ enc' a) (fun a => (f a, g a)) := by
  rintro a b ⟨ha, ha'⟩ ⟨hb, hb'⟩ xs ys he
  rw [List.append_assoc, List.append_assoc] at he
  obtain ⟨hf, hrest⟩ := h a b ha hb _ _ he
  obtain ⟨hg, hend⟩ := h' a b ha' hb' _ _ hrest
  exact ⟨Prod.ext hf hg, hend⟩

theorem comap (h : ReadsOff P enc f) (k : δ → α) :
    ReadsOff (fun d => P (k d)) (fun d => enc (k d)) (fun d => f (k d)) :=
  fun a b ha hb => h (k a) (k b) ha hb

/-- The readings of a list with a known number of elements. -/
theorem flatMap (h : ReadsOff P enc f) : ∀ (l m : List α), (∀ a ∈ l, P a) → (∀ a ∈ m, P a) →
    l.length = m.length → ∀ xs ys, l.flatMap enc ++ xs = m.flatMap enc ++ ys →
      l.map f = m.map f ∧ xs = ys
  | [], [], _, _, _, xs, ys, he => ⟨rfl, by simpa using he⟩
  | a :: l, b :: m, hl, hm, hlen, xs, ys, he => by
    rw [List.flatMap_cons, List.flatMap_cons, List.append_assoc, List.append_assoc] at he
    obtain ⟨hf, hrest⟩ := h a b (hl a List.mem_cons_self) (hm b List.mem_cons_self) _ _ he
    obtain ⟨hmap, hend⟩ := flatMap h l m (fun c hc => hl c (List.mem_cons_of_mem _ hc))
      (fun c hc => hm c (List.mem_cons_of_mem _ hc)) (by simpa using hlen) xs ys hrest
    exact ⟨by rw [List.map_cons, List.map_cons, hf, hmap], hend⟩

/-- **A list after the number of its elements**. -/
theorem counted {count : Nat → List β} {R : Nat → Prop} (h : ReadsOff P enc f)
    (hcount : ReadsOff R count (fun n => n)) :
    ReadsOff (fun l : List α => R l.length ∧ ∀ a ∈ l, P a)
      (fun l => count l.length ++ l.flatMap enc) (List.map f) := by
  rintro l m ⟨hl, hPl⟩ ⟨hm, hPm⟩ xs ys he
  rw [List.append_assoc, List.append_assoc] at he
  obtain ⟨hlen, hrest⟩ := hcount l.length m.length hl hm _ _ he
  exact flatMap h l m hPl hPm hlen xs ys hrest

end ReadsOff

end XLayerReth.Lib
