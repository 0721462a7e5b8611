import Mathlib.Data.List.Basic

/-!
# Lists sorted by a number

`SortedBy f l` says that `f` does not decrease along `l`.  On such a list the tests
`f x < n`, `f x = n` and `f x ≤ n` cut off contiguous runs, so what a walk from the left drops,
takes or misses can be written with `filter`.

Principal results: `dropWhile_lt` (dropping the small elements is filtering them out) and
`filter_take_eq` (cutting a list behind its elements up to `n` loses none of them).
-/

set_option autoImplicit false

namespace XLayerReth.Lib

variable {α : Type}

/-- `f` does not decrease along the list. -/
def SortedBy (f : α → Nat) (l : List α) : Prop := l.Pairwise (fun x y => f x ≤ f y)

namespace SortedBy

variable {f : α → Nat} {l : List α} {n : Nat}

theorem tail {x : α} (h : SortedBy f (x :: l)) : SortedBy f l := (List.pairwise_cons.mp h).2

theorem head_le {x : α} (h : SortedBy f (x :: l)) :
    ∀ y ∈ l, f x ≤ f y := (List.pairwise_cons.mp h).1

theorem filter (h : SortedBy f l) (p : α → Bool) :
    SortedBy f (l.filter p) := List.Pairwise.filter p h

theorem take (h : SortedBy f l) (k : Nat) : SortedBy f (l.take k) :=
  List.Pairwise.sublist (List.take_sublist k l) h

/-- Dropping the elements below `n` from the left removes all of them. -/
theorem dropWhile_lt (h : SortedBy f l) :
    l.dropWhile (fun x => f x < n) = l.filter (fun x => n ≤ f x) := by
  induction l with
  | nil => rfl
  | cons x l ih =>
    by_cases hx : f x < n
    · have hge : ¬ n ≤ f x := by omega
      simp [hx, hge, ih h.tail]
    · have hall : l.filter (fun y => n ≤ f y) = l := by
        rw [List.filter_eq_self]
        intro y hy
        have := h.head_le y hy
        simp only [decide_eq_true_eq]
        omega
      have hge : n ≤ f x := by omega
      simp [hx, hge, hall]

/-- Behind a cut at `k` no element is at most `n` when there are no more than `k` of these. -/
theorem lt_of_mem_drop (h : SortedBy f l) {k : Nat}
    (hk : (l.filter (fun x => f x ≤ n)).length ≤ k) : ∀ y ∈ l.drop k, n < f y := by
  induction l generalizing k with
  | nil => simp
  | cons x l ih =>
    by_cases hx : f x ≤ n
    · -- the head is one of those elements, so the cut lies behind it
      rw [List.filter_cons_of_pos (by simpa using hx), List.length_cons] at hk
      obtain ⟨k, rfl⟩ : ∃ j, k = j + 1 := ⟨k - 1, by omega⟩
      rw [List.drop_succ_cons]
      exact ih h.tail (by omega)
    · intro y hy
      rcases List.mem_cons.mp (List.mem_of_mem_drop hy) with rfl | hy
      · omega
      · have := h.head_le y hy
        omega

theorem filter_take_eq (h : SortedBy f l) {k m : Nat}
    (hk : (l.filter (fun x => f x ≤ n)).length ≤ k) (hm : m ≤ n) :
    (l.take k).filter (fun x => f x = m) = l.filter (fun x => f x = m) := by
  have hnone : (l.drop k).filter (fun x => f x = m) = [] := by
    rw [List.filter_eq_nil_iff]
    intro y hy
    have := h.lt_of_mem_drop hk y hy
    simp only [decide_eq_true_eq]
    omega
  calc (l.take k).filter (fun x => f x = m)
      = (l.take k).filter (fun x => f x = m) ++ (l.drop k).filter (fun x => f x = m) := by
        rw [hnone, List.append_nil]
    _ = l.filter (fun x => f x = m) := by rw [← List.filter_append, List.take_append_drop]

end SortedBy

end XLayerReth.Lib
