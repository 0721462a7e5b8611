import Mathlib.Data.List.Infix
import Mathlib.Data.List.Sort

/-!
# A broadcast channel

A channel to which every receiver holds a cursor of its own.  It holds the newest `capacity`
messages: a receiver that falls further behind is told how many it missed, and goes on with the
oldest message that is still held.

* `receive` — one read at a cursor;
* `Follows` — what a receiver has read: messages in the order in which they were sent, none twice,
  and every one it missed had at least `capacity` newer ones.

Principal results: `Follows.send`, `Follows.value` and `Follows.lagged` (every operation keeps it),
and `Follows.complete` (while no more than `capacity` messages are sent, nothing is missed).
-/

set_option autoImplicit false

namespace XLayerReth.Lib

variable {α : Type}

inductive RecvResult (α : Type) where
  | value (a : α)
  | lagged (missed : Nat)
  | empty
  deriving DecidableEq

/-- The result of a read, and the cursor after it. -/
def receive (capacity : Nat) (sent : List α) (cursor : Nat) : RecvResult α × Nat :=
  if cursor + capacity < sent.length then
    (.lagged (sent.length - capacity - cursor), sent.length - capacity)
  else
    match sent[cursor]? with
    | some a => (.value a, cursor + 1)
    | none => (.empty, cursor)

/-- What a receiver has read that began at `start` and is now at `cursor`. -/
structure Follows (capacity : Nat) (sent : List α) (start cursor : Nat) (received : List α) :
    Prop where
  start_le : start ≤ cursor
  cursor_le : cursor ≤ sent.length
  positions : ∃ positions : List Nat, positions.Pairwise (· < ·) ∧
    positions.map (fun i => sent[i]?) = received.map some ∧
    (∀ i ∈ positions, start ≤ i ∧ i < cursor) ∧
    ∀ i, start ≤ i → i < cursor → i ∉ positions → i + capacity < sent.length

theorem receive_value {capacity cursor next : Nat} {sent : List α} {a : α}
    (h : receive capacity sent cursor = (.value a, next)) :
    sent[cursor]? = some a ∧ next = cursor + 1 := by
  unfold receive at h
  split at h
  · cases h
  · split at h
    · rename_i hget
      cases h
      exact ⟨hget, rfl⟩
    · cases h

theorem receive_lagged {capacity cursor next missed : Nat} {sent : List α}
    (h : receive capacity sent cursor = (.lagged missed, next)) :
    cursor + missed = next ∧ next + capacity = sent.length ∧ 0 < missed := by
  unfold receive at h
  split at h
  · rename_i hlt
    cases h
    omega
  · split at h
    · cases h
    · cases h

section Follows

variable {capacity start cursor next missed : Nat} {sent received : List α} {a : α}

/-- A receiver that has read nothing. -/
theorem follows_new (capacity : Nat) (h : cursor ≤ sent.length) :
    Follows capacity sent cursor cursor [] where
  start_le := le_rfl
  cursor_le := h
  positions := ⟨[], List.Pairwise.nil, rfl, by simp, fun i h1 h2 => absurd h2 (by omega)⟩

theorem Follows.send (h : Follows capacity sent start cursor received) (a : α) :
    Follows capacity (sent ++ [a]) start cursor received := by
  obtain ⟨hstart, hcursor, positions, hpair, hmap, hin, hmissed⟩ := h
  have hlength : (sent ++ [a]).length = sent.length + 1 := by simp
  refine ⟨hstart, by omega, positions, hpair, ?_, hin, ?_⟩
  · rw [← hmap]
    apply List.map_congr_left
    intro i hi
    have := (hin i hi).2
    exact List.getElem?_append_left (by omega)
  · intro i h1 h2 hi
    have := hmissed i h1 h2 hi
    omega

theorem Follows.value (h : Follows capacity sent start cursor received)
    (hr : receive capacity sent cursor = (.value a, next)) :
    Follows capacity sent start next (received ++ [a]) := by
  obtain ⟨hget, rfl⟩ := receive_value hr
  obtain ⟨hstart, hcursor, positions, hpair, hmap, hin, hmissed⟩ := h
  have hlt : cursor < sent.length := (List.getElem?_eq_some_iff.mp hget).1
  refine ⟨by omega, by omega, positions ++ [cursor], ?_, ?_, ?_, ?_⟩
  · rw [List.pairwise_append]
    refine ⟨hpair, List.pairwise_singleton _ _, ?_⟩
    intro i hi j hj
    rw [List.mem_singleton.mp hj]
    exact (hin i hi).2
  · rw [List.map_append, List.map_append, hmap, List.map_singleton, List.map_singleton, hget]
  · intro i hi
    rcases List.mem_append.mp hi with hi | hi
    · have := hin i hi
      omega
    · rw [List.mem_singleton.mp hi]
      omega
  · intro i h1 h2 hi
    rw [List.mem_append, List.mem_singleton, not_or] at hi
    exact hmissed i h1 (by omega) hi.1

/-- A receiver that has fallen behind misses messages that are no longer held. -/
theorem Follows.lagged (h : Follows capacity sent start cursor received)
    (hr : receive capacity sent cursor = (.lagged missed, next)) :
    Follows capacity sent start next received := by
  obtain ⟨hnext, hlength, -⟩ := receive_lagged hr
  obtain ⟨hstart, hcursor, positions, hpair, hmap, hin, hmissed⟩ := h
  refine ⟨by omega, by omega, positions, hpair, hmap, ?_, ?_⟩
  · intro i hi
    have := hin i hi
    omega
  · intro i h1 h2 hi
    omega

/-- **Nothing is missed** while no more than `capacity` messages are sent: what was read is all that
    was sent from the start to the cursor. -/
theorem Follows.complete (h : Follows capacity sent start cursor received)
    (hfew : sent.length ≤ start + capacity) : received = (sent.take cursor).drop start := by
  obtain ⟨hstart, hcursor, positions, hpair, hmap, hin, hmissed⟩ := h
  have hpositions : positions = List.range' start (cursor - start) := by
    have hperm : positions.Perm (List.range' start (cursor - start)) := by
      rw [List.perm_ext_iff_of_nodup (hpair.imp (fun hlt => Nat.ne_of_lt hlt)) List.nodup_range']
      intro i
      rw [List.mem_range'_1]
      constructor
      · intro hi
        have := hin i hi
        omega
      · rintro ⟨h1, h2⟩
        by_contra hi
        have := hmissed i h1 (by omega) hi
        omega
    exact hperm.eq_of_pairwise (fun x y _ _ h1 h2 => absurd h1 (Nat.lt_asymm h2)) hpair
      List.pairwise_lt_range'
  have hsome : received.map some = ((sent.take cursor).drop start).map some := by
    rw [← hmap, hpositions]
    apply List.ext_getElem
    · simp
      omega
    · intro k hk hk'
      have hk : k < cursor - start := by simpa using hk
      simp only [List.getElem_map, List.getElem_range', List.getElem_drop, List.getElem_take,
        Nat.one_mul]
      exact List.getElem?_eq_getElem (by omega)
  exact List.map_injective_iff.mpr (Option.some_injective α) hsome

end Follows

end XLayerReth.Lib
