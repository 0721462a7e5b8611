import XLayerReth.RcsFilter.SubmitGraph
import XLayerReth.RcsFilter.SubmitRun

/-!
# Recorded submissions

What the events of a batch say about the order of submissions, apart from how they come about.

* `Conflicts` — two groups share a key or one of them is exclusive.
* `Disciplined` — no group is started or completed twice, the bound is kept, and of two groups
  that conflict the lower one completes before the other starts.
* `Position` — where a segment lies in the batch.
* `Recorded` — the events against the groups already passed and the progress in the current
  segment.

Principal results: `conflicts_new_iff`, `conflicts_done`, `Recorded.start`, `Recorded.finish` and
`Recorded.pass`.
-/

set_option autoImplicit false

namespace XLayerReth.RcsFilter

open Lib

/-! ## Conflicts and events -/

/-- Two groups conflict if they share a key or one of them is exclusive. -/
def Conflicts (a b : SubmitGroup) : Prop :=
  a.profile.exclusive = true ∨ b.profile.exclusive = true ∨
    (∃ k, k ∈ a.profile.nonceKeys ∧ k ∈ b.profile.nonceKeys) ∨
    ∃ k, k ∈ a.profile.quotaKeys ∧ k ∈ b.profile.quotaKeys

/-- **When two groups conflict**, from their entries: an entry of one of them is not classified, or
    entries of both share an origin and a nonce, or a recipient and a token. -/
theorem conflicts_new_iff {height height' : Nat} {entries entries' : List SubmitEntry} :
    Conflicts (.new height entries) (.new height' entries') ↔
      (∃ entry ∈ entries ++ entries', ¬ entry.Classified) ∨
      (∃ entry ∈ entries, ∃ entry' ∈ entries',
        entry.origin = entry'.origin ∧ entry.tx.nonce = entry'.tx.nonce) ∨
      ∃ entry ∈ entries, ∃ entry' ∈ entries', ∃ key, entry.Reserves key ∧ entry'.Reserves key := by
  unfold Conflicts
  rw [exclusive_new, exclusive_new]
  simp only [mem_nonceKeys_new, mem_quotaKeys_new]
  constructor
  · rintro (⟨e, he, hc⟩ | ⟨e, he, hc⟩ | ⟨-, ⟨e, he, rfl⟩, e', he', hkey⟩ |
      ⟨key, ⟨e, he, hr⟩, e', he', hr'⟩)
    · exact .inl ⟨e, List.mem_append_left _ he, hc⟩
    · exact .inl ⟨e, List.mem_append_right _ he, hc⟩
    · obtain ⟨horigin, hnonce⟩ := Prod.mk.inj hkey
      exact .inr (.inl ⟨e, he, e', he', horigin.symm, hnonce.symm⟩)
    · exact .inr (.inr ⟨e, he, e', he', key, hr, hr'⟩)
  · rintro (⟨e, he, hc⟩ | ⟨e, he, e', he', horigin, hnonce⟩ | ⟨e, he, e', he', key, hr, hr'⟩)
    · rcases List.mem_append.mp he with he | he
      · exact .inl ⟨e, he, hc⟩
      · exact .inr (.inl ⟨e, he, hc⟩)
    · exact .inr (.inr (.inl ⟨_, ⟨e, he, rfl⟩, e', he', by rw [horigin, hnonce]⟩))
    · exact .inr (.inr (.inr ⟨key, ⟨e, he, hr⟩, e', he', hr'⟩))

theorem shared_key {a b : SubmitGroup} (h : Conflicts a b) (ha : a.profile.exclusive = false)
    (hb : b.profile.exclusive = false) : ∃ key, a.profile.Uses key ∧ b.profile.Uses key := by
  rcases h with h | h | ⟨k, h⟩ | ⟨k, h⟩
  · rw [ha] at h
    cases h
  · rw [hb] at h
    cases h
  · exact ⟨.inl k, h⟩
  · exact ⟨.inr k, h⟩

/-- The groups started, in order. -/
def startsOf (events : List Event) : List SubmitGroup :=
  events.filterMap (fun
    | .started g => some g
    | .finished _ => none)

/-- The groups completed, in order. -/
def finishesOf (events : List Event) : List SubmitGroup :=
  events.filterMap (fun
    | .started _ => none
    | .finished g => some g)

@[simp] theorem startsOf_started (events : List Event) (g : SubmitGroup) :
    startsOf (events ++ [.started g]) = startsOf events ++ [g] := by
  simp [startsOf]

@[simp] theorem startsOf_finished (events : List Event) (g : SubmitGroup) :
    startsOf (events ++ [.finished g]) = startsOf events := by
  simp [startsOf]

@[simp] theorem finishesOf_started (events : List Event) (g : SubmitGroup) :
    finishesOf (events ++ [.started g]) = finishesOf events := by
  simp [finishesOf]

@[simp] theorem finishesOf_finished (events : List Event) (g : SubmitGroup) :
    finishesOf (events ++ [.finished g]) = finishesOf events ++ [g] := by
  simp [finishesOf]

/-- No group is started or completed twice, the bound is kept at every moment, and a group starts
    only when the lower groups it conflicts with have completed. -/
structure Disciplined (groups : List SubmitGroup) (maxConcurrency : Nat) (events : List Event) :
    Prop where
  starts_nodup : (startsOf events).Nodup
  finishes_nodup : (finishesOf events).Nodup
  bounded : ∀ pre, pre <+: events →
    (startsOf pre).length ≤ (finishesOf pre).length + maxConcurrency
  ordered : ∀ pre g, pre ++ [.started g] <+: events → ∀ g' ∈ groups,
    g'.blockHeight < g.blockHeight → Conflicts g' g → g' ∈ finishesOf pre

section Disciplined

variable {groups : List SubmitGroup} {maxConcurrency : Nat} {events : List Event}

theorem disciplined_nil : Disciplined groups maxConcurrency [] where
  starts_nodup := List.nodup_nil
  finishes_nodup := List.nodup_nil
  bounded := by
    intro pre hp
    rw [List.prefix_nil.mp hp]
    exact Nat.zero_le _
  ordered := by
    intro pre g hp
    exact absurd (List.prefix_nil.mp hp) (by simp)

theorem Disciplined.start (h : Disciplined groups maxConcurrency events) {g : SubmitGroup}
    (hnew : g ∉ startsOf events)
    (hfree : (startsOf events).length < (finishesOf events).length + maxConcurrency)
    (hord : ∀ g' ∈ groups, g'.blockHeight < g.blockHeight → Conflicts g' g →
      g' ∈ finishesOf events) :
    Disciplined groups maxConcurrency (events ++ [.started g]) where
  starts_nodup := by
    rw [startsOf_started]
    exact h.starts_nodup.append (List.nodup_singleton g) (by simpa using hnew)
  finishes_nodup := by
    rw [finishesOf_started]
    exact h.finishes_nodup
  bounded := by
    intro pre hp
    rcases List.prefix_concat_iff.mp hp with rfl | hp
    · rw [startsOf_started, finishesOf_started, List.length_append, List.length_singleton]
      omega
    · exact h.bounded pre hp
  ordered := by
    intro pre g₁ hp
    rcases List.prefix_concat_iff.mp hp with heq | hp
    · obtain ⟨rfl, hg⟩ := List.append_inj' heq rfl
      cases hg
      exact hord
    · exact h.ordered pre g₁ hp

theorem Disciplined.finish (h : Disciplined groups maxConcurrency events) {g : SubmitGroup}
    (hnew : g ∉ finishesOf events) :
    Disciplined groups maxConcurrency (events ++ [.finished g]) where
  starts_nodup := by
    rw [startsOf_finished]
    exact h.starts_nodup
  finishes_nodup := by
    rw [finishesOf_finished]
    exact h.finishes_nodup.append (List.nodup_singleton g) (by simpa using hnew)
  bounded := by
    intro pre hp
    rcases List.prefix_concat_iff.mp hp with rfl | hp
    · have hle := h.bounded events List.prefix_rfl
      rw [startsOf_finished, finishesOf_finished, List.length_append, List.length_singleton]
      omega
    · exact h.bounded pre hp
  ordered := by
    intro pre g₁ hp
    rcases List.prefix_concat_iff.mp hp with heq | hp
    · have hlast := (List.append_inj' heq rfl).2
      cases hlast
    · exact h.ordered pre g₁ hp

end Disciplined

/-! ## The position of a segment in the batch -/

/-- The groups before a segment, the segment and the groups after it. -/
structure Position (groups past segment later : List SubmitGroup) : Prop where
  split : groups = past ++ (segment ++ later)
  increasing : groups.Pairwise (fun a b => a.blockHeight < b.blockHeight)

section Position

variable {groups past segment later : List SubmitGroup}

theorem Position.segment_index (h : Position groups past segment later) {i j : Nat}
    {g : SubmitGroup} (hi : segment[i]? = some g) (hj : segment[j]? = some g) : i = j := by
  have hp := h.increasing
  rw [h.split, List.pairwise_append, List.pairwise_append] at hp
  obtain ⟨hi', hgi⟩ := List.getElem?_eq_some_iff.mp hi
  obtain ⟨hj', hgj⟩ := List.getElem?_eq_some_iff.mp hj
  have hlt := List.pairwise_iff_getElem.mp hp.2.1.1
  rcases Nat.lt_trichotomy i j with hij | hij | hij
  · have := hlt i j hi' hj' hij
    rw [hgi, hgj] at this
    omega
  · exact hij
  · have := hlt j i hj' hi' hij
    rw [hgi, hgj] at this
    omega

theorem Position.not_past (h : Position groups past segment later) {i : Nat} {g : SubmitGroup}
    (hi : segment[i]? = some g) : g ∉ past := by
  intro hmem
  have hp := h.increasing
  rw [h.split, List.pairwise_append] at hp
  have := hp.2.2 g hmem g (List.mem_append_left _ (List.mem_of_getElem? hi))
  omega

/-- A lower group lies in an earlier segment or earlier in this one. -/
theorem Position.lower (h : Position groups past segment later) {i : Nat} {g g' : SubmitGroup}
    (hi : segment[i]? = some g) (hmem : g' ∈ groups) (hlt : g'.blockHeight < g.blockHeight) :
    g' ∈ past ∨ ∃ j, j < i ∧ segment[j]? = some g' := by
  have hp := h.increasing
  rw [h.split, List.pairwise_append, List.pairwise_append] at hp
  rw [h.split, List.mem_append, List.mem_append] at hmem
  rcases hmem with hmem | hmem | hmem
  · exact .inl hmem
  · obtain ⟨j, hj⟩ := List.mem_iff_getElem?.mp hmem
    refine .inr ⟨j, ?_, hj⟩
    obtain ⟨hi', hgi⟩ := List.getElem?_eq_some_iff.mp hi
    obtain ⟨hj', hgj⟩ := List.getElem?_eq_some_iff.mp hj
    rcases Nat.lt_trichotomy j i with hji | rfl | hij
    · exact hji
    · rw [← hgi, ← hgj] at hlt
      omega
    · have := List.pairwise_iff_getElem.mp hp.2.1.1 i j hi' hj' hij
      rw [hgi, hgj] at this
      omega
  · have := hp.2.1.2.2 g (List.mem_of_getElem? hi) g' hmem
    omega

theorem Position.next (h : Position groups past segment later) {segment' later' : List SubmitGroup}
    (hl : later = segment' ++ later') : Position groups (past ++ segment) segment' later' where
  split := by rw [h.split, hl, List.append_assoc]
  increasing := h.increasing

end Position

/-- **Conflicting groups are ordered**: when a group of a normal segment is enabled, every lower
    group that conflicts with it lies in an earlier segment or is done. -/
theorem conflicts_done {groups past segment later : List SubmitGroup}
    (h : Position groups past segment later) (hx : ∀ g ∈ segment, g.profile.exclusive = false)
    {P : Progress (dag segment)} {i : Nat} {g g' : SubmitGroup} (he : P.Enabled i)
    (hi : segment[i]? = some g) (hmem : g' ∈ groups) (hlt : g'.blockHeight < g.blockHeight)
    (hc : Conflicts g' g) : g' ∈ past ∨ ∃ j ∈ P.done, segment[j]? = some g' := by
  rcases h.lower hi hmem hlt with hpast | ⟨j, hji, hj⟩
  · exact .inl hpast
  · obtain ⟨key, hu', hu⟩ :=
      shared_key hc (hx g' (List.mem_of_getElem? hj)) (hx g (List.mem_of_getElem? hi))
    have hbefore := before_of_shared hj hu' i hi hu hji
    exact .inr ⟨j, Progress.before_done (P := P.start i he) hbefore
      (Finset.mem_insert_self i P.started), hj⟩

/-! ## The recorded events -/

/-- The events against the groups passed and the indices started and done in the segment. -/
structure Recorded (groups past segment : List SubmitGroup) (maxConcurrency : Nat)
    (started done : Finset Nat) (events : List Event) : Prop where
  mem_starts : ∀ g, g ∈ startsOf events ↔ g ∈ past ∨ ∃ i ∈ started, segment[i]? = some g
  mem_finishes : ∀ g, g ∈ finishesOf events ↔ g ∈ past ∨ ∃ i ∈ done, segment[i]? = some g
  starts_length : (startsOf events).length = past.length + started.card
  finishes_length : (finishesOf events).length = past.length + done.card
  disciplined : Disciplined groups maxConcurrency events

section Recorded

variable {groups past segment later : List SubmitGroup} {maxConcurrency : Nat}
  {started done : Finset Nat} {events : List Event}

/-- One more index of a set of indices. -/
theorem exists_insert {i : Nat} {g g' : SubmitGroup} (s : Finset Nat)
    (hi : segment[i]? = some g) :
    (∃ j ∈ insert i s, segment[j]? = some g') ↔ g' = g ∨ ∃ j ∈ s, segment[j]? = some g' := by
  constructor
  · rintro ⟨j, hj, hg⟩
    rcases Finset.mem_insert.mp hj with rfl | hj
    · rw [hi, Option.some.injEq] at hg
      exact .inl hg.symm
    · exact .inr ⟨j, hj, hg⟩
  · rintro (rfl | ⟨j, hj, hg⟩)
    · exact ⟨i, Finset.mem_insert_self i s, hi⟩
    · exact ⟨j, Finset.mem_insert_of_mem hj, hg⟩

theorem Recorded.start (h : Recorded groups past segment maxConcurrency started done events)
    (hpos : Position groups past segment later) {i : Nat} {g : SubmitGroup}
    (hi : segment[i]? = some g) (hnew : i ∉ started)
    (hfree : started.card < done.card + maxConcurrency)
    (hord : ∀ g' ∈ groups, g'.blockHeight < g.blockHeight → Conflicts g' g →
      g' ∈ past ∨ ∃ j ∈ done, segment[j]? = some g') :
    Recorded groups past segment maxConcurrency (insert i started) done
      (events ++ [.started g]) where
  mem_starts := by
    intro g'
    rw [startsOf_started, List.mem_append, List.mem_singleton, h.mem_starts, exists_insert _ hi]
    exact or_assoc.trans (or_congr_right or_comm)
  mem_finishes := by
    intro g'
    rw [finishesOf_started]
    exact h.mem_finishes g'
  starts_length := by
    rw [startsOf_started, List.length_append, List.length_singleton, h.starts_length,
      Finset.card_insert_of_notMem hnew, Nat.add_assoc]
  finishes_length := by
    rw [finishesOf_started]
    exact h.finishes_length
  disciplined := by
    refine h.disciplined.start ?_ ?_ ?_
    · rw [h.mem_starts]
      rintro (hpast | ⟨j, hj, hg⟩)
      · exact hpos.not_past hi hpast
      · rw [hpos.segment_index hi hg] at hnew
        exact hnew hj
    · rw [h.starts_length, h.finishes_length]
      omega
    · intro g' hmem hlt hc
      exact (h.mem_finishes g').mpr (hord g' hmem hlt hc)

theorem Recorded.finish (h : Recorded groups past segment maxConcurrency started done events)
    (hpos : Position groups past segment later) {i : Nat} {g : SubmitGroup}
    (hi : segment[i]? = some g) (hnew : i ∉ done) :
    Recorded groups past segment maxConcurrency started (insert i done)
      (events ++ [.finished g]) where
  mem_starts := by
    intro g'
    rw [startsOf_finished]
    exact h.mem_starts g'
  mem_finishes := by
    intro g'
    rw [finishesOf_finished, List.mem_append, List.mem_singleton, h.mem_finishes,
      exists_insert _ hi]
    exact or_assoc.trans (or_congr_right or_comm)
  starts_length := by
    rw [startsOf_finished]
    exact h.starts_length
  finishes_length := by
    rw [finishesOf_finished, List.length_append, List.length_singleton, h.finishes_length,
      Finset.card_insert_of_notMem hnew, Nat.add_assoc]
  disciplined := by
    refine h.disciplined.finish ?_
    rw [h.mem_finishes]
    rintro (hpast | ⟨j, hj, hg⟩)
    · exact hpos.not_past hi hpast
    · rw [hpos.segment_index hi hg] at hnew
      exact hnew hj

/-- A segment that is done joins the groups passed. -/
theorem Recorded.pass (h : Recorded groups past segment maxConcurrency
      (Finset.range segment.length) (Finset.range segment.length) events)
    (segment' : List SubmitGroup) :
    Recorded groups (past ++ segment) segment' maxConcurrency ∅ ∅ events := by
  have hall : ∀ g, (∃ i ∈ Finset.range segment.length, segment[i]? = some g) ↔ g ∈ segment := by
    intro g
    rw [List.mem_iff_getElem?]
    constructor
    · rintro ⟨i, -, hi⟩
      exact ⟨i, hi⟩
    · rintro ⟨i, hi⟩
      exact ⟨i, Finset.mem_range.mpr (List.getElem?_eq_some_iff.mp hi).1, hi⟩
  refine ⟨fun g => ?_, fun g => ?_, ?_, ?_, h.disciplined⟩
  · rw [h.mem_starts, hall, List.mem_append]
    simp
  · rw [h.mem_finishes, hall, List.mem_append]
    simp
  · rw [h.starts_length, List.length_append, Finset.card_range]
    rfl
  · rw [h.finishes_length, List.length_append, Finset.card_range]
    rfl

end Recorded

end XLayerReth.RcsFilter
