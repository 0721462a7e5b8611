import XLayerReth.Lib.Framing

/-!
# One stream between two nodes

Model of a stream from its writer in `broadcast_message` to its reader in `handle_incoming_stream`:
every message is one line of text.

* `MessageCodec` — `Message::to_string` and `Message::from_str`.
* `Wire` — a stream: what was written, what is on its way, and what its reader has made of the rest.
* `Wire.Inv` — the reader has what was written, in order, up to some place.

Principal results: `Wire.Inv.take` (what a line decodes to is the next message written) and
`Wire.Inv.complete` (on a stream that is neither cut nor read to its end, every message arrives).

Characters stand for their encoding.  A stream that is cut inside a character is, for its reader,
one that is cut before it.
-/

set_option autoImplicit false

namespace XLayerReth.P2p

open XLayerReth.Lib

/-! ## Messages as lines -/

structure MessageCodec (M : Type) where
  toString : M → Except String String
  fromStr : List Char → Except String M

variable {M H : Type}

namespace MessageCodec

variable (W : MessageCodec M)

/-- The line of a message; nothing for one that is not serialized. -/
def line (m : M) : List Char := ((W.toString m).toOption.map String.toList).getD []

/-- The message is serialized. -/
def Sendable (m : M) : Prop := ∃ text, W.toString m = .ok text

/-- What is documented of the serialization: its text has no line break, is read back as the
    message, and is no message when it is cut short. -/
structure Lawful (ok : List Char → Prop) : Prop where
  framed : ∀ m, W.Sendable m → ok (W.line m)
  roundTrip : ∀ m, W.Sendable m → W.fromStr (W.line m) = .ok m
  unfinished : ∀ m p, W.Sendable m → p <+: W.line m → p ≠ W.line m → ∃ e, W.fromStr p = .error e

end MessageCodec

/-! ## The stream -/

structure Wire (M H : Type) where
  /-- The messages that were sent, oldest first. -/
  written : List M
  /-- The message whose send failed; nothing is sent after it. -/
  cut : Option M
  /-- What is on its way. -/
  transit : List Char
  /-- What the reader holds of a line that has not ended. -/
  held : H
  /-- The reader has come to the end of the stream. -/
  ended : Bool
  /-- The lines that the reader has not decoded. -/
  frames : List (List Char)
  /-- The reader is running. -/
  reading : Bool
  /-- The messages that the reader has passed on, oldest first. -/
  delivered : List M

namespace Wire

/-- What was sent, the message whose send failed included. -/
def all (w : Wire M H) : List M := w.written ++ w.cut.toList

section

variable (F : Framing Char H) (W : MessageCodec M)

def new : Wire M H := ⟨[], none, [], F.start, false, [], true, []⟩

/-- A message is sent. -/
def send (w : Wire M H) (m : M) : Wire M H :=
  { w with written := w.written ++ [m], transit := w.transit ++ F.encode (W.line m) }

/-- A message is sent in part. -/
def sendCut (w : Wire M H) (m : M) (n : Nat) : Wire M H :=
  { w with cut := some m, transit := w.transit ++ (F.encode (W.line m)).take n }

/-- The reader reads some characters. -/
def arrive (w : Wire M H) (n : Nat) : Option (Wire M H) :=
  if w.ended then none
  else some
    { w with
      transit := w.transit.drop n
      held := (F.feedAll w.held (w.transit.take n)).1
      frames := w.frames ++ (F.feedAll w.held (w.transit.take n)).2 }

/-- The reader reads the end of the stream, where the rest of it may be lost. -/
def finish (w : Wire M H) : Option (Wire M H) :=
  if w.ended then none
  else some { w with ended := true, frames := w.frames ++ (F.finish w.held).toList }

/-- One iteration of the loop of `handle_incoming_stream`, and what it passes on: a line that does
    not decode ends it. -/
def take (w : Wire M H) : Option (Wire M H × Option M) :=
  if w.reading then
    match w.frames with
    | [] => none
    | f :: rest =>
      match W.fromStr f with
      | .ok m => some ({ w with frames := rest, delivered := w.delivered ++ [m] }, some m)
      | .error _ => some ({ w with frames := rest, reading := false }, none)
  else none

/-- The reader fails. -/
def reset (w : Wire M H) : Wire M H := { w with reading := false }

/-! ## What has arrived -/

structure Inv (w : Wire M H) : Prop where
  sendable : ∀ m ∈ w.all, W.Sendable m
  delivered : w.delivered <+: w.all
  /-- What was read, by the characters that were. -/
  read : ∃ consumed, consumed ++ w.transit <+: F.stream (w.all.map W.line) ∧
    (w.cut = none → consumed ++ w.transit = F.stream (w.all.map W.line)) ∧
    w.held = (F.feedAll F.start consumed).1 ∧
    (w.reading = true → w.delivered.map W.line ++ w.frames = (F.feedAll F.start consumed).2 ++
      if w.ended then (F.finish w.held).toList else [])

theorem inv_new : (new F : Wire M H).Inv F W where
  sendable := by simp [all, new]
  delivered := List.prefix_rfl
  read := ⟨[], by simp [new, all], by simp [new, all], rfl, by simp [new]⟩

end

/-- The reader is running and has read what there is. -/
structure CaughtUp (w : Wire M H) : Prop where
  reading : w.reading = true
  notEnded : w.ended = false
  transit : w.transit = []
  frames : w.frames = []

variable {F : Framing Char H} {W : MessageCodec M} {ok : List Char → Prop} {w : Wire M H}

theorem prefix_concat {α : Type} {l all : List α} {a : α} (h : l <+: all)
    (ha : all[l.length]? = some a) : l ++ [a] <+: all := by
  obtain ⟨more, rfl⟩ := h
  rw [List.getElem?_append_right (Nat.le_refl _), Nat.sub_self] at ha
  cases more with
  | nil => cases ha
  | cons b more =>
    cases ha
    exact ⟨more, by simp⟩

/-- **The next line is the next message, or a beginning of it.** -/
theorem next_frame {texts whole rest tail more : List (List Char)} {d : Nat} {f : List Char}
    (htexts : texts = whole ++ rest) (hlen : tail.length ≤ 1)
    (htail : ∀ g ∈ tail, ∃ t, rest.head? = some t ∧ g <+: t)
    (hframes : texts.take d ++ f :: more = whole ++ tail) (hd : d ≤ texts.length) :
    ∃ t, texts[d]? = some t ∧ f <+: t := by
  have hget : (whole ++ tail)[d]? = some f := by
    rw [← hframes, List.getElem?_append_right (List.length_take_le d texts)]
    simp [Nat.min_eq_left hd]
  by_cases hlt : d < whole.length
  · rw [List.getElem?_append_left hlt] at hget
    refine ⟨f, ?_, List.prefix_rfl⟩
    rw [htexts, List.getElem?_append_left hlt, hget]
  · have hle := Nat.le_of_not_lt hlt
    rw [List.getElem?_append_right hle] at hget
    have hlast : d - whole.length = 0 := by
      have := (List.getElem?_eq_some_iff.mp hget).1
      omega
    obtain ⟨t, ht, hft⟩ := htail f (List.mem_of_getElem? hget)
    refine ⟨t, ?_, hft⟩
    rw [htexts, List.getElem?_append_right hle, hlast, ← List.head?_eq_getElem?, ht]

variable (hF : F.Lawful ok) (hW : W.Lawful ok)
include hF hW

/-- What came out of a stream so far, with what comes out at its end. -/
theorem Inv.frames_of_read (h : w.Inv F W) {consumed : List Char}
    (hstream : consumed ++ w.transit <+: F.stream (w.all.map W.line)) :
    ∃ whole rest, w.all.map W.line = whole ++ rest ∧ (F.feedAll F.start consumed).2 = whole ∧
      ∀ g, F.finish (F.feedAll F.start consumed).1 = some g → ∃ t, rest.head? = some t ∧
        g <+: t := by
  refine hF.feedAll_prefix (w.all.map W.line) consumed ?_ ((List.prefix_append _ _).trans hstream)
  intro f hf
  obtain ⟨m, hm, rfl⟩ := List.mem_map.mp hf
  exact hW.framed m (h.sendable m hm)

/-- **What a line decodes to is the next message that was written.** -/
theorem Inv.take (h : w.Inv F W) {r : Wire M H × Option M} (htake : w.take W = some r) :
    r.1.Inv F W ∧ r.1.delivered = w.delivered ++ r.2.toList := by
  unfold Wire.take at htake
  split at htake
  · rename_i hreading
    split at htake
    · cases htake
    · rename_i f rest hframes
      obtain ⟨consumed, hstream, hexact, hheld, hout⟩ := h.read
      have hd := h.delivered.length_le
      have htaken : w.delivered.map W.line = (w.all.map W.line).take w.delivered.length := by
        rw [← List.map_take, ← List.prefix_iff_eq_take.mp h.delivered]
      obtain ⟨whole, rest', hall, hwhole, htail⟩ := h.frames_of_read hF hW hstream
      -- the line is at the place of the next message
      obtain ⟨t, ht, hft⟩ : ∃ t, (w.all.map W.line)[w.delivered.length]? = some t ∧ f <+: t := by
        have hlines : (w.all.map W.line).take w.delivered.length ++ f :: rest =
            whole ++ if w.ended then (F.finish w.held).toList else [] := by
          rw [← htaken, ← hframes, ← hwhole]
          exact hout hreading
        refine next_frame hall ?_ ?_ hlines (by simpa using hd)
        · split
          · cases F.finish w.held <;> simp
          · simp
        · intro g hg
          split at hg
          · rw [hheld] at hg
            exact htail g (by simpa using hg)
          · cases hg
      obtain ⟨m, hm, rfl⟩ : ∃ m, w.all[w.delivered.length]? = some m ∧ W.line m = t := by
        rw [List.getElem?_map] at ht
        exact Option.map_eq_some_iff.mp ht
      have hsendable := h.sendable m (List.mem_of_getElem? hm)
      by_cases hwholeLine : f = W.line m
      · rw [hwholeLine, hW.roundTrip m hsendable] at htake
        cases htake
        refine ⟨⟨h.sendable, ?_, consumed, hstream, hexact, hheld, fun _ => ?_⟩, rfl⟩
        · exact prefix_concat h.delivered hm
        · have := hout hreading
          rw [hframes, hwholeLine] at this
          simpa using this
      · obtain ⟨e, he⟩ := hW.unfinished m f hsendable hft hwholeLine
        rw [he] at htake
        cases htake
        exact ⟨⟨h.sendable, h.delivered, consumed, hstream, hexact, hheld, nofun⟩, by simp⟩
  · cases htake

/-- A stream that is not cut and of which nothing is left to read has passed on every message. -/
theorem Inv.complete (h : w.Inv F W) (hread : w.CaughtUp) (hcut : w.cut = none) :
    w.delivered = w.written := by
  obtain ⟨hreading, hended, htransit, hframes⟩ := hread
  obtain ⟨consumed, hstream, hexact, hheld, hout⟩ := h.read
  have hall : w.all = w.written := by simp [all, hcut]
  have hlines : ∀ f ∈ w.all.map W.line, ok f := by
    intro f hf
    obtain ⟨m, hm, rfl⟩ := List.mem_map.mp hf
    exact hW.framed m (h.sendable m hm)
  have hconsumed : consumed = F.stream (w.all.map W.line) := by
    rw [← hexact hcut, htransit, List.append_nil]
  have hout := hout hreading
  rw [hframes, hended, List.append_nil, hconsumed, hF.feedAll_stream _ hlines] at hout
  have hlen := congrArg List.length hout
  rw [← hall]
  exact h.delivered.eq_of_length (by simpa using hlen)

omit hF hW

/-! ## The other steps -/

/-- The reader leaves what was written alone. -/
theorem take_keeps {r : Wire M H × Option M} (htake : w.take W = some r) :
    r.1.written = w.written ∧ r.1.cut = w.cut := by
  unfold Wire.take at htake
  split at htake
  · split at htake
    · cases htake
    · split at htake
      · cases htake
        exact ⟨rfl, rfl⟩
      · cases htake
        exact ⟨rfl, rfl⟩
  · cases htake

theorem Inv.send (h : w.Inv F W) (hcut : w.cut = none) {m : M} (hm : W.Sendable m) :
    (w.send F W m).Inv F W := by
  have hall : (w.send F W m).all = w.all ++ [m] := by simp [Wire.send, all, hcut]
  obtain ⟨consumed, hstream, hexact, hheld, hout⟩ := h.read
  refine ⟨?_, ?_, consumed, ?_, ?_, hheld, hout⟩
  · intro m' hm'
    rw [hall] at hm'
    rcases List.mem_append.mp hm' with hm' | hm'
    · exact h.sendable m' hm'
    · rw [List.mem_singleton.mp hm']
      exact hm
  · rw [hall]
    exact h.delivered.trans (List.prefix_append _ _)
  all_goals
    have hwhole : consumed ++ (w.send F W m).transit =
        F.stream ((w.send F W m).all.map W.line) := by
      rw [hall, List.map_append, Framing.stream_append, ← hexact hcut]
      simp [Wire.send, Framing.stream]
  · rw [hwhole]
  · exact fun _ => hwhole

theorem Inv.sendCut (h : w.Inv F W) (hcut : w.cut = none) {m : M} (hm : W.Sendable m) (n : Nat) :
    (w.sendCut F W m n).Inv F W := by
  have hall : (w.sendCut F W m n).all = w.all ++ [m] := by simp [Wire.sendCut, all, hcut]
  obtain ⟨consumed, hstream, hexact, hheld, hout⟩ := h.read
  refine ⟨?_, ?_, consumed, ?_, nofun, hheld, hout⟩
  · intro m' hm'
    rw [hall] at hm'
    rcases List.mem_append.mp hm' with hm' | hm'
    · exact h.sendable m' hm'
    · rw [List.mem_singleton.mp hm']
      exact hm
  · rw [hall]
    exact h.delivered.trans (List.prefix_append _ _)
  · rw [hall, List.map_append, Framing.stream_append, ← hexact hcut]
    show consumed ++ (w.transit ++ (F.encode (W.line m)).take n) <+: _
    rw [← List.append_assoc]
    refine (List.prefix_append_right_inj _).mpr ?_
    simpa [Framing.stream] using List.take_prefix n (F.encode (W.line m))

theorem Inv.arrive {w' : Wire M H} (h : w.Inv F W) {n : Nat} (harrive : w.arrive F n = some w') :
    w'.Inv F W := by
  unfold Wire.arrive at harrive
  split at harrive
  · cases harrive
  · rename_i hended
    cases harrive
    obtain ⟨consumed, hstream, hexact, hheld, hout⟩ := h.read
    have hsplit : (consumed ++ w.transit.take n) ++ w.transit.drop n = consumed ++ w.transit := by
      rw [List.append_assoc, List.take_append_drop]
    refine ⟨h.sendable, h.delivered, consumed ++ w.transit.take n, ?_, ?_, ?_, ?_⟩
    · exact hsplit ▸ hstream
    · exact fun hcut => hsplit.trans (hexact hcut)
    · rw [Framing.feedAll_append, ← hheld]
    · intro hreading
      have hout := hout hreading
      simp only [Bool.not_eq_true] at hended
      simp only [hended, Bool.false_eq_true, if_false, List.append_nil] at hout ⊢
      rw [Framing.feedAll_append, ← hheld, ← hout, List.append_assoc]

theorem Inv.finish {w' : Wire M H} (h : w.Inv F W) (hfinish : w.finish F = some w') :
    w'.Inv F W := by
  unfold Wire.finish at hfinish
  split at hfinish
  · cases hfinish
  · rename_i hended
    cases hfinish
    obtain ⟨consumed, hstream, hexact, hheld, hout⟩ := h.read
    refine ⟨h.sendable, h.delivered, consumed, hstream, hexact, hheld, fun hreading => ?_⟩
    have hout := hout hreading
    simp only [Bool.not_eq_true] at hended
    simp only [hended, Bool.false_eq_true, if_false, List.append_nil] at hout
    rw [← hout, if_pos rfl, List.append_assoc]

theorem Inv.reset (h : w.Inv F W) : w.reset.Inv F W := by
  obtain ⟨consumed, hstream, hexact, hheld, -⟩ := h.read
  exact ⟨h.sendable, h.delivered, consumed, hstream, hexact, hheld, nofun⟩

end Wire

end XLayerReth.P2p
