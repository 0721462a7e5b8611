import XLayerReth.Lib.Table

/-!
# Outgoing streams

Model of `p2p/outgoing.rs`: the outbound streams a node keeps for its peers.

* `StreamsHandler` — for each peer a map from protocol to stream; a stream is named by the
  connection it was opened on.
* `takeStreams` — the first loop of `broadcast_message`: the stream of the message's protocol is
  taken out of the map of every peer.
* `putBack` — the second loop: a stream on which the send succeeded goes back into the map.
* `broadcastMessage` — both loops, with the two `expect`s as the outcome `panicked`.

The sends run concurrently and finish in any order, which is a parameter (`Polling`).

Principal result: `broadcastMessage_spec` (no `expect` is reached, each peer with a stream is sent
to once, and exactly the streams whose send failed are lost).
-/

set_option autoImplicit false

namespace XLayerReth.P2p

open Lib

/-- The entry of one peer in `peers_to_stream`. -/
structure PeerStreams (P R C : Type) where
  peer : P
  streams : R → Option C

variable {P R C : Type}

/-- `peers_to_stream`. -/
abbrev StreamsHandler (P R C : Type) := Table (PeerStreams P R C) (fun e => e.peer)

namespace StreamsHandler

/-- `peers_to_stream.keys()`. -/
def peers (h : StreamsHandler P R C) : List P := h.entries.map (fun e => e.peer)

variable [DecidableEq P]

/-- `has_peer`. -/
def hasPeer (h : StreamsHandler P R C) (peer : P) : Bool := (h.get? peer).isSome

/-- The stream to a peer on a protocol. -/
def stream? (h : StreamsHandler P R C) (peer : P) (protocol : R) : Option C :=
  (h.get? peer).bind (fun e => e.streams protocol)

/-- `remove_peer`. -/
def removePeer (h : StreamsHandler P R C) (peer : P) : StreamsHandler P R C := h.erase peer

theorem hasPeer_removePeer (h : StreamsHandler P R C) (peer k : P) :
    (h.removePeer peer).hasPeer k = (h.hasPeer k && decide (k ≠ peer)) := by
  rw [removePeer, hasPeer, hasPeer, Table.get?_erase]
  by_cases hk : k = peer <;> simp [hk]

theorem stream?_removePeer (h : StreamsHandler P R C) (peer k : P) (q : R) :
    (h.removePeer peer).stream? k q = if k = peer then none else h.stream? k q := by
  rw [removePeer, stream?, stream?, Table.get?_erase]
  by_cases hk : k = peer <;> simp [hk]

theorem hasPeer_of_stream? {h : StreamsHandler P R C} {peer : P} {q : R} {c : C}
    (hs : h.stream? peer q = some c) : h.hasPeer peer = true := by
  unfold stream? at hs
  unfold hasPeer
  cases hg : h.get? peer with
  | none => simp [hg] at hs
  | some e => rfl

variable [DecidableEq R]

/-- Set or remove one stream in the map of a peer. -/
def setStream (h : StreamsHandler P R C) (peer : P) (protocol : R) (stream : Option C) :
    StreamsHandler P R C :=
  h.map (fun e =>
    if e.peer = peer then { e with streams := Function.update e.streams protocol stream }
    else e) (fun e => by split <;> rfl)

/-- `insert_peer_and_stream`. -/
def insertPeerAndStream (h : StreamsHandler P R C) (peer : P) (protocol : R) (stream : C) :
    StreamsHandler P R C :=
  setStream (h.insertIfAbsent ⟨peer, fun _ => none⟩) peer protocol (some stream)

theorem get?_setStream (h : StreamsHandler P R C) (peer : P) (protocol : R) (stream : Option C)
    (k : P) :
    (h.setStream peer protocol stream).get? k =
      (h.get? k).map (fun e => if e.peer = peer then
        { e with streams := Function.update e.streams protocol stream } else e) :=
  Table.get?_map h _ _ k

@[simp] theorem hasPeer_setStream (h : StreamsHandler P R C) (peer : P) (protocol : R)
    (stream : Option C) (k : P) : (h.setStream peer protocol stream).hasPeer k = h.hasPeer k := by
  rw [hasPeer, get?_setStream, Option.isSome_map]
  rfl

theorem stream?_setStream (h : StreamsHandler P R C) (peer : P) (protocol : R) (stream : Option C)
    (k : P) (q : R) :
    (h.setStream peer protocol stream).stream? k q =
      if k = peer ∧ q = protocol ∧ h.hasPeer k = true then stream else h.stream? k q := by
  unfold stream? hasPeer
  rw [get?_setStream]
  cases hk : h.get? k with
  | none => simp
  | some e =>
    have hpeer : e.peer = k := Table.key_of_get? hk
    by_cases hkp : k = peer
    · subst hkp
      by_cases hq : q = protocol
      · subst hq
        simp [hpeer]
      · simp [hpeer, hq]
    · simp [hpeer, hkp]

theorem hasPeer_insertPeerAndStream (h : StreamsHandler P R C) (peer : P) (protocol : R)
    (stream : C)
    (k : P) :
    (h.insertPeerAndStream peer protocol stream).hasPeer k =
      (h.hasPeer k || decide (k = peer)) := by
  unfold insertPeerAndStream
  rw [hasPeer_setStream, hasPeer, hasPeer, Table.get?_insertIfAbsent]
  by_cases hk : peer = k
  · simp [hk]
  · simp [hk, Ne.symm hk]

theorem stream?_insertPeerAndStream (h : StreamsHandler P R C) (peer : P) (protocol : R)
    (stream : C)
    (k : P) (q : R) :
    (h.insertPeerAndStream peer protocol stream).stream? k q =
      if k = peer ∧ q = protocol then some stream else h.stream? k q := by
  have hdefault : stream? (h.insertIfAbsent ⟨peer, fun _ => none⟩) k q = h.stream? k q := by
    rw [stream?, stream?, Table.get?_insertIfAbsent]
    cases h.get? k with
    | none => by_cases hk : peer = k <;> simp [hk]
    | some e => simp
  have hhas : hasPeer (h.insertIfAbsent ⟨peer, fun _ => none⟩) peer = true := by
    rw [hasPeer, Table.get?_insertIfAbsent]
    simp
  rw [insertPeerAndStream, stream?_setStream, hdefault]
  by_cases hk : k = peer
  · subst hk
    simp [hhas]
  · simp [hk]

end StreamsHandler

open StreamsHandler

variable [DecidableEq P]

/-- The sends of one broadcast, for the peers in the given order. -/
def pendingSends (h : StreamsHandler P R C) (protocol : R) (peers : List P) : List (P × C) :=
  peers.filterMap (fun p => (h.stream? p protocol).map (fun c => (p, c)))

theorem pendingSends_congr {h h' : StreamsHandler P R C} {protocol : R} {peers : List P}
    (hs : ∀ p ∈ peers, h'.stream? p protocol = h.stream? p protocol) :
    pendingSends h' protocol peers = pendingSends h protocol peers :=
  List.filterMap_congr (fun p hp => by rw [hs p hp])

theorem mem_pendingSends {h : StreamsHandler P R C} {protocol : R} {k : P} {c : C} :
    (k, c) ∈ pendingSends h protocol h.peers ↔ h.stream? k protocol = some c := by
  rw [pendingSends, List.mem_filterMap]
  constructor
  · rintro ⟨p, -, hp⟩
    obtain ⟨c', hc', heq⟩ := Option.map_eq_some_iff.mp hp
    cases heq
    exact hc'
  · intro hc
    obtain ⟨e, he⟩ := Option.isSome_iff_exists.mp (hasPeer_of_stream? hc)
    exact ⟨k, List.mem_map.mpr ⟨e, Table.mem_of_get? he, Table.key_of_get? he⟩, by rw [hc]; rfl⟩

theorem pendingSends_sublist (h : StreamsHandler P R C) (protocol : R) : ∀ peers : List P,
    ((pendingSends h protocol peers).map Prod.fst).Sublist peers
  | [] => List.Sublist.refl _
  | p :: peers => by
    have ih := pendingSends_sublist h protocol peers
    unfold pendingSends at ih ⊢
    cases hp : h.stream? p protocol with
    | none => simpa [hp] using ih.cons p
    | some c => simpa [hp] using ih.cons_cons p

/-- Among the sends that succeed there is one for each peer with such a stream. -/
theorem pendingSends_filter (h : StreamsHandler P R C) (protocol : R) (sendOk : C → Bool) (k : P) :
    ((pendingSends h protocol h.peers).filter (fun x => sendOk x.2)).filter
        (fun x => x.1 = k) =
      (((h.stream? k protocol).filter sendOk).map (fun c => (k, c))).toList := by
  have hone := Table.filter_filterMap h
    (show ∀ (e : PeerStreams P R C) (x : P × C),
      ((h.stream? e.peer protocol).map (fun c => (e.peer, c))).filter (fun x => sendOk x.2) =
        some x →
        x.1 = e.peer from ?_) k
  · rw [pendingSends, peers, List.filterMap_map, List.filter_filterMap]
    refine hone.trans ?_
    congr 1
    unfold stream?
    cases hk : h.get? k with
    | none => rfl
    | some e =>
      have hpeer : e.peer = k := Table.key_of_get? hk
      subst hpeer
      show ((((h.get? e.peer).bind (fun e => e.streams protocol)).map (fun c => (e.peer, c))).filter
        (fun x => sendOk x.2)) = ((e.streams protocol).filter sendOk).map (fun c => (e.peer, c))
      rw [hk, Option.bind_some]
      cases e.streams protocol with
      | none => rfl
      | some c => by_cases hc : sendOk c = true <;> simp [Option.filter, hc]
  · intro e x hx
    rw [Option.filter_eq_some_iff, Option.map_eq_some_iff] at hx
    obtain ⟨⟨c, -, rfl⟩, -⟩ := hx
    rfl

variable [DecidableEq R]

/-! ## Broadcasting -/

/-- The order in which the pending sends finish. -/
structure Polling (P C : Type) where
  order : List (P × C) → List (P × C)
  perm : ∀ futures, (order futures).Perm futures

/-- What `broadcast_message` comes to. -/
inductive Outcome (P R C : Type) where
  | panicked (message : String)
  | failed (error : String)
  /-- The streams afterwards, and the peers and streams that were sent to. -/
  | done (handler : StreamsHandler P R C) (sent : List (P × C))

/-- The first loop: a peer without a stream for the protocol is skipped. -/
def takeStreams (protocol : R) : List P → StreamsHandler P R C →
    Except String (StreamsHandler P R C × List (P × C))
  | [], h => .ok (h, [])
  | peer :: peers, h =>
    match h.get? peer with
    | none => .error "stream map must exist for peer"
    | some e =>
      match e.streams protocol with
      | none => takeStreams protocol peers h
      | some stream => do
        let (h, futures) ← takeStreams protocol peers (h.setStream peer protocol none)
        return (h, (peer, stream) :: futures)

/-- The second loop: the stream of a failed send is dropped. -/
def putBack (protocol : R) (sendOk : C → Bool) : List (P × C) → StreamsHandler P R C →
    Except String (StreamsHandler P R C × List (P × C))
  | [], h => .ok (h, [])
  | (peer, stream) :: results, h =>
    if sendOk stream then
      match h.get? peer with
      | none => .error "stream map must exist for peer"
      | some _ => do
        let (h, sent) ← putBack protocol sendOk results (h.setStream peer protocol (some stream))
        return (h, (peer, stream) :: sent)
    else putBack protocol sendOk results h

/-- `broadcast_message`: `payload` is the serialized message, or why it could not be serialized. -/
def broadcastMessage (h : StreamsHandler P R C) (protocol : R) (payload : Except String String)
    (polling : Polling P C) (sendOk : C → Bool) : Outcome P R C :=
  match payload with
  | .error e => .failed e
  | .ok _ =>
    match takeStreams protocol h.peers h with
    | .error m => .panicked m
    | .ok (h, futures) =>
      match putBack protocol sendOk (polling.order futures) h with
      | .error m => .panicked m
      | .ok (h, sent) => .done h sent

/-- The first loop takes the stream of every listed peer and leaves the entries in place. -/
theorem takeStreams_spec (protocol : R) :
    ∀ (peers : List P) (h : StreamsHandler P R C), peers.Nodup →
    (∀ p ∈ peers, h.hasPeer p = true) →
    ∃ h', takeStreams protocol peers h = .ok (h', pendingSends h protocol peers) ∧
      (∀ k, h'.hasPeer k = h.hasPeer k) ∧
      ∀ k q, h'.stream? k q = if q = protocol ∧ k ∈ peers then none else h.stream? k q
  | [], h, _, _ => ⟨h, rfl, fun _ => rfl, fun k q => by simp⟩
  | peer :: peers, h, hnodup, hhas => by
    rw [List.nodup_cons] at hnodup
    have hpeer := hhas peer (List.mem_cons_self ..)
    obtain ⟨e, he⟩ := Option.isSome_iff_exists.mp hpeer
    cases hs : e.streams protocol with
    | none =>
      have hnone : h.stream? peer protocol = none := by simp [stream?, he, hs]
      obtain ⟨h', hok, hhas', hstream⟩ := takeStreams_spec protocol peers h hnodup.2
        (fun p hp => hhas p (List.mem_cons_of_mem _ hp))
      refine ⟨h', ?_, hhas', fun k q => ?_⟩
      · simp [takeStreams, he, hs, hok, pendingSends, hnone]
      · rw [hstream]
        by_cases hk : k = peer
        · subst hk
          by_cases hq : q = protocol
          · subst hq
            simp [hnone]
          · simp [hq]
        · simp [hk]
    | some stream =>
      have hsome : h.stream? peer protocol = some stream := by simp [stream?, he, hs]
      obtain ⟨h', hok, hhas', hstream⟩ := takeStreams_spec protocol peers
        (h.setStream peer protocol none) hnodup.2
        (fun p hp => by rw [hasPeer_setStream]; exact hhas p (List.mem_cons_of_mem _ hp))
      have hrest : pendingSends (h.setStream peer protocol none) protocol peers =
          pendingSends h protocol peers := by
        apply pendingSends_congr
        intro p hp
        have hne : p ≠ peer := fun h => hnodup.1 (h ▸ hp)
        rw [stream?_setStream, if_neg (fun h => hne h.1)]
      refine ⟨h', ?_, fun k => by rw [hhas', hasPeer_setStream], fun k q => ?_⟩
      · simp only [takeStreams, he, hs, hok, hrest, bind, Except.bind]
        simp [pendingSends, hsome, pure, Except.pure]
      · rw [hstream, stream?_setStream]
        by_cases hk : k = peer
        · subst hk
          by_cases hq : q = protocol
          · subst hq
            simp [hpeer]
          · simp [hq]
        · simp [hk]

/-- The second loop puts back the streams whose send succeeded. -/
theorem putBack_spec (protocol : R) (sendOk : C → Bool) : ∀ (results : List (P × C))
    (h : StreamsHandler P R C), (results.map Prod.fst).Nodup →
    (∀ x ∈ results, h.hasPeer x.1 = true) →
    ∃ h', putBack protocol sendOk results h = .ok (h', results.filter (fun x => sendOk x.2)) ∧
      (∀ k, h'.hasPeer k = h.hasPeer k) ∧
      (∀ k q, q ≠ protocol → h'.stream? k q = h.stream? k q) ∧
      (∀ k c, (k, c) ∈ results → sendOk c = true → h'.stream? k protocol = some c) ∧
      (∀ k, (∀ c, (k, c) ∈ results → sendOk c = false) →
        h'.stream? k protocol = h.stream? k protocol)
  | [], h, _, _ =>
    ⟨h, rfl, fun _ => rfl, fun _ _ _ => rfl, fun _ _ hm => (by cases hm), fun _ _ => rfl⟩
  | (peer, stream) :: results, h, hnodup, hhas => by
    rw [List.map_cons, List.nodup_cons] at hnodup
    have hother : ∀ c, (peer, c) ∉ results :=
      fun c hc => hnodup.1 (List.mem_map.mpr ⟨(peer, c), hc, rfl⟩)
    have hpeer := hhas (peer, stream) (List.mem_cons_self ..)
    obtain ⟨e, he⟩ := Option.isSome_iff_exists.mp hpeer
    by_cases hsend : sendOk stream = true
    · obtain ⟨h', hok, hhas', hframe, hsent, hkept⟩ := putBack_spec protocol sendOk results
        (h.setStream peer protocol (some stream)) hnodup.2
        (fun x hx => by rw [hasPeer_setStream]; exact hhas x (List.mem_cons_of_mem _ hx))
      refine ⟨h', ?_, fun k => by rw [hhas', hasPeer_setStream], ?_, ?_, ?_⟩
      · simp only [putBack, hsend, if_true, he, hok, bind, Except.bind]
        simp [hsend, pure, Except.pure]
      · intro k q hq
        rw [hframe k q hq, stream?_setStream, if_neg (fun h => hq h.2.1)]
      · intro k c hmem hc
        rcases List.mem_cons.mp hmem with heq | hmem
        · obtain ⟨rfl, rfl⟩ := Prod.mk.inj heq
          rw [hkept k (fun c hc => absurd hc (hother c)), stream?_setStream,
            if_pos ⟨rfl, rfl, hpeer⟩]
        · exact hsent k c hmem hc
      · intro k hk
        have hne : k ≠ peer := by
          rintro rfl
          simp [hk stream (List.mem_cons_self ..)] at hsend
        rw [hkept k (fun c hc => hk c (List.mem_cons_of_mem _ hc)), stream?_setStream,
          if_neg (fun h => hne h.1)]
    · obtain ⟨h', hok, hhas', hframe, hsent, hkept⟩ :=
        putBack_spec protocol sendOk results h hnodup.2
        (fun x hx => hhas x (List.mem_cons_of_mem _ hx))
      refine ⟨h', ?_, hhas', hframe, ?_, ?_⟩
      · simp [putBack, hsend, hok]
      · intro k c hmem hc
        rcases List.mem_cons.mp hmem with heq | hmem
        · cases heq
          exact absurd hc hsend
        · exact hsent k c hmem hc
      · intro k hk
        exact hkept k (fun c hc => hk c (List.mem_cons_of_mem _ hc))

/-- **`broadcast_message`**: no `expect` is reached; a peer with a stream for the protocol on which
the send succeeds is sent to exactly once, and no other peer; the entries stay, and of the streams
only those are lost whose send failed. -/
theorem broadcastMessage_spec (h : StreamsHandler P R C) (protocol : R) (text : String)
    (polling : Polling P C) (sendOk : C → Bool) :
    ∃ h' sent, broadcastMessage h protocol (.ok text) polling sendOk = .done h' sent ∧
      (∀ k, h'.hasPeer k = h.hasPeer k) ∧
      (∀ k q, h'.stream? k q =
        if q = protocol then (h.stream? k q).filter sendOk else h.stream? k q) ∧
      ∀ k, sent.filter (fun x => x.1 = k) =
        (((h.stream? k protocol).filter sendOk).map (fun c => (k, c))).toList := by
  have hkeys : ∀ p ∈ h.peers, h.hasPeer p = true := by
    intro p hp
    obtain ⟨e, he, rfl⟩ := List.mem_map.mp hp
    rw [hasPeer, Table.get?_of_mem he]
    rfl
  obtain ⟨h₁, htake, hhas₁, hstream₁⟩ := takeStreams_spec protocol h.peers h h.nodup hkeys
  have hperm := polling.perm (pendingSends h protocol h.peers)
  have hmem : ∀ k c, (k, c) ∈ polling.order (pendingSends h protocol h.peers) ↔
      h.stream? k protocol = some c := fun k c => hperm.mem_iff.trans mem_pendingSends
  have hnodup := (hperm.map Prod.fst).nodup_iff.mpr
    (h.nodup.sublist (pendingSends_sublist h protocol h.peers))
  have hone : ∀ k,
      ((polling.order (pendingSends h protocol h.peers)).filter
        (fun x => sendOk x.2)).filter (fun x => x.1 = k) =
      (((h.stream? k protocol).filter sendOk).map (fun c => (k, c))).toList := by
    intro k
    have hk := (hperm.filter (fun x => sendOk x.2)).filter (fun x => decide (x.1 = k))
    rw [pendingSends_filter] at hk
    cases hs : ((h.stream? k protocol).filter sendOk).map (fun c => (k, c)) with
    | none => exact List.perm_nil.mp (by rwa [hs] at hk)
    | some x => exact List.perm_singleton.mp (by rwa [hs] at hk)
  obtain ⟨h₂, hput, hhas₂, hframe, hsent, hkept⟩ := putBack_spec protocol sendOk _ h₁ hnodup
    (fun x hx => by rw [hhas₁]; exact hasPeer_of_stream? ((hmem x.1 x.2).mp hx))
  refine ⟨h₂, _, by simp only [broadcastMessage, htake, hput], fun k => by rw [hhas₂, hhas₁],
    fun k q => ?_, hone⟩
  by_cases hq : q = protocol
  · subst hq
    rw [if_pos rfl]
    cases hs : h.stream? k q with
    | none =>
      have hno : ∀ c, (k, c) ∉ polling.order (pendingSends h q h.peers) := by
        intro c hc
        rw [hmem, hs] at hc
        cases hc
      rw [hkept k (fun c hc => absurd hc (hno c)), hstream₁, hs, ite_self, Option.filter_none]
    | some c =>
      by_cases hc : sendOk c = true
      · rw [hsent k c ((hmem k c).mpr hs) hc, Option.filter_some_pos hc]
      · -- the stream of the failed send is not put back
        have hlost : ∀ c', (k, c') ∈ polling.order
            (pendingSends h q h.peers) → sendOk c' = false := by
          intro c' hc'
          rw [hmem, hs, Option.some.injEq] at hc'
          simpa [hc'] using hc
        obtain ⟨e, he⟩ := Option.isSome_iff_exists.mp (hasPeer_of_stream? hs)
        have hkey : k ∈ h.peers :=
          List.mem_map.mpr ⟨e, Table.mem_of_get? he, Table.key_of_get? he⟩
        rw [hkept k hlost, hstream₁, if_pos ⟨rfl, hkey⟩, Option.filter_some_neg (by simpa using hc)]
  · rw [if_neg hq, hframe k q hq, hstream₁, if_neg (fun h => hq h.1)]

theorem broadcastMessage_ne_panicked (h : StreamsHandler P R C) (protocol : R)
    (payload : Except String String) (polling : Polling P C) (sendOk : C → Bool) (m : String) :
    broadcastMessage h protocol payload polling sendOk ≠ .panicked m := by
  cases payload with
  | error e => simp [broadcastMessage]
  | ok text =>
    obtain ⟨h', sent, hdone, -⟩ := broadcastMessage_spec h protocol text polling sendOk
    rw [hdone]
    simp

end XLayerReth.P2p
