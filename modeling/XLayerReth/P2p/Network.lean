import Mathlib.Data.List.Perm.Subperm
import XLayerReth.Lib.Runs
import XLayerReth.P2p.Outgoing
import XLayerReth.P2p.Wire

/-!
# Nodes that broadcast to each other

Any number of nodes, each with its outgoing channel, its outgoing streams and the channel on which
the readers of its incoming streams pass on what they read.  Connections come and go at either end
on its own; a send may fail after any part of a line, and a stream may end or fail at any place.

* `Endpoint`, `Stream`, `Network` — a node, a stream from one node to another, and the whole.
* `NetAction`, `Network.step` — one step of a node, of a reader or of a stream.
* `Network.Inv` — every stream carries, in order, what its source broadcast from some place on.

Principal result: `Network.run_inv`.
-/

set_option autoImplicit false

namespace XLayerReth.P2p

open XLayerReth.Lib

variable {P R M H : Type}

structure Stream (P M H : Type) where
  source : P
  target : P
  /-- How many messages its source had broadcast when it was opened. -/
  start : Nat
  wire : Wire M H

structure Endpoint (P R M : Type) where
  /-- The outgoing channel of the node. -/
  outgoing : List M
  /-- The incoming channel, each message with the stream it came over. -/
  incoming : List (Nat × M)
  handler : StreamsHandler P R Nat
  /-- What was put on the outgoing channel. -/
  posted : List M
  /-- What was taken off it and broadcast. -/
  broadcast : List M
  /-- What was taken off the incoming channel. -/
  accepted : List (Nat × M)

structure Network (P R M H : Type) where
  nodes : P → Endpoint P R M
  /-- Every stream that was ever opened, by its number. -/
  streams : List (Stream P M H)

inductive NetAction (P M : Type) where
  | post (a : P) (message : M)
  | accept (b : P)
  /-- `ConnectionEstablished` at one end; a stream can be opened on the connection, or not. -/
  | established (a b : P) (opened : Bool)
  /-- `ConnectionClosed` at one end. -/
  | closed (a b : P)
  /-- A message is broadcast; a send that fails has sent `cut` characters. -/
  | broadcast (a : P) (polling : Polling P Nat) (sendOk : Nat → Bool) (cut : Nat → Nat)
  | arrive (c n : Nat)
  | finish (c : Nat)
  | reset (c : Nat)
  | take (c : Nat)

/-- The capacity of both channels of a node. -/
def channelSize : Nat := 100

def Endpoint.new : Endpoint P R M := ⟨[], [], Table.empty, [], [], []⟩

/-- An action of the p2p nodes and their streams, not of those who use them. -/
def NetAction.ofTransport : NetAction P M → Bool
  | .post _ _ | .accept _ => false
  | _ => true

/-- What an action puts on the outgoing channel of a node. -/
def NetAction.posts [DecidableEq P] (k : P) : NetAction P M → List M
  | .post a m => if k = a then [m] else []
  | _ => []

/-- What an action takes off the incoming channel of a node. -/
def NetAction.accepts [DecidableEq P] (net : Network P R M H) (k : P) :
    NetAction P M → List (Nat × M)
  | .accept b => if k = b then (net.nodes b).incoming.take 1 else []
  | _ => []

namespace Network

def new : Network P R M H := ⟨fun _ => Endpoint.new, []⟩

/-- What can be put on the wire. -/
def onWire (W : MessageCodec M) (messages : List M) : List M :=
  messages.filter (fun m => (W.toString m).toOption.isSome)

variable [DecidableEq P]

def setNode (net : Network P R M H) (a : P) (n : Endpoint P R M) : Network P R M H :=
  { net with nodes := Function.update net.nodes a n }

def setWire (net : Network P R M H) (c : Nat) (s : Stream P M H) (w : Wire M H) : Network P R M H :=
  { net with streams := net.streams.set c { s with wire := w } }

/-- What a broadcast does to a stream: the message is sent, or sent in part, or the stream is not
    one that it goes to. -/
def carry (F : Framing Char H) (W : MessageCodec M) (pending sent : List (P × Nat)) (m : M)
    (cut : Nat → Nat) (c : Nat) (s : Stream P M H) : Stream P M H :=
  if (s.target, c) ∈ sent then { s with wire := s.wire.send F W m }
  else if (s.target, c) ∈ pending then { s with wire := s.wire.sendCut F W m (cut c) }
  else s

/-- One step; `none` when the action is not enabled. -/
def step [DecidableEq R] (F : Framing Char H) (W : MessageCodec M) (protocol : R)
    (net : Network P R M H) :
    NetAction P M → Option (Network P R M H)
  | .post a m =>
    let n := net.nodes a
    if n.outgoing.length < channelSize then
      some (net.setNode a { n with outgoing := n.outgoing ++ [m], posted := n.posted ++ [m] })
    else none
  | .accept b =>
    let n := net.nodes b
    match n.incoming with
    | [] => none
    | x :: rest => some (net.setNode b { n with incoming := rest, accepted := n.accepted ++ [x] })
  | .established a b opened =>
    let n := net.nodes a
    if n.handler.hasPeer b ∨ opened = false then some net
    else
      some
        { nodes := Function.update net.nodes a
            { n with handler := n.handler.insertPeerAndStream b protocol net.streams.length }
          streams := net.streams ++ [⟨a, b, (onWire W n.broadcast).length, Wire.new F⟩] }
  | .closed a b =>
    let n := net.nodes a
    some (net.setNode a { n with handler := n.handler.removePeer b })
  | .broadcast a polling sendOk cut =>
    let n := net.nodes a
    match n.outgoing with
    | [] => none
    | m :: rest =>
      match broadcastMessage n.handler protocol (W.toString m) polling sendOk with
      | .panicked _ => none
      | .failed _ =>
        some (net.setNode a { n with outgoing := rest, broadcast := n.broadcast ++ [m] })
      | .done handler sent =>
        some
          { nodes := Function.update net.nodes a
              { n with outgoing := rest, broadcast := n.broadcast ++ [m], handler := handler }
            streams := net.streams.mapIdx
              (carry F W (pendingSends n.handler protocol n.handler.peers) sent m cut) }
  | .arrive c n =>
    (net.streams[c]?).bind (fun s => (s.wire.arrive F n).map (net.setWire c s))
  | .finish c => (net.streams[c]?).bind (fun s => (s.wire.finish F).map (net.setWire c s))
  | .reset c => (net.streams[c]?).map (fun s => net.setWire c s s.wire.reset)
  | .take c =>
    (net.streams[c]?).bind (fun s => (s.wire.take W).bind (fun r =>
      match r.2 with
      | none => some (net.setWire c s r.1)
      | some m =>
        let n := net.nodes s.target
        if n.incoming.length < channelSize then
          some ((net.setWire c s r.1).setNode s.target
            { n with incoming := n.incoming ++ [(c, m)] })
        else none))

/-! ## What every stream carries -/

/-- What a node took off its incoming channel or will, in order. -/
def received (net : Network P R M H) (b : P) : List (Nat × M) :=
  (net.nodes b).accepted ++ (net.nodes b).incoming

/-- What of it came over one stream. -/
def receivedOver (net : Network P R M H) (b : P) (c : Nat) : List M :=
  ((net.received b).filter (fun x => x.1 = c)).map Prod.snd

/-- What a node has put on the wire. -/
def aired (W : MessageCodec M) (net : Network P R M H) (a : P) : List M :=
  onWire W (net.nodes a).broadcast

structure StreamInv (F : Framing Char H) (W : MessageCodec M) (net : Network P R M H) (c : Nat)
    (s : Stream P M H) : Prop where
  wire : s.wire.Inv F W
  start : s.start ≤ (net.aired W s.source).length
  segment : s.wire.all <+: (net.aired W s.source).drop s.start
  arrived : net.receivedOver s.target c = s.wire.delivered

/-- A stream that its source keeps: it carries all since it was opened, and it is the last one to
    its target. -/
structure Current (W : MessageCodec M) (net : Network P R M H) (a b : P) (c : Nat)
    (s : Stream P M H) : Prop where
  found : net.streams[c]? = some s
  source : s.source = a
  target : s.target = b
  uncut : s.wire.cut = none
  written : s.wire.written = (net.aired W a).drop s.start
  last : ∀ c' s', c < c' → net.streams[c']? = some s' → ¬ (s'.source = a ∧ s'.target = b)

structure Inv (F : Framing Char H) (W : MessageCodec M) (protocol : R) (net : Network P R M H) :
    Prop where
  posted : ∀ a, (net.nodes a).posted = (net.nodes a).broadcast ++ (net.nodes a).outgoing
  streams : ∀ c s, net.streams[c]? = some s → StreamInv F W net c s
  current : ∀ a b c, (net.nodes a).handler.stream? b protocol = some c → ∃ s, Current W net a b c s
  known : ∀ b, ∀ x ∈ net.received b, ∃ s, net.streams[x.1]? = some s ∧ s.target = b
  ordered : ∀ (c c' : Nat) (s s' : Stream P M H), c < c' → net.streams[c]? = some s →
    net.streams[c']? = some s' →
    s.source = s'.source → s.target = s'.target → s.start + s.wire.all.length ≤ s'.start

variable {F : Framing Char H} {W : MessageCodec M} {protocol : R} {net : Network P R M H}

theorem inv_new : (new : Network P R M H).Inv F W protocol where
  posted _ := rfl
  streams c s h := by simp [new] at h
  current a b c h := by simp [new, Endpoint.new, StreamsHandler.stream?, Table.get?_empty] at h
  known b x hx := by simp [received, new, Endpoint.new] at hx
  ordered c c' s s' _ h := by simp [new] at h

@[simp] theorem setNode_self (a : P) (n : Endpoint P R M) : (net.setNode a n).nodes a = n :=
  Function.update_self ..

theorem setNode_ne {a b : P} (h : b ≠ a) (n : Endpoint P R M) :
    (net.setNode a n).nodes b = net.nodes b := Function.update_of_ne h ..

/-! ## Steps that send nothing -/

/-- A step of one node that neither sends nor takes anything off the air. -/
theorem Inv.setNode (h : net.Inv F W protocol) {a : P} {n : Endpoint P R M}
    (hposted : n.posted = n.broadcast ++ n.outgoing)
    (haired : onWire W n.broadcast = net.aired W a)
    (hreceived : n.accepted ++ n.incoming = net.received a)
    (hkept : ∀ b c, n.handler.stream? b protocol = some c →
      (net.nodes a).handler.stream? b protocol = some c) :
    (net.setNode a n).Inv F W protocol := by
  have haired' : ∀ b, (net.setNode a n).aired W b = net.aired W b := by
    intro b
    unfold aired
    by_cases hb : b = a
    · rw [hb, setNode_self, haired, aired]
    · rw [setNode_ne hb]
  have hreceived' : ∀ b, (net.setNode a n).received b = net.received b := by
    intro b
    unfold received
    by_cases hb : b = a
    · rw [hb, setNode_self, hreceived, received]
    · rw [setNode_ne hb]
  constructor
  · intro b
    by_cases hb : b = a
    · rw [hb, setNode_self, hposted]
    · rw [setNode_ne hb, h.posted]
  · intro c s hs
    obtain ⟨hwire, hstart, hsegment, harrived⟩ := h.streams c s hs
    refine ⟨hwire, ?_, ?_, ?_⟩
    · rw [haired']
      exact hstart
    · rw [haired']
      exact hsegment
    · rw [receivedOver, hreceived']
      exact harrived
  · intro a' b c hc
    have hold : (net.nodes a').handler.stream? b protocol = some c := by
      by_cases ha : a' = a
      · rw [ha, setNode_self] at hc
        rw [ha]
        exact hkept b c hc
      · rwa [setNode_ne ha] at hc
    obtain ⟨s, hs⟩ := h.current a' b c hold
    exact ⟨s, hs.found, hs.source, hs.target, hs.uncut, by rw [haired']; exact hs.written, hs.last⟩
  · intro b x hx
    rw [hreceived'] at hx
    exact h.known b x hx
  · exact h.ordered

/-! ## Readers -/

/-- A reader has passed some messages on. -/
def deliver (net : Network P R M H) (c : Nat) (s : Stream P M H) (w : Wire M H) (passed : List M) :
    Network P R M H :=
  (net.setWire c s w).setNode s.target
    { net.nodes s.target with
      incoming := (net.nodes s.target).incoming ++ passed.map (fun m => (c, m)) }

theorem deliver_nil (c : Nat) (s : Stream P M H) (w : Wire M H) :
    net.deliver c s w [] = net.setWire c s w := by
  simp [deliver, Network.setNode, Network.setWire]

theorem getElem?_deliver {c : Nat} {s : Stream P M H} (hs : net.streams[c]? = some s)
    (w : Wire M H) (passed : List M) (k : Nat) :
    (net.deliver c s w passed).streams[k]? =
      if k = c then some { s with wire := w } else net.streams[k]? := by
  have hlen := (List.getElem?_eq_some_iff.mp hs).1
  show (net.streams.set c { s with wire := w })[k]? = _
  by_cases hk : k = c
  · rw [hk, if_pos rfl, List.getElem?_set_self hlen]
  · rw [if_neg hk, List.getElem?_set_ne (Ne.symm hk)]

theorem deliver_node (c : Nat) (s : Stream P M H) (w : Wire M H) (passed : List M) (a : P) :
    (net.deliver c s w passed).aired W a = net.aired W a ∧
      ((net.deliver c s w passed).nodes a).handler = (net.nodes a).handler ∧
      (net.deliver c s w passed).received a = net.received a ++
        if a = s.target then passed.map (fun m => (c, m)) else [] := by
  by_cases ha : a = s.target
  · subst ha
    simp [deliver, aired, received]
  · simp [deliver, aired, received, Network.setNode, Network.setWire, ha]

theorem filter_tagged (c k : Nat) : ∀ passed : List M,
    ((passed.map (fun m => (c, m))).filter (fun x => x.1 = k)).map Prod.snd =
      if k = c then passed else []
  | [] => by simp
  | m :: passed => by
    have ih := filter_tagged c k passed
    by_cases hk : k = c
    · rw [if_pos hk] at ih ⊢
      rw [List.map_cons, List.filter_cons_of_pos (by simpa using hk.symm), List.map_cons, ih]
    · rw [if_neg hk] at ih ⊢
      rw [List.map_cons, List.filter_cons_of_neg (by simpa using Ne.symm hk), ih]

/-- **A reader passes on the next messages of its stream.** -/
theorem Inv.deliver (h : net.Inv F W protocol) {c : Nat} {s : Stream P M H}
    (hs : net.streams[c]? = some s) {w : Wire M H} (hw : w.Inv F W)
    (hwritten : w.written = s.wire.written) (hcut : w.cut = s.wire.cut) {passed : List M}
    (hdelivered : w.delivered = s.wire.delivered ++ passed) :
    (net.deliver c s w passed).Inv F W protocol := by
  have hall : w.all = s.wire.all := by rw [Wire.all, Wire.all, hwritten, hcut]
  have haired : ∀ a, (net.deliver c s w passed).aired W a = net.aired W a :=
    fun a => (deliver_node c s w passed a).1
  have hover : ∀ b k, (net.deliver c s w passed).receivedOver b k = net.receivedOver b k ++
      if b = s.target ∧ k = c then passed else [] := by
    intro b k
    unfold receivedOver
    rw [(deliver_node (W := W) c s w passed b).2.2, List.filter_append, List.map_append]
    congr 1
    by_cases hb : b = s.target
    · simp [hb, filter_tagged]
    · simp [hb]
  have hback : ∀ {j : Nat} {u : Stream P M H}, (net.deliver c s w passed).streams[j]? = some u →
      ∃ u₀, net.streams[j]? = some u₀ ∧ u.source = u₀.source ∧ u.target = u₀.target ∧
        u.start = u₀.start ∧ u.wire.all = u₀.wire.all := by
    intro j u hu
    rw [getElem?_deliver hs] at hu
    split at hu
    · rename_i hj
      cases hu
      exact ⟨s, hj ▸ hs, rfl, rfl, rfl, hall⟩
    · exact ⟨u, hu, rfl, rfl, rfl, rfl⟩
  constructor
  · intro a
    by_cases ha : a = s.target
    · rw [ha]
      simpa [Network.deliver] using h.posted s.target
    · simpa [Network.deliver, Network.setNode, Network.setWire, Function.update_of_ne ha]
        using h.posted a
  · intro k t ht
    rw [getElem?_deliver hs] at ht
    split at ht
    · rename_i hk
      cases ht
      obtain ⟨-, hstart, hsegment, harrived⟩ := h.streams c s hs
      refine ⟨hw, ?_, ?_, ?_⟩
      · rw [haired]
        exact hstart
      · rw [haired]
        exact hall ▸ hsegment
      · rw [hover, if_pos ⟨rfl, hk⟩, hk, harrived, hdelivered]
    · rename_i hk
      obtain ⟨hwire, hstart, hsegment, harrived⟩ := h.streams k t ht
      refine ⟨hwire, ?_, ?_, ?_⟩
      · rw [haired]
        exact hstart
      · rw [haired]
        exact hsegment
      · rw [hover, if_neg (fun heq => hk heq.2), List.append_nil, harrived]
  · intro a b k hk
    rw [(deliver_node (W := W) c s w passed a).2.1] at hk
    obtain ⟨t, ht⟩ := h.current a b k hk
    have hlast : ∀ c' s', k < c' → (net.deliver c s w passed).streams[c']? = some s' →
        ¬ (s'.source = a ∧ s'.target = b) := by
      intro c' s' hlt hc'
      obtain ⟨u, hu, hsource, htarget, -⟩ := hback hc'
      rw [hsource, htarget]
      exact ht.last c' u hlt hu
    by_cases hkc : k = c
    · obtain rfl : t = s := by
        have := ht.found
        rw [hkc, hs] at this
        exact (Option.some.inj this).symm
      exact ⟨{ t with wire := w }, by rw [getElem?_deliver hs, if_pos hkc], ht.source, ht.target,
        hcut.trans ht.uncut, by rw [haired]; exact hwritten.trans ht.written, hlast⟩
    · exact ⟨t, by rw [getElem?_deliver hs, if_neg hkc]; exact ht.found, ht.source, ht.target,
        ht.uncut, by rw [haired]; exact ht.written, hlast⟩
  · intro b x hx
    rw [(deliver_node (W := W) c s w passed b).2.2] at hx
    have hold : ∃ u, net.streams[x.1]? = some u ∧ u.target = b := by
      rcases List.mem_append.mp hx with hx | hx
      · exact h.known b x hx
      · split at hx
        · rename_i hb
          obtain ⟨m, -, rfl⟩ := List.mem_map.mp hx
          exact ⟨s, hs, hb.symm⟩
        · cases hx
    obtain ⟨u, hu, htarget⟩ := hold
    rw [getElem?_deliver hs]
    by_cases hxc : x.1 = c
    · rw [hxc, hs] at hu
      cases hu
      exact ⟨{ s with wire := w }, if_pos hxc, htarget⟩
    · exact ⟨u, by rw [if_neg hxc, hu], htarget⟩
  · intro k k' t t' hlt ht ht' hsource htarget
    obtain ⟨u, hu, hus, hut, hustart, huall⟩ := hback ht
    obtain ⟨u', hu', hus', hut', hustart', -⟩ := hback ht'
    rw [hustart, huall, hustart']
    exact h.ordered k k' u u' hlt hu hu' (hus ▸ hus' ▸ hsource) (hut ▸ hut' ▸ htarget)

/-- A step of a reader that passes nothing on. -/
theorem Inv.setWire (h : net.Inv F W protocol) {c : Nat} {s : Stream P M H}
    (hs : net.streams[c]? = some s) {w : Wire M H} (hw : w.Inv F W)
    (hwritten : w.written = s.wire.written) (hcut : w.cut = s.wire.cut)
    (hdelivered : w.delivered = s.wire.delivered) : (net.setWire c s w).Inv F W protocol := by
  rw [← deliver_nil]
  exact h.deliver hs hw hwritten hcut (by rw [hdelivered, List.append_nil])

/-! ## A new stream -/

omit [DecidableEq P] in
/-- The part of a stream that was written lies within what its source has on the air. -/
theorem StreamInv.end_le {c : Nat} {s : Stream P M H} (h : StreamInv F W net c s) :
    s.start + s.wire.all.length ≤ (net.aired W s.source).length := by
  have hlen := h.segment.length_le
  have hstart := h.start
  rw [List.length_drop] at hlen
  omega

/-- **A stream is opened** to a peer that has none. -/
theorem Inv.opened [DecidableEq R] (h : net.Inv F W protocol) {a b : P}
    (hnone : (net.nodes a).handler.hasPeer b = false) :
    Inv F W protocol
      { nodes := Function.update net.nodes a { net.nodes a with
          handler := (net.nodes a).handler.insertPeerAndStream b protocol net.streams.length }
        streams := net.streams ++
          [⟨a, b, (onWire W (net.nodes a).broadcast).length, Wire.new F⟩] } := by
  generalize hnet : (⟨Function.update net.nodes a _, _⟩ : Network P R M H) = net'
  have hnodes : ∀ k, (net'.nodes k).posted = (net.nodes k).posted ∧
      (net'.nodes k).broadcast = (net.nodes k).broadcast ∧
      (net'.nodes k).outgoing = (net.nodes k).outgoing ∧
      net'.received k = net.received k := by
    intro k
    subst hnet
    by_cases hk : k = a
    · subst hk
      simp [received]
    · simp [received, Function.update_of_ne hk]
  have hstreams : net'.streams = net.streams ++
      [⟨a, b, (net.aired W a).length, Wire.new F⟩] := by
    subst hnet
    rfl
  have hhandler : ∀ k q, (net'.nodes k).handler.stream? q protocol =
      if k = a ∧ q = b then some net.streams.length
      else (net.nodes k).handler.stream? q protocol := by
    intro k q
    subst hnet
    by_cases hk : k = a
    · subst hk
      simp [StreamsHandler.stream?_insertPeerAndStream]
    · simp [hk]
  have haired : ∀ k, net'.aired W k = net.aired W k := fun k => by
    rw [aired, aired, (hnodes k).2.1]
  have hget : ∀ c s, net'.streams[c]? = some s → net.streams[c]? = some s ∨
      c = net.streams.length ∧ s = ⟨a, b, (net.aired W a).length, Wire.new F⟩ := by
    intro c s hs
    rw [hstreams, List.getElem?_append] at hs
    split at hs
    · exact .inl hs
    · rename_i hlt
      have hc := (List.getElem?_eq_some_iff.mp hs).1
      rw [List.length_singleton] at hc
      have hzero : c - net.streams.length = 0 := by omega
      rw [hzero] at hs
      cases hs
      exact .inr ⟨by omega, rfl⟩
  have hfound : ∀ {c : Nat} {s : Stream P M H}, net.streams[c]? = some s →
      net'.streams[c]? = some s := by
    intro c s hs
    rw [hstreams, List.getElem?_append_left (List.getElem?_eq_some_iff.mp hs).1, hs]
  constructor
  · intro k
    rw [(hnodes k).1, (hnodes k).2.1, (hnodes k).2.2.1, h.posted]
  · intro c s hs
    rcases hget c s hs with hs | ⟨rfl, rfl⟩
    · obtain ⟨hwire, hstart, hsegment, harrived⟩ := h.streams c s hs
      refine ⟨hwire, ?_, ?_, ?_⟩
      · rw [haired]
        exact hstart
      · rw [haired]
        exact hsegment
      · rw [receivedOver, (hnodes s.target).2.2.2]
        exact harrived
    · refine ⟨Wire.inv_new F W, ?_, ?_, ?_⟩
      · rw [haired]
      · simp [Wire.all, Wire.new]
      · -- nothing came over a stream that was not there
        have hnothing : (net.received b).filter (fun x => x.1 = net.streams.length) = [] := by
          rw [List.filter_eq_nil_iff]
          intro x hx
          obtain ⟨s, hs, -⟩ := h.known b x hx
          have := (List.getElem?_eq_some_iff.mp hs).1
          simp
          omega
        rw [receivedOver, (hnodes b).2.2.2, hnothing]
        rfl
  · intro k q c hc
    rw [hhandler] at hc
    split at hc
    · rename_i hkq
      rw [hkq.1, hkq.2]
      cases hc
      refine ⟨⟨a, b, (net.aired W a).length, Wire.new F⟩, ?_, rfl, rfl, rfl, ?_, ?_⟩
      · rw [hstreams, List.getElem?_concat_length]
      · rw [haired]
        simp [Wire.new]
      · intro c' s' hlt hs'
        have hlen := (List.getElem?_eq_some_iff.mp hs').1
        rw [hstreams, List.length_append, List.length_singleton] at hlen
        omega
    · rename_i hkq
      obtain ⟨s, hs⟩ := h.current k q c hc
      refine ⟨s, hfound hs.found, hs.source, hs.target, hs.uncut, ?_, ?_⟩
      · rw [haired]
        exact hs.written
      · intro c' s' hlt hs'
        rcases hget c' s' hs' with hs' | ⟨-, rfl⟩
        · exact hs.last c' s' hlt hs'
        · exact fun heq => hkq ⟨heq.1.symm, heq.2.symm⟩
  · intro k x hx
    rw [(hnodes k).2.2.2] at hx
    obtain ⟨s, hs, htarget⟩ := h.known k x hx
    exact ⟨s, hfound hs, htarget⟩
  · intro c c' s s' hlt hs hs' hsource htarget
    have hold : net.streams[c]? = some s := by
      rcases hget c s hs with hs | ⟨rfl, -⟩
      · exact hs
      · have hlen := (List.getElem?_eq_some_iff.mp hs').1
        rw [hstreams, List.length_append, List.length_singleton] at hlen
        omega
    rcases hget c' s' hs' with hs' | ⟨-, rfl⟩
    · exact h.ordered c c' s s' hlt hold hs' hsource htarget
    · have hend := (h.streams c s hold).end_le
      rwa [hsource] at hend

/-! ## A broadcast -/

/-- The streams a message is sent on. -/
theorem mem_sent [DecidableEq R] {h h' : StreamsHandler P R Nat} {text : String}
    {polling : Polling P Nat} {sendOk : Nat → Bool} {sent : List (P × Nat)}
    (hdone : broadcastMessage h protocol (.ok text) polling sendOk = .done h' sent) (b : P)
    (c : Nat) :
    ((b, c) ∈ sent ↔ h.stream? b protocol = some c ∧ sendOk c = true) ∧
      h'.stream? b protocol = (h.stream? b protocol).filter sendOk := by
  obtain ⟨h'', sent', hspec, -, hstream, hsent⟩ :=
    broadcastMessage_spec h protocol text polling sendOk
  rw [hdone] at hspec
  cases hspec
  refine ⟨?_, by rw [hstream, if_pos rfl]⟩
  have hmem : (b, c) ∈ sent ↔ (b, c) ∈ sent.filter (fun x => x.1 = b) := by simp
  rw [hmem, hsent]
  cases h.stream? b protocol with
  | none => simp
  | some c' =>
    by_cases hc : sendOk c' = true
    · rw [Option.filter_some_pos hc]
      constructor
      · intro hin
        obtain rfl : c = c' := by simpa using hin
        exact ⟨rfl, hc⟩
      · rintro ⟨heq, -⟩
        cases heq
        simp
    · rw [Option.filter_some_neg (by simpa using hc)]
      constructor
      · intro hin
        cases hin
      · rintro ⟨heq, hsend⟩
        cases heq
        exact absurd hsend hc

theorem onWire_concat (messages : List M) (m : M) :
    onWire W (messages ++ [m]) =
      onWire W messages ++ if (W.toString m).toOption.isSome then [m] else [] := by
  unfold onWire
  rw [List.filter_append]
  congr 1
  by_cases hm : (W.toString m).toOption.isSome = true <;> simp [hm]

section Broadcast

variable [DecidableEq R] {a : P} {m : M} {rest : List M} {text : String} {polling : Polling P Nat}
  {sendOk : Nat → Bool} {handler : StreamsHandler P R Nat} {sent : List (P × Nat)}

/-- **What a broadcast does to one stream**: one that the node keeps is sent on, or cut. -/
theorem carry_cases (h : net.Inv F W protocol)
    (hdone : broadcastMessage (net.nodes a).handler protocol (.ok text) polling sendOk =
      .done handler sent) (cut : Nat → Nat) {c : Nat} {s : Stream P M H}
    (hs : net.streams[c]? = some s) :
    (Current W net a s.target c s ∧ ∃ w, carry F W
        (pendingSends (net.nodes a).handler protocol (net.nodes a).handler.peers) sent m cut c s =
          { s with wire := w } ∧
        (w = s.wire.send F W m ∨ sendOk c = false ∧ w = s.wire.sendCut F W m (cut c))) ∨
    ((net.nodes a).handler.stream? s.target protocol ≠ some c ∧ carry F W
        (pendingSends (net.nodes a).handler protocol (net.nodes a).handler.peers) sent m cut c s =
          s) := by
  have hsent := (mem_sent hdone s.target c).1
  by_cases hheld : (net.nodes a).handler.stream? s.target protocol = some c
  · left
    obtain ⟨s', hcurrent⟩ := h.current a s.target c hheld
    obtain rfl : s' = s := Option.some.inj (hcurrent.found.symm.trans hs)
    refine ⟨hcurrent, ?_⟩
    unfold carry
    by_cases hok : sendOk c = true
    · rw [if_pos (hsent.mpr ⟨hheld, hok⟩)]
      exact ⟨_, rfl, .inl rfl⟩
    · rw [if_neg (fun hin => hok (hsent.mp hin).2), if_pos (mem_pendingSends.mpr hheld)]
      exact ⟨_, rfl, .inr ⟨by simpa using hok, rfl⟩⟩
  · right
    refine ⟨hheld, ?_⟩
    unfold carry
    rw [if_neg (fun hin => hheld (hsent.mp hin).1),
      if_neg (fun hin => hheld (mem_pendingSends.mp hin))]

/-- **A message is broadcast** on the streams that the node keeps. -/
theorem Inv.broadcasted (h : net.Inv F W protocol) (houtgoing : (net.nodes a).outgoing = m :: rest)
    (htext : W.toString m = .ok text)
    (hdone : broadcastMessage (net.nodes a).handler protocol (.ok text) polling sendOk =
      .done handler sent) (cut : Nat → Nat) :
    Inv F W protocol
      { nodes := Function.update net.nodes a { net.nodes a with
          outgoing := rest
          broadcast := (net.nodes a).broadcast ++ [m]
          handler := handler }
        streams :=
          net.streams.mapIdx (carry F W
            (pendingSends (net.nodes a).handler protocol (net.nodes a).handler.peers)
            sent m cut) } := by
  have hsendable : W.Sendable m := ⟨text, htext⟩
  generalize hnet : (⟨Function.update net.nodes a _, _⟩ : Network P R M H) = net'
  have haired : ∀ k, net'.aired W k = net.aired W k ++ if k = a then [m] else [] := by
    intro k
    subst hnet
    by_cases hk : k = a
    · subst hk
      simp only [aired, Function.update_self, onWire_concat, htext]
      rfl
    · simp [aired, hk]
  have hreceived : ∀ k, net'.received k = net.received k := by
    intro k
    subst hnet
    by_cases hk : k = a
    · subst hk
      simp [received]
    · simp [received, Function.update_of_ne hk]
  have hhandler : ∀ k b, (net'.nodes k).handler.stream? b protocol =
      if k = a then ((net.nodes a).handler.stream? b protocol).filter sendOk
      else (net.nodes k).handler.stream? b protocol := by
    intro k b
    subst hnet
    by_cases hk : k = a
    · subst hk
      simpa using (mem_sent hdone b 0).2
    · simp [hk]
  have hget :
      ∀ (c : Nat) (s' : Stream P M H), net'.streams[c]? = some s' → ∃ s, net.streams[c]? = some s ∧
        carry F W (pendingSends (net.nodes a).handler protocol (net.nodes a).handler.peers) sent
          m cut c s = s' := by
    intro c s' hs'
    subst hnet
    rw [List.getElem?_mapIdx] at hs'
    exact Option.map_eq_some_iff.mp hs'
  have hends :
      ∀ (c : Nat) (s s' : Stream P M H), net.streams[c]? = some s → net'.streams[c]? = some s' →
      s'.source = s.source ∧ s'.target = s.target ∧ s'.start = s.start := by
    intro c s s' hs hs'
    obtain ⟨s₀, hs₀, rfl⟩ := hget c s' hs'
    obtain rfl : s₀ = s := Option.some.inj (hs₀.symm.trans hs)
    rcases carry_cases h hdone cut hs with ⟨-, w, hw, -⟩ | ⟨-, hw⟩
    · rw [hw]
      exact ⟨rfl, rfl, rfl⟩
    · rw [hw]
      exact ⟨rfl, rfl, rfl⟩
  constructor
  · intro k
    have := h.posted k
    subst hnet
    by_cases hk : k = a
    · subst hk
      rw [houtgoing] at this
      simpa using this
    · simpa [Function.update_of_ne hk] using this
  · intro c s' hs'
    obtain ⟨s, hs, rfl⟩ := hget c s' hs'
    obtain ⟨hwire, hstart, hsegment, harrived⟩ := h.streams c s hs
    rcases carry_cases h hdone cut hs with ⟨hcurrent, w, hw, hsend⟩ | ⟨-, hw⟩
    · rw [hw]
      have hall : s.wire.all = (net.aired W a).drop s.start := by
        rw [Wire.all, hcurrent.uncut, hcurrent.written]
        exact List.append_nil _
      have hwall : w.all = s.wire.all ++ [m] ∧ w.delivered = s.wire.delivered := by
        rcases hsend with rfl | ⟨-, rfl⟩
        · exact ⟨by simp [Wire.all, Wire.send, hcurrent.uncut], rfl⟩
        · exact ⟨by simp [Wire.all, Wire.sendCut, hcurrent.uncut], rfl⟩
      rw [hcurrent.source] at hstart
      refine ⟨?_, ?_, ?_, ?_⟩
      · rcases hsend with rfl | ⟨-, rfl⟩
        · exact hwire.send hcurrent.uncut hsendable
        · exact hwire.sendCut hcurrent.uncut hsendable _
      · show s.start ≤ (net'.aired W s.source).length
        rw [hcurrent.source, haired, List.length_append]
        omega
      · show w.all <+: (net'.aired W s.source).drop s.start
        rw [hcurrent.source, haired, if_pos rfl, List.drop_append_of_le_length hstart,
          hwall.1, hall]
      · show net'.receivedOver s.target c = w.delivered
        rw [receivedOver, hreceived, hwall.2]
        exact harrived
    · rw [hw]
      refine ⟨hwire, ?_, ?_, ?_⟩
      · rw [haired, List.length_append]
        omega
      · rw [haired, List.drop_append_of_le_length hstart]
        exact hsegment.trans (List.prefix_append _ _)
      · rw [receivedOver, hreceived]
        exact harrived
  · intro k b c hc
    rw [hhandler] at hc
    -- the stream was kept before
    have hold : (net.nodes k).handler.stream? b protocol = some c := by
      split at hc
      · rename_i hk
        rw [hk]
        exact (Option.filter_eq_some_iff.mp hc).1
      · exact hc
    obtain ⟨s, hs⟩ := h.current k b c hold
    have hfound : net'.streams[c]? = some (carry F W
        (pendingSends (net.nodes a).handler protocol (net.nodes a).handler.peers) sent m cut
          c s) := by
      subst hnet
      rw [List.getElem?_mapIdx, hs.found]
      rfl
    have hlast : ∀ c' s', c < c' → net'.streams[c']? = some s' →
        ¬ (s'.source = k ∧ s'.target = b) := by
      intro c' s' hlt hs'
      obtain ⟨s₀, hs₀, -⟩ := hget c' s' hs'
      obtain ⟨hsource, htarget, -⟩ := hends c' s₀ s' hs₀ hs'
      rw [hsource, htarget]
      exact hs.last c' s₀ hlt hs₀
    rcases carry_cases h hdone cut hs.found with ⟨hcurrent, w, hw, hsend⟩ | ⟨hnot, hw⟩
    · have hak : a = k := hcurrent.source.symm.trans hs.source
      subst hak
      rw [if_pos rfl] at hc
      have hok := (Option.filter_eq_some_iff.mp hc).2
      have hsent : w = s.wire.send F W m := by
        rcases hsend with hsend | ⟨hno, -⟩
        · exact hsend
        · rw [hok] at hno
          cases hno
      subst hsent
      rw [hw] at hfound
      refine ⟨_, hfound, hs.source, hs.target, hs.uncut, ?_, hlast⟩
      have hstart := (h.streams c s hs.found).start
      rw [hs.source] at hstart
      show s.wire.written ++ [m] = (net'.aired W a).drop s.start
      rw [haired, if_pos rfl, List.drop_append_of_le_length hstart, hs.written]
    · have hka : k ≠ a := by
        rintro rfl
        rw [hs.target] at hnot
        exact hnot hold
      rw [hw] at hfound
      refine ⟨s, hfound, hs.source, hs.target, hs.uncut, ?_, hlast⟩
      rw [haired, if_neg hka, List.append_nil]
      exact hs.written
  · intro k x hx
    rw [hreceived] at hx
    obtain ⟨s, hs, htarget⟩ := h.known k x hx
    obtain ⟨s', hs'⟩ : ∃ s', net'.streams[x.1]? = some s' := by
      subst hnet
      rw [List.getElem?_mapIdx, hs]
      exact ⟨_, rfl⟩
    exact ⟨s', hs', (hends x.1 s s' hs hs').2.1.trans htarget⟩
  · intro c c' s s' hlt hs hs' hsource htarget
    obtain ⟨s₀, hs₀, hc⟩ := hget c s hs
    obtain ⟨s₀', hs₀', -⟩ := hget c' s' hs'
    obtain ⟨hso, hta, hst⟩ := hends c s₀ s hs₀ hs
    obtain ⟨hso', hta', hst'⟩ := hends c' s₀' s' hs₀' hs'
    rw [hso, hso'] at hsource
    rw [hta, hta'] at htarget
    have hle := h.ordered c c' s₀ s₀' hlt hs₀ hs₀' hsource htarget
    rcases carry_cases h hdone cut hs₀ with ⟨hcurrent, -⟩ | ⟨-, hw⟩
    · -- a stream that is kept is the last one to its target
      exact absurd ⟨hsource.symm.trans hcurrent.source, htarget.symm⟩
        (hcurrent.last c' s₀' hlt hs₀')
    · rw [← hc, hw, hst']
      exact hle

end Broadcast

/-! ## What a node handles -/

/-- What a node took off its incoming channel of what came over one stream. -/
def handledOver (net : Network P R M H) (b : P) (c : Nat) : List M :=
  ((net.nodes b).accepted.filter (fun x => x.1 = c)).map Prod.snd

/-- The stream is one that the node `a` opened. -/
def openedBy (net : Network P R M H) (a : P) (c : Nat) : Bool :=
  (net.streams[c]?).any (fun s => s.source = a)

/-- What a node took off its incoming channel of what another one sent it. -/
def handledFrom (net : Network P R M H) (b a : P) : List M :=
  ((net.nodes b).accepted.filter (fun x => net.openedBy a x.1)).map Prod.snd

omit [DecidableEq P] in
theorem StreamInv.handledOver_prefix {c : Nat} {s : Stream P M H} (h : StreamInv F W net c s) :
    net.handledOver s.target c <+: s.wire.delivered := by
  rw [← h.arrived, receivedOver, received, List.filter_append, List.map_append]
  exact List.prefix_append _ _

omit [DecidableEq P] in
theorem StreamInv.handledOver_aired {c : Nat} {s : Stream P M H} (h : StreamInv F W net c s) :
    net.handledOver s.target c <+:
      ((net.aired W s.source).drop s.start).take s.wire.all.length := by
  have hall := h.handledOver_prefix.trans h.wire.delivered
  rw [List.prefix_take_iff]
  exact ⟨hall.trans h.segment, hall.length_le⟩

/-- What was handled over the first streams is among what was on the air while they were kept. -/
theorem Inv.handled_below (h : net.Inv F W protocol) (a b : P) : ∀ n k : Nat,
    (∀ (c : Nat) (s : Stream P M H), c < n → net.streams[c]? = some s → s.source = a →
      s.target = b → s.start + s.wire.all.length ≤ k) →
    (((net.nodes b).accepted.filter (fun x => net.openedBy a x.1 && x.1 < n)).map Prod.snd).Subperm
      ((net.aired W a).take k)
  | 0, k, _ => by simp [List.nil_subperm]
  | n + 1, k, hend => by
    have hsplit : (((net.nodes b).accepted.filter
          (fun x => net.openedBy a x.1 && x.1 < n + 1)).map Prod.snd).Perm
        (((net.nodes b).accepted.filter (fun x => net.openedBy a x.1 && x.1 < n)).map Prod.snd ++
          ((net.nodes b).accepted.filter (fun x => net.openedBy a x.1 && x.1 = n)).map
            Prod.snd) := by
      rw [← List.map_append]
      refine List.Perm.map _ ?_
      refine (List.filter_append_perm (fun x => decide (x.1 < n)) _).symm.trans ?_
      rw [List.filter_filter, List.filter_filter]
      refine List.Perm.of_eq ?_
      congr 1 <;>
      · refine List.filter_congr (fun x _ => ?_)
        rw [Bool.eq_iff_iff]
        simp only [Bool.and_eq_true, Bool.not_eq_true', decide_eq_true_eq, decide_eq_false_iff_not]
        by_cases hfrom : net.openedBy a x.1 = true
        · simp only [hfrom, true_and]
          omega
        · simp [hfrom]
    refine hsplit.subperm.trans ?_
    by_cases hmine : ∃ s, net.streams[n]? = some s ∧ s.source = a ∧ s.target = b
    · obtain ⟨s, hs, hsource, htarget⟩ := hmine
      have hbefore := h.handled_below a b n s.start
        (fun c s' hlt hs' ha hb => h.ordered c n s' s hlt hs' hs (ha.trans hsource.symm)
          (hb.trans htarget.symm))
      have hlast : ((net.nodes b).accepted.filter (fun x => net.openedBy a x.1 && x.1 = n)).map
          Prod.snd = net.handledOver b n := by
        unfold handledOver
        congr 1
        refine List.filter_congr (fun x _ => ?_)
        by_cases hx : x.1 = n
        · simp [hx, openedBy, hs, hsource]
        · simp [hx]
      have hover := (h.streams n s hs).handledOver_aired
      rw [hsource, htarget] at hover
      rw [hlast]
      refine (hbefore.append hover.sublist.subperm).trans ?_
      rw [← List.take_add]
      exact (List.take_sublist_take_left
        (hend n s (Nat.lt_succ_self n) hs hsource htarget)).subperm
    · have hnone : (net.nodes b).accepted.filter (fun x => net.openedBy a x.1 && x.1 = n) = [] := by
        rw [List.filter_eq_nil_iff]
        intro x hx hfrom
        rw [Bool.and_eq_true, decide_eq_true_eq] at hfrom
        obtain ⟨s, hs, htarget⟩ := h.known b x (List.mem_append_left _ hx)
        rw [openedBy, hs] at hfrom
        exact hmine ⟨s, hfrom.2 ▸ hs, by simpa using hfrom.1, htarget⟩
      rw [hnone, List.map_nil, List.append_nil]
      exact h.handled_below a b n k (fun c s hlt => hend c s (Nat.lt_succ_of_lt hlt))

/-- **Nothing is handled that was not broadcast, and nothing more often than it was**, whatever
    streams there were between the two nodes. -/
theorem Inv.handledFrom_subperm (h : net.Inv F W protocol) (a b : P) :
    (net.handledFrom b a).Subperm (net.aired W a) := by
  have hall := h.handled_below a b net.streams.length (net.aired W a).length
    (fun c s _ hs hsource _ => hsource ▸ (h.streams c s hs).end_le)
  rw [List.take_length] at hall
  have hknown : (net.nodes b).accepted.filter (fun x => net.openedBy a x.1 &&
      x.1 < net.streams.length) = (net.nodes b).accepted.filter (fun x => net.openedBy a x.1) := by
    refine List.filter_congr (fun x hx => ?_)
    obtain ⟨s, hs, -⟩ := h.known b x (List.mem_append_left _ hx)
    rw [decide_eq_true (List.getElem?_eq_some_iff.mp hs).1, Bool.and_true]
  rw [hknown] at hall
  exact hall

/-! ## Runs -/

variable [DecidableEq R] {ok : List Char → Prop}

/-- **Every step keeps the invariant.** -/
theorem Inv.step (hF : F.Lawful ok) (hW : W.Lawful ok) (h : net.Inv F W protocol)
    {act : NetAction P M} {net' : Network P R M H} (hstep : net.step F W protocol act = some net') :
    net'.Inv F W protocol := by
  cases act with
  | post a m =>
    simp only [Network.step] at hstep
    split at hstep
    · cases hstep
      refine h.setNode ?_ rfl rfl (fun b c hc => hc)
      rw [h.posted, List.append_assoc]
    · cases hstep
  | accept b =>
    simp only [Network.step] at hstep
    split at hstep
    · cases hstep
    · rename_i x rest hincoming
      cases hstep
      refine h.setNode (h.posted b) rfl ?_ (fun b c hc => hc)
      simp [received, hincoming]
  | established a b opened =>
    simp only [Network.step] at hstep
    split at hstep
    · cases hstep
      exact h
    · rename_i hnot
      cases hstep
      rw [not_or] at hnot
      exact h.opened (by simpa using hnot.1)
  | closed a b =>
    cases hstep
    refine h.setNode (h.posted a) rfl rfl (fun k c hc => ?_)
    rw [StreamsHandler.stream?_removePeer] at hc
    split at hc
    · cases hc
    · exact hc
  | broadcast a polling sendOk cut =>
    simp only [Network.step] at hstep
    split at hstep
    · cases hstep
    · rename_i m rest houtgoing
      cases htext : W.toString m with
      | error e =>
        rw [htext] at hstep
        cases hstep
        refine h.setNode ?_ ?_ rfl (fun k c hc => hc)
        · rw [h.posted, houtgoing]
          simp
        · simp [onWire_concat, htext, Except.toOption, aired]
      | ok text =>
        rw [htext] at hstep
        obtain ⟨handler, sent, hdone, -⟩ :=
          broadcastMessage_spec (net.nodes a).handler protocol text polling sendOk
        rw [hdone] at hstep
        cases hstep
        exact h.broadcasted houtgoing htext hdone cut
  | arrive c n =>
    obtain ⟨s, hs, hstep⟩ := Option.bind_eq_some_iff.mp hstep
    obtain ⟨w, hw, rfl⟩ := Option.map_eq_some_iff.mp hstep
    have hinv := (h.streams c s hs).wire.arrive hw
    unfold Wire.arrive at hw
    split at hw
    · cases hw
    · cases hw
      exact h.setWire hs hinv rfl rfl rfl
  | finish c =>
    obtain ⟨s, hs, hstep⟩ := Option.bind_eq_some_iff.mp hstep
    obtain ⟨w, hw, rfl⟩ := Option.map_eq_some_iff.mp hstep
    have hinv := (h.streams c s hs).wire.finish hw
    unfold Wire.finish at hw
    split at hw
    · cases hw
    · cases hw
      exact h.setWire hs hinv rfl rfl rfl
  | reset c =>
    obtain ⟨s, hs, rfl⟩ := Option.map_eq_some_iff.mp hstep
    exact h.setWire hs (h.streams c s hs).wire.reset rfl rfl rfl
  | take c =>
    obtain ⟨s, hs, hstep⟩ := Option.bind_eq_some_iff.mp hstep
    obtain ⟨r, hr, hstep⟩ := Option.bind_eq_some_iff.mp hstep
    obtain ⟨hinv, hdelivered⟩ := (h.streams c s hs).wire.take hF hW hr
    obtain ⟨hwritten, hcut⟩ := Wire.take_keeps hr
    obtain ⟨w, passed⟩ := r
    cases passed with
    | none =>
      cases hstep
      exact h.setWire hs hinv hwritten hcut (by simpa using hdelivered)
    | some m =>
      dsimp only at hstep
      split at hstep
      · cases hstep
        have hpassed : w.delivered = s.wire.delivered ++ [m] := hdelivered
        exact h.deliver hs hinv hwritten hcut hpassed
      · cases hstep

/-- **What a step puts on the outgoing channel of a node, and takes off its incoming one.** -/
theorem step_channels {act : NetAction P M} {net' : Network P R M H}
    (hstep : net.step F W protocol act = some net') (k : P) :
    (net'.nodes k).posted = (net.nodes k).posted ++ act.posts k ∧
      (net'.nodes k).accepted = (net.nodes k).accepted ++ act.accepts net k := by
  -- a node that only its channels or its streams differ in
  have hset : ∀ (net₀ : Network P R M H) (a : P) (n : Endpoint P R M),
      (net₀.nodes k).posted = (net.nodes k).posted →
        (net₀.nodes k).accepted = (net.nodes k).accepted →
      n.posted = (net₀.nodes a).posted → n.accepted = (net₀.nodes a).accepted →
      ((net₀.setNode a n).nodes k).posted = (net.nodes k).posted ++ [] ∧
        ((net₀.setNode a n).nodes k).accepted = (net.nodes k).accepted ++ [] := by
    intro net₀ a n hposted haccepted hp ha
    rw [List.append_nil, List.append_nil, ← hposted, ← haccepted]
    by_cases hk : k = a
    · rw [hk, setNode_self]
      exact ⟨hp, ha⟩
    · rw [setNode_ne hk]
      exact ⟨rfl, rfl⟩
  cases act with
  | post a m =>
    simp only [Network.step] at hstep
    split at hstep
    · cases hstep
      by_cases hk : k = a
      · rw [hk, setNode_self]
        simp [NetAction.posts, NetAction.accepts]
      · rw [setNode_ne hk]
        simp [NetAction.posts, NetAction.accepts, hk]
    · cases hstep
  | accept b =>
    simp only [Network.step] at hstep
    split at hstep
    · cases hstep
    · rename_i x rest hincoming
      cases hstep
      by_cases hk : k = b
      · rw [hk, setNode_self]
        simp [NetAction.posts, NetAction.accepts, hincoming]
      · rw [setNode_ne hk]
        simp [NetAction.posts, NetAction.accepts, hk]
  | established a b opened =>
    simp only [Network.step] at hstep
    split at hstep
    · cases hstep
      simp [NetAction.posts, NetAction.accepts]
    · cases hstep
      exact hset net a _ rfl rfl rfl rfl
  | closed a b =>
    cases hstep
    exact hset net a _ rfl rfl rfl rfl
  | broadcast a polling sendOk cut =>
    simp only [Network.step] at hstep
    split at hstep
    · cases hstep
    · split at hstep
      · cases hstep
      · cases hstep
        exact hset net a _ rfl rfl rfl rfl
      · cases hstep
        exact hset net a _ rfl rfl rfl rfl
  | arrive c n =>
    obtain ⟨s, -, hstep⟩ := Option.bind_eq_some_iff.mp hstep
    obtain ⟨w, -, rfl⟩ := Option.map_eq_some_iff.mp hstep
    exact ⟨(List.append_nil _).symm, (List.append_nil _).symm⟩
  | finish c =>
    obtain ⟨s, -, hstep⟩ := Option.bind_eq_some_iff.mp hstep
    obtain ⟨w, -, rfl⟩ := Option.map_eq_some_iff.mp hstep
    exact ⟨(List.append_nil _).symm, (List.append_nil _).symm⟩
  | reset c =>
    obtain ⟨s, -, rfl⟩ := Option.map_eq_some_iff.mp hstep
    exact ⟨(List.append_nil _).symm, (List.append_nil _).symm⟩
  | take c =>
    obtain ⟨s, -, hstep⟩ := Option.bind_eq_some_iff.mp hstep
    obtain ⟨r, -, hstep⟩ := Option.bind_eq_some_iff.mp hstep
    obtain ⟨w, passed⟩ := r
    cases passed with
    | none =>
      cases hstep
      exact ⟨(List.append_nil _).symm, (List.append_nil _).symm⟩
    | some m =>
      dsimp only at hstep
      split at hstep
      · cases hstep
        exact hset (net.setWire c s w) s.target _ rfl rfl rfl rfl
      · cases hstep

theorem step_transport {act : NetAction P M} (hact : act.ofTransport = true)
    {net' : Network P R M H} (hstep : net.step F W protocol act = some net') (k : P) :
    (net'.nodes k).posted = (net.nodes k).posted ∧
      (net'.nodes k).accepted = (net.nodes k).accepted := by
  obtain ⟨hposted, haccepted⟩ := step_channels hstep k
  cases act <;> simp_all [NetAction.ofTransport, NetAction.posts, NetAction.accepts]

/-- **In every reachable state** of every run. -/
theorem run_inv (hF : F.Lawful ok) (hW : W.Lawful ok) (acts : List (NetAction P M)) :
    ∀ net : Network P R M H, runFrom (step F W protocol) new acts = some net →
      net.Inv F W protocol :=
  runFrom_induction (fun _ net => Inv F W protocol net) inv_new
    (fun _ _ _ _ _ ih hstep => ih.step hF hW hstep) acts

end Network

end XLayerReth.P2p
