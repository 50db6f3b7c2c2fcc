import Qunet.Udp.Parties

/-!
# Two UDP transports over an unreliable network

* `UdpNetwork`, `UdpStep` : two parties, one of which takes a step;
* `Linked` : what holds of a party and its peer; `UdpParty.Step.linked`, `UdpInv.step` : every step keeps it;
* `Represents`, `UdpParty.Step.network`, `Mirrors` : a step of a party is finitely many steps of its reliable store;
* **`udp_simulates_network`** : the transports do what the reliable stores do on a network that delivers whole messages;
* **`udp_simulates_channels`** : the payloads of the reliable messages are returned in order and once, through
  compression, fragments, loss, repetition and reordering;
* **`udp_forgets_only_delivered`** : a message that is not retransmitted any more has reached the peer's transport;
* **`handleTimerExpiry_steps`** : a call of `handleTimerExpiry` is finitely many steps.
-/

namespace Qunet
open Lib FragmentStore UdpTransport Relation

section
variable {lib : CompressionLibraries} {dict : Option Bytes}

abbrev UdpNetwork (lib : CompressionLibraries) (dict : Option Bytes) := Side → UdpParty lib dict

/-- A transport that was not used yet, with the MTU of the code and otherwise any settings. It has no connection id: the
datagrams of a client that has one are for a server, and a `UdpTransport` cannot read them. -/
structure UdpParty.Fresh (e : UdpParty lib dict) : Prop where
  relStore : e.transport.relStore = {}
  fragStore : e.transport.fragStore = {}
  pending : e.transport.pendingMessages = []
  connectionId : e.transport.connectionId = 0
  mtu : e.transport.mtu = 1200
  wire : e.wire = []
  returned : e.returned = []
  messages : e.messages = []
  sent : e.sent = []

/-! ## The invariant -/

section
variable [Dbuf]

/-- A party and its peer. `wholes` and `wholes'` are the messages that they have sent in fragments. -/
structure Linked (wholes wholes' : UInt16 → Option Whole) (e peer : UdpParty lib dict) : Prop where
  outbound : Outbound wholes e
  inbound : Inbound peer wholes' e.transport e.returned

namespace UdpParty.Fresh
variable {e peer : UdpParty lib dict}

theorem outbound (h : e.Fresh) : Outbound (fun _ => none) e := by
  refine ⟨h.connectionId, h.mtu, ?_, nofun, ?_, ?_, ?_, ?_⟩
  · rw [h.fragStore]
    decide
  · rw [h.relStore, h.messages]
    rfl
  · simp [h.sent]
  · simp [h.relStore]
  · simp [h.wire]

omit [Dbuf] in
theorem inbound (h : e.Fresh) (hp : peer.Fresh) : Inbound peer (fun _ => none) e.transport e.returned := by
  have hnone : e.returned ++ e.transport.pendingMessages = [] := by rw [h.returned, h.pending, List.append_nil]
  have hpartials : Partials (fun _ => none) ({} : FragmentStore) := ⟨by rintro e ⟨⟩, by rintro e ⟨⟩⟩
  refine ⟨?_, ?_, ?_, ?_, ⟨?_, 0, ?_⟩, ?_⟩
  · simp [hp.messages]
  · rw [h.fragStore]
    exact hpartials
  · simp [h.relStore]
  · simp [h.relStore]
  · rw [h.relStore]
    exact ReliableStore.ReachableStore.fresh.waiting
  · rw [hnone, h.relStore]
    exact ⟨rfl, rfl⟩
  · simp [hnone]

theorem linked (h : e.Fresh) (hp : peer.Fresh) : Linked (fun _ => none) (fun _ => none) e peer :=
  ⟨h.outbound, h.inbound hp⟩

end UdpParty.Fresh

/-- What a step of a party leads to: the party has sent more and returned more, and both ends of both directions hold. -/
structure Stepped (wholes wholes' : UInt16 → Option Whole) (e e' peer : UdpParty lib dict) : Prop where
  linked : ∃ wholes₁, Linked wholes₁ wholes' e' peer ∧ Linked wholes' wholes₁ peer e'
  messages : e.messages <+: e'.messages
  returned : e.returned <+: e'.returned

/-- A step that sends. -/
theorem Linked.sends {wholes wholes' wholes₁ : UInt16 → Option Whole} {e e' peer : UdpParty lib dict}
    (h : Linked wholes wholes' e peer) (hpeer : Linked wholes' wholes peer e)
    (hout : Outbound wholes₁ e') (hs : OnlySends e.transport e'.transport) (hreturned : e'.returned = e.returned)
    (hsends : Sends e e' wholes wholes₁) (hlimits : ∀ x ∈ e'.messages, x.payload.length ≤ peer.transport.messageSizeLimit) :
    Stepped wholes wholes' e e' peer := by
  have hinbound := h.inbound.onlySends hs
  rw [← hreturned] at hinbound
  refine ⟨⟨wholes₁, ⟨hout, hinbound⟩, hpeer.outbound, hpeer.inbound.mono hsends hlimits⟩, ?_, ?_⟩
  · obtain ⟨more, hmore⟩ := hsends.messages
    exact ⟨more, hmore.symm⟩
  · rw [hreturned]

/-- A call of `receiveMessage`, and what it does to the reliable store. -/
theorem Linked.receive {wholes wholes' : UInt16 → Option Whole} {e peer : UdpParty lib dict}
    (h : Linked wholes wholes' e peer) (ho : Outbound wholes' peer) {w : World} {sock sock' : SocketInput}
    {r : Except TransportError Received} {t : UdpTransport} (hw : Receiver lib dict w e.transport.base)
    (hsock : AllArrive (fun w datagram => Receiver lib dict w e.transport.base ∧ datagram ∈ peer.wire) sock)
    (hr : UdpTransport.receiveMessage w e.transport sock = some (r, t, sock')) :
    Inbound peer wholes' t (e.returned ++ returnedBy r) ∧ KeepsOutgoing e.transport t ∧
      ReflTransGen (StoreRound peer.sent) e.transport.relStore t.relStore := by
  refine receiveMessage_invariant (fun t rs => Inbound peer wholes' t rs ∧ KeepsOutgoing e.transport t ∧
    ReflTransGen (StoreRound peer.sent) e.transport.relStore t.relStore) ?_ hsock hr ⟨h.inbound, .refl _, .refl⟩
  rintro t rs r t' ⟨hin, hkeeps, hrun⟩ hround
  have harrives : ∀ w datagram, Receiver lib dict w e.transport.base ∧ datagram ∈ peer.wire →
      Receiver lib dict w t.base ∧ datagram ∈ peer.wire :=
    fun w datagram ha => ⟨hkeeps.toSameSettings.receiver ha.1, ha.2⟩
  obtain ⟨hin', hkeeps', hstep⟩ := hin.round ho harrives (hkeeps.toSameSettings.receiver hw) hround
  exact ⟨hin', hkeeps.trans hkeeps', hrun.tail hstep⟩

/-- **A step of a party.** -/
theorem UdpParty.Step.linked {wholes wholes' : UInt16 → Option Whole} {e e' peer : UdpParty lib dict}
    (hst : Step peer.wire peer.transport.messageSizeLimit e e') (h : Linked wholes wholes' e peer)
    (hpeer : Linked wholes' wholes peer e) (hfew : e'.messages.length < 65535)
    (hid : e'.transport.fragStore.nextId ≠ 0) : Stepped wholes wholes' e e' peer := by
  cases hst with
  | @send w x reliable r out t hlink hlimit hsmall hsend =>
    obtain ⟨wholes₁, hext, ho⟩ := h.outbound.send hlink hsmall hsend hfew (by exact hid)
    refine h.sends hpeer ho (sendMessage_onlySends hsend) rfl
      ⟨⟨_, rfl⟩, List.subset_append_left _ _, hext⟩ fun y hy => ?_
    rcases List.mem_append.mp hy with hy | hy
    · exact hpeer.inbound.limits y hy
    · cases reliable with
      | false => cases hy
      | true =>
        rw [List.mem_singleton.mp hy]
        exact hlimit
  | @control w m encoded hcontrol hconn hencoded =>
    exact h.sends hpeer (h.outbound.control hcontrol hconn hencoded) (sendControl_onlySends w e.transport encoded) rfl
      ⟨⟨[], (List.append_nil _).symm⟩, List.Subset.refl _, fun _ _ hk => hk⟩ hpeer.inbound.limits
  | @retransmit deadline w again out t hsend =>
    obtain ⟨wholes₁, hext, ho⟩ := h.outbound.retransmit hsend (by exact hid)
    exact h.sends hpeer ho (retransmitOne_onlySends hsend) rfl
      ⟨⟨[], (List.append_nil _).symm⟩, List.subset_append_left _ _, hext⟩ hpeer.inbound.limits
  | @acks w acks out t hsend =>
    obtain ⟨wholes₁, hext, ho⟩ := h.outbound.acks hsend (by exact hid)
    exact h.sends hpeer ho (sendAcksOnly_onlySends hsend) rfl
      ⟨⟨[], (List.append_nil _).symm⟩, List.subset_append_left _ _, hext⟩ hpeer.inbound.limits
  | @receive w sock sock' r t hw hsock hr =>
    obtain ⟨hin, hkeeps, -⟩ := h.receive hpeer.outbound hw hsock hr
    have hsends : Sends e { e with transport := t, returned := e.returned ++ returnedBy r } wholes wholes :=
      ⟨⟨[], (List.append_nil _).symm⟩, List.Subset.refl _, fun _ _ hk => hk⟩
    exact ⟨⟨wholes, ⟨h.outbound.receive hkeeps _, hin⟩, hpeer.outbound, hpeer.inbound.mono hsends hpeer.inbound.limits⟩,
      List.prefix_refl _, List.prefix_append _ _⟩
  | count tracker unackedKeepalives =>
    exact h.sends hpeer (h.outbound.count tracker unackedKeepalives) (.statistics tracker unackedKeepalives) rfl
      ⟨⟨[], (List.append_nil _).symm⟩, List.Subset.refl _, fun _ _ hk => hk⟩ hpeer.inbound.limits

/-! ## The two parties -/

/-- One party takes a step, and no id wraps around. -/
inductive UdpStep (net : UdpNetwork lib dict) : UdpNetwork lib dict → Prop where
  | party (p : Side) {e : UdpParty lib dict}
      (h : UdpParty.Step (net p.other).wire (net p.other).transport.messageSizeLimit (net p) e)
      (hfew : e.messages.length < 65535) (hid : e.transport.fragStore.nextId ≠ 0) :
      UdpStep net (Function.update net p e)

theorem UdpStep.of {net net' : UdpNetwork lib dict} (p : Side) (hother : net' p.other = net p.other)
    (h : UdpParty.Step (net p.other).wire (net p.other).transport.messageSizeLimit (net p) (net' p))
    (hfew : (net' p).messages.length < 65535) (hid : (net' p).transport.fragStore.nextId ≠ 0) : UdpStep net net' := by
  have hnet : net' = Function.update net p (net' p) := by
    funext q
    by_cases hq : q = p
    · subst hq
      rw [Function.update_self]
    · rw [Function.update_of_ne hq, Side.eq_other_of_ne hq, hother]
  rw [hnet]
  exact .party p h hfew hid

/-- Both directions hold, and no id has wrapped around. -/
structure UdpInv (net : UdpNetwork lib dict) : Prop where
  linked : ∃ wholes : Side → UInt16 → Option Whole, ∀ p, Linked (wholes p) (wholes p.other) (net p) (net p.other)
  few : ∀ p, (net p).messages.length < 65535

theorem UdpInv.fresh {net : UdpNetwork lib dict} (h : ∀ p, (net p).Fresh) : UdpInv net := by
  refine ⟨⟨fun _ _ => none, fun p => (h p).linked (h p.other)⟩, fun p => ?_⟩
  rw [(h p).messages]
  exact Nat.succ_pos _

theorem UdpInv.step {net net' : UdpNetwork lib dict} (h : UdpInv net) (hst : UdpStep net net') :
    UdpInv net' ∧ ∀ p, (net p).messages <+: (net' p).messages ∧ (net p).returned <+: (net' p).returned := by
  obtain ⟨wholes, hlinked⟩ := h.linked
  obtain @⟨p, e, hst, hfew, hid⟩ := hst
  have hpeer := hlinked p.other
  rw [p.other_other] at hpeer
  obtain ⟨⟨wholes₁, hself, hother⟩, hmessages, hreturned⟩ := hst.linked (hlinked p) hpeer hfew hid
  refine ⟨⟨⟨Function.update wholes p wholes₁, fun q => ?_⟩, fun q => ?_⟩, fun q => ?_⟩
  · by_cases hq : q = p
    · subst hq
      rw [Function.update_self, Function.update_self, Function.update_of_ne q.other_ne, Function.update_of_ne q.other_ne]
      exact hself
    · obtain rfl := Side.eq_other_of_ne hq
      rw [p.other_other, Function.update_self, Function.update_self, Function.update_of_ne hq, Function.update_of_ne hq]
      exact hother
  · by_cases hq : q = p
    · subst hq
      rw [Function.update_self]
      exact hfew
    · rw [Function.update_of_ne hq]
      exact h.few q
  · by_cases hq : q = p
    · subst hq
      rw [Function.update_self]
      exact ⟨hmessages, hreturned⟩
    · rw [Function.update_of_ne hq]
      exact ⟨List.prefix_refl _, List.prefix_refl _⟩

/-! ## In order and once -/

/-- The payload of a reliable message. -/
def reliablePayload (r : Received) : Option Bytes :=
  match r.message with
  | .data d => (reliableId r).map fun _ => d.data
  | _ => none

/-- The channel from a party to its peer. -/
def UdpNetwork.channel (net : UdpNetwork lib dict) (p : Side) : Fifo Bytes where
  sent := (net p).messages.map (·.payload)
  delivered := (net p.other).returned.filterMap reliablePayload

omit [Dbuf] in
theorem reliablePayload_none {r : Received} (h : reliableId r = none) : reliablePayload r = none := by
  unfold reliablePayload
  rw [h]
  cases r.message <;> rfl

omit [Dbuf] in
theorem reliablePayload_some {r : Received} {id : UInt16} (h : reliableId r = some id) {payload : Bytes}
    (hr : r.message = .data { data := payload }) : reliablePayload r = some payload := by
  unfold reliablePayload
  rw [hr, h]
  rfl

omit [Dbuf] in
/-- Reliable messages with the ids `1, …, n`, each with the payload in its place, carry the first `n` payloads. -/
theorem payloads_take {messages : List (Packed lib dict)} (hfew : messages.length < 65535) {rs : List Received}
    (hids : reliableIds rs = ReliableStore.idsFrom 1 (reliableIds rs).length)
    (hpayloads : ∀ r ∈ rs, IsPayload messages r) :
    rs.filterMap reliablePayload = (messages.map (·.payload)).take (reliableIds rs).length ∧
      (reliableIds rs).length ≤ messages.length := by
  induction rs using List.reverseRecOn with
  | nil => exact ⟨rfl, Nat.zero_le _⟩
  | append_singleton rs r ih =>
    have hsplit : reliableIds (rs ++ [r]) = reliableIds rs ++ reliableIds [r] := List.filterMap_append
    rw [hsplit] at hids ⊢
    obtain ⟨htake, hle⟩ := ih (idsFrom_of_append hids) fun r' hr' => hpayloads r' (List.mem_append_left _ hr')
    rw [List.filterMap_append]
    cases hid : reliableId r with
    | none =>
      have hnone : reliableIds [r] = [] := by simp [reliableIds, hid]
      rw [hnone, List.append_nil, htake]
      exact ⟨by simp [reliablePayload_none hid], hle⟩
    | some id =>
      have hone : reliableIds [r] = [id] := by simp [reliableIds, hid]
      obtain ⟨x, hx, hr⟩ := hpayloads r (List.mem_append_right _ (List.mem_singleton_self r)) id hid
      rw [hone, List.length_append, List.length_singleton] at hids ⊢
      -- the id of the last message is its place
      rw [ReliableStore.idsFrom_add] at hids
      have hlast := (List.append_inj hids (ReliableStore.idsFrom_length _ _).symm).2
      have hplace : id.toNat = (reliableIds rs).length + 1 := by
        obtain rfl : id = succId^[(reliableIds rs).length] 1 := List.singleton_inj.mp hlast
        rw [ReliableStore.iterate_succId_toNat _ (by decide)]
        show (0 + (reliableIds rs).length) % 65535 + 1 = _
        rw [Nat.zero_add, Nat.mod_eq_of_lt (by omega)]
      rw [hplace, Nat.add_sub_cancel] at hx
      refine ⟨?_, (List.getElem?_eq_some_iff.mp hx).1⟩
      rw [htake, List.take_add_one, List.getElem?_map, hx]
      simp [reliablePayload_some hid hr]

theorem UdpInv.in_order {net : UdpNetwork lib dict} (h : UdpInv net) (p : Side) :
    (net.channel p).delivered <+: (net.channel p).sent := by
  obtain ⟨wholes, hlinked⟩ := h.linked
  have hin := (hlinked p.other).inbound
  rw [p.other_other] at hin
  obtain ⟨n, hids, -⟩ := hin.order.ids
  rw [reliableIds, List.filterMap_append, List.append_assoc] at hids
  obtain ⟨htake, -⟩ := payloads_take (h.few p) (idsFrom_of_append hids)
    fun r hr => hin.payloads r (List.mem_append_left _ hr)
  show (net p.other).returned.filterMap reliablePayload <+: (net p).messages.map (·.payload)
  rw [htake]
  exact List.take_prefix _ _

/-- **Two UDP transports refine two FIFO channels**: whatever the network loses, repeats or reorders, the payloads of the
reliable messages are returned by the peer in the order in which they were sent, once, and unchanged by compression and
fragmentation. -/
theorem udp_simulates_channels :
    Simulation (fun net : UdpNetwork lib dict => ∀ p, (net p).Fresh) UdpStep (· = fun _ => {}) (OneSide Fifo.Step)
      fun net channels => UdpInv net ∧ channels = net.channel := by
  refine ⟨fun net h => ⟨_, rfl, .fresh h, ?_⟩, ?_⟩
  · funext p
    show ({} : Fifo Bytes) = ⟨_, _⟩
    rw [(h p).messages, (h p.other).returned]
    rfl
  · rintro net _ net' ⟨hinv, rfl⟩ hst
    obtain ⟨hinv', hgrows⟩ := hinv.step hst
    refine ⟨net'.channel, OneSide.all fun p => ?_, hinv', rfl⟩
    refine Fifo.extend ?_ ?_ (hinv'.in_order p)
    · exact (hgrows p).1.map _
    · exact (hgrows p.other).2.filterMap _

/-! ## The reliable stores -/

/-- The endpoint has the party's reliable store, and has sent what the party has sent. -/
structure Represents (e : UdpParty lib dict) (a : Endpoint) : Prop where
  store : a.store = e.transport.relStore
  log : a.log = e.messages.map (·.data)
  sent : a.sent = e.sent

omit [Dbuf] in
theorem announcement_of_says (data : Bytes) (compHeader : Option CompressionHeader) {header : ReliabilityHeader}
    (h : header.messageId ≠ 0 ∨ header.ackCount > 0) :
    announcement data compHeader header = [.of data compHeader header] := if_pos h

namespace Endpoint

omit [Dbuf] in
theorem send_records {e : Endpoint} (h : e.store.nextLocalId ≠ 0) (now : Nat) (reliable : Bool) (data : Bytes)
    (comp : Option CompressionHeader) :
    (e.send now reliable data comp).log = (e.log ++ if reliable then [data] else []) ∧
      (e.send now reliable data comp).sent = e.sent ++ announcement data comp (e.store.outgoingHeader reliable).1 := by
  obtain ⟨-, -, hid, -⟩ := e.store.outgoingHeader_spec reliable
  unfold send
  dsimp only
  cases reliable with
  | true =>
    have h0 : (e.store.outgoingHeader true).1.messageId ≠ 0 := by
      rw [hid, if_pos rfl]
      exact h
    rw [if_pos h0, announcement_of_says data comp (.inl h0)]
    exact ⟨rfl, rfl⟩
  | false =>
    have h0 : (e.store.outgoingHeader false).1.messageId = 0 := hid
    rw [if_neg (not_not.mpr h0)]
    by_cases hacks : (e.store.outgoingHeader false).1.ackCount > 0
    · rw [if_pos hacks, announcement_of_says data comp (.inr hacks)]
      exact ⟨(List.append_nil _).symm, rfl⟩
    · rw [if_neg hacks, announcement, if_neg (not_or.mpr ⟨not_not.mpr h0, hacks⟩)]
      exact ⟨(List.append_nil _).symm, (List.append_nil _).symm⟩

omit [Dbuf] in
theorem retransmit_records (e : Endpoint) (deadline : Nat → Nat) (now : Nat) :
    (e.retransmit deadline now).store = (e.store.maybeRetransmit deadline now).2 ∧
      (e.retransmit deadline now).sent = e.sent ++
        ((e.store.maybeRetransmit deadline now).1.toOption.join.elim [] fun msg => [msg]) := by
  unfold retransmit
  generalize e.store.maybeRetransmit deadline now = r
  obtain ⟨_ | _ | _, s⟩ := r
  · exact ⟨rfl, (List.append_nil _).symm⟩
  · exact ⟨rfl, (List.append_nil _).symm⟩
  · exact ⟨rfl, rfl⟩

end Endpoint

omit [Dbuf] in
/-- The rounds of a call of `receiveMessage` are steps of the store. -/
theorem NetStep.rounds {abs : Network} {p : Side} {s : ReliableStore}
    (h : ReflTransGen (StoreRound (abs p.other).sent) (abs p).store s) :
    ∃ a : Endpoint, ReflTransGen NetStep abs (Function.update abs p a) ∧ a.store = s ∧ a.log = (abs p).log ∧
      a.sent = (abs p).sent := by
  induction h with
  | refl =>
    refine ⟨abs p, ?_, rfl, rfl, rfl⟩
    rw [Function.update_eq_self]
  | tail _ hst ih =>
    obtain ⟨a, hrun, rfl, hlog, hsent⟩ := ih
    have hself : Function.update abs p a p = a := Function.update_self ..
    cases hst with
    | same => exact ⟨a, hrun, rfl, hlog, hsent⟩
    | pop =>
      have hstep := NetStep.pop (Function.update abs p a) p
      rw [hself, Function.update_idem] at hstep
      exact ⟨a.pop, hrun.tail hstep, rfl, hlog, hsent⟩
    | @incoming past now d hd m hm =>
      have hother : (Function.update abs p a p.other).sent = (abs p.other).sent := by
        rw [Function.update_of_ne p.other_ne]
      have hstep := NetStep.receive (Function.update abs p a) p past now (hother ▸ hd) hm
      rw [hself, Function.update_idem] at hstep
      exact ⟨a.receive past now m, hrun.tail hstep, rfl, hlog, hsent⟩

/-- **A step of a party** is finitely many steps of its reliable store. -/
theorem UdpParty.Step.network {wholes wholes' : UInt16 → Option Whole} {e e' peer : UdpParty lib dict}
    (hst : Step peer.wire peer.transport.messageSizeLimit e e') (h : Linked wholes wholes' e peer)
    (ho : Outbound wholes' peer) {abs : Network} {p : Side} (hr : Represents e (abs p))
    (hpeer : Represents peer (abs p.other)) :
    ∃ a, ReflTransGen NetStep abs (Function.update abs p a) ∧ Represents e' a := by
  cases hst with
  | @send w x reliable r out t hlink hlimit hsmall hsend =>
    have h0 : (abs p).store.nextLocalId ≠ 0 := by
      rw [hr.store, ReliableStore.ne_zero_iff, h.outbound.nextLocalId]
      exact Nat.succ_pos _
    obtain ⟨hlog, hsent⟩ := Endpoint.send_records h0 w.now reliable x.data x.compHeader
    refine ⟨_, .single (.send abs p w.now reliable x.data x.compHeader), ?_, ?_, ?_⟩
    · exact (sendMessage_store hr.store.symm hlink hsend).symm
    · rw [hlog, hr.log, List.map_append]
      cases reliable <;> rfl
    · rw [hsent, hr.sent, hr.store]
  | @control w m encoded hcontrol hconn hencoded =>
    obtain ⟨⟨tracker, ht⟩, -⟩ := sendControl_frame w e.transport encoded
    refine ⟨abs p, ?_, ?_, hr.log, hr.sent⟩
    · rw [Function.update_eq_self]
    · rw [ht]
      exact hr.store
  | @retransmit deadline w again out t hsend =>
    obtain ⟨hstore, hsent⟩ := (abs p).retransmit_records deadline w.now
    rw [hr.store] at hstore hsent
    refine ⟨_, .single (.retransmit abs p deadline w.now), ?_, ?_, ?_⟩
    · rcases retransmitOne_cases hsend with ⟨-, -, -, rfl⟩ | ⟨-, -, -, -, -, ht⟩
      · exact hstore
      · rw [hstore, ht]
    · rw [Endpoint.retransmit_log, hr.log]
    · rw [hsent, hr.sent]
      rcases retransmitOne_cases hsend with ⟨rfl, -, hnone, -⟩ | ⟨msg, -, rfl, hmsg, -, -⟩
      · generalize (e.transport.relStore.maybeRetransmit deadline w.now).1 = o at hnone
        obtain _ | _ | msg := o
        · rfl
        · rfl
        · exact absurd rfl (hnone msg)
      · rw [hmsg]
        rfl
  | @acks w acks out t hsend =>
    refine ⟨_, .single (.sendAcks abs p w.now), ?_, ?_, ?_⟩
    · unfold Endpoint.sendAcks
      rw [hr.store]
      rcases sendAcksOnly_cases hsend with ⟨-, -, rfl, hcalm⟩ | ⟨_, _, hurgent, -, -, -, -, -, ht⟩
      · rw [if_neg (by rw [hcalm]; exact Bool.false_ne_true)]
        exact hr.store
      · rw [if_pos hurgent, ht]
        exact (e.transport.relStore.setOutgoingAcks_spec _).1
    · rw [Endpoint.sendAcks_log, hr.log]
    · unfold Endpoint.sendAcks
      rw [hr.store]
      rcases sendAcksOnly_cases hsend with ⟨rfl, -, -, hcalm⟩ | ⟨_, _, hurgent, rfl, rfl, -, -, -, -⟩
      · rw [if_neg (by rw [hcalm]; exact Bool.false_ne_true), List.append_nil]
        exact hr.sent
      · rw [if_pos hurgent]
        dsimp only
        rw [hr.sent]
  | @receive w sock sock' r t hw hsock hreceive =>
    obtain ⟨-, -, hrounds⟩ := h.receive ho hw hsock hreceive
    rw [← hpeer.sent, ← hr.store] at hrounds
    obtain ⟨a, hrun, hstore, hlog, hsent⟩ := NetStep.rounds hrounds
    exact ⟨a, hrun, hstore, hlog.trans hr.log, hsent.trans hr.sent⟩
  | count tracker unackedKeepalives =>
    refine ⟨abs p, ?_, hr.store, hr.log, hr.sent⟩
    rw [Function.update_eq_self]

/-- The two parties and two endpoints. -/
structure Mirrors (net : UdpNetwork lib dict) (abs : Network) : Prop extends UdpInv net where
  represents : ∀ p, Represents (net p) (abs p)

theorem Mirrors.fresh {net : UdpNetwork lib dict} (h : ∀ p, (net p).Fresh) : Mirrors net fun _ => {} := by
  refine ⟨.fresh h, fun p => ⟨?_, ?_, ?_⟩⟩
  · exact (h p).relStore.symm
  · rw [(h p).messages]
    rfl
  · exact (h p).sent.symm

theorem Mirrors.step {net net' : UdpNetwork lib dict} {abs : Network} (h : Mirrors net abs) (hst : UdpStep net net') :
    ∃ abs', ReflTransGen NetStep abs abs' ∧ Mirrors net' abs' := by
  obtain ⟨hinv', -⟩ := h.toUdpInv.step hst
  obtain ⟨wholes, hlinked⟩ := h.linked
  obtain @⟨p, e, hst, -, -⟩ := hst
  obtain ⟨a, hrun, ha⟩ :=
    hst.network (hlinked p) (hlinked p.other).outbound (h.represents p) (h.represents p.other)
  refine ⟨_, hrun, hinv', fun q => ?_⟩
  by_cases hq : q = p
  · subst hq
    rw [Function.update_self, Function.update_self]
    exact ha
  · rw [Function.update_of_ne hq, Function.update_of_ne hq]
    exact h.represents q

/-- The logs have the lengths of the parties' messages. -/
theorem Mirrors.few_logged {net : UdpNetwork lib dict} {abs : Network} (h : Mirrors net abs) (p : Side) :
    (abs p).log.length < 65535 := by
  rw [(h.represents p).log, List.length_map]
  exact h.few p

/-- **Two UDP transports refine two reliable stores** on a network that delivers whole messages. -/
theorem udp_simulates_network :
    Simulation (fun net : UdpNetwork lib dict => ∀ p, (net p).Fresh) UdpStep (· = fun _ => {}) NetStep Mirrors :=
  ⟨fun _ h => ⟨_, rfl, .fresh h⟩, fun _ _ _ h hst => h.step hst⟩

/-! ## The timer -/

/-- The party has the transport `t`, and the socket was given `out` more. Nothing was returned or sent for the first
time. -/
structure UdpParty.Expires (e e' : UdpParty lib dict) (out : List Bytes) (t : UdpTransport) : Prop where
  transport : e'.transport = t
  wire : e'.wire = e.wire ++ out
  returned : e'.returned = e.returned
  messages : e'.messages = e.messages

omit [Dbuf] in
theorem UdpParty.Expires.trans {e e₁ e₂ : UdpParty lib dict} {out out' : List Bytes} {t t' : UdpTransport}
    (h : e.Expires e₁ out t) (h' : e₁.Expires e₂ out' t') : e.Expires e₂ (out ++ out') t' :=
  ⟨h'.transport, by rw [h'.wire, h.wire, List.append_assoc], h'.returned.trans h.returned,
    h'.messages.trans h.messages⟩

/-- A call of the party, if it returns, is finitely many steps. -/
def SendOutcome.Steps (arriving : List Bytes) (limit : Nat) (e : UdpParty lib dict) (r : SendOutcome) : Prop :=
  ∀ res out t, r = some (res, out, t) →
    ∃ e', ReflTransGen (UdpParty.Step arriving limit) e e' ∧ e.Expires e' out t.toUdpTransport

namespace SendOutcome.Steps
variable {arriving : List Bytes} {limit : Nat} {e e₁ : UdpParty lib dict}

/-- A call that sends nothing. -/
theorem nothing {t : TimedUdp} (h : e.transport = t.toUdpTransport) (res : Except TransportError Unit) :
    Steps arriving limit e (some (res, [], t)) := by
  rintro _ _ _ heq
  cases heq
  exact ⟨e, .refl, h, (List.append_nil _).symm, rfl, rfl⟩

/-- A call after a step that sends nothing. -/
theorem after {t : UdpTransport} (hst : UdpParty.Step arriving limit e e₁) (he : e.Expires e₁ [] t) {r : SendOutcome}
    (h : Steps arriving limit e₁ r) : Steps arriving limit e r := by
  intro res out t' heq
  obtain ⟨e', hrun, hexpires⟩ := h res out t' heq
  exact ⟨e', hrun.head hst, he.trans hexpires⟩

/-- One call after the other. -/
theorem andThen {r : SendOutcome} {f : TimedUdp → SendOutcome} (h : Steps arriving limit e r)
    (hf : ∀ (e₁ : UdpParty lib dict) (t : TimedUdp), e₁.transport = t.toUdpTransport → Steps arriving limit e₁ (f t)) :
    Steps arriving limit e (r.andThen f) := by
  intro res out t heq
  unfold SendOutcome.andThen at heq
  split at heq
  · next out₁ t₁ =>
    obtain ⟨e₁, hrun, hexpires⟩ := h _ _ _ rfl
    obtain ⟨⟨res', out₂, t₂⟩, hf₂, hres⟩ := Option.map_eq_some_iff.mp heq
    cases hres
    obtain ⟨e₂, hrun', hexpires'⟩ := hf e₁ t₁ hexpires.transport _ _ _ hf₂
    exact ⟨e₂, hrun.trans hrun', hexpires.trans hexpires'⟩
  · exact h res out t heq

/-- A call after the statistics were updated. -/
theorem counted {t : UdpTransport} (h : e.transport = t) (tracker : StatTracker) (unackedKeepalives : Nat) {r : SendOutcome}
    (hr : ∀ e₁ : UdpParty lib dict, e₁.transport = { t with tracker, unackedKeepalives } → Steps arriving limit e₁ r) :
    Steps arriving limit e r := by
  subst h
  exact after (.count tracker unackedKeepalives) ⟨rfl, (List.append_nil _).symm, rfl, rfl⟩ (hr _ rfl)

end SendOutcome.Steps

namespace TimedUdp
variable {arriving : List Bytes} {limit : Nat} {e : UdpParty lib dict} {t : TimedUdp}

/-- What `doSend` does to the transport. -/
theorem doSend_transport {w : SendWorld} {msg : DataMessage} {retransmission : Bool} {t t' : TimedUdp}
    {res : Except TransportError Unit} {out : List Bytes} (h : t.doSend w msg retransmission = some (res, out, t')) :
    t.toUdpTransport.doSendUnfragmentedData w msg retransmission = some (res, out, t'.toUdpTransport) := by
  unfold doSend at h
  split at h
  · cases h
  · next heq =>
    cases h
    exact heq
  · next heq =>
    cases h
    exact heq

theorem retransmitAll_steps (deadline : Nat → Nat) (w : Nat → SendWorld) (rounds i : Nat)
    (he : e.transport = t.toUdpTransport) : SendOutcome.Steps arriving limit e (retransmitAll deadline w rounds i t) := by
  induction rounds generalizing e t i with
  | zero =>
    intro res out t' h
    cases h
  | succ rounds ih =>
    have hnothing : ∀ s : ReliableStore, retransmitOne deadline (w i) e.transport =
        some ([], [], { t.toUdpTransport with relStore := s }) → ∀ res,
        SendOutcome.Steps arriving limit e (some (res, [], { t with relStore := s })) := by
      intro s hone res
      refine .after (.retransmit deadline (w i) hone) ⟨rfl, rfl, rfl, rfl⟩ (.nothing rfl res)
    unfold retransmitAll
    split
    · next err s heq =>
      refine hnothing s ?_ _
      unfold retransmitOne
      rw [he, heq]
    · next s heq =>
      refine hnothing s ?_ _
      unfold retransmitOne
      rw [he, heq]
    · next msg s heq =>
      refine .andThen (fun res out t' h => ?_) fun e₁ t₁ he₁ => ?_
      · have hone : retransmitOne deadline (w i) e.transport = some ([msg], out, t'.toUdpTransport) := by
          unfold retransmitOne
          rw [he, heq]
          exact Option.map_eq_some_iff.mpr ⟨_, doSend_transport h, rfl⟩
        exact ⟨_, .single (.retransmit deadline (w i) hone), rfl, rfl, rfl, rfl⟩
      · exact .counted he₁ _ t₁.unackedKeepalives fun e₂ he₂ => ih (i + 1) he₂

theorem sendUrgentAcks_steps (w : SendWorld) (he : e.transport = t.toUdpTransport) :
    SendOutcome.Steps arriving limit e (t.sendUrgentAcks w) := by
  unfold sendUrgentAcks
  split
  · next hurgent =>
    refine .andThen (fun res out t' h => ?_) fun e₁ t₁ he₁ => ?_
    · have hacks : sendAcksOnly w e.transport =
          some ([.of [] none (t.relStore.setOutgoingAcks ⟨0, 0, .replicate 8 0⟩).1], out, t'.toUdpTransport) := by
        unfold sendAcksOnly
        rw [he, if_pos hurgent]
        exact Option.map_eq_some_iff.mpr ⟨_, doSend_transport h, rfl⟩
      exact ⟨_, .single (.acks w hacks), rfl, rfl, rfl, rfl⟩
    · exact .counted he₁ _ t₁.unackedKeepalives fun e₂ he₂ => .nothing (t := logOutgoingMessage w.now _ t₁) he₂ _
  · exact .nothing he _

theorem sendKeepalive_steps (w : SendWorld) (stamp : UInt64) (he : e.transport = t.toUdpTransport) :
    SendOutcome.Steps arriving limit e (t.sendKeepalive w stamp) := by
  refine .counted he t.tracker (t.unackedKeepalives + 1) fun e₁ he₁ => ?_
  unfold sendKeepalive
  dsimp only
  split
  · intro res out t' h
    cases h
  · next encoded hencoded =>
    generalize ht₁ : t.updateLastSentKeepalive w.now = t₁ at hencoded
    have htransport : e₁.transport = t₁.toUdpTransport := by
      rw [he₁, ← ht₁]
      rfl
    obtain ⟨e₂, hstep, hexpires⟩ : ∃ e₂, UdpParty.Step arriving limit e₁ e₂ ∧
        e₁.Expires e₂ (UdpTransport.sendControl w t₁.toUdpTransport encoded).2.1
          (UdpTransport.sendControl w t₁.toUdpTransport encoded).2.2 := by
      rw [← htransport]
      exact ⟨_, .control w (m := .keepalive ⟨stamp⟩) rfl rfl (htransport ▸ hencoded), rfl, rfl, rfl, rfl⟩
    intro res out t' h
    split at h
    · next heq =>
      cases h
      rw [heq] at hexpires
      exact ⟨e₂, .single hstep, hexpires⟩
    · next u heq =>
      cases h
      rw [heq] at hexpires
      -- the statistics of the message are the second step
      exact ⟨_, .tail (.single hstep) (.count _ u.unackedKeepalives), by rw [hexpires.transport]; rfl, hexpires.wire,
        hexpires.returned, hexpires.messages⟩

/-- **A call of `handleTimerExpiry`**, if it returns, is finitely many steps of the party. -/
theorem handleTimerExpiry_steps (arriving : List Bytes) (limit : Nat) (e : UdpParty lib dict) (t : TimedUdp)
    (deadline : Nat → Nat) (w : ExpiryWorld) :
    SendOutcome.Steps arriving limit { e with transport := t.toUdpTransport } (t.handleTimerExpiry deadline w) := by
  unfold handleTimerExpiry
  split
  · exact .nothing rfl _
  · refine .andThen (retransmitAll_steps deadline _ _ _ rfl) fun e₁ t₁ he₁ => ?_
    refine .andThen (sendUrgentAcks_steps _ he₁) fun e₂ t₂ he₂ => ?_
    split
    · exact sendKeepalive_steps _ w.stamp he₂
    · exact .nothing he₂ _

end TimedUdp

/-- In every state that can be reached such a call returns. -/
theorem UdpInv.handleTimerExpiry_returns {net : UdpNetwork lib dict} (h : UdpInv net) {p : Side} {t : TimedUdp}
    (ht : t.toUdpTransport = (net p).transport) (deadline : Nat → Nat)
    (w : TimedUdp.ExpiryWorld) : (t.handleTimerExpiry deadline w).isSome := by
  obtain ⟨wholes, hlinked⟩ := h.linked
  have hout := (hlinked p).outbound
  refine TimedUdp.handleTimerExpiry_returns deadline ?_ (fun u hu => ?_) w
  · rw [ht]
    exact hout.mtu
  · rw [ht] at hu
    exact (hout.kept u hu).ackCount

/-! ## What is not kept any more -/

/-- The reliable message `id` of a party has reached its peer: it was returned there, or waits to be returned. -/
def ReachedPeer (e peer : UdpParty lib dict) (id : UInt16) : Prop :=
  ∃ x, e.messages[id.toNat - 1]? = some x ∧
    ((∃ r ∈ peer.returned ++ peer.transport.pendingMessages,
        reliableId r = some id ∧ r.message = .data { data := x.payload }) ∨
      ∃ m ∈ peer.transport.relStore.remoteDelayedQueue,
        messageIdOf m = id ∧ m.data = x.data ∧
          m.compressionHeader.map (·.toCompressionHeader) = x.compHeader)

omit [Dbuf] in
theorem mem_idsFrom {n i : Nat} (h : i < n) (id : UInt16) : succId^[i] id ∈ ReliableStore.idsFrom id n := by
  obtain ⟨k, rfl⟩ := Nat.exists_eq_add_of_lt h
  rw [Nat.add_assoc, ReliableStore.idsFrom_add, ReliableStore.idsFrom]
  exact List.mem_append_right _ List.mem_cons_self

/-- What the store has passed has arrived. -/
theorem Linked.reachedPeer {wholes wholes' : UInt16 → Option Whole} {e peer : UdpParty lib dict}
    (h : Linked wholes' wholes peer e) (ho : Outbound wholes e) {id : UInt16} (h0 : id ≠ 0)
    (hpassed : id.toNat < peer.transport.relStore.nextRemoteId.toNat) : ReachedPeer e peer id := by
  obtain ⟨n, hids, hnext⟩ := h.inbound.order.ids
  have hpos := ReliableStore.ne_zero_iff.mp h0
  have hplace : id.toNat - 1 < n := by
    rw [hnext, ReliableStore.iterate_succId_toNat n (by decide), show (1 : UInt16).toNat - 1 + n = n from Nat.zero_add n]
      at hpassed
    have hmod := Nat.mod_le n 65535
    omega
  have hmem := mem_idsFrom hplace 1
  have hid : succId^[id.toNat - 1] 1 = id := by
    have hlt := id.toNat_lt
    rw [← UInt16.toNat_inj, ReliableStore.iterate_succId_toNat _ (by decide)]
    show (0 + (id.toNat - 1)) % 65535 + 1 = id.toNat
    omega
  rw [hid, ← hids] at hmem
  rcases List.mem_append.mp hmem with hmem | hmem
  · obtain ⟨r, hr, hrid⟩ := List.mem_filterMap.mp hmem
    obtain ⟨x, hx, hpayload⟩ := h.inbound.payloads r hr id hrid
    exact ⟨x, hx, .inl ⟨r, hr, hrid, hpayload⟩⟩
  · obtain ⟨m, hm, rfl⟩ := List.mem_map.mp hmem
    obtain ⟨d, hd, hsame, hdata, hcomp⟩ := h.inbound.delayed m hm m.header m.has_header
    rcases ho.sent d hd with hzero | ⟨x, hx, hxdata, hxcomp⟩
    · exact absurd (hsame.messageId.trans hzero) h0
    · rw [← hsame.messageId] at hx
      exact ⟨x, hx, .inr ⟨m, hm, rfl, hdata.trans hxdata, hcomp.trans hxcomp⟩⟩

/-- **Nothing is forgotten too early.** A reliable message that a transport keeps for retransmission at some time and
does not keep any more later has reached the peer's transport by then. -/
theorem udp_forgets_only_delivered {net net' : UdpNetwork lib dict}
    (h : Reachable (fun net => ∀ p, (net p).Fresh) UdpStep net) (hrun : ReflTransGen UdpStep net net') (p : Side)
    {u : UnackedLocalMessage} (hu : u ∈ (net p).transport.relStore.localUnacked)
    (hgone : ∀ v ∈ (net' p).transport.relStore.localUnacked, v.messageId ≠ u.messageId) :
    ReachedPeer (net' p) (net' p.other) u.messageId := by
  have hsim : Simulation (fun net : UdpNetwork lib dict => ∀ p, (net p).Fresh) UdpStep (· = fun _ => {}) NetStep Mirrors :=
    ⟨fun _ h => ⟨_, rfl, .fresh h⟩, fun _ _ _ h hst => h.step hst⟩
  obtain ⟨abs, hreach, hmirrors⟩ := hsim.reachable h
  obtain ⟨abs', hrun', hmirrors'⟩ := hsim.run hmirrors hrun
  have hreach' : ReachableNet abs' := by
    obtain ⟨start, hstart, hbefore⟩ := hreach
    exact ⟨start, hstart, hbefore.trans hrun'⟩
  rw [← (hmirrors.represents p).store] at hu
  rw [← (hmirrors'.represents p).store] at hgone
  obtain ⟨-, -, h0⟩ := (ReachableNet.inv hreach hmirrors.few_logged p).kept.honest u hu
  have hid : u.messageId ∈ (abs p).keptIds := List.mem_map_of_mem hu
  have hnot : u.messageId ∉ (abs' p).keptIds := by
    intro hmem
    obtain ⟨v, hv, heq⟩ := List.mem_map.mp hmem
    exact hgone v hv heq
  obtain ⟨m, hm, hmid⟩ := released_of_gone hreach hrun' hmirrors'.few_logged hid hnot
  have hpassed := (ReachableNet.sequenced hreach' hmirrors'.few_logged p.other).1.passed m hm
  rw [hmid, (hmirrors'.represents p.other).store] at hpassed
  obtain ⟨wholes, hlinked⟩ := hmirrors'.linked
  have hpeer := hlinked p.other
  rw [p.other_other] at hpeer
  exact hpeer.reachedPeer (hlinked p).outbound h0 hpassed

end

/-! ### The first message -/

/-- A payload that is too short to be compressed. -/
def shortPacked : Packed repeatedLibraries none :=
  Packed.ofSocket (s := {}) repeatedLibraries_roundTrips (fun _ h => by cases h) (show [7].length < 2 ^ 31 by decide)
    (show Socket.compressAs repeatedLibraries {} { data := [7] } .none = .ok { data := [7] } from rfl)

def shortWorld : World := { idleWorld with lz4 := repeatedLibraries.lz4Decompress }

def shortStart : UdpParty repeatedLibraries none := { transport := { zstdReady := true } }

def parties (left right : UdpParty repeatedLibraries none) : UdpNetwork repeatedLibraries none
  | .left => left
  | .right => right

/-- A datagram arrives. -/
theorem shortArrives [Dbuf] {e e' : UdpParty repeatedLibraries none} {wire : List Bytes} {limit : Nat} {d : Bytes}
    (hd : d ∈ wire) {r : Except TransportError Received} {t : UdpTransport} {sock : SocketInput}
    (h : UdpTransport.receiveMessage shortWorld e.transport [(shortWorld, .datagram d)] = some (r, t, sock))
    (hready : e.transport.zstdReady = true) (hdict : e.transport.zstdDict = false)
    (he : e' = { e with transport := t, returned := e.returned ++ returnedBy r }) : e.Step wire limit e' := by
  have hw : Receiver repeatedLibraries none shortWorld e.transport.base :=
    ⟨hready, hdict, fun _ _ _ => rfl, fun _ _ => rfl⟩
  subst he
  refine .receive shortWorld hw (fun w datagram hmem => ?_) h
  cases List.mem_singleton.mp hmem
  exact ⟨hw, hd⟩

/-- What the socket is given. -/
theorem shortSent {o : Option (Except TransportError Unit × List Bytes × UdpTransport)} {out : List Bytes}
    (h : o.map (fun r => (r.2.1, r.2.2.fragStore.nextId)) = some (out, 1)) :
    ∃ r t, o = some (r, out, t) ∧ t.fragStore.nextId = 1 := by
  obtain ⟨⟨r, out', t⟩, rfl, hout⟩ := Option.map_eq_some_iff.mp h
  obtain ⟨rfl, hid⟩ := Prod.mk.inj hout
  exact ⟨r, t, rfl, hid⟩

/-- The first message is sent, received and acknowledged, and then forgotten. -/
theorem udp_forgets_only_delivered_first :
    ∃ net net' : UdpNetwork repeatedLibraries none, (∃ u ∈ (net .left).transport.relStore.localUnacked, u.messageId = 1) ∧
      (net' .left).transport.relStore.localUnacked = [] ∧ ReachedPeer (net' .left) (net' .right) 1 := by
  let : Dbuf := .little
  obtain ⟨r₁, t₁, hsend, hid₁, hready, hdict, hroom, ⟨u, hu, hu1⟩, r₄, t₄, s₄, hacked, hid₄, hgone⟩ : ∃ r t,
      UdpTransport.sendMessage openLink { zstdReady := true } [7] none true = some (r, [[0x90, 1, 0, 0, 0, 7]], t) ∧
      t.fragStore.nextId = 1 ∧ t.zstdReady = true ∧ t.zstdDict = false ∧ t.messageSizeLimit = sizeMax ∧
      (∃ u ∈ t.relStore.localUnacked, u.messageId = 1) ∧
      ∃ r' t' s', UdpTransport.receiveMessage shortWorld t [(shortWorld, .datagram [0x90, 0, 0, 1, 0, 1, 0, 7])] =
        some (r', t', s') ∧ t'.fragStore.nextId = 1 ∧ t'.relStore.localUnacked = [] :=
    ⟨_, _, rfl, rfl, rfl, rfl, rfl, ⟨_, List.mem_singleton_self _, rfl⟩, _, _, _, rfl, rfl, rfl⟩
  obtain ⟨r₂, t₂, s₂, hreceive, hid₂, r₃, t₃, hreply, hid₃⟩ : ∃ r t s,
      UdpTransport.receiveMessage shortWorld { zstdReady := true } [(shortWorld, .datagram [0x90, 1, 0, 0, 0, 7])] =
        some (r, t, s) ∧ t.fragStore.nextId = 1 ∧
      ∃ r' t', UdpTransport.sendMessage openLink t [7] none false = some (r', [[0x90, 0, 0, 1, 0, 1, 0, 7]], t') ∧
        t'.fragStore.nextId = 1 :=
    ⟨_, _, _, rfl, rfl, shortSent (by decide +kernel)⟩
  have hone : (1 : UInt16) ≠ 0 := by decide
  have hlink : ∀ i err, openLink.link i ≠ .failed err := fun _ _ h => by cases h
  have hlimit : shortPacked.payload.length ≤ sizeMax := by
    show 1 ≤ sizeMax
    decide
  have hsmall : shortPacked.data.length ≤ 32767 * 1187 := by decide
  let sender : UdpParty repeatedLibraries none :=
    { transport := t₁, wire := [] ++ [[0x90, 1, 0, 0, 0, 7]], messages := [] ++ [shortPacked]
      sent := [] ++ announcement [7] none (ReliableStore.outgoingHeader {} true).1 }
  let receiver : UdpParty repeatedLibraries none := { transport := t₂, returned := [] ++ returnedBy r₂ }
  let receiver' : UdpParty repeatedLibraries none :=
    { receiver with
      transport := t₃, wire := [] ++ [[0x90, 0, 0, 1, 0, 1, 0, 7]], messages := [] ++ []
      sent := [] ++ announcement [7] none (t₂.relStore.outgoingHeader false).1 }
  let sender' : UdpParty repeatedLibraries none := { sender with transport := t₄, returned := [] ++ returnedBy r₄ }
  have h₁ : UdpStep (parties shortStart shortStart) (parties sender shortStart) :=
    .of .left rfl (.send openLink shortPacked true hlink hlimit hsmall hsend) (Nat.lt_of_sub_eq_succ rfl) (hid₁ ▸ hone)
  have h₂ : UdpStep (parties sender shortStart) (parties sender receiver) :=
    .of .right rfl (shortArrives (List.mem_singleton_self _) hreceive rfl rfl rfl) (Nat.succ_pos _) (hid₂ ▸ hone)
  have h₃ : UdpStep (parties sender receiver) (parties sender receiver') :=
    .of .right rfl (.send openLink shortPacked false hlink (hroom ▸ hlimit) hsmall hreply) (Nat.succ_pos _)
      (hid₃ ▸ hone)
  have h₄ : UdpStep (parties sender receiver') (parties sender' receiver') :=
    .of .left rfl (shortArrives (List.mem_singleton_self _) hacked hready hdict rfl) (Nat.lt_of_sub_eq_succ rfl)
      (hid₄ ▸ hone)
  have hfresh : ∀ p, (parties shortStart shortStart p).Fresh := by
    intro p
    cases p <;> exact ⟨rfl, rfl, rfl, rfl, rfl, rfl, rfl, rfl, rfl⟩
  have hreached := udp_forgets_only_delivered (.next (.start hfresh) h₁) (.head h₂ (.head h₃ (.single h₄))) .left hu
    fun v hv => by
      change v ∈ t₄.relStore.localUnacked at hv
      rw [hgone] at hv
      cases hv
  rw [hu1] at hreached
  exact ⟨parties sender shortStart, parties sender' receiver', ⟨u, hu, hu1⟩, hgone, hreached⟩

end

end Qunet
