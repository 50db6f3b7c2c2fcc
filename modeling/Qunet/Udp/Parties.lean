import Qunet.Udp.Rounds
import Qunet.Udp.Channel
import Qunet.Udp.Timer
import Qunet.Connection.Compressing

/-!
# The parties of a UDP session

* `Packed` : a payload and what it was compressed to;
* `UdpParty`, `UdpParty.Step` : a transport that sends, retransmits, acknowledges, receives and counts. Whatever its
  peer has given to the socket may arrive any number of times, at any later time, or never;
* `Outbound`, `Inbound` : what holds of the two ends of a direction;
* `Outbound.emit`, `Outbound.receive` : what keeps the sending end;
* `Inbound.round` : one round of `receiveMessage` keeps the receiving end, and is at most one step of the store.
-/

namespace Qunet
open Lib FragmentStore UdpTransport Relation

/-! ## The parties -/

/-- A payload and what it was compressed to: a receiver with the same libraries and dictionary gets it back. -/
structure Packed (lib : CompressionLibraries) (dict : Option Bytes) where
  payload : Bytes
  data : Bytes
  compHeader : Option CompressionHeader
  named : ∀ c ∈ compHeader, c.type ≠ .none
  restores : ∀ w t, Receiver lib dict w t → payload.length ≤ t.messageSizeLimit →
    Restores w t { data, compHeader } payload

/-- What `Socket::sendMessage` makes of a payload. -/
def Packed.ofSocket {lib : CompressionLibraries} (hlib : lib.RoundTrips) {dict : Option Bytes} {s : SocketTransport}
    (hsame : ∀ dict', s.zstdCompressor = .initialized dict' → dict' = dict) {payload : Bytes}
    (hsize : payload.length < 2 ^ 31) {ctype : CompressionType} {msg : DataMessage}
    (h : Socket.compressAs lib s { data := payload } ctype = .ok msg) : Packed lib dict where
  payload := payload
  data := msg.data
  compHeader := msg.compHeader
  named := compressAs_namesAlgorithm rfl hsize h
  restores _ _ hreceiver hlimit := compressAs_restores hlib hreceiver hsame rfl hsize hlimit h

/-- What decompressing depends on. -/
def UdpTransport.base (t : UdpTransport) : BaseTransport where
  messageSizeLimit := t.messageSizeLimit
  zstdReady := t.zstdReady
  zstdDict := t.zstdDict
  tracker := t.tracker

/-- The header of a data message, if it says anything. -/
def announcement (data : Bytes) (compHeader : Option CompressionHeader) (header : ReliabilityHeader) : List ReliableData :=
  if header.messageId ≠ 0 ∨ header.ackCount > 0 then [.of data compHeader header] else []

structure UdpParty (lib : CompressionLibraries) (dict : Option Bytes) where
  transport : UdpTransport := {}
  /-- The datagrams that the socket was given. -/
  wire : List Bytes := []
  /-- What the calls of `receiveMessage` returned. -/
  returned : List Received := []
  /-- The reliable messages that were sent. -/
  messages : List (Packed lib dict) := []
  /-- Everything that was sent with a reliability header. -/
  sent : List ReliableData := []

section
variable [Dbuf] {lib : CompressionLibraries} {dict : Option Bytes}

namespace UdpTransport

/-- One round of the retransmission loop in `handleTimerExpiry`: what is sent again, what the socket is given of it, and
the transport. -/
def retransmitOne (deadline : Nat → Nat) (w : SendWorld) (t : UdpTransport) :
    Option (List ReliableData × List Bytes × UdpTransport) :=
  match t.relStore.maybeRetransmit deadline w.now with
  | (.ok (some msg), s) =>
    (doSendUnfragmentedData w { t with relStore := s } msg.toDataMessage true).map fun r => ([msg], r.2.1, r.2.2)
  | (_, s) => some ([], [], { t with relStore := s })

/-- The acknowledgement without data in `handleTimerExpiry`. -/
def sendAcksOnly (w : SendWorld) (t : UdpTransport) : Option (List ReliableData × List Bytes × UdpTransport) :=
  if t.relStore.hasUrgentOutgoingAcks w.now then
    let r := t.relStore.setOutgoingAcks ⟨0, 0, .replicate 8 0⟩
    (doSendUnfragmentedData w { t with relStore := r.2 } { data := [], relHeader := some r.1 } false).map fun x =>
      ([.of [] none r.1], x.2.1, x.2.2)
  else some ([], [], t)

end UdpTransport

/-- The steps of a party whose peer accepts payloads of at most `limit` bytes and has given `arriving` to its socket. -/
inductive UdpParty.Step (arriving : List Bytes) (limit : Nat) (e : UdpParty lib dict) : UdpParty lib dict → Prop where
  | send (w : SendWorld) (x : Packed lib dict) (reliable : Bool) {r : Except TransportError Unit} {out : List Bytes}
      {t : UdpTransport} (hlink : ∀ i err, w.link i ≠ .failed err) (hlimit : x.payload.length ≤ limit)
      (hsmall : x.data.length ≤ 32767 * 1187)
      (h : UdpTransport.sendMessage w e.transport x.data x.compHeader reliable = some (r, out, t)) :
      Step arriving limit e { e with
        transport := t, wire := e.wire ++ out
        messages := e.messages ++ if reliable then [x] else []
        sent := e.sent ++ announcement x.data x.compHeader (e.transport.relStore.outgoingHeader reliable).1 }
  | control (w : SendWorld) {m : QunetMessage} {encoded : Bytes} (hcontrol : m.isControl = true)
      (hconn : m.isConnectionControl = false) (h : m.encodeControlMsg e.transport.connectionId = some encoded) :
      Step arriving limit e { e with
        transport := (UdpTransport.sendControl w e.transport encoded).2.2
        wire := e.wire ++ (UdpTransport.sendControl w e.transport encoded).2.1 }
  | retransmit (deadline : Nat → Nat) (w : SendWorld) {again : List ReliableData} {out : List Bytes} {t : UdpTransport}
      (h : retransmitOne deadline w e.transport = some (again, out, t)) :
      Step arriving limit e { e with transport := t, wire := e.wire ++ out, sent := e.sent ++ again }
  | acks (w : SendWorld) {acks : List ReliableData} {out : List Bytes} {t : UdpTransport}
      (h : sendAcksOnly w e.transport = some (acks, out, t)) :
      Step arriving limit e { e with transport := t, wire := e.wire ++ out, sent := e.sent ++ acks }
  | receive (w : World) {sock sock' : SocketInput} {r : Except TransportError Received} {t : UdpTransport}
      (hw : Receiver lib dict w e.transport.base)
      (hsock : AllArrive (fun w datagram => Receiver lib dict w e.transport.base ∧ datagram ∈ arriving) sock)
      (h : UdpTransport.receiveMessage w e.transport sock = some (r, t, sock')) :
      Step arriving limit e { e with transport := t, returned := e.returned ++ returnedBy r }
  | count (tracker : StatTracker) (unackedKeepalives : Nat) :
      Step arriving limit e { e with transport := { e.transport with tracker, unackedKeepalives } }

/-! ## What holds of the two ends of a direction -/

/-- A message without id, or one of the reliable messages, in its place. -/
def Recorded (messages : List (Packed lib dict)) (d : ReliableData) : Prop :=
  d.header.messageId = 0 ∨
    ∃ x, messages[d.header.messageId.toNat - 1]? = some x ∧ d.data = x.data ∧ d.compHeader = x.compHeader

/-- A message that can be sent again: a recorded one whose headers and fragments are read back. -/
structure Sendable (messages : List (Packed lib dict)) (d : ReliableData) : Prop where
  ackCount : d.header.ackCount ≤ 8
  named : d.toDataMessage.NamesAlgorithm
  small : d.data.length ≤ 32767 * 1187
  recorded : Recorded messages d

/-- A received message without id, or the payload of one of the reliable messages, in its place. -/
def IsPayload (messages : List (Packed lib dict)) (r : Received) : Prop :=
  ∀ id, reliableId r = some id → ∃ x, messages[id.toNat - 1]? = some x ∧ r.message = .data { data := x.payload }

/-- The sending end. `wholes` are the messages that it has sent in fragments. -/
structure Outbound (wholes : UInt16 → Option Whole) (e : UdpParty lib dict) : Prop where
  connectionId : e.transport.connectionId = 0
  mtu : e.transport.mtu = 1200
  nextId : e.transport.fragStore.nextId ≠ 0
  fragmented : ∀ k w, wholes k = some w → k < e.transport.fragStore.nextId ∧ FromPeer e.sent w.assembled
  nextLocalId : e.transport.relStore.nextLocalId.toNat = e.messages.length + 1
  sent : ∀ d ∈ e.sent, Recorded e.messages d
  kept : ∀ u ∈ e.transport.relStore.localUnacked, Sendable e.messages u.msg
  wire : ∀ d ∈ e.wire, Genuine e.sent wholes d

/-- The receiving end: its transport `t`, and what it has returned. -/
structure Inbound (peer : UdpParty lib dict) (wholes : UInt16 → Option Whole) (t : UdpTransport)
    (returned : List Received) : Prop where
  limits : ∀ x ∈ peer.messages, x.payload.length ≤ t.messageSizeLimit
  partials : Partials wholes t.fragStore
  stored : ∀ e ∈ t.relStore.remoteOutOfOrder, FromPeer peer.sent e.message.toQunetMessageMeta
  delayed : ∀ m ∈ t.relStore.remoteDelayedQueue, FromPeer peer.sent m.toQunetMessageMeta
  order : InOrder (reliableIds (returned ++ t.pendingMessages)) t
  payloads : ∀ r ∈ returned ++ t.pendingMessages, IsPayload peer.messages r

/-! ## More is sent -/

omit [Dbuf] in
theorem getElem?_of_getElem? {α : Type} {l : List α} {i : Nat} {x : α} (h : l[i]? = some x) (more : List α) :
    (l ++ more)[i]? = some x := by
  rw [List.getElem?_append_left (List.getElem?_eq_some_iff.mp h).1, h]

omit [Dbuf] in
theorem Recorded.mono {messages : List (Packed lib dict)} {d : ReliableData} (h : Recorded messages d)
    (more : List (Packed lib dict)) : Recorded (messages ++ more) d := by
  rcases h with h | ⟨x, hx, hd⟩
  · exact .inl h
  · exact .inr ⟨x, getElem?_of_getElem? hx more, hd⟩

omit [Dbuf] in
theorem Sendable.mono {messages : List (Packed lib dict)} {d : ReliableData} (h : Sendable messages d)
    (more : List (Packed lib dict)) : Sendable (messages ++ more) d :=
  ⟨h.ackCount, h.named, h.small, h.recorded.mono more⟩

omit [Dbuf] in
theorem IsPayload.mono {messages : List (Packed lib dict)} {r : Received} (h : IsPayload messages r)
    (more : List (Packed lib dict)) : IsPayload (messages ++ more) r := by
  intro id hid
  obtain ⟨x, hx, hr⟩ := h id hid
  exact ⟨x, getElem?_of_getElem? hx more, hr⟩

/-- The peer has sent more. -/
structure Sends (peer peer' : UdpParty lib dict) (wholes wholes' : UInt16 → Option Whole) : Prop where
  messages : ∃ more, peer'.messages = peer.messages ++ more
  sent : peer.sent ⊆ peer'.sent
  wholes : ∀ k w, wholes k = some w → wholes' k = some w

omit [Dbuf] in
theorem Inbound.mono {peer peer' : UdpParty lib dict} {wholes wholes' : UInt16 → Option Whole} {t : UdpTransport}
    {returned : List Received} (h : Inbound peer wholes t returned) (hs : Sends peer peer' wholes wholes')
    (hlimits : ∀ x ∈ peer'.messages, x.payload.length ≤ t.messageSizeLimit) : Inbound peer' wholes' t returned := by
  obtain ⟨more, hmore⟩ := hs.messages
  refine ⟨hlimits, h.partials.mono hs.wholes, fun e he => (h.stored e he).mono hs.sent,
    fun m hm => (h.delayed m hm).mono hs.sent, h.order, fun r hr => ?_⟩
  rw [hmore]
  exact (h.payloads r hr).mono more

/-! ## The sending end -/

omit [Dbuf] in
theorem lt_add_one_of_ne_zero {id : UInt16} (h : id + 1 ≠ 0) : id < id + 1 := by
  have hadd : (id + 1).toNat = (id.toNat + 1) % 65536 := by simp
  rw [Ne, ← UInt16.toNat_inj, UInt16.toNat_zero] at h
  rw [UInt16.lt_iff_toNat_lt]
  have hlt := id.toNat_lt
  omega

/-- A data message leaves. -/
theorem Outbound.emit {wholes : UInt16 → Option Whole} {e : UdpParty lib dict} (h : Outbound wholes e)
    (new : List (Packed lib dict)) (more : List ReliableData) {w : SendWorld} {s : ReliableStore} {msg : DataMessage}
    {retransmission : Bool} {r : Except TransportError Unit} {out : List Bytes} {t : UdpTransport}
    (hsend : UdpTransport.doSendUnfragmentedData w { e.transport with relStore := s } msg retransmission =
      some (r, out, t))
    (hcomp : msg.NamesAlgorithm) (hrel : ∀ h ∈ msg.relHeader, h.ackCount ≤ 8)
    (hsmall : msg.data.length ≤ 32767 * 1187) (hannounced : Announced (e.sent ++ more) msg)
    (hmore : ∀ d ∈ more, Recorded (e.messages ++ new) d)
    (hnext : t.relStore.nextLocalId.toNat = (e.messages ++ new).length + 1)
    (hkept : ∀ u ∈ t.relStore.localUnacked, Sendable (e.messages ++ new) u.msg)
    (hid : t.fragStore.nextId ≠ 0) :
    ∃ wholes', (∀ k w, wholes k = some w → wholes' k = some w) ∧
      Outbound wholes' { e with
        transport := t, wire := e.wire ++ out, messages := e.messages ++ new, sent := e.sent ++ more } := by
  obtain ⟨hmtu, hconn⟩ := UdpTransport.doSendUnfragmentedData_settings hsend
  have hsent : ∀ d ∈ e.sent ++ more, Recorded (e.messages ++ new) d := by
    intro d hd
    rcases List.mem_append.mp hd with hd | hd
    · exact (h.sent d hd).mono new
    · exact hmore d hd
  have hsub : e.sent ⊆ e.sent ++ more := List.subset_append_left _ _
  have hwire : ∀ {wholes'}, (∀ k w, wholes k = some w → wholes' k = some w) →
      (∀ d ∈ out, Genuine (e.sent ++ more) wholes' d) → ∀ d ∈ e.wire ++ out, Genuine (e.sent ++ more) wholes' d := by
    intro wholes' hext hout d hd
    rcases List.mem_append.mp hd with hd | hd
    · exact (h.wire d hd).mono hsub hext
    · exact hout d hd
  have hgenuine := doSendUnfragmentedData_genuine (t := { e.transport with relStore := s }) wholes h.connectionId h.mtu
    hcomp hrel hsmall hannounced hsend
  rcases hgenuine with ⟨hsame, hout⟩ | ⟨whole, hsucc, hfrom, hout⟩
  · have hext : ∀ k w, wholes k = some w → wholes k = some w := fun _ _ hk => hk
    refine ⟨wholes, hext, hconn.trans h.connectionId, hmtu.trans h.mtu, hid, fun k w hk => ?_, hnext, hsent, hkept,
      hwire hext hout⟩
    obtain ⟨hlt, hfrom⟩ := h.fragmented k w hk
    refine ⟨?_, hfrom.mono hsub⟩
    rw [hsame]
    exact hlt
  · have hgrows : e.transport.fragStore.nextId < t.fragStore.nextId := by
      rw [hsucc] at hid ⊢
      exact lt_add_one_of_ne_zero hid
    have hext : ∀ k w, wholes k = some w →
        Function.update wholes e.transport.fragStore.nextId (some whole) k = some w := by
      intro k w hk
      rw [Function.update_of_ne (UInt16.ne_of_lt (h.fragmented k w hk).1)]
      exact hk
    refine ⟨_, hext, hconn.trans h.connectionId, hmtu.trans h.mtu, hid, fun k w hk => ?_, hnext, hsent, hkept,
      hwire hext hout⟩
    by_cases hk0 : k = e.transport.fragStore.nextId
    · rw [hk0, Function.update_self] at hk
      cases hk
      exact ⟨hk0 ▸ hgrows, hfrom⟩
    · rw [Function.update_of_ne hk0] at hk
      obtain ⟨hlt, hfrom⟩ := h.fragmented k w hk
      exact ⟨UInt16.lt_trans hlt hgrows, hfrom.mono hsub⟩

omit [Dbuf] in
/-- What a data message does to the outgoing side of the store. -/
theorem Endpoint.send_outgoing (e : Endpoint) (now : Nat) (reliable : Bool) (data : Bytes)
    (comp : Option CompressionHeader) :
    let s := (e.send now reliable data comp).store
    s.nextLocalId = (if reliable then succId e.store.nextLocalId else e.store.nextLocalId) ∧
      ∀ u ∈ s.localUnacked,
        u ∈ e.store.localUnacked ∨ u.msg = .of data comp (e.store.outgoingHeader reliable).1 := by
  obtain ⟨-, -, -, hs⟩ := e.store.outgoingHeader_spec reliable
  have hnext := congrArg ReliableStore.nextLocalId hs
  have hkept : (e.store.outgoingHeader reliable).2.localUnacked = e.store.localUnacked := by rw [hs]
  unfold Endpoint.send
  dsimp only
  split
  · unfold ReliableStore.pushLocalUnacked
    split
    · refine ⟨hnext, fun u hu => .inl ?_⟩
      rwa [← hkept]
    · refine ⟨hnext, fun u hu => ?_⟩
      rcases List.mem_append.mp hu with hu | hu
      · left
        rwa [← hkept]
      · right
        rw [List.mem_singleton.mp hu]
  · split
    all_goals
      refine ⟨hnext, fun u hu => .inl ?_⟩
      rwa [← hkept]

/-- A data message is sent. -/
theorem Outbound.send {wholes : UInt16 → Option Whole} {e : UdpParty lib dict} (h : Outbound wholes e) {w : SendWorld}
    {x : Packed lib dict} {reliable : Bool} {r : Except TransportError Unit} {out : List Bytes} {t : UdpTransport}
    (hlink : ∀ i err, w.link i ≠ .failed err) (hsmall : x.data.length ≤ 32767 * 1187)
    (hsend : UdpTransport.sendMessage w e.transport x.data x.compHeader reliable = some (r, out, t))
    (hfew : (e.messages ++ if reliable then [x] else []).length < 65535) (hid : t.fragStore.nextId ≠ 0) :
    ∃ wholes', (∀ k w, wholes k = some w → wholes' k = some w) ∧
      Outbound wholes' { e with
        transport := t, wire := e.wire ++ out
        messages := e.messages ++ if reliable then [x] else []
        sent := e.sent ++ announcement x.data x.compHeader (e.transport.relStore.outgoingHeader reliable).1 } := by
  have hstore := UdpTransport.sendMessage_store (e := ⟨e.transport.relStore, [], [], []⟩) rfl hlink hsend
  obtain ⟨hnext, hkept⟩ := Endpoint.send_outgoing ⟨e.transport.relStore, [], [], []⟩ w.now reliable x.data x.compHeader
  rw [← hstore] at hnext hkept
  obtain ⟨h8, -, hheader, -⟩ := e.transport.relStore.outgoingHeader_spec reliable
  have hlocal := h.nextLocalId
  have hrecorded : Recorded (e.messages ++ if reliable then [x] else [])
      (.of x.data x.compHeader (e.transport.relStore.outgoingHeader reliable).1) := by
    cases reliable with
    | false => exact .inl hheader
    | true =>
      refine .inr ⟨x, ?_, rfl, rfl⟩
      show (e.messages ++ [x])[(e.transport.relStore.outgoingHeader true).1.messageId.toNat - 1]? = some x
      rw [hheader, if_pos rfl, hlocal, Nat.add_sub_cancel, List.getElem?_concat_length]
  unfold UdpTransport.sendMessage at hsend
  dsimp only at hsend
  generalize (e.transport.relStore.outgoingHeader reliable).1 = header at *
  refine h.emit _ _ hsend x.named ?_ hsmall ?_ ?_ ?_ ?_ hid
  · intro hd hmem
    dsimp only at hmem
    split at hmem
    · cases hmem
      exact h8
    · cases hmem
  · intro hd hrel
    dsimp only at hrel
    split at hrel
    · next hsays =>
      cases hrel
      refine ⟨.of x.data x.compHeader header, List.mem_append_right _ ?_, rfl, rfl, rfl⟩
      rw [announcement, if_pos hsays]
      exact List.mem_singleton_self _
    · cases hrel
  · intro d hd
    unfold announcement at hd
    split at hd
    · rw [List.mem_singleton.mp hd]
      exact hrecorded
    · cases hd
  · rw [hnext]
    cases reliable with
    | false => simpa using hlocal
    | true =>
      rw [if_pos rfl, List.length_append, List.length_singleton] at hfew
      dsimp only
      rw [if_pos rfl, if_pos rfl, ReliableStore.succId_toNat, List.length_append, List.length_singleton,
        if_neg (by omega), hlocal]
  · intro u hu
    rcases hkept u hu with hu | hu
    · exact (h.kept u hu).mono _
    · rw [hu]
      exact ⟨h8, x.named, hsmall, hrecorded⟩

omit [Dbuf] in
/-- The scan keeps what is kept. -/
theorem mem_of_mem_retransmitScan {deadline : Nat → Nat} {now : Nat} {l : List UnackedLocalMessage}
    {u : UnackedLocalMessage} (h : u ∈ (ReliableStore.retransmitScan deadline now l).2) : ∃ v ∈ l, v.msg = u.msg := by
  have hmem := List.mem_map_of_mem (f := fun u => (u.messageId, u.msg)) h
  rw [(ReliableStore.retransmitScan_spec deadline now l).1] at hmem
  obtain ⟨v, hv, heq⟩ := List.mem_map.mp hmem
  exact ⟨v, hv, (Prod.mk.inj heq).2⟩

/-- The ways in which a round of the retransmission loop ends. -/
theorem UdpTransport.retransmitOne_cases {deadline : Nat → Nat} {w : SendWorld} {t t' : UdpTransport}
    {again : List ReliableData} {out : List Bytes} (h : retransmitOne deadline w t = some (again, out, t')) :
    (again = [] ∧ out = [] ∧ (∀ msg, (t.relStore.maybeRetransmit deadline w.now).1 ≠ .ok (some msg)) ∧
        t' = { t with relStore := (t.relStore.maybeRetransmit deadline w.now).2 }) ∨
      ∃ msg r, again = [msg] ∧ (t.relStore.maybeRetransmit deadline w.now).1 = .ok (some msg) ∧
        doSendUnfragmentedData w { t with relStore := (t.relStore.maybeRetransmit deadline w.now).2 } msg.toDataMessage
          true = some (r, out, t') ∧
        t'.relStore = (t.relStore.maybeRetransmit deadline w.now).2 := by
  unfold retransmitOne at h
  split at h
  · next msg s heq =>
    rw [heq]
    obtain ⟨⟨r, out', t₁⟩, hsend, hres⟩ := Option.map_eq_some_iff.mp h
    cases hres
    obtain ⟨s', tracker, ht, hforget⟩ := doSendUnfragmentedData_frame hsend
    refine .inr ⟨msg, r, rfl, rfl, hsend, ?_⟩
    rw [ht]
    exact hforget (TimedUdp.reliableOf_retransmission msg.toDataMessage)
  · next s hne heq =>
    cases h
    rw [heq]
    exact .inl ⟨rfl, rfl, hne, rfl⟩

/-- A message is sent again. -/
theorem Outbound.retransmit {wholes : UInt16 → Option Whole} {e : UdpParty lib dict} (h : Outbound wholes e)
    {deadline : Nat → Nat} {w : SendWorld} {again : List ReliableData} {out : List Bytes} {t : UdpTransport}
    (hsend : UdpTransport.retransmitOne deadline w e.transport = some (again, out, t))
    (hid : t.fragStore.nextId ≠ 0) :
    ∃ wholes', (∀ k w, wholes k = some w → wholes' k = some w) ∧
      Outbound wholes' { e with transport := t, wire := e.wire ++ out, sent := e.sent ++ again } := by
  have hkept : ∀ u ∈ (e.transport.relStore.maybeRetransmit deadline w.now).2.localUnacked,
      Sendable e.messages u.msg := by
    intro u hu
    obtain ⟨v, hv, heq⟩ := mem_of_mem_retransmitScan hu
    rw [← heq]
    exact h.kept v hv
  rcases UdpTransport.retransmitOne_cases hsend with ⟨rfl, rfl, -, rfl⟩ | ⟨msg, r, rfl, hmsg, hsend, hstore⟩
  · refine ⟨wholes, fun _ _ hk => hk, ?_⟩
    rw [List.append_nil, List.append_nil]
    exact ⟨h.connectionId, h.mtu, h.nextId, h.fragmented, h.nextLocalId, h.sent, hkept, h.wire⟩
  · obtain ⟨u, hu, rfl⟩ := (ReliableStore.retransmitScan_spec deadline w.now _).2 _ hmsg
    obtain ⟨h8, hnamed, hsmall, hrecorded⟩ := h.kept u hu
    have hheader : u.msg.relHeader = some u.msg.header := u.msg.has_header
    have hnone : e.messages ++ [] = e.messages := List.append_nil _
    have hemit := h.emit [] [u.msg] hsend hnamed ?_ hsmall ?_ ?_ ?_ ?_ hid
    · rwa [hnone] at hemit
    · intro hd hmem
      rw [hheader] at hmem
      cases hmem
      exact h8
    · intro hd hrel
      rw [hheader] at hrel
      cases hrel
      exact ⟨u.msg, List.mem_append_right _ (List.mem_singleton_self _), rfl, rfl, rfl⟩
    · intro d hd
      rw [List.mem_singleton.mp hd, hnone]
      exact hrecorded
    · rw [hstore, hnone]
      exact h.nextLocalId
    · rw [hstore, hnone]
      exact hkept

/-- The ways in which the acknowledgement without data ends. -/
theorem UdpTransport.sendAcksOnly_cases {w : SendWorld} {t t' : UdpTransport} {acks : List ReliableData}
    {out : List Bytes} (h : sendAcksOnly w t = some (acks, out, t')) :
    (acks = [] ∧ out = [] ∧ t' = t ∧ t.relStore.hasUrgentOutgoingAcks w.now = false) ∨
      ∃ header r, t.relStore.hasUrgentOutgoingAcks w.now = true ∧ acks = [.of [] none header] ∧
        header = (t.relStore.setOutgoingAcks ⟨0, 0, .replicate 8 0⟩).1 ∧ header.messageId = 0 ∧ header.ackCount ≤ 8 ∧
        doSendUnfragmentedData w { t with relStore := { t.relStore with remoteUnacked := t.relStore.remoteUnacked.drop 8 } }
          { data := [], relHeader := some header } false = some (r, out, t') ∧
        t'.relStore = { t.relStore with remoteUnacked := t.relStore.remoteUnacked.drop 8 } := by
  obtain ⟨hs, hid, hcount, -⟩ := t.relStore.setOutgoingAcks_spec ⟨0, 0, .replicate 8 0⟩
  unfold sendAcksOnly at h
  split at h
  · next hurgent =>
    dsimp only at h
    rw [hs] at h
    obtain ⟨⟨r, out', t₁⟩, hsend, hres⟩ := Option.map_eq_some_iff.mp h
    cases hres
    obtain ⟨s', tracker, ht, hforget⟩ := doSendUnfragmentedData_frame hsend
    refine .inr ⟨_, r, hurgent, rfl, rfl, hid, by omega, hsend, ?_⟩
    rw [ht]
    exact hforget (TimedUdp.reliableOf_unreliable hid [] false)
  · next hcalm =>
    cases h
    exact .inl ⟨rfl, rfl, rfl, by simpa using hcalm⟩

/-- Acknowledgements leave. -/
theorem Outbound.acks {wholes : UInt16 → Option Whole} {e : UdpParty lib dict} (h : Outbound wholes e)
    {w : SendWorld} {acks : List ReliableData} {out : List Bytes} {t : UdpTransport}
    (hsend : UdpTransport.sendAcksOnly w e.transport = some (acks, out, t)) (hid : t.fragStore.nextId ≠ 0) :
    ∃ wholes', (∀ k w, wholes k = some w → wholes' k = some w) ∧
      Outbound wholes' { e with transport := t, wire := e.wire ++ out, sent := e.sent ++ acks } := by
  rcases UdpTransport.sendAcksOnly_cases hsend with ⟨rfl, rfl, rfl, -⟩ | ⟨header, r, -, rfl, -, hzero, h8, hsend, hstore⟩
  · refine ⟨wholes, fun _ _ hk => hk, ?_⟩
    rw [List.append_nil, List.append_nil]
    exact h
  · have hnone : e.messages ++ [] = e.messages := List.append_nil _
    have hemit := h.emit [] [.of [] none header] hsend (namesAlgorithm_of_none rfl) ?_ (Nat.zero_le _) ?_ ?_ ?_ ?_ hid
    · rwa [hnone] at hemit
    · intro hd hmem
      cases hmem
      exact h8
    · intro hd hrel
      cases hrel
      exact ⟨.of [] none header, List.mem_append_right _ (List.mem_singleton_self _), rfl, rfl, rfl⟩
    · intro d hd
      rw [List.mem_singleton.mp hd]
      exact .inl hzero
    · rw [hstore, hnone]
      exact h.nextLocalId
    · rw [hstore, hnone]
      exact h.kept

omit [Dbuf] in
/-- A control message is sent. -/
theorem UdpTransport.sendControl_frame (w : SendWorld) (t : UdpTransport) (encoded : Bytes) :
    (∃ tracker, (sendControl w t encoded).2.2 = { t with tracker }) ∧
      ∀ d ∈ (sendControl w t encoded).2.1, d = padMessageToMinimum w encoded := by
  unfold sendControl
  dsimp only
  cases w.link 0 with
  | failed e => exact ⟨⟨t.tracker, rfl⟩, by rintro d ⟨⟩⟩
  | lost => exact ⟨⟨_, rfl⟩, by rintro d ⟨⟩⟩
  | sent => exact ⟨⟨_, rfl⟩, fun d hd => List.mem_singleton.mp hd⟩

theorem Outbound.control {wholes : UInt16 → Option Whole} {e : UdpParty lib dict} (h : Outbound wholes e)
    {w : SendWorld} {m : QunetMessage} {encoded : Bytes} (hcontrol : m.isControl = true)
    (hconn : m.isConnectionControl = false) (hencoded : m.encodeControlMsg e.transport.connectionId = some encoded) :
    Outbound wholes { e with
      transport := (UdpTransport.sendControl w e.transport encoded).2.2
      wire := e.wire ++ (UdpTransport.sendControl w e.transport encoded).2.1 } := by
  obtain ⟨⟨tracker, ht⟩, hout⟩ := UdpTransport.sendControl_frame w e.transport encoded
  rw [h.connectionId] at hencoded
  rw [ht]
  refine ⟨h.connectionId, h.mtu, h.nextId, h.fragmented, h.nextLocalId, h.sent, h.kept, fun d hd => ?_⟩
  rcases List.mem_append.mp hd with hd | hd
  · exact h.wire d hd
  · rw [hout d hd]
    exact control_genuine w hencoded hcontrol hconn

/-- Statistics are of no account. -/
theorem Outbound.count {wholes : UInt16 → Option Whole} {e : UdpParty lib dict} (h : Outbound wholes e)
    (tracker : StatTracker) (unackedKeepalives : Nat) :
    Outbound wholes { e with transport := { e.transport with tracker, unackedKeepalives } } :=
  ⟨h.connectionId, h.mtu, h.nextId, h.fragmented, h.nextLocalId, h.sent, h.kept, h.wire⟩

/-- Receiving leaves the sending end alone, but for what is acknowledged. -/
theorem Outbound.receive {wholes : UInt16 → Option Whole} {e : UdpParty lib dict} (h : Outbound wholes e)
    {t : UdpTransport} (hk : UdpTransport.KeepsOutgoing e.transport t) (returned : List Received) :
    Outbound wholes { e with transport := t, returned } := by
  refine ⟨hk.connectionId.trans h.connectionId, hk.mtu.trans h.mtu, ?_, fun k w hw => ?_, ?_, h.sent,
    fun u hu => h.kept u (hk.kept.subset hu), h.wire⟩
  · show t.fragStore.nextId ≠ 0
    rw [hk.nextId]
    exact h.nextId
  · show k < t.fragStore.nextId ∧ _
    rw [hk.nextId]
    exact h.fragmented k w hw
  · show t.relStore.nextLocalId.toNat = _
    rw [hk.nextLocalId]
    exact h.nextLocalId

/-! ## The receiving end -/

/-- What receiving depends on is untouched. -/
structure UdpTransport.OnlySends (t t' : UdpTransport) : Prop extends SameSettings t t' where
  outOfOrder : t'.relStore.remoteOutOfOrder = t.relStore.remoteOutOfOrder
  delayed : t'.relStore.remoteDelayedQueue = t.relStore.remoteDelayedQueue
  next : t'.relStore.nextRemoteId = t.relStore.nextRemoteId
  partials : t'.fragStore.messages = t.fragStore.messages
  pending : t'.pendingMessages = t.pendingMessages

namespace UdpTransport

omit [Dbuf] in
theorem OnlySends.trans {t t' t'' : UdpTransport} (h : OnlySends t t') (h' : OnlySends t' t'') : OnlySends t t'' :=
  ⟨h.toSameSettings.trans h'.toSameSettings, h'.outOfOrder.trans h.outOfOrder, h'.delayed.trans h.delayed,
    h'.next.trans h.next, h'.partials.trans h.partials, h'.pending.trans h.pending⟩

omit [Dbuf] in
/-- The outgoing side of the store. -/
theorem OnlySends.store {t : UdpTransport} {s : ReliableStore} (ho : s.remoteOutOfOrder = t.relStore.remoteOutOfOrder)
    (hd : s.remoteDelayedQueue = t.relStore.remoteDelayedQueue) (hn : s.nextRemoteId = t.relStore.nextRemoteId) :
    OnlySends t { t with relStore := s } :=
  ⟨⟨rfl, rfl, rfl, rfl, rfl⟩, ho, hd, hn, rfl, rfl⟩

omit [Dbuf] in
theorem OnlySends.statistics {t : UdpTransport} (tracker : StatTracker) (unackedKeepalives : Nat) :
    OnlySends t { t with tracker, unackedKeepalives } := ⟨⟨rfl, rfl, rfl, rfl, rfl⟩, rfl, rfl, rfl, rfl, rfl⟩

theorem doSendUnfragmentedData_onlySends {w : SendWorld} {t t' : UdpTransport} {msg : DataMessage}
    {retransmission : Bool} {r : Except TransportError Unit} {out : List Bytes}
    (h : t.doSendUnfragmentedData w msg retransmission = some (r, out, t')) : OnlySends t t' := by
  have hkeeps := doSendUnfragmentedData_keepsIncoming h
  obtain ⟨s, tracker, rfl, -⟩ := doSendUnfragmentedData_frame h
  exact ⟨⟨rfl, rfl, rfl, rfl, rfl⟩, hkeeps.outOfOrder, hkeeps.delayed, hkeeps.next, rfl, rfl⟩

theorem sendMessage_onlySends {w : SendWorld} {t t' : UdpTransport} {data : Bytes} {comp : Option CompressionHeader}
    {reliable : Bool} {r : Except TransportError Unit} {out : List Bytes}
    (h : sendMessage w t data comp reliable = some (r, out, t')) : OnlySends t t' := by
  have hheader : OnlySends t { t with relStore := (t.relStore.outgoingHeader reliable).2 } := by
    rw [(t.relStore.outgoingHeader_spec reliable).2.2.2]
    exact .store rfl rfl rfl
  exact hheader.trans (doSendUnfragmentedData_onlySends h)

theorem retransmitOne_onlySends {deadline : Nat → Nat} {w : SendWorld} {t t' : UdpTransport}
    {again : List ReliableData} {out : List Bytes} (h : retransmitOne deadline w t = some (again, out, t')) :
    OnlySends t t' := by
  have hstore : OnlySends t { t with relStore := (t.relStore.maybeRetransmit deadline w.now).2 } := .store rfl rfl rfl
  rcases retransmitOne_cases h with ⟨-, -, -, rfl⟩ | ⟨msg, r, -, -, hsend, -⟩
  · exact hstore
  · exact hstore.trans (doSendUnfragmentedData_onlySends hsend)

theorem sendAcksOnly_onlySends {w : SendWorld} {t t' : UdpTransport} {acks : List ReliableData} {out : List Bytes}
    (h : sendAcksOnly w t = some (acks, out, t')) : OnlySends t t' := by
  rcases sendAcksOnly_cases h with ⟨-, -, rfl, -⟩ | ⟨header, r, -, -, -, -, -, hsend, -⟩
  · exact .store rfl rfl rfl
  · have hstore : OnlySends t
        { t with relStore := { t.relStore with remoteUnacked := t.relStore.remoteUnacked.drop 8 } } := .store rfl rfl rfl
    exact hstore.trans (doSendUnfragmentedData_onlySends hsend)

omit [Dbuf] in
theorem sendControl_onlySends (w : SendWorld) (t : UdpTransport) (encoded : Bytes) :
    OnlySends t (sendControl w t encoded).2.2 := by
  obtain ⟨⟨tracker, ht⟩, -⟩ := sendControl_frame w t encoded
  rw [ht]
  exact .statistics tracker t.unackedKeepalives

end UdpTransport

omit [Dbuf] in
theorem Inbound.onlySends {peer : UdpParty lib dict} {wholes : UInt16 → Option Whole} {t t' : UdpTransport}
    {returned : List Received} (h : Inbound peer wholes t returned) (hs : OnlySends t t') :
    Inbound peer wholes t' returned := by
  refine ⟨?_, ⟨?_, ?_⟩, ?_, ?_, ⟨?_, ?_⟩, ?_⟩
  · rw [hs.messageSizeLimit]
    exact h.limits
  · rw [hs.partials]
    exact h.partials.noneComplete
  · rw [hs.partials]
    exact h.partials.collected
  · rw [hs.outOfOrder]
    exact h.stored
  · rw [hs.delayed]
    exact h.delayed
  · exact h.order.waiting.congr hs.outOfOrder hs.next
  · rw [hs.pending, hs.delayed, hs.next]
    exact h.order.ids
  · rw [hs.pending]
    exact h.payloads

omit [Dbuf] in
theorem UdpTransport.SameSettings.receiver {w : World} {t t' : UdpTransport} (h : SameSettings t t')
    (hw : Receiver lib dict w t.base) : Receiver lib dict w t'.base :=
  ⟨h.zstdReady.trans hw.ready, h.zstdDict.trans hw.hasDict, hw.zstd, hw.lz4⟩

/-- What the peer has sent reliably is restored. -/
structure Restorable (peer : UdpParty lib dict) (t : UdpTransport) : Prop where
  limits : ∀ x ∈ peer.messages, x.payload.length ≤ t.messageSizeLimit
  sent : ∀ d ∈ peer.sent, Recorded peer.messages d

omit [Dbuf] in
theorem Restorable.congr {peer : UdpParty lib dict} {t t' : UdpTransport} (h : Restorable peer t)
    (hs : SameSettings t t') : Restorable peer t' := by
  refine ⟨?_, h.sent⟩
  rw [hs.messageSizeLimit]
  exact h.limits

omit [Dbuf] in
theorem Restorable.decompress {peer : UdpParty lib dict} {t : UdpTransport} (h : Restorable peer t) {w : World}
    (hw : Receiver lib dict w t.base) {m : QunetMessageMeta} (hfrom : FromPeer peer.sent m) {hd : ReliabilityHeader}
    (hrel : m.reliabilityHeader = some hd) (h0 : hd.messageId ≠ 0) :
    ∃ x, peer.messages[hd.messageId.toNat - 1]? = some x ∧ UdpTransport.decompress w t m = .ok x.payload := by
  obtain ⟨d, hmem, hsame, hdata, hcomp⟩ := hfrom hd hrel
  rcases h.sent d hmem with hzero | ⟨x, hx, hxdata, hxcomp⟩
  · exact absurd (hsame.messageId.trans hzero) h0
  · rw [← hsame.messageId] at hx
    refine ⟨x, hx, ?_⟩
    exact x.restores w t.base hw (h.limits x (List.mem_of_getElem? hx)) m (hcomp.trans hxcomp) (hdata.trans hxdata)

/-- The id of a reliable message. -/
def reliableIdOf (m : QunetMessageMeta) : List UInt16 :=
  m.reliabilityHeader.elim [] fun h => if h.messageId = 0 then [] else [h.messageId]

omit [Dbuf] in
/-- A message of the peer is handed on with its id and its payload. One without id may fail to be decompressed. -/
theorem Restorable.finishData {peer : UdpParty lib dict} {t : UdpTransport} (h : Restorable peer t) {w : World}
    (hw : Receiver lib dict w t.base) {m : QunetMessageMeta} (hfrom : FromPeer peer.sent m) :
    reliableIds (handed (UdpTransport.finishData w t m).1) = reliableIdOf m ∧
      ∀ r ∈ handed (UdpTransport.finishData w t m).1, IsPayload peer.messages r := by
  by_cases hid : ∃ hd, m.reliabilityHeader = some hd ∧ hd.messageId ≠ 0
  · obtain ⟨hd, hrel, h0⟩ := hid
    obtain ⟨x, hx, hdec⟩ := h.decompress hw hfrom hrel h0
    rw [finishData_ok hdec]
    refine ⟨by simp [handed, reliableIds, reliableId, reliableIdOf, hrel, h0], fun r hr id hid => ?_⟩
    rw [List.mem_singleton.mp hr] at hid ⊢
    have hid' : hd.messageId = id := by simpa [reliableId, hrel, h0] using hid
    exact ⟨x, hid' ▸ hx, rfl⟩
  · have hnone : reliableIdOf m = [] := by
      unfold reliableIdOf
      cases hrel : m.reliabilityHeader with
      | none => rfl
      | some hd => exact if_pos (not_not.mp fun h0 => hid ⟨hd, hrel, h0⟩)
    have hall : NotReliable (handed (UdpTransport.finishData w t m).1) := by
      intro r hr
      cases hdec : UdpTransport.decompress w t m with
      | error e =>
        rw [finishData_error hdec] at hr
        cases hr
      | ok data =>
        rw [finishData_ok hdec] at hr
        rw [List.mem_singleton.mp hr]
        cases hrel : m.reliabilityHeader with
        | none => simp [reliableId, hrel]
        | some hd =>
          have h0 : hd.messageId = 0 := not_not.mp fun h0 => hid ⟨hd, hrel, h0⟩
          simp [reliableId, hrel, h0]
    refine ⟨?_, fun r hr id hid => ?_⟩
    · rw [hnone]
      exact List.filterMap_eq_nil_iff.mpr hall
    · rw [hall r hr] at hid
      cases hid

omit [Dbuf] in
/-- **A reliable message** goes to the store, and what the store accepts is handed on. -/
theorem Restorable.handleWhole {peer : UdpParty lib dict} {t t' : UdpTransport} (h : Restorable peer t) {w : World}
    (hw : Receiver lib dict w t.base) {m : ReliableMeta} (hfrom : FromPeer peer.sent m.toQunetMessageMeta)
    {r : Except TransportError (Option Received)}
    (hr : UdpTransport.handleWhole w t m.toQunetMessageMeta = (r, t')) :
    t'.relStore = (t.relStore.handleIncoming w.past w.now m).2 ∧ t'.pendingMessages = t.pendingMessages ∧
      reliableIds (handed r) = (acceptedOf m (t.relStore.handleIncoming w.past w.now m).1).map messageIdOf ∧
      ∀ x ∈ handed r, IsPayload peer.messages x := by
  unfold UdpTransport.handleWhole at hr
  rw [acceptReliable_some (HeaderMeta.of?_eq_some.mpr rfl)] at hr
  generalize t.relStore.handleIncoming w.past w.now m = o at hr ⊢
  obtain ⟨e | _ | _, s⟩ := o
  · cases hr
    exact ⟨rfl, rfl, rfl, by rintro x ⟨⟩⟩
  · cases hr
    exact ⟨rfl, rfl, rfl, by rintro x ⟨⟩⟩
  · dsimp only at hr ⊢
    have hset : SameSettings t { t with relStore := s, trace := t.trace.noteIncoming m (.ok true) } :=
      ⟨rfl, rfl, rfl, rfl, rfl⟩
    obtain ⟨-, -, hstore, hpend⟩ := finishData_keeps w
      { t with relStore := s, trace := t.trace.noteIncoming m (.ok true) } m.toQunetMessageMeta
    obtain ⟨hids, hpayload⟩ := (h.congr hset).finishData (hset.receiver hw) hfrom
    rw [hr] at hstore hpend hids hpayload
    refine ⟨hstore, hpend, ?_, hpayload⟩
    rw [hids]
    unfold reliableIdOf acceptedOf
    rw [m.has_header]
    dsimp only [Option.elim]
    split <;> rfl

/-- What a round does to the reliable store of a party whose peer has sent `sent`. -/
inductive StoreRound (sent : List ReliableData) (s : ReliableStore) : ReliableStore → Prop where
  | same : StoreRound sent s s
  | pop : StoreRound sent s s.popDelayedMessage.2
  | incoming (past : Nat → UInt16) (now : Nat) {d : ReliableData} (hd : d ∈ sent) {m : ReliableMeta}
      (hm : Carries d m) : StoreRound sent s (s.handleIncoming past now m).2

namespace Inbound
variable {peer : UdpParty lib dict} {wholes : UInt16 → Option Whole} {t t' : UdpTransport} {returned : List Received}

omit [Dbuf] in
/-- Nothing reliable is handed on, and the store stays as it is. -/
theorem quiet (h : Inbound peer wholes t returned) (hk : KeepsOutgoing t t') (hparts : Partials wholes t'.fragStore)
    (hs : t'.relStore = t.relStore) (hp : t.pendingMessages = []) {r : Except TransportError (Option Received)}
    (hids : NotReliable (handed r ++ t'.pendingMessages)) : Inbound peer wholes t' (returned ++ handed r) := by
  have hnone : reliableIds (handed r ++ t'.pendingMessages) = [] := List.filterMap_eq_nil_iff.mpr hids
  have horder := h.order
  have hpayloads := h.payloads
  rw [hp, List.append_nil] at horder hpayloads
  refine ⟨?_, hparts, ?_, ?_, ?_, fun x hx => ?_⟩
  · rw [hk.messageSizeLimit]
    exact h.limits
  · rw [hs]
    exact h.stored
  · rw [hs]
    exact h.delayed
  · rw [List.append_assoc, reliableIds, List.filterMap_append]
    unfold reliableIds at hnone
    rw [hnone, List.append_nil]
    exact horder.congr hs
  · rw [List.append_assoc] at hx
    rcases List.mem_append.mp hx with hx | hx
    · exact hpayloads x hx
    · intro id hid
      rw [hids x hx] at hid
      cases hid

omit [Dbuf] in
/-- The oldest restored message is returned. -/
theorem delayed_round (h : Inbound peer wholes t returned) (hsent : ∀ d ∈ peer.sent, Recorded peer.messages d)
    {w : World} (hw : Receiver lib dict w t.base) (hp : t.pendingMessages = []) {m : ReliableMeta}
    {rest : List ReliableMeta} (hd : t.relStore.remoteDelayedQueue = m :: rest) :
    let r := finishData w (t.withDelayed rest) m.toQunetMessageMeta
    Inbound peer wholes r.2 (returned ++ handed r.1) ∧ KeepsOutgoing t r.2 ∧
      StoreRound peer.sent t.relStore r.2.relStore := by
  dsimp only
  have hpop : t.relStore.popDelayedMessage.2 = (t.withDelayed rest).relStore := by
    unfold ReliableStore.popDelayedMessage
    rw [hd]
    rfl
  have hfrom : FromPeer peer.sent m.toQunetMessageMeta := h.delayed m (hd ▸ List.mem_cons_self)
  have hkeeps₀ : KeepsOutgoing t (t.withDelayed rest) := ⟨⟨rfl, rfl, rfl, rfl, rfl⟩, rfl, rfl, List.Sublist.refl _⟩
  have hrestorable : Restorable peer (t.withDelayed rest) := ⟨h.limits, hsent⟩
  obtain ⟨-, hpayload⟩ := hrestorable.finishData hw hfrom
  obtain ⟨hkeeps, hfrag, hrel, hpend⟩ := finishData_keeps w (t.withDelayed rest) m.toQunetMessageMeta
  have hne : messageIdOf m ≠ 0 := by
    obtain ⟨n, hids, -⟩ := h.order.ids
    rw [hd, List.map_cons] at hids
    exact mem_idsFrom_ne_zero (by decide) (hids ▸ List.mem_append_right _ List.mem_cons_self)
  obtain ⟨x, -, hdec⟩ := hrestorable.decompress hw hfrom m.has_header hne
  have horder := h.order
  have hpayloads := h.payloads
  rw [hp, List.append_nil] at horder hpayloads
  obtain ⟨hnext, -⟩ := horder.delayed hd (finishData_ok hdec)
  rw [finishData_ok hdec] at hkeeps hfrag hrel hpend hpayload ⊢
  dsimp only at hkeeps hfrag hrel hpend hpayload ⊢
  refine ⟨⟨?_, ?_, ?_, ?_, ?_, ?_⟩, hkeeps₀.trans hkeeps, ?_⟩
  · rw [(hkeeps₀.trans hkeeps).messageSizeLimit]
    exact h.limits
  · rw [hfrag]
    exact h.partials
  · rw [hrel]
    exact h.stored
  · rw [hrel]
    exact fun m' hm' => h.delayed m' (hd ▸ List.mem_cons_of_mem m hm')
  · rw [hpend, show (t.withDelayed rest).pendingMessages = t.pendingMessages from rfl, hp, List.append_nil, reliableIds,
      List.filterMap_append]
    exact hnext
  · rw [hpend, show (t.withDelayed rest).pendingMessages = t.pendingMessages from rfl, hp, List.append_nil]
    intro r hr
    rcases List.mem_append.mp hr with hr | hr
    · exact hpayloads r hr
    · exact hpayload r hr
  · rw [hrel, ← hpop]
    exact .pop

omit [Dbuf] in
/-- A message of the peer that is whole. -/
theorem whole_round (h : Inbound peer wholes t returned) (hsent : ∀ d ∈ peer.sent, Recorded peer.messages d)
    {w : World} (hw : Receiver lib dict w t.base) (hp : t.pendingMessages = [])
    (hd : t.relStore.remoteDelayedQueue = []) {m : QunetMessageMeta} {t₁ : UdpTransport} (hfrom : FromPeer peer.sent m)
    (hset : SameSettings t t₁) (hs : t₁.relStore = t.relStore) (hp₁ : t₁.pendingMessages = t.pendingMessages)
    {r : Except TransportError (Option Received)} (hr : handleWhole w t₁ m = (r, t')) (hk : KeepsOutgoing t t')
    (hparts : Partials wholes t'.fragStore) :
    Inbound peer wholes t' (returned ++ handed r) ∧ StoreRound peer.sent t.relStore t'.relStore := by
  have hrestorable : Restorable peer t₁ := Restorable.congr ⟨h.limits, hsent⟩ hset
  cases hof : HeaderMeta.of? QunetMessageMeta.reliabilityHeader m with
  | none =>
    -- the store is not asked
    have hrel : m.reliabilityHeader = none := HeaderMeta.of?_eq_none.mp hof
    unfold handleWhole at hr
    rw [acceptReliable_none hof] at hr
    change finishData w t₁ m = (r, t') at hr
    obtain ⟨-, -, hstore, hpend⟩ := finishData_keeps w t₁ m
    obtain ⟨hids, -⟩ := hrestorable.finishData (hset.receiver hw) hfrom
    rw [hr] at hstore hpend hids
    dsimp only at hstore hpend hids
    have hnone : reliableIdOf m = [] := by
      unfold reliableIdOf
      rw [hrel]
      rfl
    have hquiet : NotReliable (handed r ++ t'.pendingMessages) := by
      rw [hpend, hp₁, hp, List.append_nil]
      exact List.filterMap_eq_nil_iff.mp (hids.trans hnone)
    refine ⟨h.quiet hk hparts (hstore.trans hs) hp hquiet, ?_⟩
    rw [hstore, hs]
    exact .same
  | some rm =>
    obtain rfl := HeaderMeta.of?_eq_some.mp hof
    obtain ⟨d, hmem, hsame, hdata, -⟩ := hfrom rm.header rm.has_header
    have hround : StoreRound peer.sent t.relStore (t.relStore.handleIncoming w.past w.now rm).2 :=
      .incoming w.past w.now hmem ⟨hsame, hdata⟩
    obtain ⟨unacked, hi⟩ := ReliableStore.handleIncoming_acked w.past w.now t.relStore rm
    obtain ⟨hstored, hdelayed⟩ := hi.all (P := fun m => FromPeer peer.sent m.toQunetMessageMeta) hfrom h.stored h.delayed
    have horder := h.order
    have hpayloads := h.payloads
    rw [hp, List.append_nil] at horder hpayloads
    obtain ⟨hstore, hpend, hids, hpayload⟩ := hrestorable.handleWhole (hset.receiver hw) hfrom hr
    rw [hs] at hstore hids
    rw [hp₁, hp] at hpend
    refine ⟨⟨?_, hparts, ?_, ?_, ?_, ?_⟩, ?_⟩
    · rw [hk.messageSizeLimit]
      exact h.limits
    · rw [hstore]
      exact hstored
    · rw [hstore]
      exact hdelayed
    · rw [hpend, List.append_nil, reliableIds, List.filterMap_append]
      unfold reliableIds at hids
      rw [hids]
      exact horder.incoming w rm hstore fun _ => hd
    · rw [hpend, List.append_nil]
      intro x hx
      rcases List.mem_append.mp hx with hx | hx
      · exact hpayloads x hx
      · exact hpayload x hx
    · rw [hstore]
      exact hround

/-- **One round of `receiveMessage`.** -/
theorem round (h : Inbound peer wholes t returned) (ho : Outbound wholes peer) {Arrives : World → Bytes → Prop}
    (ha : ∀ w datagram, Arrives w datagram → Receiver lib dict w t.base ∧ datagram ∈ peer.wire) {w : World}
    (hw : Receiver lib dict w t.base) {r : Except TransportError (Option Received)} (hr : Round Arrives w t r t') :
    Inbound peer wholes t' (returned ++ handed r) ∧ KeepsOutgoing t t' ∧ StoreRound peer.sent t.relStore t'.relStore := by
  cases hr with
  | @pending first rest hp =>
    have hqueue : returned ++ [first] ++ rest = returned ++ t.pendingMessages := by
      rw [hp, List.append_assoc, List.singleton_append]
    refine ⟨⟨h.limits, h.partials, h.stored, h.delayed, ?_, ?_⟩, ⟨⟨rfl, rfl, rfl, rfl, rfl⟩, rfl, rfl, List.Sublist.refl _⟩,
      .same⟩
    · show InOrder (reliableIds (returned ++ [first] ++ rest)) _
      rw [hqueue]
      exact h.order.congr rfl
    · show ∀ x ∈ returned ++ [first] ++ rest, _
      rw [hqueue]
      exact h.payloads
  | delayed hp hd => exact h.delayed_round ho.sent hw hp hd
  | failed e =>
    refine ⟨?_, .refl t, .same⟩
    show Inbound peer wholes t (returned ++ [])
    rwa [List.append_nil]
  | @read w' datagram hp hd harrives r' hread =>
    obtain ⟨hw', hmem⟩ := ha w' datagram harrives
    obtain ⟨hstep, hkeeps, hparts⟩ :=
      (ho.wire datagram hmem).read (fun k whole hk => (ho.fragmented k whole hk).2) w' hp h.partials
    rw [hread] at hstep hkeeps hparts
    cases hstep with
    | quiet hs hids =>
      refine ⟨h.quiet hkeeps hparts hs hp hids, hkeeps, ?_⟩
      rw [hs]
      exact .same
    | whole hfrom hset hs hp₁ hwhole =>
      obtain ⟨hnext, hstore⟩ := h.whole_round ho.sent hw' hp hd hfrom hset hs hp₁ hwhole hkeeps hparts
      exact ⟨hnext, hkeeps, hstore⟩

end Inbound

end

end Qunet
