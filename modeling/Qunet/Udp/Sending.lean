import Qunet.Udp.AckSafety
import Qunet.Udp.Receiving

/-!
# Sending on a UDP transport (`transport/UdpTransport.cpp`)

* `SendWorld` : the clock, and what happens to each datagram of a call;
* `sendControl` : a control message, padded to a minimum;
* `doSendUnfragmentedData` : one datagram, or the fragments of a message that does not fit in one;
* `sendMessage` : the reliability header of a data message;
* `sendFragments_emits` : the loop over the fragments ends, and emits the parts of the data;
* `sendMessage_store`, `sendMessage_keepsIncoming` : sending does to the store what an endpoint does, and nothing to the
  incoming side;
* `DecodesTo`, **`unfragmented_roundTrips_iff`** : a data message read back by `decodeMeta`.
-/

namespace Qunet
open Lib

/-- What happens to a datagram: `shouldLosePacket` drops it, or `m_socket.send` takes or refuses it. -/
inductive LinkOutcome where
  | sent
  | lost
  | failed (e : TransportError)

/-- What a call takes from outside: the clock, the outcome of its `i`-th datagram, and random bytes. -/
structure SendWorld where
  now : Nat
  link : Nat → LinkOutcome
  random : Nat → UInt8

/-- A link that takes every datagram. -/
def UdpTransport.openLink : SendWorld := ⟨0, fun _ => .sent, fun _ => 0⟩

/-- What the socket is given of a datagram. -/
def LinkOutcome.emitted : LinkOutcome → Bytes → List Bytes
  | .sent, datagram => [datagram]
  | _, _ => []

/-- A difference of 64-bit sizes, which wraps around. -/
def sizeSub (a b : Nat) : Nat := (a + 2 ^ 64 - b) % 2 ^ 64

/-! ## Control messages -/

/-- `MINIMUM_UDP_PAYLOAD`: 64 - 14 (ethernet) - 20 (ipv4) - 8 (udp) bytes. -/
def minimumUdpPayload : Nat := 22

/-- Pad a control message with a padding message. -/
def padMessageToMinimum (w : SendWorld) (written : Bytes) : Bytes :=
  if written.length < minimumUdpPayload then
    written ++ msgPadding :: (List.range (minimumUdpPayload - written.length - 1)).map w.random
  else written

/-- `sendMessage` on an encoded control message. -/
def UdpTransport.sendControl (w : SendWorld) (t : UdpTransport) (encoded : Bytes) :
    Except TransportError Unit × List Bytes × UdpTransport :=
  let datagram := padMessageToMinimum w encoded
  match w.link 0 with
  | .failed e => (.error e, [], t)
  | o => (.ok (), o.emitted datagram, { t with tracker := t.tracker.onUpPacket w.now datagram.length })

/-! ## The sizes of a data message -/

/-- 1 header byte, 8 bytes for the connection id. -/
def commonHdrSize : Nat := 9

def fragHdrSize : Nat := 4

namespace DataMessage

def relHdrSize (msg : DataMessage) : Nat := msg.relHeader.elim 0 fun h => 4 + h.ackCount * 2

def compHdrSize (msg : DataMessage) : Nat := if msg.compHeader.isSome then 4 else 0

def unfragTotalSize (msg : DataMessage) : Nat := commonHdrSize + msg.relHdrSize + msg.compHdrSize + msg.data.length

def firstPayloadSize (msg : DataMessage) (mtu : Nat) : Nat :=
  sizeSub (sizeSub (sizeSub (sizeSub mtu msg.relHdrSize) msg.compHdrSize) fragHdrSize) commonHdrSize

end DataMessage

def restPayloadSize (mtu : Nat) : Nat := sizeSub (sizeSub mtu fragHdrSize) commonHdrSize

/-- The message with its header, if it is to be kept for retransmission. -/
def DataMessage.reliableOf (msg : DataMessage) (retransmission : Bool) : Option ReliableData :=
  match h : msg.relHeader with
  | none => none
  | some header => if header.messageId ≠ 0 ∧ !retransmission then some ⟨msg, header, h⟩ else none

/-- The index of a fragment and the mark of the last one share 16 bits. -/
def fragmentField (fragmentIndex : Nat) (isLast : Bool) : UInt16 :=
  UInt16.ofNat (fragmentIndex ||| if isLast then msgDataLastFragmentMask.toNat else 0)

section
variable [Dbuf]

/-- One fragment. All but the first omit the optional headers. -/
def fragmentDatagram (connectionId : UInt64) (msg : DataMessage) (fragMessageId : UInt16) (fragmentIndex : Nat)
    (isLast : Bool) (chunk : Bytes) : Bytes :=
  (encodeDataHeader msg connectionId (fragmentIndex != 0)).modifyHead (· ||| msgDataFragmentationMask)
    ++ Dbuf.u16.write fragMessageId ++ Dbuf.u16.write (fragmentField fragmentIndex isLast) ++ chunk

/-- The loop over the fragments, at most `fuel` rounds of it: the result, what the socket is given, and the
statistics. -/
def sendFragments (w : SendWorld) (connectionId : UInt64) (msg : DataMessage) (fragMessageId : UInt16)
    (firstPayloadSize restPayloadSize : Nat) :
    Nat → Nat → Nat → StatTracker → Option (Except TransportError Unit × List Bytes × StatTracker)
  | 0, _, _, _ => none
  | fuel + 1, offset, fragmentIndex, tracker =>
    if offset < msg.data.length then
      let payloadSize := if fragmentIndex = 0 then firstPayloadSize else restPayloadSize
      let isLast := decide (offset + payloadSize ≥ msg.data.length)
      let chunk := (msg.data.drop offset).take (min payloadSize (msg.data.length - offset))
      let datagram := fragmentDatagram connectionId msg fragMessageId fragmentIndex isLast chunk
      match w.link fragmentIndex with
      | .failed e => some (.error e, [], tracker)
      | o =>
        (sendFragments w connectionId msg fragMessageId firstPayloadSize restPayloadSize fuel (offset + chunk.length)
          (fragmentIndex + 1) (tracker.onUpPacket w.now datagram.length)).map fun r =>
            (r.1, o.emitted datagram ++ r.2.1, r.2.2)
    else some (.ok (), [], tracker)

namespace UdpTransport

omit [Dbuf] in
/-- `pushLocalUnacked`, for a reliable message that is sent for the first time. -/
def rememberSent (w : SendWorld) (msg : DataMessage) (retransmission : Bool) (t : UdpTransport) :
    Except TransportError Unit × UdpTransport :=
  match msg.reliableOf retransmission with
  | none => (.ok (), t)
  | some r => ((t.relStore.pushLocalUnacked w.now r).1, { t with relStore := (t.relStore.pushLocalUnacked w.now r).2 })

def sendUnfragmented (w : SendWorld) (t : UdpTransport) (msg : DataMessage) (retransmission : Bool) :
    Except TransportError Unit × List Bytes × UdpTransport :=
  let datagram := encodeDataHeader msg t.connectionId false ++ msg.data
  match w.link 0 with
  | .failed e => (.error e, [], t)
  | o =>
    match rememberSent w msg retransmission t with
    | (.error e, t) => (.error e, o.emitted datagram, t)
    | (.ok (), t) => (.ok (), o.emitted datagram, { t with tracker := t.tracker.onUpPacket w.now datagram.length })

/-- A round of the loop that sends no data leaves a payload size of 0, and then the loop never ends: with the fuel given
here there is no result exactly in that case. -/
def doSendUnfragmentedData (w : SendWorld) (t : UdpTransport) (msg : DataMessage) (retransmission : Bool) :
    Option (Except TransportError Unit × List Bytes × UdpTransport) :=
  if msg.unfragTotalSize ≤ t.mtu then some (sendUnfragmented w t msg retransmission)
  else
    let next := t.fragStore.nextMessageId
    match sendFragments w t.connectionId msg next.1 (msg.firstPayloadSize t.mtu) (restPayloadSize t.mtu)
        (msg.data.length + 2) 0 0 t.tracker with
    | none => none
    | some (.error e, out, tracker) => some (.error e, out, { t with fragStore := next.2, tracker })
    | some (.ok (), out, tracker) =>
      let r := rememberSent w msg retransmission { t with fragStore := next.2, tracker }
      some (r.1, out, r.2)

/-- `sendMessage` on a data message: the reliability header is there if it says anything. -/
def sendMessage (w : SendWorld) (t : UdpTransport) (data : Bytes) (compHeader : Option CompressionHeader)
    (reliable : Bool) : Option (Except TransportError Unit × List Bytes × UdpTransport) :=
  let r := t.relStore.outgoingHeader reliable
  let relHeader := if r.1.messageId ≠ 0 ∨ r.1.ackCount > 0 then some r.1 else none
  doSendUnfragmentedData w { t with relStore := r.2 } { data, compHeader, relHeader } false

end UdpTransport

/-! ## The loop over the fragments -/

/-- What the socket is given of the datagrams `ds`, the first of which is the `i`-th of the call. -/
def emittedAll (link : Nat → LinkOutcome) : Nat → List Bytes → List Bytes
  | _, [] => []
  | i, d :: ds =>
    match link i with
    | .failed _ => []
    | o => o.emitted d ++ emittedAll link (i + 1) ds

omit [Dbuf] in
theorem emittedAll_sent {link : Nat → LinkOutcome} (h : ∀ i, link i = .sent) (i : Nat) (ds : List Bytes) :
    emittedAll link i ds = ds := by
  induction ds generalizing i with
  | nil => rfl
  | cons d ds ih =>
    unfold emittedAll
    rw [h i]
    dsimp only
    rw [ih]
    rfl

/-- The fragments with the given chunks, the first of which has the index `i`. -/
def fragmentsOf (connectionId : UInt64) (msg : DataMessage) (fragMessageId : UInt16) : Nat → List Bytes → List Bytes
  | _, [] => []
  | i, chunk :: chunks =>
    fragmentDatagram connectionId msg fragMessageId i chunks.isEmpty chunk ::
      fragmentsOf connectionId msg fragMessageId (i + 1) chunks

/-- The payload sizes of the fragments. -/
def payloadSizes (firstPayloadSize restPayloadSize i : Nat) : Nat := if i = 0 then firstPayloadSize else restPayloadSize

omit [Dbuf] in
theorem payloadSizes_pos {first rest : Nat} (hfirst : 0 < first) (hrest : 0 < rest) (i : Nat) :
    0 < payloadSizes first rest i := by
  unfold payloadSizes
  split
  · exact hfirst
  · exact hrest

omit [Dbuf] in
/-- The chunk of a round. -/
theorem take_min_rest (data : Bytes) (offset size : Nat) :
    (data.drop offset).take (min size (data.length - offset)) = (data.drop offset).take size := by
  rw [List.take_eq_take_iff, List.length_drop]
  omega

omit [Dbuf] in
/-- What a round leaves. -/
theorem drop_chunk (data : Bytes) (offset size : Nat) :
    (data.drop offset).drop size = data.drop (offset + ((data.drop offset).take size).length) := by
  rw [List.drop_drop, List.drop_eq_drop_iff, List.length_take, List.length_drop]
  omega

/-- **The loop ends**, whatever becomes of the datagrams, and the fragments it emits carry the parts of the data. -/
theorem sendFragments_emits (w : SendWorld) (connectionId : UInt64) (msg : DataMessage) (fragMessageId : UInt16)
    {first rest : Nat} (hfirst : 0 < first) (hrest : 0 < rest) {i : Nat} {chunks : List Bytes} {offset : Nat}
    (hcut : Cut (payloadSizes first rest) i (msg.data.drop offset) chunks) {fuel : Nat}
    (hfuel : msg.data.length - offset < fuel) (tracker : StatTracker) :
    ∃ r tracker', sendFragments w connectionId msg fragMessageId first rest fuel offset i tracker =
      some (r, emittedAll w.link i (fragmentsOf connectionId msg fragMessageId i chunks), tracker') := by
  induction fuel generalizing i chunks offset tracker with
  | zero => exact absurd hfuel (Nat.not_lt_zero _)
  | succ fuel ih =>
    unfold sendFragments
    by_cases hlt : offset < msg.data.length
    · rw [if_pos hlt]
      dsimp only
      have hpos := payloadSizes_pos hfirst hrest i
      rw [show (if i = 0 then first else rest) = payloadSizes first rest i from rfl, take_min_rest]
      generalize hp : payloadSizes first rest i = size at *
      have hl : (msg.data.drop offset).length = msg.data.length - offset := List.length_drop
      have hnext := drop_chunk msg.data offset size
      generalize msg.data.drop offset = l at *
      cases hcut with
      | nil => exact absurd hl (by rw [List.length_nil]; omega)
      | @cons _ _ chunks _ hcut' =>
        rw [hp] at hcut' ⊢
        have hlast : decide (offset + size ≥ msg.data.length) = chunks.isEmpty := by
          rw [Bool.eq_iff_iff, decide_eq_true_iff, List.isEmpty_iff, hcut'.eq_nil_iff, List.drop_eq_nil_iff]
          omega
        rw [hlast]
        rw [hnext] at hcut'
        unfold fragmentsOf emittedAll
        obtain ⟨r, tracker', hr⟩ := ih hcut' (by rw [List.length_take]; omega)
          (tracker.onUpPacket w.now
            (fragmentDatagram connectionId msg fragMessageId i chunks.isEmpty (l.take size)).length)
        cases w.link i with
        | failed e => exact ⟨_, _, rfl⟩
        | _ =>
          dsimp only
          rw [hr]
          exact ⟨r, tracker', rfl⟩
    · rw [if_neg hlt]
      have hnil : chunks = [] := by
        rw [hcut.eq_nil_iff, List.drop_eq_nil_iff]
        omega
      subst hnil
      exact ⟨_, _, rfl⟩

/-! ## The store's part -/

namespace UdpTransport

omit [Dbuf] in
/-- What is kept for retransmission goes to the reliable store. -/
theorem rememberSent_relStore {w : SendWorld} {msg : DataMessage} {t : UdpTransport} {header : ReliabilityHeader}
    (h : msg.relHeader = some header) :
    (rememberSent w msg false t).2.relStore =
      if header.messageId ≠ 0 then (t.relStore.pushLocalUnacked w.now ⟨msg, header, h⟩).2 else t.relStore := by
  obtain ⟨data, comp, rel⟩ := msg
  dsimp only at h
  subst h
  unfold rememberSent DataMessage.reliableOf
  by_cases h0 : header.messageId ≠ 0
  · simp [h0]
  · simp [h0]

omit [Dbuf] in
theorem rememberSent_congr (w : SendWorld) (msg : DataMessage) (retransmission : Bool) {t t' : UdpTransport}
    (h : t'.relStore = t.relStore) :
    (rememberSent w msg retransmission t').2.relStore = (rememberSent w msg retransmission t).2.relStore := by
  unfold rememberSent
  cases msg.reliableOf retransmission with
  | none => exact h
  | some r =>
    dsimp only
    rw [h]

/-- Only a refused datagram fails in the loop. -/
theorem sendFragments_ok {w : SendWorld} (hlink : ∀ i err, w.link i ≠ .failed err) {connectionId : UInt64}
    {msg : DataMessage} {fragMessageId : UInt16} {first rest fuel offset i : Nat} {tracker tracker' : StatTracker}
    {r : Except TransportError Unit} {out : List Bytes}
    (h : sendFragments w connectionId msg fragMessageId first rest fuel offset i tracker = some (r, out, tracker')) :
    r = .ok () := by
  induction fuel generalizing offset i tracker out with
  | zero => cases h
  | succ fuel ih =>
    unfold sendFragments at h
    dsimp only at h
    split at h
    · cases hl : w.link i with
      | failed e => exact absurd hl (hlink i e)
      | _ =>
        rw [hl] at h
        obtain ⟨⟨r', out', tr'⟩, hr, hres⟩ := Option.map_eq_some_iff.mp h
        cases hres
        exact ih hr
    · cases h
      rfl

/-- Sending touches the reliable store only to remember the message. -/
theorem doSendUnfragmentedData_relStore {w : SendWorld} (hlink : ∀ i err, w.link i ≠ .failed err)
    {t t' : UdpTransport} {msg : DataMessage} {retransmission : Bool} {r : Except TransportError Unit}
    {out : List Bytes} (h : t.doSendUnfragmentedData w msg retransmission = some (r, out, t')) :
    t'.relStore = (rememberSent w msg retransmission t).2.relStore := by
  unfold doSendUnfragmentedData at h
  split at h
  · have h' := Option.some.inj h
    unfold sendUnfragmented at h'
    dsimp only at h'
    cases hl : w.link 0 with
    | failed e => exact absurd hl (hlink 0 e)
    | _ =>
      rw [hl] at h'
      rcases hrem : rememberSent w msg retransmission t with ⟨e | ⟨⟩, t₁⟩
      · rw [hrem] at h'
        cases h'
        rfl
      · rw [hrem] at h'
        cases h'
        rfl
  · dsimp only at h
    split at h
    · cases h
    · next hloop => cases sendFragments_ok hlink hloop
    · cases h
      exact rememberSent_congr w msg retransmission rfl

/-- **Sending on a transport is sending as an endpoint**: unless the socket refuses a datagram, the store of the
transport is afterwards that of the endpoint. -/
theorem sendMessage_store {w : SendWorld} {t t' : UdpTransport} {e : Endpoint} {data : Bytes}
    {comp : Option CompressionHeader} {reliable : Bool} {r : Except TransportError Unit} {out : List Bytes}
    (hstore : t.relStore = e.store) (hlink : ∀ i err, w.link i ≠ .failed err)
    (h : sendMessage w t data comp reliable = some (r, out, t')) :
    t'.relStore = (e.send w.now reliable data comp).store := by
  unfold sendMessage at h
  rw [hstore] at h
  dsimp only at h
  rw [doSendUnfragmentedData_relStore hlink h]
  unfold Endpoint.send
  dsimp only
  generalize e.store.outgoingHeader reliable = o
  obtain ⟨header, s⟩ := o
  dsimp only
  generalize hrel : (if header.messageId ≠ 0 ∨ header.ackCount > 0 then some header else none) = rel
  by_cases h0 : header.messageId ≠ 0
  · rw [if_pos (.inl h0)] at hrel
    subst hrel
    rw [rememberSent_relStore rfl, if_pos h0, if_pos h0]
    rfl
  · rw [if_neg h0]
    by_cases hacks : header.ackCount > 0
    · rw [if_pos (.inr hacks)] at hrel
      subst hrel
      rw [rememberSent_relStore rfl, if_neg h0, if_pos hacks]
    · rw [if_neg (not_or.mpr ⟨h0, hacks⟩)] at hrel
      subst hrel
      rw [if_neg hacks]
      rfl

/-! ## The incoming side -/

omit [Dbuf] in
theorem onUpPacket_messages (now bytes : Nat) (s : StatTracker) : (s.onUpPacket now bytes).messages = s.messages := by
  unfold StatTracker.onUpPacket StatTracker.onPacket
  split <;> rfl

theorem sendFragments_messages {w : SendWorld} {connectionId : UInt64} {msg : DataMessage} {fragMessageId : UInt16}
    {first rest fuel offset i : Nat} {tracker tracker' : StatTracker} {r : Except TransportError Unit} {out : List Bytes}
    (h : sendFragments w connectionId msg fragMessageId first rest fuel offset i tracker = some (r, out, tracker')) :
    tracker'.messages = tracker.messages := by
  induction fuel generalizing offset i tracker out with
  | zero => cases h
  | succ fuel ih =>
    unfold sendFragments at h
    dsimp only at h
    split at h
    · cases hl : w.link i with
      | failed e =>
        rw [hl] at h
        cases h
        rfl
      | _ =>
        rw [hl] at h
        obtain ⟨⟨r', out', tr'⟩, hr, hres⟩ := Option.map_eq_some_iff.mp h
        cases hres
        rw [ih hr, onUpPacket_messages]
    · cases h
      rfl

omit [Dbuf] in
theorem rememberSent_keepsIncoming (w : SendWorld) (msg : DataMessage) (retransmission : Bool) (t : UdpTransport) :
    KeepsIncoming t (rememberSent w msg retransmission t).2 := by
  unfold rememberSent
  cases msg.reliableOf retransmission with
  | none => exact .refl t
  | some r =>
    dsimp only
    unfold ReliableStore.pushLocalUnacked
    split
    · exact .refl t
    · exact ⟨rfl, rfl, rfl, rfl, rfl, rfl, fun _ h => h⟩

omit [Dbuf] in
/-- Only the statistics and the id of the next fragmented message change. -/
theorem keepsIncoming_of_messages {t : UdpTransport} {tracker : StatTracker} (id : UInt16)
    (h : tracker.messages = t.tracker.messages) :
    KeepsIncoming t { t with fragStore := { t.fragStore with nextId := id }, tracker } := by
  refine ⟨rfl, rfl, rfl, rfl, rfl, rfl, fun i hi => ?_⟩
  unfold StatTracker.ackAccesses at hi ⊢
  rwa [h] at hi

/-- **Sending leaves the incoming side alone.** -/
theorem doSendUnfragmentedData_keepsIncoming {w : SendWorld} {t t' : UdpTransport} {msg : DataMessage}
    {retransmission : Bool} {r : Except TransportError Unit} {out : List Bytes}
    (h : t.doSendUnfragmentedData w msg retransmission = some (r, out, t')) : KeepsIncoming t t' := by
  unfold doSendUnfragmentedData at h
  split at h
  · have h' := Option.some.inj h
    unfold sendUnfragmented at h'
    dsimp only at h'
    have hkeeps := rememberSent_keepsIncoming w msg retransmission t
    cases hl : w.link 0 with
    | failed e =>
      rw [hl] at h'
      cases h'
      exact .refl t
    | _ =>
      rw [hl] at h'
      rcases hrem : rememberSent w msg retransmission t with ⟨e | ⟨⟩, t₁⟩
      · rw [hrem] at h' hkeeps
        cases h'
        exact hkeeps
      · rw [hrem] at h' hkeeps
        cases h'
        exact hkeeps.trans (keepsIncoming_of_messages t₁.fragStore.nextId (onUpPacket_messages _ _ _))
  · dsimp only at h
    split at h
    · cases h
    · next hloop =>
      cases h
      exact keepsIncoming_of_messages _ (sendFragments_messages hloop)
    · next hloop =>
      cases h
      exact (keepsIncoming_of_messages _ (sendFragments_messages hloop)).trans (rememberSent_keepsIncoming _ _ _ _)

omit [Dbuf] in
theorem rememberSent_settings (w : SendWorld) (msg : DataMessage) (retransmission : Bool) (t : UdpTransport) :
    (rememberSent w msg retransmission t).2.mtu = t.mtu ∧
      (rememberSent w msg retransmission t).2.connectionId = t.connectionId := by
  unfold rememberSent
  cases msg.reliableOf retransmission <;> exact ⟨rfl, rfl⟩

/-- Sending changes no setting of the transport. -/
theorem doSendUnfragmentedData_settings {w : SendWorld} {t t' : UdpTransport} {msg : DataMessage}
    {retransmission : Bool} {r : Except TransportError Unit} {out : List Bytes}
    (h : t.doSendUnfragmentedData w msg retransmission = some (r, out, t')) :
    t'.mtu = t.mtu ∧ t'.connectionId = t.connectionId := by
  unfold doSendUnfragmentedData at h
  split at h
  · have h' := Option.some.inj h
    unfold sendUnfragmented at h'
    dsimp only at h'
    have hsame := rememberSent_settings w msg retransmission t
    cases hl : w.link 0 with
    | failed e =>
      rw [hl] at h'
      cases h'
      exact ⟨rfl, rfl⟩
    | _ =>
      rw [hl] at h'
      rcases hrem : rememberSent w msg retransmission t with ⟨e | ⟨⟩, t₁⟩
      · rw [hrem] at h' hsame
        cases h'
        exact hsame
      · rw [hrem] at h' hsame
        cases h'
        exact hsame
  · dsimp only at h
    split at h
    · cases h
    · cases h
      exact ⟨rfl, rfl⟩
    · cases h
      exact rememberSent_settings _ _ _ _

theorem sendMessage_keepsIncoming {w : SendWorld} {t t' : UdpTransport} {data : Bytes}
    {comp : Option CompressionHeader} {reliable : Bool} {r : Except TransportError Unit} {out : List Bytes}
    (h : sendMessage w t data comp reliable = some (r, out, t')) : KeepsIncoming t t' := by
  have hheader : KeepsIncoming t { t with relStore := (t.relStore.outgoingHeader reliable).2 } := by
    rw [(t.relStore.outgoingHeader_spec reliable).2.2.2]
    exact ⟨rfl, rfl, rfl, rfl, rfl, rfl, fun _ h => h⟩
  exact hheader.trans (doSendUnfragmentedData_keepsIncoming h)

end UdpTransport

/-! ## Reading a data message back -/

/-- `decodeMeta` reads the datagram as `m`. -/
def DecodesTo (udpConnId : Bool) (datagram : Bytes) (m : QunetMessageMeta) : Prop :=
  ∃ msgType rest, datagram = msgType :: rest ∧ decodeMeta msgType rest udpConnId = .ok m

theorem DecodesTo.unique {udpConnId : Bool} {datagram : Bytes} {m m' : QunetMessageMeta}
    (h : DecodesTo udpConnId datagram m) (h' : DecodesTo udpConnId datagram m') : m' = m := by
  obtain ⟨b, rest, rfl, hm⟩ := h
  obtain ⟨b', rest', hcons, hm'⟩ := h'
  cases hcons
  rw [hm] at hm'
  cases hm'
  rfl

/-- The receiver, who expects a connection id if there is one, reads the same headers and the same data. -/
def RoundTrips (connectionId : UInt64) (msg : DataMessage) (datagram : Bytes) : Prop :=
  ∃ m, DecodesTo (connectionId != 0) datagram m ∧ m.type = msgData ∧
    m.compressionHeader.map (·.toCompressionHeader) = msg.compHeader ∧
    Option.Rel SameReliability msg.relHeader m.reliabilityHeader ∧ m.data = msg.data

/-- A header of type `None` is never read back. -/
theorem RoundTrips.namesAlgorithm {connectionId : UInt64} {msg : DataMessage} {datagram : Bytes}
    (h : RoundTrips connectionId msg datagram) : msg.NamesAlgorithm := by
  obtain ⟨m, -, -, hcomp, -, -⟩ := h
  intro c hc
  rw [← hcomp] at hc
  obtain ⟨c', -, rfl⟩ := Option.map_eq_some_iff.mp hc
  exact c'.type_ne_none

theorem decodedComp_eq_iff (connectionId : UInt64) {msg : DataMessage} (hcomp : msg.NamesAlgorithm) :
    (decodedComp connectionId msg.compHeader).map (·.toCompressionHeader) = msg.compHeader ↔
      ∀ c ∈ msg.compHeader, connectionId ≠ 0 →
        Dbuf.u32.read ((Dbuf.u64.write connectionId).drop 4) = c.uncompressedSize := by
  obtain ⟨data, comp, rel⟩ := msg
  cases comp with
  | none => simp [decodedComp]
  | some c =>
    obtain ⟨type, size⟩ := c
    have htype : type ≠ .none := hcomp _ rfl
    by_cases hz : connectionId = 0
    · simp [decodedComp, decodedSize, hz, htype]
    · simp [decodedComp, decodedSize, hz, htype]

/-- A message that fits is sent in one datagram. -/
theorem doSendUnfragmentedData_fits {t : UdpTransport} {msg : DataMessage} (retransmission : Bool)
    (hfit : msg.unfragTotalSize ≤ t.mtu) (w : SendWorld) :
    ∃ r t', t.doSendUnfragmentedData w msg retransmission =
      some (r, emittedAll w.link 0 [encodeDataHeader msg t.connectionId false ++ msg.data], t') := by
  unfold UdpTransport.doSendUnfragmentedData UdpTransport.sendUnfragmented emittedAll emittedAll
  rw [if_pos hfit]
  dsimp only
  cases w.link 0 with
  | failed e => exact ⟨_, _, rfl⟩
  | _ =>
    rcases UdpTransport.rememberSent w msg retransmission t with ⟨e | ⟨⟩, t'⟩
    · exact ⟨_, _, rfl⟩
    · exact ⟨_, _, rfl⟩

/-- **The round trip of an unfragmented message.** It is read back if it has no compression header, or one that names an
algorithm and no connection id is written, or the last half of the connection id happens to be the code of the
uncompressed size. -/
theorem unfragmented_roundTrips_iff (t : UdpTransport) (msg : DataMessage) (retransmission : Bool)
    (hrel : ∀ h ∈ msg.relHeader, h.ackCount ≤ 8) (hfit : msg.unfragTotalSize ≤ t.mtu) :
    ∃ datagram,
      (∀ w, ∃ r t', t.doSendUnfragmentedData w msg retransmission =
        some (r, emittedAll w.link 0 [datagram], t')) ∧
      (RoundTrips t.connectionId msg datagram ↔ ∀ c ∈ msg.compHeader, c.type ≠ .none ∧ (t.connectionId ≠ 0 →
        Dbuf.u32.read ((Dbuf.u64.write t.connectionId).drop 4) = c.uncompressedSize)) := by
  refine ⟨encodeDataHeader msg t.connectionId false ++ msg.data, doSendUnfragmentedData_fits retransmission hfit, ?_⟩
  -- what the decoder reads, once the header byte announces the compression header
  have hdecodes : msg.NamesAlgorithm → ∃ rel' offset, Option.Rel SameReliability msg.relHeader rel' ∧
      DecodesTo (t.connectionId != 0) (encodeDataHeader msg t.connectionId false ++ msg.data)
        ⟨msgData, decodedComp t.connectionId msg.compHeader, rel', none, msg.data, offset⟩ := by
    intro hcomp
    obtain ⟨rel', offset, hsame, hdec⟩ := decodeMeta_unfragmented hcomp t.connectionId hrel
    exact ⟨rel', offset, hsame, _, _, rfl, hdec⟩
  constructor
  · intro h
    have hcomp := h.namesAlgorithm
    obtain ⟨rel', offset, -, hm⟩ := hdecodes hcomp
    obtain ⟨m, hread, -, heq, -, -⟩ := h
    rw [hm.unique hread] at heq
    exact fun c hc => ⟨hcomp c hc, (decodedComp_eq_iff _ hcomp).mp heq c hc⟩
  · intro h
    have hcomp : msg.NamesAlgorithm := fun c hc => (h c hc).1
    obtain ⟨rel', offset, hsame, hm⟩ := hdecodes hcomp
    exact ⟨_, hm, rfl, (decodedComp_eq_iff _ hcomp).mpr fun c hc => (h c hc).2, hsame, rfl⟩

end

/-- A compressed message that acknowledges message 7, on a connection without an id. -/
def compressedAck : DataMessage where
  data := [1, 2]
  compHeader := some ⟨.lz4, 5⟩
  relHeader := some ⟨0, 1, .replicate 8 7⟩

theorem unfragmented_roundTrips_without_id :
    ∃ datagram,
      (∀ w, ∃ r t', @UdpTransport.doSendUnfragmentedData Dbuf.little w {} compressedAck false =
        some (r, emittedAll w.link 0 [datagram], t')) ∧ @RoundTrips Dbuf.little 0 compressedAck datagram := by
  have hacks : ∀ h ∈ compressedAck.relHeader, h.ackCount ≤ 8 := by
    rintro h ⟨⟩
    decide
  obtain ⟨datagram, hsend, hiff⟩ := @unfragmented_roundTrips_iff Dbuf.little {} compressedAck false hacks (by decide)
  refine ⟨datagram, hsend, hiff.mpr fun c hc => ⟨?_, fun hne => absurd rfl hne⟩⟩
  cases hc
  decide

/-- An empty message whose uncompressed size is 1. -/
def compressedOne : DataMessage where
  data := []
  compHeader := some ⟨.zstd, 1⟩

/-- On the connection 5 the decoder takes the last half of the connection id for the uncompressed size. -/
theorem compressedOne_misread :
    ∃ datagram,
      (∀ w, ∃ r t', @UdpTransport.doSendUnfragmentedData Dbuf.little w { connectionId := 5 } compressedOne false =
        some (r, emittedAll w.link 0 [datagram], t')) ∧ ¬ @RoundTrips Dbuf.little 5 compressedOne datagram := by
  refine ⟨_, @doSendUnfragmentedData_fits Dbuf.little { connectionId := 5 } compressedOne false (by decide), ?_⟩
  rintro ⟨m, hm, -, hcomp, -, -⟩
  have hread : @DecodesTo Dbuf.little true [0x81, 1, 0, 0, 0, 5, 0, 0, 0, 0, 0, 0, 0]
      ⟨msgData, some ⟨⟨.zstd, 0⟩, by decide⟩, none, none, [], 13⟩ := ⟨_, _, rfl, rfl⟩
  rw [@DecodesTo.unique Dbuf.little _ _ _ _ hread hm] at hcomp
  revert hcomp
  decide

end Qunet
