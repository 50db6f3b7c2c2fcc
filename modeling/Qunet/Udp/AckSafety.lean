import Qunet.Udp.ReliableSteps
import Qunet.Message.RoundTrip
import Mathlib.Logic.Function.Basic

/-!
# Two reliable stores over an unreliable network

* `Endpoint`, `Network`, `NetStep` : two parties that send, retransmit, acknowledge and receive. Whatever a party has
  put on the network may arrive any number of times, at any later time, or never;
* `Endpoint.log`, `Endpoint.released` : ghost records of the reliable messages that a party sent and released;
* `Acknowledges` : the ids a store acknowledges, or will acknowledge, are among those it released;
* `EndpointInv` : so are those in what a party has sent, and what it keeps is what it logged;
* **`no_premature_ack`** : a sender forgets a message only after the peer has released it.
-/

namespace Qunet
open Lib

/-! ## The parties -/

/-- The header that `sendMessage` puts on a data message: acknowledgements, and an id if the message is reliable. -/
def ReliableStore.outgoingHeader (s : ReliableStore) (reliable : Bool) : ReliabilityHeader × ReliableStore :=
  let acks := s.setOutgoingAcks ⟨0, 0, .replicate 8 0⟩
  if reliable then ({ acks.1 with messageId := acks.2.nextMessageId.1 }, acks.2.nextMessageId.2) else acks

/-- A data message with the given reliability header. -/
def ReliableData.of (data : Bytes) (compHeader : Option CompressionHeader) (header : ReliabilityHeader) :
    ReliableData :=
  { data, compHeader, relHeader := some header, header, has_header := rfl }

structure Endpoint where
  store : ReliableStore := {}
  /-- The payloads of the reliable messages sent so far. -/
  log : List Bytes := []
  /-- The messages that `handleIncoming` accepted or moved to the delayed queue. -/
  released : List ReliableMeta := []
  /-- Everything put on the network that carries a reliability header. -/
  sent : List ReliableData := []

namespace Endpoint

/-- `sendMessage` on a data message. A message without id and acknowledgements gets no header, and concerns no store. -/
def send (now : Nat) (reliable : Bool) (data : Bytes) (comp : Option CompressionHeader) (e : Endpoint) : Endpoint :=
  let r := e.store.outgoingHeader reliable
  let msg := ReliableData.of data comp r.1
  if r.1.messageId ≠ 0 then
    { e with store := (r.2.pushLocalUnacked now msg).2, log := e.log ++ [data], sent := e.sent ++ [msg] }
  else if r.1.ackCount > 0 then { e with store := r.2, sent := e.sent ++ [msg] }
  else { e with store := r.2 }

/-- One round of the retransmission loop in `handleTimerExpiry`. -/
def retransmit (deadline : Nat → Nat) (now : Nat) (e : Endpoint) : Endpoint :=
  match e.store.maybeRetransmit deadline now with
  | (.ok (some msg), s) => { e with store := s, sent := e.sent ++ [msg] }
  | (_, s) => { e with store := s }

/-- The acknowledgement without data in `handleTimerExpiry`. -/
def sendAcks (now : Nat) (e : Endpoint) : Endpoint :=
  if e.store.hasUrgentOutgoingAcks now then
    let r := e.store.setOutgoingAcks ⟨0, 0, .replicate 8 0⟩
    { e with store := r.2, sent := e.sent ++ [.of [] none r.1] }
  else e

/-- What a call of `handleIncoming` releases: the message if it is accepted, and what enters the delayed queue. -/
def newlyReleased (s : ReliableStore) (m : ReliableMeta) (r : Except TransportError Bool) (t : ReliableStore) :
    List ReliableMeta :=
  (match r with
    | .ok true => [m]
    | _ => []) ++ t.remoteDelayedQueue.drop s.remoteDelayedQueue.length

def receive (past : Nat → UInt16) (now : Nat) (m : ReliableMeta) (e : Endpoint) : Endpoint :=
  let r := e.store.handleIncoming past now m
  { e with store := r.2, released := e.released ++ newlyReleased e.store m r.1 r.2 }

def pop (e : Endpoint) : Endpoint := { e with store := e.store.popDelayedMessage.2 }

end Endpoint

inductive Side where
  | left | right
  deriving DecidableEq

def Side.other : Side → Side
  | .left => .right
  | .right => .left

theorem Side.other_ne (p : Side) : p.other ≠ p := by cases p <;> decide

theorem Side.eq_other_of_ne {p q : Side} (h : q ≠ p) : q = p.other := by
  cases p <;> cases q <;> first | rfl | exact absurd rfl h

abbrev Network := Side → Endpoint

/-- The decoded message `m` is the sent message `d`; `decodeMeta_carries` says which messages the decoder reads so. -/
structure Carries (d : ReliableData) (m : ReliableMeta) : Prop where
  header : SameReliability d.header m.header
  data : m.data = d.data

inductive NetStep : Network → Network → Prop where
  | send (net : Network) (p : Side) (now : Nat) (reliable : Bool) (data : Bytes) (comp : Option CompressionHeader) :
      NetStep net (Function.update net p ((net p).send now reliable data comp))
  | retransmit (net : Network) (p : Side) (deadline : Nat → Nat) (now : Nat) :
      NetStep net (Function.update net p ((net p).retransmit deadline now))
  | sendAcks (net : Network) (p : Side) (now : Nat) : NetStep net (Function.update net p ((net p).sendAcks now))
  | receive (net : Network) (p : Side) (past : Nat → UInt16) (now : Nat) {d : ReliableData}
      (hd : d ∈ (net p.other).sent) {m : ReliableMeta} (hm : Carries d m) :
      NetStep net (Function.update net p ((net p).receive past now m))
  | pop (net : Network) (p : Side) : NetStep net (Function.update net p (net p).pop)

def ReachableNet (net : Network) : Prop := Reachable (· = fun _ => {}) NetStep net

/-- What the decoder makes of an encoded reliable message carries it, unless its compression header names no
algorithm. -/
theorem decodeMeta_carries [Dbuf] (d : ReliableData) (hcomp : d.toDataMessage.NamesAlgorithm) (connectionId : UInt64)
    (hc : d.header.ackCount ≤ 8) :
    ∃ m : ReliableMeta, Carries d m ∧
      decodeMeta (dataHeaderByte d.toDataMessage false)
        (dataHeaderFields d.toDataMessage connectionId false ++ d.data) (connectionId != 0) =
          .ok m.toQunetMessageMeta := by
  obtain ⟨rel, offset, hsame, hdec⟩ := decodeMeta_unfragmented hcomp connectionId (by
    intro h hh
    rw [d.has_header, Option.mem_some_iff] at hh
    rwa [← hh])
  rw [d.has_header] at hsame
  cases hsame with
  | some hsame => exact ⟨⟨_, _, rfl⟩, ⟨hsame, rfl⟩, hdec⟩

/-! ## The invariant -/

/-- `data` is the payload of the reliable message number `id`. -/
def Logged (log : List Bytes) (id : UInt16) (data : Bytes) : Prop := id ≠ 0 ∧ log[id.toNat - 1]? = some data

/-- A reliable message is logged. -/
def LoggedMeta (log : List Bytes) (m : ReliableMeta) : Prop := messageIdOf m = 0 ∨ Logged log (messageIdOf m) m.data

theorem Logged.le {log : List Bytes} {id : UInt16} {data : Bytes} (h : Logged log id data) :
    id.toNat ≤ log.length := by
  obtain ⟨h0, hlog⟩ := h
  have hlt := (List.getElem?_eq_some_iff.mp hlog).1
  have hpos := ReliableStore.ne_zero_iff.mp h0
  omega

theorem Logged.mono {log : List Bytes} {id : UInt16} {data : Bytes} (h : Logged log id data) (more : List Bytes) :
    Logged (log ++ more) id data := by
  obtain ⟨h0, hlog⟩ := h
  have hlt := (List.getElem?_eq_some_iff.mp hlog).1
  exact ⟨h0, by rw [List.getElem?_append_left hlt, hlog]⟩

theorem LoggedMeta.mono {log : List Bytes} {m : ReliableMeta} (h : LoggedMeta log m) (more : List Bytes) :
    LoggedMeta (log ++ more) m := h.imp id fun h => h.mono more

/-- A message on the network, or kept for retransmission, by a party that sent `log` and released `released`. -/
structure Honest (log : List Bytes) (released : List ReliableMeta) (d : ReliableData) : Prop where
  ackCount : d.header.ackCount ≤ 8
  acks : ∀ id ∈ d.header.ackList, id ∈ released.map messageIdOf
  logged : d.header.messageId = 0 ∨ Logged log d.header.messageId d.data

/-- Everything below the next id is released, in this round of the ids or an earlier one, and so is what is queued for
acknowledgement. -/
structure Acknowledges (released : List ReliableMeta) (s : ReliableStore) : Prop where
  next_ne_zero : s.nextRemoteId ≠ 0
  below : ∀ id, id ≠ 0 → id < s.nextRemoteId → id ∈ released.map messageIdOf
  unacked : ∀ r ∈ s.remoteUnacked, r.messageId ∈ released.map messageIdOf

/-- The incoming side of a party whose peer sent `log`. -/
structure Accepted (log : List Bytes) (released : List ReliableMeta) (s : ReliableStore) : Prop
    extends Acknowledges released s where
  next_le : s.nextRemoteId.toNat ≤ log.length + 1
  stored : ∀ e ∈ s.remoteOutOfOrder, Logged log e.id e.message.data
  released_logged : ∀ m ∈ released, LoggedMeta log m

/-- The outgoing side: what is kept for retransmission is honest, and numbered without repetition. -/
structure Kept (log : List Bytes) (released : List ReliableMeta) (s : ReliableStore) : Prop where
  next : s.nextLocalId.toNat = log.length + 1
  honest : ∀ u ∈ s.localUnacked, Honest log released u.msg ∧ u.messageId = u.msg.header.messageId ∧ u.messageId ≠ 0

structure EndpointInv (peerLog : List Bytes) (e : Endpoint) : Prop where
  sent : ∀ d ∈ e.sent, Honest e.log e.released d
  kept : Kept e.log e.released e.store
  accepted : Accepted peerLog e.released e.store

/-! ## What keeps it -/

theorem Honest.mono_log {log : List Bytes} {released : List ReliableMeta} {d : ReliableData}
    (h : Honest log released d) (more : List Bytes) : Honest (log ++ more) released d :=
  ⟨h.ackCount, h.acks, h.logged.imp id fun hl => hl.mono more⟩

theorem Honest.mono_released {log : List Bytes} {released : List ReliableMeta} {d : ReliableData}
    (h : Honest log released d) (more : List ReliableMeta) : Honest log (released ++ more) d := by
  refine ⟨h.ackCount, fun id hid => ?_, h.logged⟩
  rw [List.map_append]
  exact List.mem_append_left _ (h.acks id hid)

theorem Accepted.mono {log : List Bytes} {released : List ReliableMeta} {s : ReliableStore}
    (h : Accepted log released s) (more : List Bytes) : Accepted (log ++ more) released s := by
  refine ⟨h.toAcknowledges, ?_, fun e he => (h.stored e he).mono more,
    fun m hm => (h.released_logged m hm).mono more⟩
  have := h.next_le
  rw [List.length_append]
  omega

theorem EndpointInv.mono {log : List Bytes} {e : Endpoint} (h : EndpointInv log e) (more : List Bytes) :
    EndpointInv (log ++ more) e := ⟨h.sent, h.kept, h.accepted.mono more⟩

/-- The ids below the successor are those below, and the id itself; behind a wraparound there are none. -/
theorem lt_succId {a b : UInt16} (ha : a ≠ 0) (h : a < succId b) : a < b ∨ a = b := by
  have hpos := ReliableStore.ne_zero_iff.mp ha
  rw [UInt16.lt_iff_toNat_lt, ReliableStore.succId_toNat] at h
  rw [UInt16.lt_iff_toNat_lt, ← UInt16.toNat_inj]
  split at h <;> omega

namespace Acknowledges
variable {released : List ReliableMeta} {s t : ReliableStore}

theorem fresh : Acknowledges [] {} := by
  refine ⟨by decide, fun id h0 hlt => ?_, by simp⟩
  have hpos := ReliableStore.ne_zero_iff.mp h0
  exact absurd (UInt16.lt_iff_toNat_lt.mp hlt) (by simp; omega)

theorem mono (h : Acknowledges released s) (more : List ReliableMeta) : Acknowledges (released ++ more) s := by
  refine ⟨h.next_ne_zero, fun id h0 hlt => ?_, fun r hr => ?_⟩
  · rw [List.map_append]
    exact List.mem_append_left _ (h.below id h0 hlt)
  · rw [List.map_append]
    exact List.mem_append_left _ (h.unacked r hr)

/-- Only the next id and the queue matter. -/
theorem congr (h : Acknowledges released s) (hn : t.nextRemoteId = s.nextRemoteId)
    (hu : ∀ r ∈ t.remoteUnacked, r ∈ s.remoteUnacked) : Acknowledges released t :=
  ⟨by rw [hn]; exact h.next_ne_zero, by rw [hn]; exact h.below, fun r hr => h.unacked r (hu r hr)⟩

/-- The next message is released and queued for acknowledgement. -/
theorem accept (h : Acknowledges released s) {m : ReliableMeta} (hid : messageIdOf m = s.nextRemoteId) (now : Nat) :
    Acknowledges (released ++ [m]) (s.accept now) := by
  have hold := h.mono [m]
  have hmem : s.nextRemoteId ∈ (released ++ [m]).map messageIdOf := by
    rw [← hid]
    exact List.mem_map_of_mem (List.mem_append_right _ (List.mem_singleton_self m))
  refine ⟨ReliableStore.succId_ne_zero _, fun id h0 hlt => ?_, fun r hr => ?_⟩
  · rcases lt_succId h0 hlt with hlt | rfl
    · exact hold.below id h0 hlt
    · exact hmem
  · rcases List.mem_append.mp hr with hr | hr
    · exact hold.unacked r hr
    · rw [List.mem_singleton.mp hr]
      exact hmem

/-- A duplicate is queued again. -/
theorem requeue (h : Acknowledges released s) {id : UInt16} (h0 : id ≠ 0) (hlt : id < s.nextRemoteId) (now : Nat) :
    Acknowledges released { s with remoteUnacked := s.remoteUnacked ++ [⟨id, now⟩] } := by
  refine ⟨h.next_ne_zero, h.below, fun r hr => ?_⟩
  rcases List.mem_append.mp hr with hr | hr
  · exact h.unacked r hr
  · rw [List.mem_singleton.mp hr]
    exact h.below _ h0 hlt

/-- Everything a restoration moves to the delayed queue is released. -/
theorem restores {now : Nat} {ms : List ReliableMeta} (hr : ReliableStore.Restores now s ms t)
    (h : Acknowledges released s) : Acknowledges (released ++ ms) t := by
  induction hr generalizing released with
  | done _ => rwa [List.append_nil]
  | @step s t e ms he _ ih =>
    have hdelay : Acknowledges released (s.delay e) := h.congr rfl fun _ hr => hr
    have hnext := ih (hdelay.accept (ReliableStore.nextStored_some he).2 now)
    rwa [List.append_assoc, List.singleton_append] at hnext

/-- One incoming message. -/
theorem incoming {now : Nat} {m : ReliableMeta} {r : Except TransportError Bool}
    (hi : ReliableStore.Incoming now s m r t) (h : Acknowledges released s) :
    Acknowledges (released ++ Endpoint.newlyReleased s m r t) t := by
  unfold Endpoint.newlyReleased
  cases hi with
  | unreliable _ => exact h.mono _
  | duplicateQueued _ _ _ => exact h.mono _
  | @duplicate h0 hd _ ms _ hr =>
    have hq := (h.requeue h0 hd.1 now).restores hr
    rwa [List.nil_append, hr.delayed, List.drop_left]
  | full _ _ _ _ => exact h.mono _
  | stored _ _ _ _ _ => exact h.mono _
  | outOfOrder _ _ _ _ _ => exact (h.mono _).congr rfl fun _ hr => hr
  | @inOrder _ hn ms _ hr =>
    have hacc := (h.accept hn now).restores hr
    rw [hr.delayed, show (s.accept now).remoteDelayedQueue = s.remoteDelayedQueue from rfl, List.drop_left]
    rwa [List.append_assoc] at hacc

end Acknowledges

namespace Accepted
variable {log : List Bytes} {released : List ReliableMeta} {s t : ReliableStore}

/-- Releasing a message of the log. -/
theorem release (h : Accepted log released s) {m : ReliableMeta} (hm : LoggedMeta log m) :
    Accepted log (released ++ [m]) s := by
  refine ⟨h.toAcknowledges.mono [m], h.next_le, h.stored, fun m' hm' => ?_⟩
  rcases List.mem_append.mp hm' with hm' | hm'
  · exact h.released_logged m' hm'
  · rwa [List.mem_singleton.mp hm']

/-- The next message is released. -/
theorem accept (h : Accepted log released s) {m : ReliableMeta} (hid : messageIdOf m = s.nextRemoteId)
    (hm : Logged log (messageIdOf m) m.data) (hlog : log.length < 65535) (now : Nat) :
    Accepted log (released ++ [m]) (s.accept now) := by
  have hrel := h.release (.inr hm)
  have hle := hm.le
  rw [hid] at hle
  refine ⟨h.toAcknowledges.accept hid now, ?_, hrel.stored, hrel.released_logged⟩
  change (succId s.nextRemoteId).toNat ≤ _
  rw [ReliableStore.succId_toNat, if_neg (by omega)]
  omega

theorem delay (h : Accepted log released s) (e : StoredOutOfOrderMessage) : Accepted log released (s.delay e) :=
  ⟨h.toAcknowledges.congr rfl fun _ hr => hr, h.next_le, fun e' he' => h.stored e' (List.mem_of_mem_eraseP he'),
    h.released_logged⟩

/-- Everything a restoration moves to the delayed queue is logged. -/
theorem restores {now : Nat} {ms : List ReliableMeta} (hr : ReliableStore.Restores now s ms t)
    (h : Accepted log released s) (hlog : log.length < 65535) : Accepted log (released ++ ms) t := by
  induction hr generalizing released with
  | done _ => rwa [List.append_nil]
  | @step s t e ms he _ ih =>
    obtain ⟨hmem, hid⟩ := ReliableStore.nextStored_some he
    have hnext := ih ((h.delay e).accept hid (h.stored e hmem) hlog now)
    rwa [List.append_assoc, List.singleton_append] at hnext

/-- One incoming message. -/
theorem incoming {now : Nat} {m : ReliableMeta} {r : Except TransportError Bool}
    (hi : ReliableStore.Incoming now s m r t) (h : Accepted log released s) (hm : LoggedMeta log m)
    (hlog : log.length < 65535) : Accepted log (released ++ Endpoint.newlyReleased s m r t) t := by
  unfold Endpoint.newlyReleased
  cases hi with
  | unreliable h0 =>
    rw [List.drop_length, List.append_nil]
    exact h.release hm
  | duplicateQueued _ _ _ => simpa using h
  | @duplicate h0 hd _ ms _ hr =>
    have hq : Accepted log released { s with remoteUnacked := s.remoteUnacked ++ [⟨messageIdOf m, now⟩] } :=
      ⟨h.toAcknowledges.requeue h0 hd.1 now, h.next_le, h.stored, h.released_logged⟩
    rw [List.nil_append, hr.delayed, List.drop_left]
    exact hq.restores hr hlog
  | full _ _ _ _ => simpa using h
  | stored _ _ _ _ _ => simpa using h
  | outOfOrder h0 _ _ _ _ =>
    rw [List.drop_length, List.append_nil, List.append_nil]
    refine ⟨h.toAcknowledges.congr rfl fun _ hr => hr, h.next_le, fun e he => ?_, h.released_logged⟩
    rcases List.mem_append.mp he with he | he
    · exact h.stored e he
    · rw [List.mem_singleton.mp he]
      exact hm.resolve_left h0
  | @inOrder h0 hn ms _ hr =>
    have hacc := (h.accept hn (hm.resolve_left h0) hlog now).restores hr hlog
    rw [hr.delayed, show (s.accept now).remoteDelayedQueue = s.remoteDelayedQueue from rfl, List.drop_left]
    rwa [List.append_assoc] at hacc

/-- Only the incoming side matters. -/
theorem congr (h : Accepted log released s) (hn : t.nextRemoteId = s.nextRemoteId)
    (hu : ∀ r ∈ t.remoteUnacked, r ∈ s.remoteUnacked) (ho : t.remoteOutOfOrder = s.remoteOutOfOrder) :
    Accepted log released t :=
  ⟨h.toAcknowledges.congr hn hu, by rw [hn]; exact h.next_le, by rw [ho]; exact h.stored, h.released_logged⟩

end Accepted

/-! ## The steps of a party -/

/-- The header of an outgoing message, and what it takes from the store. -/
theorem ReliableStore.outgoingHeader_spec (s : ReliableStore) (reliable : Bool) :
    let r := s.outgoingHeader reliable
    r.1.ackCount ≤ 8 ∧ (∀ id ∈ r.1.ackList, ∃ u ∈ s.remoteUnacked, u.messageId = id) ∧
      r.1.messageId = (if reliable then s.nextLocalId else 0) ∧
      r.2 = { s with remoteUnacked := s.remoteUnacked.drop 8
                     nextLocalId := if reliable then succId s.nextLocalId else s.nextLocalId } := by
  obtain ⟨hs, hid, hcount, hacks⟩ := s.setOutgoingAcks_spec ⟨0, 0, .replicate 8 0⟩
  have hmem : ∀ id ∈ (s.setOutgoingAcks ⟨0, 0, .replicate 8 0⟩).1.ackList,
      ∃ u ∈ s.remoteUnacked, u.messageId = id := by
    intro id hid
    rw [hacks] at hid
    obtain ⟨u, hu, rfl⟩ := List.mem_map.mp hid
    exact ⟨u, List.mem_of_mem_take hu, rfl⟩
  have h8 : (s.setOutgoingAcks ⟨0, 0, .replicate 8 0⟩).1.ackCount ≤ 8 := by omega
  cases reliable with
  | false => exact ⟨h8, hmem, hid, hs⟩
  | true =>
    refine ⟨h8, hmem, ?_, ?_⟩
    · show (s.setOutgoingAcks ⟨0, 0, .replicate 8 0⟩).2.nextLocalId = s.nextLocalId
      rw [hs]
    · show (s.setOutgoingAcks ⟨0, 0, .replicate 8 0⟩).2.nextMessageId.2 = _
      rw [hs]
      rfl

/-- A message whose acknowledgements come from the front of the queue. -/
theorem Accepted.honest {peerLog log : List Bytes} {released : List ReliableMeta} {s : ReliableStore}
    (h : Accepted peerLog released s) {hd : ReliabilityHeader} (hc : hd.ackCount ≤ 8)
    (hacks : ∀ id ∈ hd.ackList, ∃ u ∈ s.remoteUnacked, u.messageId = id) {data : Bytes}
    {comp : Option CompressionHeader} (hlog : hd.messageId = 0 ∨ Logged log hd.messageId data) :
    Honest log released (.of data comp hd) := by
  refine ⟨hc, fun id hid => ?_, hlog⟩
  obtain ⟨u, hu, rfl⟩ := hacks id hid
  exact h.unacked u hu

/-- One more message on the network. -/
theorem honest_concat {log : List Bytes} {released : List ReliableMeta} {sent : List ReliableData} {d : ReliableData}
    (h : ∀ d ∈ sent, Honest log released d) (hd : Honest log released d) :
    ∀ d' ∈ sent ++ [d], Honest log released d' := by
  intro d' hd'
  rcases List.mem_append.mp hd' with hd' | hd'
  · exact h d' hd'
  · rwa [List.mem_singleton.mp hd']

namespace EndpointInv
variable {peerLog : List Bytes} {e : Endpoint}

theorem sendAcks (h : EndpointInv peerLog e) (now : Nat) : EndpointInv peerLog (e.sendAcks now) := by
  obtain ⟨hs, hid, hcount, hacks⟩ := e.store.setOutgoingAcks_spec ⟨0, 0, .replicate 8 0⟩
  unfold Endpoint.sendAcks
  split
  · have hhonest : Honest e.log e.released (.of [] none (e.store.setOutgoingAcks ⟨0, 0, .replicate 8 0⟩).1) := by
      refine h.accepted.honest (by omega) (fun id hid => ?_) (.inl hid)
      rw [hacks] at hid
      obtain ⟨u, hu, rfl⟩ := List.mem_map.mp hid
      exact ⟨u, List.mem_of_mem_take hu, rfl⟩
    dsimp only
    rw [hs]
    refine ⟨honest_concat h.sent hhonest, ⟨h.kept.next, h.kept.honest⟩, ?_⟩
    exact h.accepted.congr rfl (fun r hr => List.mem_of_mem_drop hr) rfl
  · exact h

theorem pop (h : EndpointInv peerLog e) : EndpointInv peerLog e.pop := by
  unfold Endpoint.pop ReliableStore.popDelayedMessage
  split
  · exact h
  · exact ⟨h.sent, ⟨h.kept.next, h.kept.honest⟩, h.accepted.congr rfl (fun _ hr => hr) rfl⟩

theorem retransmit (h : EndpointInv peerLog e) (deadline : Nat → Nat) (now : Nat) :
    EndpointInv peerLog (e.retransmit deadline now) := by
  obtain ⟨hkeep, hmsg⟩ := ReliableStore.retransmitScan_spec deadline now e.store.localUnacked
  have hkept : Kept e.log e.released (e.store.maybeRetransmit deadline now).2 := by
    refine ⟨h.kept.next, fun u' hu' => ?_⟩
    have hmem := List.mem_map_of_mem (f := fun u => (u.messageId, u.msg)) hu'
    change _ ∈ (ReliableStore.retransmitScan deadline now e.store.localUnacked).2.map _ at hmem
    rw [hkeep] at hmem
    obtain ⟨u, hu, heq⟩ := List.mem_map.mp hmem
    obtain ⟨hid, hd⟩ := Prod.mk.inj heq
    rw [← hid, ← hd]
    exact h.kept.honest u hu
  have hacc : Accepted peerLog e.released (e.store.maybeRetransmit deadline now).2 :=
    h.accepted.congr rfl (fun _ hr => hr) rfl
  unfold Endpoint.retransmit
  split
  · next d s heq =>
    obtain ⟨hres, rfl⟩ := Prod.mk.inj heq
    obtain ⟨u, hu, rfl⟩ := hmsg d hres
    exact ⟨honest_concat h.sent (h.kept.honest u hu).1, hkept, hacc⟩
  · next s _ heq =>
    have hs : (e.store.maybeRetransmit deadline now).2 = s := by rw [heq]
    rw [← hs]
    exact ⟨h.sent, hkept, hacc⟩

/-- Keeping a new honest message, if there is room for it. -/
theorem kept_push {log : List Bytes} {released : List ReliableMeta} {s : ReliableStore} (h : Kept log released s)
    {d : ReliableData} (hd : Honest log released d) (h0 : d.header.messageId ≠ 0) (now : Nat) :
    Kept log released (s.pushLocalUnacked now d).2 := by
  unfold ReliableStore.pushLocalUnacked
  split
  · exact h
  · refine ⟨h.next, fun u hu => ?_⟩
    rcases List.mem_append.mp hu with hu | hu
    · exact h.honest u hu
    · rw [List.mem_singleton.mp hu]
      exact ⟨hd, rfl, h0⟩

theorem pushLocalUnacked_incoming (s : ReliableStore) (now : Nat) (d : ReliableData) :
    (s.pushLocalUnacked now d).2.nextRemoteId = s.nextRemoteId ∧
      (s.pushLocalUnacked now d).2.remoteUnacked = s.remoteUnacked ∧
      (s.pushLocalUnacked now d).2.remoteOutOfOrder = s.remoteOutOfOrder := by
  unfold ReliableStore.pushLocalUnacked
  split <;> exact ⟨rfl, rfl, rfl⟩

theorem send_unreliable (h : EndpointInv peerLog e) (now : Nat) (data : Bytes) (comp : Option CompressionHeader) :
    EndpointInv peerLog (e.send now false data comp) := by
  obtain ⟨h8, hmem, hid, hs⟩ := e.store.outgoingHeader_spec false
  rw [if_neg Bool.false_ne_true] at hid
  have hkept : Kept e.log e.released (e.store.outgoingHeader false).2 := by
    rw [hs]
    exact ⟨h.kept.next, h.kept.honest⟩
  have hacc : Accepted peerLog e.released (e.store.outgoingHeader false).2 := by
    rw [hs]
    exact h.accepted.congr rfl (fun r hr => List.mem_of_mem_drop hr) rfl
  unfold Endpoint.send
  dsimp only
  rw [if_neg (not_not.mpr hid)]
  split
  · exact ⟨honest_concat h.sent (h.accepted.honest h8 hmem (.inl hid)), hkept, hacc⟩
  · exact ⟨h.sent, hkept, hacc⟩

theorem outgoingId_ne_zero (h : EndpointInv peerLog e) : (e.store.outgoingHeader true).1.messageId ≠ 0 := by
  have hnext := h.kept.next
  obtain ⟨-, -, hid, -⟩ := e.store.outgoingHeader_spec true
  rw [hid, if_pos rfl, ReliableStore.ne_zero_iff]
  omega

theorem send_reliable_log (h : EndpointInv peerLog e) (now : Nat) (data : Bytes) (comp : Option CompressionHeader) :
    (e.send now true data comp).log = e.log ++ [data] := by
  unfold Endpoint.send
  dsimp only
  rw [if_pos h.outgoingId_ne_zero]

theorem send_reliable (h : EndpointInv peerLog e) (now : Nat) (data : Bytes) (comp : Option CompressionHeader)
    (hlog : e.log.length + 1 < 65535) : EndpointInv peerLog (e.send now true data comp) := by
  obtain ⟨h8, hmem, hid, hs⟩ := e.store.outgoingHeader_spec true
  rw [if_pos rfl] at hid
  have hnext := h.kept.next
  have h0 := h.outgoingId_ne_zero
  have hlogged : Logged (e.log ++ [data]) (e.store.outgoingHeader true).1.messageId data := by
    refine ⟨h0, ?_⟩
    rw [hid, hnext, Nat.add_sub_cancel, List.getElem?_concat_length]
  have hhonest : Honest (e.log ++ [data]) e.released (.of data comp (e.store.outgoingHeader true).1) :=
    h.accepted.honest h8 hmem (.inr hlogged)
  have hkept : Kept (e.log ++ [data]) e.released (e.store.outgoingHeader true).2 := by
    rw [hs]
    refine ⟨?_, fun u hu => ⟨(h.kept.honest u hu).1.mono_log [data], (h.kept.honest u hu).2⟩⟩
    simp only [if_true, ReliableStore.succId_toNat, List.length_append, List.length_singleton]
    rw [if_neg (by omega), hnext]
  obtain ⟨hn, hu, ho⟩ := pushLocalUnacked_incoming (e.store.outgoingHeader true).2 now
    (.of data comp (e.store.outgoingHeader true).1)
  unfold Endpoint.send
  dsimp only
  rw [if_pos h0]
  refine ⟨honest_concat (fun d hd => (h.sent d hd).mono_log [data]) hhonest, kept_push hkept hhonest h0 now, ?_⟩
  refine h.accepted.congr (by rw [hn, hs]) (fun r hr => ?_) (by rw [ho, hs])
  rw [hu, hs] at hr
  exact List.mem_of_mem_drop hr

/-- An acknowledged message is one that the header names. -/
theorem processAcks_kept {log : List Bytes} {released : List ReliableMeta} {s : ReliableStore}
    (h : Kept log released s) (past : Nat → UInt16) (hd : ReliabilityHeader) :
    Kept log released (s.processAcks past hd) := by
  obtain ⟨l, hl, hsub, -⟩ := ReliableStore.processAcks_spec past s hd
  rw [hl]
  exact ⟨h.next, fun u hu => h.honest u (hsub.subset hu)⟩

theorem receive (h : EndpointInv peerLog e) (past : Nat → UInt16) (now : Nat) {m : ReliableMeta}
    (hm : LoggedMeta peerLog m) (hlog : peerLog.length < 65535) : EndpointInv peerLog (e.receive past now m) := by
  have hin := ReliableStore.handleIncoming_incoming past now e.store m
  obtain ⟨hlocal, hnext⟩ := hin.frame
  have hkept := processAcks_kept h.kept past m.header
  have hacc : Accepted peerLog e.released (e.store.processAcks past m.header) := by
    obtain ⟨l, hl, -, -⟩ := ReliableStore.processAcks_spec past e.store m.header
    rw [hl]
    exact h.accepted.congr rfl (fun _ hr => hr) rfl
  have hqueue : (e.store.processAcks past m.header).remoteDelayedQueue = e.store.remoteDelayedQueue := by
    obtain ⟨l, hl, -, -⟩ := ReliableStore.processAcks_spec past e.store m.header
    rw [hl]
  refine ⟨fun d hd => (h.sent d hd).mono_released _, ⟨?_, fun u hu => ?_⟩, ?_⟩
  · show (e.store.handleIncoming past now m).2.nextLocalId.toNat = _
    rw [hnext]
    exact hkept.next
  · change u ∈ (e.store.handleIncoming past now m).2.localUnacked at hu
    rw [hlocal] at hu
    exact ⟨(hkept.honest u hu).1.mono_released _, (hkept.honest u hu).2⟩
  · have hnew := hacc.incoming hin hm hlog
    unfold Endpoint.newlyReleased at hnew
    rw [hqueue] at hnew
    exact hnew

end EndpointInv

/-! ## The network -/

/-- Both parties, as long as the ids have not wrapped around. -/
def NetInv (net : Network) : Prop := (∀ p, (net p).log.length < 65535) → ∀ p, EndpointInv (net p.other).log (net p)

/-- A step of one party keeps the invariant if it keeps that party's. -/
theorem NetInv.update {net : Network} {p : Side} {e : Endpoint} (h : NetInv net) {more : List Bytes}
    (hlog : e.log = (net p).log ++ more)
    (hstep : (∀ q, (net q).log.length < 65535) → e.log.length < 65535 →
      EndpointInv (net p.other).log (net p) → EndpointInv (net p.other).log e) :
    NetInv (Function.update net p e) := by
  intro hfew
  have hp := hfew p
  rw [Function.update_self] at hp
  have hold : ∀ q, (net q).log.length < 65535 := by
    intro q
    by_cases hq : q = p
    · subst hq
      rw [hlog, List.length_append] at hp
      omega
    · have := hfew q
      rwa [Function.update_of_ne hq] at this
  intro q
  by_cases hq : q = p
  · subst hq
    rw [Function.update_self, Function.update_of_ne q.other_ne]
    exact hstep hold hp (h hold q)
  · have hother : q.other = p := by
      rw [Side.eq_other_of_ne hq]
      cases p <;> rfl
    rw [Function.update_of_ne hq, hother, Function.update_self, hlog]
    have := h hold q
    rw [hother] at this
    exact this.mono more

/-- What the peer has on the network is what it logged. -/
theorem Carries.logged {log : List Bytes} {released : List ReliableMeta} {d : ReliableData} {m : ReliableMeta}
    (hm : Carries d m) (hd : Honest log released d) : LoggedMeta log m := by
  rcases hd.logged with h0 | hl
  · exact .inl (hm.header.messageId.trans h0)
  · refine .inr ?_
    rw [messageIdOf, hm.header.messageId, hm.data]
    exact hl

/-- The ids that a party keeps for retransmission. -/
def Endpoint.keptIds (e : Endpoint) : List UInt16 := e.store.localUnacked.map (·.messageId)

theorem Endpoint.send_log (e : Endpoint) (now : Nat) (reliable : Bool) (data : Bytes)
    (comp : Option CompressionHeader) : ∃ more, (e.send now reliable data comp).log = e.log ++ more := by
  unfold send
  dsimp only
  split
  · exact ⟨[data], rfl⟩
  · split <;> exact ⟨[], (List.append_nil _).symm⟩

theorem Endpoint.retransmit_log (e : Endpoint) (deadline : Nat → Nat) (now : Nat) :
    (e.retransmit deadline now).log = e.log := by
  unfold retransmit
  split <;> rfl

theorem Endpoint.sendAcks_log (e : Endpoint) (now : Nat) : (e.sendAcks now).log = e.log := by
  unfold sendAcks
  split <;> rfl

/-- **Every step** keeps the invariant. -/
theorem NetInv.step {net net' : Network} (h : NetInv net) (hst : NetStep net net') : NetInv net' := by
  cases hst with
  | send p now reliable data comp =>
    obtain ⟨more, hmore⟩ := (net p).send_log now reliable data comp
    refine h.update hmore fun _ hfew hp => ?_
    cases reliable with
    | false => exact hp.send_unreliable now data comp
    | true =>
      rw [hp.send_reliable_log, List.length_append] at hfew
      exact hp.send_reliable now data comp hfew
  | retransmit p deadline now =>
    have hlog : ((net p).retransmit deadline now).log = (net p).log ++ [] := by
      rw [Endpoint.retransmit_log, List.append_nil]
    exact h.update hlog fun _ _ hp => hp.retransmit deadline now
  | sendAcks p now =>
    have hlog : ((net p).sendAcks now).log = (net p).log ++ [] := by
      rw [Endpoint.sendAcks_log, List.append_nil]
    exact h.update hlog fun _ _ hp => hp.sendAcks now
  | @receive p past now d hd m hm =>
    have hlogged : (∀ q, (net q).log.length < 65535) → LoggedMeta (net p.other).log m :=
      fun hold => hm.logged ((h hold p.other).sent d hd)
    exact h.update (List.append_nil _).symm fun hold _ hp => hp.receive past now (hlogged hold) (hold p.other)
  | pop p => exact h.update (List.append_nil _).symm fun _ _ hp => hp.pop

theorem ReachableNet.inv {net : Network} (h : ReachableNet net) : NetInv net := by
  have hinit : ∀ net : Network, (net = fun _ => {}) → NetInv net := by
    rintro net rfl _ p
    have hacc : Accepted [] [] {} := ⟨.fresh, by decide, by simp, by simp⟩
    exact ⟨by simp, ⟨rfl, by simp⟩, hacc⟩
  have hstep : ∀ net net', NetInv net → NetStep net net' → NetInv net' := fun _ _ h hst => h.step hst
  exact Reachable.invariant hinit hstep h

namespace Endpoint

theorem send_keeps (e : Endpoint) (now : Nat) (reliable : Bool) (data : Bytes) (comp : Option CompressionHeader) :
    e.keptIds ⊆ (e.send now reliable data comp).keptIds := by
  obtain ⟨-, -, -, hs⟩ := e.store.outgoingHeader_spec reliable
  have hsame : (e.store.outgoingHeader reliable).2.localUnacked = e.store.localUnacked := by rw [hs]
  have hpush : ∀ d, e.keptIds ⊆
      ((e.store.outgoingHeader reliable).2.pushLocalUnacked now d).2.localUnacked.map (·.messageId) := by
    intro d id hid
    unfold ReliableStore.pushLocalUnacked
    split
    · rwa [hsame]
    · rw [List.map_append, hsame]
      exact List.mem_append_left _ hid
  unfold send
  dsimp only
  split
  · exact hpush _
  · split <;> exact fun id hid => by rwa [keptIds, hsame]

theorem retransmit_keeps (e : Endpoint) (deadline : Nat → Nat) (now : Nat) :
    (e.retransmit deadline now).keptIds = e.keptIds := by
  have hkeep := congrArg (List.map Prod.fst) (ReliableStore.retransmitScan_spec deadline now e.store.localUnacked).1
  rw [List.map_map, List.map_map] at hkeep
  unfold retransmit
  split
  · next d s heq =>
    obtain ⟨-, rfl⟩ := Prod.mk.inj heq
    exact hkeep
  · next s _ heq =>
    have hs : (e.store.maybeRetransmit deadline now).2 = s := by rw [heq]
    rw [← hs]
    exact hkeep

theorem sendAcks_keeps (e : Endpoint) (now : Nat) : (e.sendAcks now).keptIds = e.keptIds := by
  unfold sendAcks
  split
  · unfold keptIds
    dsimp only
    rw [(e.store.setOutgoingAcks_spec _).1]
  · rfl

theorem pop_keeps (e : Endpoint) : e.pop.keptIds = e.keptIds := by
  unfold pop ReliableStore.popDelayedMessage
  split <;> rfl

/-- Receiving a message removes only what it acknowledges. -/
theorem receive_keeps (e : Endpoint) (past : Nat → UInt16) (now : Nat) (m : ReliableMeta) {id : UInt16}
    (hid : id ∈ e.keptIds) (hgone : id ∉ (e.receive past now m).keptIds) :
    ∃ i ∈ m.header.ackIndices, m.header.ackAt past i = id := by
  obtain ⟨u, hu, rfl⟩ := List.mem_map.mp hid
  obtain ⟨l, hl, -, hrem⟩ := ReliableStore.processAcks_spec past e.store m.header
  have hin := (ReliableStore.handleIncoming_incoming past now e.store m).frame.1
  rw [hl] at hin
  refine hrem u hu fun hmem => hgone ?_
  show u.messageId ∈ (e.store.handleIncoming past now m).2.localUnacked.map (·.messageId)
  rw [hin]
  exact List.mem_map_of_mem hmem

end Endpoint

/-- Only an acknowledgement from the peer removes a kept id. -/
theorem kept_gone {net net' : Network} (hst : NetStep net net') {p : Side} {id : UInt16}
    (hid : id ∈ (net p).keptIds) (hgone : id ∉ (net' p).keptIds) :
    ∃ d ∈ (net p.other).sent, ∃ m, Carries d m ∧ ∃ past, ∃ i ∈ m.header.ackIndices, m.header.ackAt past i = id := by
  have hother : ∀ {q : Side} {e : Endpoint}, id ∉ (Function.update net q e p).keptIds →
      p = q ∧ id ∉ e.keptIds := by
    intro q e hg
    by_cases hpq : p = q
    · subst hpq
      rw [Function.update_self] at hg
      exact ⟨rfl, hg⟩
    · rw [Function.update_of_ne hpq] at hg
      exact absurd hid hg
  cases hst with
  | send q now reliable data comp =>
    obtain ⟨rfl, hg⟩ := hother hgone
    exact absurd ((net p).send_keeps now reliable data comp hid) hg
  | retransmit q deadline now =>
    obtain ⟨rfl, hg⟩ := hother hgone
    exact absurd hid (by rwa [Endpoint.retransmit_keeps] at hg)
  | sendAcks q now =>
    obtain ⟨rfl, hg⟩ := hother hgone
    exact absurd hid (by rwa [Endpoint.sendAcks_keeps] at hg)
  | @receive q past now d hd m hm =>
    obtain ⟨rfl, hg⟩ := hother hgone
    exact ⟨d, hd, m, hm, past, (net p).receive_keeps past now m hid hg⟩
  | pop q =>
    obtain ⟨rfl, hg⟩ := hother hgone
    exact absurd hid (by rwa [Endpoint.pop_keeps] at hg)

/-- **No premature acknowledgement.** Every acknowledgement on the network names a message that its sender has released,
and a party stops keeping a message only when its peer has released that very message. -/
theorem no_premature_ack (net : Network) (h : ReachableNet net) (hfew : ∀ p, (net p).log.length < 65535) (p : Side) :
    (∀ d ∈ (net p.other).sent, ∀ id ∈ d.header.ackList, ∃ m ∈ (net p.other).released, messageIdOf m = id) ∧
      ∀ net', NetStep net net' → ∀ u ∈ (net p).store.localUnacked,
        u.messageId ∉ (net' p).keptIds →
        ∃ m ∈ (net p.other).released, messageIdOf m = u.messageId ∧ m.data = u.msg.data := by
  have hacks : ∀ d ∈ (net p.other).sent, ∀ id ∈ d.header.ackList,
      ∃ m ∈ (net p.other).released, messageIdOf m = id := by
    intro d hd id hid
    exact List.mem_map.mp (((h.inv hfew p.other).sent d hd).acks id hid)
  refine ⟨hacks, fun net' hst u hu hgone => ?_⟩
  obtain ⟨d, hd, m, hm, past, i, hi, hid⟩ := kept_gone hst (List.mem_map_of_mem hu) hgone
  have hhonest := (h.inv hfew p.other).sent d hd
  have hmem : u.messageId ∈ d.header.ackList := by
    rw [← hid, ← hm.header.acks]
    exact ReliableStore.ackAt_mem (by rw [hm.header.ackCount]; exact hhonest.ackCount) hi
  obtain ⟨m', hm', hid'⟩ := hacks d hd _ hmem
  refine ⟨m', hm', hid', ?_⟩
  obtain ⟨hu1, hu2, hu3⟩ := (h.inv hfew p).kept.honest u hu
  have hlog : Logged (net p).log u.messageId u.msg.data := by
    rw [hu2] at hu3 ⊢
    exact hu1.logged.resolve_left hu3
  have hacc := (h.inv hfew p.other).accepted.released_logged m' hm'
  rw [show p.other.other = p by cases p <;> rfl] at hacc
  have hlog' := hacc.resolve_left (by rw [hid']; exact hu3)
  rw [hid'] at hlog'
  exact Option.some.inj (hlog'.2.symm.trans hlog.2)

/-- What the decoder makes of a sent message without compression. -/
def arrived (d : ReliableData) : ReliableMeta where
  type := msgData
  compressionHeader := none
  reliabilityHeader := some d.header
  fragmentationHeader := none
  data := d.data
  dataOffset := 5
  header := d.header
  has_header := rfl

theorem arrived_carries (d : ReliableData) : Carries d (arrived d) := ⟨⟨rfl, rfl, rfl⟩, rfl⟩

/-- The first reliable message of the left party. -/
def firstMessage : ReliableData := .of [7] none ⟨1, 0, .replicate 8 0⟩

/-- The acknowledgement of the first message. -/
def firstAck : ReliableData := .of [] none ⟨0, 1, #v[1, 0, 0, 0, 0, 0, 0, 0]⟩

/-- The first message is sent, received, and acknowledged after 60 milliseconds. -/
def ackedNet : Network :=
  let net : Network := Function.update (fun _ => {}) .left (Endpoint.send 0 true [7] none {})
  let net := Function.update net .right ((net .right).receive (fun _ => 0) 1 (arrived firstMessage))
  Function.update net .right ((net .right).sendAcks 60000000)

theorem ackedNet_reachable : ReachableNet ackedNet := by
  have h0 : ReachableNet fun _ => {} := Reachable.start rfl
  have h1 := Reachable.next h0 (NetStep.send _ .left 0 true [7] none)
  have h2 := Reachable.next h1
    (NetStep.receive _ .right (fun _ => 0) 1 (d := firstMessage) (by decide) (arrived_carries _))
  exact Reachable.next h2 (NetStep.sendAcks _ .right 60000000)

theorem no_premature_ack_first : ∃ m ∈ (ackedNet .right).released, messageIdOf m = 1 ∧ m.data = [7] :=
  (no_premature_ack ackedNet ackedNet_reachable (by intro p; cases p <;> decide) .left).2 _
    (NetStep.receive _ .left (fun _ => 0) 60000001 (d := firstAck) (by decide) (arrived_carries _))
    ⟨1, firstMessage, 0, 0⟩ (by decide) (by decide)

end Qunet
