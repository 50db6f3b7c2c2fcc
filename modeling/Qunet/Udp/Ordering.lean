import Qunet.Udp.Receiving

/-!
# The order in which reliable messages are returned

* `OrderlyCall` : the next reliable message never arrives while a restored one waits in the delayed queue;
* `InOrder` : what was returned, what waits in the queue and what waits in the delayed queue are `1, 2, 3, …`;
* `InOrder.item`, `InOrder.inner`, `InOrder.loop` : one message, one round and one call keep it;
* **`receive_in_order`** : orderly calls return the reliable messages in the cyclic order of their ids;
* `batched_overtakes` : a message batched behind the one that fills a gap overtakes the restored message.
-/

namespace Qunet
open Lib

namespace UdpTransport

/-! ## Orderly calls -/

/-- The message, once it is reassembled, has the next expected id. -/
def CarriesNext (w : World) (t : UdpTransport) (m : QunetMessageMeta) : Prop :=
  m.type = msgData ∧ ∃ m' h, (defragment w t m).1 = .ok (some m') ∧ m'.reliabilityHeader = some h ∧
    h.messageId = t.relStore.nextRemoteId

/-- When the message with the next expected id arrives, no restored message waits in the delayed queue. -/
def OrderlyItem (w : World) (t : UdpTransport) (item : Except MessageDecodeError QunetMessageMeta) : Prop :=
  ∀ m, item = .ok m → CarriesNext w t m → t.relStore.remoteDelayedQueue = []

section
variable [Dbuf]

/-- One round of the receive loop. -/
def OrderlyInner (w : World) (t : UdpTransport) (sock : SocketInput) : Prop :=
  match receiveQueued w t, sock with
  | none, (w, .datagram bytes) :: _ =>
    EachItem (OrderlyItem w) w none (countDownPacket w t (receiveBuffer bytes)) (datagramItems (receiveBuffer bytes) false)
  | _, _ => True

def OrderlyLoop (w : World) : Nat → UdpTransport → SocketInput → Prop
  | 0, _, _ => True
  | rounds + 1, t, sock =>
    OrderlyInner w t sock ∧
      match receiveMessageInner w t sock with
      | some (.ok none, t, sock) => OrderlyLoop w rounds t sock
      | _ => True

/-- One call of `receiveMessage`. -/
def OrderlyCall (w : World) (t : UdpTransport) (sock : SocketInput) : Prop := OrderlyLoop w (sock.length + 1) t sock

/-- Successive calls of `receiveMessage`, on any input, that all return a message. Between them the transport may send. -/
inductive ReceiveRun (P : World → UdpTransport → SocketInput → Prop) :
    UdpTransport → List Received → UdpTransport → Prop where
  | done (t : UdpTransport) : ReceiveRun P t [] t
  | call {t t' t'' : UdpTransport} {r : Received} {rs : List Received} (w : World) (sock : SocketInput)
      {sock' : SocketInput} (h : receiveMessage w t sock = some (.ok r, t', sock')) (hP : P w t sock)
      (rest : ReceiveRun P t' rs t'') : ReceiveRun P t (r :: rs) t''
  | other {t t' t'' : UdpTransport} {rs : List Received} (hk : KeepsIncoming t t') (rest : ReceiveRun P t' rs t'') :
      ReceiveRun P t rs t''

end

/-! ## The invariant -/

/-- `out` and the delayed queue are the ids `1, …, n`, and the next one is expected. -/
structure InOrder (out : List UInt16) (t : UdpTransport) : Prop where
  waiting : t.relStore.Waiting
  ids : ∃ n, out ++ t.relStore.remoteDelayedQueue.map messageIdOf = ReliableStore.idsFrom 1 n ∧
    t.relStore.nextRemoteId = succId^[n] 1

/-- An incoming message on a waiting store: nothing is accepted, or the next message and what it restores. -/
theorem incoming_delayed {now : Nat} {s t : ReliableStore} {m : ReliableMeta} {r : Except TransportError Bool}
    (h : s.Waiting) (hi : ReliableStore.Incoming now s m r t) :
    (acceptedOf m r = [] ∧ t.remoteDelayedQueue = s.remoteDelayedQueue ∧ t.nextRemoteId = s.nextRemoteId) ∨
      (acceptedOf m r = [m] ∧ messageIdOf m = s.nextRemoteId ∧ ∃ ms, t.remoteDelayedQueue = s.remoteDelayedQueue ++ ms ∧
        ms.map messageIdOf = ReliableStore.idsFrom (succId s.nextRemoteId) ms.length ∧
        t.nextRemoteId = succId^[ms.length] (succId s.nextRemoteId)) := by
  cases hi with
  | unreliable h0 => exact .inl ⟨if_pos h0, rfl, rfl⟩
  | duplicateQueued => exact .inl ⟨rfl, rfl, rfl⟩
  | duplicate _ _ _ hr =>
    obtain ⟨-, rfl⟩ := hr.eq_of_settled h.settled
    exact .inl ⟨rfl, rfl, rfl⟩
  | full => exact .inl ⟨rfl, rfl, rfl⟩
  | stored => exact .inl ⟨rfl, rfl, rfl⟩
  | outOfOrder => exact .inl ⟨rfl, rfl, rfl⟩
  | inOrder h0 hn hr => exact .inr ⟨if_neg h0, hn, _, hr.delayed, hr.ids, hr.next⟩

theorem InOrder.congr {out : List UInt16} {t t' : UdpTransport} (h : InOrder out t) (hs : t'.relStore = t.relStore) :
    InOrder out t' := by
  refine ⟨?_, ?_⟩
  · rw [hs]
    exact h.waiting
  · rw [hs]
    exact h.ids

theorem InOrder.keepsIncoming {out : List UInt16} {t t' : UdpTransport} (h : InOrder out t) (hk : KeepsIncoming t t') :
    InOrder out t' := by
  refine ⟨h.waiting.congr hk.outOfOrder hk.next, ?_⟩
  rw [hk.delayed, hk.next]
  exact h.ids

/-- The store's part of one message. -/
theorem InOrder.incoming {out : List UInt16} {t t' : UdpTransport} (h : InOrder out t) (w : World) (rm : ReliableMeta)
    (hs : t'.relStore = (t.relStore.handleIncoming w.past w.now rm).2)
    (ho : acceptedOf rm (t.relStore.handleIncoming w.past w.now rm).1 ≠ [] → t.relStore.remoteDelayedQueue = []) :
    InOrder (out ++ (acceptedOf rm (t.relStore.handleIncoming w.past w.now rm).1).map messageIdOf) t' := by
  obtain ⟨n, hids, hnext⟩ := h.ids
  obtain ⟨unacked, hi⟩ := ReliableStore.handleIncoming_acked w.past w.now t.relStore rm
  have hwait : ({ t.relStore with localUnacked := unacked } : ReliableStore).Waiting := h.waiting.congr rfl rfl
  refine ⟨by rw [hs]; exact hwait.incoming hi, ?_⟩
  rw [hs]
  rcases incoming_delayed hwait hi with ⟨hacc, hq, hn⟩ | ⟨hacc, hid, ms, hq, hms, hn⟩
  · refine ⟨n, ?_, hn.trans hnext⟩
    rw [hacc, hq, List.map_nil, List.append_nil]
    exact hids
  · dsimp only at hq hn hid hms
    have hempty : t.relStore.remoteDelayedQueue = [] := ho (by rw [hacc]; exact List.cons_ne_nil _ _)
    rw [hempty, List.map_nil, List.append_nil] at hids
    refine ⟨n + (1 + ms.length), ?_, ?_⟩
    · rw [hacc, hq, hempty, List.nil_append, hms, hids, ReliableStore.idsFrom_add, List.append_assoc, ← hnext,
        List.map_singleton, hid, Nat.add_comm 1, ReliableStore.idsFrom]
      rfl
    · rw [hn, Nat.add_comm n, Nat.add_comm 1, Function.iterate_add_apply, ← hnext, Function.iterate_succ_apply]

/-! ## One message -/

/-- The reliable store takes part in `processOne` through one call of `handleIncoming` at most. -/
def StoreAfter (w : World) (t t' : UdpTransport) (acc : List ReliableMeta) : Prop :=
  (acc = [] ∧ t'.relStore = t.relStore) ∨
    ∃ rm, acc = acceptedOf rm (t.relStore.handleIncoming w.past w.now rm).1 ∧
      t'.relStore = (t.relStore.handleIncoming w.past w.now rm).2

theorem acceptReliable_store {w : World} {t t₁ : UdpTransport} {m : QunetMessageMeta} {r : Except TransportError Bool}
    (h : acceptReliable w t m = (r, t₁)) : StoreAfter w t t₁ (acceptedBy w t m) := by
  cases hof : HeaderMeta.of? QunetMessageMeta.reliabilityHeader m with
  | none =>
    rw [acceptReliable_none hof] at h
    obtain ⟨-, rfl⟩ := Prod.mk.inj h
    exact .inl ⟨acceptedBy_none hof, rfl⟩
  | some rm =>
    rw [acceptReliable_some hof] at h
    obtain ⟨-, rfl⟩ := Prod.mk.inj h
    exact .inr ⟨rm, acceptedBy_some hof, rfl⟩

theorem defragment_store {w : World} {t t₁ t' : UdpTransport} {m : QunetMessageMeta} {acc : List ReliableMeta}
    {f : Except TransportError (Option QunetMessageMeta)} (h : defragment w t m = (f, t₁))
    (h' : StoreAfter w t₁ t' acc) : StoreAfter w t t' acc := by
  obtain ⟨-, -, hs⟩ := defragment_frame h
  unfold StoreAfter at h' ⊢
  rw [hs] at h'
  exact h'

theorem DataStep.store {w : World} {t t' : UdpTransport} {m : QunetMessageMeta}
    {r : Except TransportError (Option Received)} (h : DataStep w t m r t') (hm : m.type = msgData) :
    StoreAfter w t t' (acceptedWhile w t m) := by
  cases h with
  | fragmentError h =>
    rw [acceptedWhile_nil h (fun m' => nofun)]
    exact .inl ⟨rfl, (defragment_frame h).2.2⟩
  | incomplete h =>
    rw [acceptedWhile_nil h (fun m' => nofun)]
    exact .inl ⟨rfl, (defragment_frame h).2.2⟩
  | refused h hr =>
    rw [acceptedWhile_eq hm h]
    exact defragment_store h (acceptReliable_store hr)
  | dropped h hr =>
    rw [acceptedWhile_eq hm h]
    exact defragment_store h (acceptReliable_store hr)
  | undecodable h hr =>
    have hstore := acceptReliable_store hr
    rw [acceptedWhile_eq hm h]
    exact defragment_store h hstore
  | delivered h hr =>
    have hstore := acceptReliable_store hr
    rw [acceptedWhile_eq hm h]
    exact defragment_store h hstore

section
variable [Dbuf]

theorem processOne_store (w : World) (t : UdpTransport) (m : QunetMessageMeta) :
    StoreAfter w t (processOne w t m).2 (acceptedWhile w t m) := by
  unfold processOne
  by_cases hm : m.type = msgData
  · rw [if_neg (not_not.mpr hm)]
    exact (processData_step w t m).store hm
  · rw [if_pos hm]
    refine .inl ⟨?_, ?_⟩
    · unfold acceptedWhile
      rw [if_pos hm]
    · unfold processControl
      dsimp only
      cases decodeWithMeta m with
      | error e => rfl
      | ok msg => cases msg <;> rfl

theorem receiveItem_store {w : World} {toReturn toReturn' : Option Received} {t t' : UdpTransport}
    {item : Except MessageDecodeError QunetMessageMeta}
    (h : receiveItem w toReturn t item = (.ok toReturn', t')) : StoreAfter w t t' (acceptedIn w t item) := by
  have hstep := receiveItem_step w toReturn t item
  rw [h] at hstep
  dsimp only at hstep
  cases hstep with
  | padding hpad =>
    rw [acceptedIn_padding hpad]
    exact .inl ⟨rfl, rfl⟩
  | @silent m _ hpad hp =>
    have hstore := processOne_store w t m
    rw [hp] at hstore
    rw [acceptedIn_message hpad]
    exact hstore
  | @handed m _ _ hpad hp =>
    have hstore := processOne_store w t m
    rw [hp] at hstore
    rw [acceptedIn_message hpad]
    cases toReturn <;> exact hstore

omit [Dbuf] in
/-- Only the next expected message is accepted. -/
theorem messageId_of_accepted {past : Nat → UInt16} {now : Nat} {s : ReliableStore} {m : ReliableMeta}
    (h : acceptedOf m (s.handleIncoming past now m).1 ≠ []) : messageIdOf m = s.nextRemoteId := by
  obtain ⟨unacked, hi⟩ := ReliableStore.handleIncoming_acked past now s m
  revert h hi
  generalize s.handleIncoming past now m = r
  obtain ⟨r, t⟩ := r
  intro h hi
  cases hi with
  | unreliable h0 => exact absurd (if_pos h0) h
  | inOrder _ hn => exact hn
  | _ => exact absurd rfl h

omit [Dbuf] in
theorem carriesNext_of_accepted {w : World} {t : UdpTransport} {item : Except MessageDecodeError QunetMessageMeta}
    (h : acceptedIn w t item ≠ []) : ∃ m, item = .ok m ∧ CarriesNext w t m := by
  rcases item with e | m
  · exact absurd rfl h
  refine ⟨m, rfl, ?_⟩
  unfold acceptedIn acceptedWhile at h
  dsimp only at h
  split at h
  · exact absurd rfl h
  split at h
  · exact absurd rfl h
  next hdata =>
  rcases hd : defragment w t m with ⟨(e | (_ | m')), t₁⟩
  · rw [hd] at h
    exact absurd rfl h
  · rw [hd] at h
    exact absurd rfl h
  · rw [hd] at h
    obtain ⟨-, -, hs⟩ := defragment_frame hd
    cases hof : HeaderMeta.of? QunetMessageMeta.reliabilityHeader m' with
    | none => exact absurd (acceptedBy_none hof) h
    | some rm =>
      dsimp only at h
      rw [acceptedBy_some hof, hs] at h
      have hrel : m'.reliabilityHeader = some rm.header := by
        rw [← HeaderMeta.of?_eq_some.mp hof]
        exact rm.has_header
      exact ⟨not_not.mp hdata, m', rm.header, by rw [hd], hrel, messageId_of_accepted h⟩

/-- One round of the loop over a datagram. -/
theorem InOrder.item {out : List UInt16} {w : World} {toReturn toReturn' : Option Received} {t t' : UdpTransport}
    {item : Except MessageDecodeError QunetMessageMeta} (h : InOrder (out ++ reliableIds (queue toReturn t)) t)
    (hq : QueueOk toReturn t) (ho : OrderlyItem w t item) (hi : receiveItem w toReturn t item = (.ok toReturn', t')) :
    InOrder (out ++ reliableIds (queue toReturn' t')) t' ∧ QueueOk toReturn' t' := by
  obtain ⟨rs, hframe⟩ := receiveItem_ok hq hi
  refine ⟨?_, hframe.ok⟩
  have hout : out ++ reliableIds (queue toReturn' t') =
      out ++ reliableIds (queue toReturn t) ++ (acceptedIn w t item).map messageIdOf := by
    rw [hframe.queue, hframe.ids, reliableIds, reliableIds, reliableIds, List.filterMap_append, List.append_assoc]
  rw [hout]
  rcases receiveItem_store hi with ⟨hacc, hs⟩ | ⟨rm, hacc, hs⟩
  · rw [hacc, List.map_nil, List.append_nil]
    exact h.congr hs
  · rw [hacc]
    refine h.incoming w rm hs fun hne => ?_
    rw [← hacc] at hne
    obtain ⟨m, hm, hnext⟩ := carriesNext_of_accepted hne
    exact ho m hm hnext

theorem InOrder.batch {out : List UInt16} {w : World} {toReturn toReturn' : Option Received} {t t' : UdpTransport}
    {items : List (Except MessageDecodeError QunetMessageMeta)}
    (h : InOrder (out ++ reliableIds (queue toReturn t)) t) (hq : QueueOk toReturn t)
    (ho : EachItem (OrderlyItem w) w toReturn t items) (hi : receiveBatch w toReturn t items = (.ok toReturn', t')) :
    InOrder (out ++ reliableIds (queue toReturn' t')) t' := by
  induction items generalizing toReturn t with
  | nil =>
    obtain ⟨hr, rfl⟩ := Prod.mk.inj hi
    cases hr
    exact h
  | cons item items ih =>
    unfold receiveBatch at hi
    unfold EachItem at ho
    obtain ⟨hitem, hrest⟩ := ho
    rcases hr : receiveItem w toReturn t item with ⟨(e | o), t₁⟩
    · rw [hr] at hi
      cases hi
    · rw [hr] at hi hrest
      obtain ⟨h₁, hq₁⟩ := h.item hq hitem hr
      exact ih h₁ hq₁ hrest hi

/-! ## One call -/

omit [Dbuf] in
theorem mem_idsFrom_ne_zero {id i : UInt16} {n : Nat} (h : id ≠ 0) (hi : i ∈ ReliableStore.idsFrom id n) : i ≠ 0 := by
  induction n generalizing id with
  | zero => cases hi
  | succ n ih =>
    rcases List.mem_cons.mp hi with rfl | hi
    · exact h
    · exact ih (ReliableStore.succId_ne_zero id) hi

omit [Dbuf] in
/-- A restored message leaves the delayed queue for the caller. -/
theorem InOrder.delayed {out : List UInt16} {w : World} {t t' : UdpTransport} {m : ReliableMeta} {o : Option Received}
    {rest : List ReliableMeta} (h : InOrder out t) (hd : t.relStore.remoteDelayedQueue = m :: rest)
    (hf : finishData w (t.withDelayed rest) m.toQunetMessageMeta = (.ok o, t')) :
    InOrder (out ++ reliableIds o.toList) t' ∧ t'.pendingMessages = t.pendingMessages := by
  obtain ⟨n, hids, hnext⟩ := h.ids
  rw [hd, List.map_cons] at hids
  have hne : messageIdOf m ≠ 0 :=
    mem_idsFrom_ne_zero (by decide) (hids ▸ List.mem_append_right out List.mem_cons_self)
  cases hdec : decompress w (t.withDelayed rest) m.toQunetMessageMeta with
  | error e =>
    rw [finishData_error hdec] at hf
    cases hf
  | ok data =>
    rw [finishData_ok hdec] at hf
    obtain ⟨ho, rfl⟩ := Prod.mk.inj hf
    cases ho
    refine ⟨⟨?_, n, ?_, hnext⟩, rfl⟩
    · exact h.waiting.congr rfl rfl
    · have hid : reliableIds [(⟨.data { data }, m.toQunetMessageMeta⟩ : Received)] = [messageIdOf m] := by
        simp [reliableIds, reliableId, m.has_header, hne]
      change out ++ reliableIds [_] ++ rest.map messageIdOf = _
      rw [hid, List.append_assoc]
      exact hids

omit [Dbuf] in
/-- What is returned before the socket is read. -/
theorem InOrder.queued {out : List UInt16} {w : World} {t t' : UdpTransport} {o : Option Received}
    (h : InOrder (out ++ reliableIds t.pendingMessages) t) (hr : receiveQueued w t = some (.ok o, t')) :
    InOrder (out ++ reliableIds (queue o t')) t' := by
  rcases receiveQueued_some hr with ⟨first, rest, hp, ho, rfl⟩ | ⟨m, rest, hp, hd, hf⟩
  · cases ho
    rw [hp] at h
    exact h.congr rfl
  · rw [hp, show reliableIds [] = [] from rfl, List.append_nil] at h
    obtain ⟨hin, hpend⟩ := h.delayed hd hf
    rw [queue, hpend, hp, List.append_nil]
    exact hin

/-- One round of the receive loop. -/
theorem InOrder.inner {out : List UInt16} {w : World} {t t' : UdpTransport} {sock sock' : SocketInput}
    {o : Option Received} (h : InOrder (out ++ reliableIds t.pendingMessages) t) (ho : OrderlyInner w t sock)
    (hr : receiveMessageInner w t sock = some (.ok o, t', sock')) :
    InOrder (out ++ reliableIds (queue o t')) t' := by
  rcases receiveMessageInner_ok hr with hq | ⟨w', bytes, hq, rfl, hbatch⟩
  · exact h.queued hq
  · unfold OrderlyInner at ho
    rw [hq] at ho
    have hstart : InOrder (out ++ reliableIds (queue none (countDownPacket w' t (receiveBuffer bytes))))
        (countDownPacket w' t (receiveBuffer bytes)) := by
      have hqueue : queue none (countDownPacket w' t (receiveBuffer bytes)) = t.pendingMessages := rfl
      rw [hqueue]
      exact h.congr rfl
    exact hstart.batch (fun _ => (receiveQueued_none hq).1) ho hbatch

theorem InOrder.loop {out : List UInt16} {w : World} {rounds : Nat} {t t' : UdpTransport} {sock sock' : SocketInput}
    {r : Received} (h : InOrder (out ++ reliableIds t.pendingMessages) t) (ho : OrderlyLoop w rounds t sock)
    (hr : receiveMessageLoop w rounds t sock = some (.ok r, t', sock')) :
    InOrder (out ++ reliableIds [r] ++ reliableIds t'.pendingMessages) t' := by
  induction rounds generalizing t sock with
  | zero => cases hr
  | succ rounds ih =>
    unfold receiveMessageLoop at hr
    unfold OrderlyLoop at ho
    obtain ⟨hinner, hrest⟩ := ho
    rcases hm : receiveMessageInner w t sock with _ | ⟨(e | (_ | r₁)), t₁, sock₁⟩
    · rw [hm] at hr
      cases hr
    · rw [hm] at hr
      cases hr
    · rw [hm] at hr hrest
      exact ih (h.inner hinner hm) hrest hr
    · rw [hm] at hr
      cases hr
      have hin := h.inner hinner hm
      rw [List.append_assoc, reliableIds, reliableIds, ← List.filterMap_append]
      exact hin

/-! ## Runs -/

theorem InOrder.run {out : List UInt16} {t t' : UdpTransport} {rs : List Received}
    (h : InOrder (out ++ reliableIds t.pendingMessages) t) (hrun : ReceiveRun OrderlyCall t rs t') :
    InOrder (out ++ reliableIds rs ++ reliableIds t'.pendingMessages) t' := by
  induction hrun generalizing out with
  | done t =>
    rw [show reliableIds [] = [] from rfl, List.append_nil]
    exact h
  | @call t t₁ t₂ r rs w sock sock' hr hP _ ih =>
    have hids : reliableIds (r :: rs) = reliableIds [r] ++ reliableIds rs := by
      rw [reliableIds, reliableIds, reliableIds, ← List.filterMap_append, List.singleton_append]
    rw [hids, ← List.append_assoc]
    exact ih (h.loop hP hr)
  | other hk _ ih =>
    have hnext := h.keepsIncoming hk
    rw [← hk.pending] at hnext
    exact ih hnext

omit [Dbuf] in
/-- The beginning of a run of ids is one. -/
theorem idsFrom_of_append {id : UInt16} {n : Nat} {l l' : List UInt16} (h : l ++ l' = ReliableStore.idsFrom id n) :
    l = ReliableStore.idsFrom id l.length := by
  have hn : n = l.length + l'.length := by
    rw [← List.length_append, h, ReliableStore.idsFrom_length]
  rw [hn, ReliableStore.idsFrom_add] at h
  exact (List.append_inj h (ReliableStore.idsFrom_length _ _).symm).1

/-- **The order of delivery.** A transport whose store is fresh and whose queue is empty: as long as the next reliable
message never arrives while a restored one waits, the reliable messages returned have the ids `1, 2, 3, …` in cyclic
order. -/
theorem receive_in_order (t t' : UdpTransport) (rs : List Received) (hs : t.relStore = {})
    (hp : t.pendingMessages = []) (hrun : ReceiveRun OrderlyCall t rs t') :
    reliableIds rs = ReliableStore.idsFrom 1 (reliableIds rs).length := by
  have hstart : InOrder ([] ++ reliableIds t.pendingMessages) t := by
    rw [hp]
    refine ⟨?_, 0, ?_, ?_⟩
    · rw [hs]
      exact ReliableStore.ReachableStore.fresh.waiting
    · rw [hs]
      rfl
    · rw [hs]
      rfl
  obtain ⟨n, hids, -⟩ := (hstart.run hrun).ids
  rw [List.nil_append, List.append_assoc] at hids
  exact idsFrom_of_append hids

end

/-- A reliable message without acknowledgements that fills the rest of its datagram. -/
def reliableDatagram (id : UInt8) : Bytes := [0x90, id, 0, 0, 0, id]

/-- Message 2 arrives first and is restored by message 1. -/
theorem receive_in_order_overtaking :
    ∃ t' rs, @ReceiveRun Dbuf.little (@OrderlyCall Dbuf.little) {} rs t' ∧ rs.length = 2 ∧
      reliableIds rs = ReliableStore.idsFrom 1 (reliableIds rs).length := by
  have hdatagrams : @OrderlyCall Dbuf.little idleWorld {}
      [(idleWorld, .datagram (reliableDatagram 2)), (idleWorld, .datagram (reliableDatagram 1))] :=
    ⟨⟨fun _ _ _ => rfl, trivial⟩, ⟨fun _ _ _ => rfl, trivial⟩, trivial⟩
  have hrun := @ReceiveRun.call Dbuf.little _ _ _ _ _ _ idleWorld _ _ rfl hdatagrams
    (@ReceiveRun.call Dbuf.little _ _ _ _ _ _ idleWorld [] _ rfl (by exact ⟨trivial, trivial⟩)
      (@ReceiveRun.done Dbuf.little _ _))
  exact ⟨_, _, hrun, rfl, @receive_in_order Dbuf.little _ _ _ rfl rfl hrun⟩

/-- Message 1, which fills the gap, and behind its boundary message 3. -/
def gapAndNext : Bytes := [0x98, 1, 0, 0, 0, 1, 0, 1] ++ reliableDatagram 3

/-- Message 2 is restored while the datagram is handled, but message 3 is returned before it. -/
theorem batched_overtakes :
    ∃ t' rs, @ReceiveRun Dbuf.little (fun _ _ _ => True) {} rs t' ∧ reliableIds rs = [1, 3, 2] ∧
      reliableIds rs ≠ ReliableStore.idsFrom 1 (reliableIds rs).length := by
  have hdatagrams := @ReceiveRun.call Dbuf.little (fun _ _ _ => True) {} _ _ _ _ idleWorld
    [(idleWorld, .datagram (reliableDatagram 2)), (idleWorld, .datagram gapAndNext)] _ rfl trivial
    (@ReceiveRun.call Dbuf.little _ _ _ _ _ _ idleWorld [] _ rfl trivial
      (@ReceiveRun.call Dbuf.little _ _ _ _ _ _ idleWorld [] _ rfl trivial (@ReceiveRun.done Dbuf.little _ _)))
  exact ⟨_, _, hdatagrams, rfl, by decide⟩

end UdpTransport

end Qunet
