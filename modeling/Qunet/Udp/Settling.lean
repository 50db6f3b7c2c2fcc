import Qunet.Udp.Recovery
import Qunet.Udp.Retransmitting

/-!
# Acknowledgements come back, and the channels settle

* `Endpoint.Answers` : an id that is queued for acknowledgement, or acknowledged in something that was sent;
* **`answered_iff_released`** : a party answers exactly the reliable messages that it released;
* `SilentStep` : a step of the network that sends no new message;
* `receives_silent`, `flush_silent` : receiving what the peer has sent, and emptying the queue of acknowledgements;
* **`settles`** : from every state the network can reach one where everything is released and nothing is kept.
-/

namespace Qunet
open Lib Relation

/-! ## Every released message is answered -/

/-- The id is queued for acknowledgement, or something on the network acknowledges it. -/
def Endpoint.Answers (e : Endpoint) (id : UInt16) : Prop :=
  (∃ q ∈ e.store.remoteUnacked, q.messageId = id) ∨ ∃ d ∈ e.sent, id ∈ d.header.ackList

/-- An answer stays an answer, and what is newly released is answered. -/
structure Endpoint.Answering (e e' : Endpoint) : Prop where
  stays : ∀ id, e.Answers id → e'.Answers id
  released : ∀ m ∈ e'.released, messageIdOf m ≠ 0 → m ∈ e.released ∨ e'.Answers (messageIdOf m)

namespace Endpoint

/-- The front of the queue leaves in a header that is put on the network. -/
theorem Answers.popped {e e' : Endpoint} {d : ReliableData} (hd : e'.sent = e.sent ++ [d])
    (hacks : d.header.ackList = (e.store.remoteUnacked.take 8).map (·.messageId))
    (hqueue : e'.store.remoteUnacked = e.store.remoteUnacked.drop 8) {id : UInt16} (h : e.Answers id) :
    e'.Answers id := by
  rcases h with ⟨q, hq, rfl⟩ | ⟨d', hd', hid⟩
  · rw [← List.take_append_drop 8 e.store.remoteUnacked] at hq
    rcases List.mem_append.mp hq with hq | hq
    · refine .inr ⟨d, by rw [hd]; exact List.mem_append_right _ (List.mem_singleton_self d), ?_⟩
      rw [hacks]
      exact List.mem_map_of_mem hq
    · exact .inl ⟨q, by rwa [hqueue], rfl⟩
  · exact .inr ⟨d', by rw [hd]; exact List.mem_append_left _ hd', hid⟩

theorem Answers.mono {e f : Endpoint} {id : UInt16} (h : e.Answers id)
    (hqueue : ∀ q ∈ e.store.remoteUnacked, q ∈ f.store.remoteUnacked) (hsent : e.sent ⊆ f.sent) : f.Answers id := by
  rcases h with ⟨q, hq, hid⟩ | ⟨d, hd, hid⟩
  · exact .inl ⟨q, hqueue q hq, hid⟩
  · exact .inr ⟨d, hsent hd, hid⟩

end Endpoint

/-- The acknowledgements in the header of an outgoing message. -/
theorem ReliableStore.outgoingHeader_acks (s : ReliableStore) (reliable : Bool) :
    (s.outgoingHeader reliable).1.ackCount = min 8 s.remoteUnacked.length ∧
      (s.outgoingHeader reliable).1.ackList = (s.remoteUnacked.take 8).map (·.messageId) := by
  obtain ⟨-, -, hcount, hacks⟩ := s.setOutgoingAcks_spec ⟨0, 0, .replicate 8 0⟩
  cases reliable with
  | false => exact ⟨hcount, hacks⟩
  | true => exact ⟨hcount, hacks⟩

namespace Endpoint

theorem send_answering (e : Endpoint) (now : Nat) (reliable : Bool) (data : Bytes) (comp : Option CompressionHeader) :
    e.Answering (e.send now reliable data comp) := by
  obtain ⟨hcount, hacks⟩ := e.store.outgoingHeader_acks reliable
  obtain ⟨-, -, -, hs⟩ := e.store.outgoingHeader_spec reliable
  obtain ⟨-, hu, -⟩ := EndpointInv.pushLocalUnacked_incoming (e.store.outgoingHeader reliable).2 now
    (.of data comp (e.store.outgoingHeader reliable).1)
  have hqueue : (e.store.outgoingHeader reliable).2.remoteUnacked = e.store.remoteUnacked.drop 8 := by rw [hs]
  refine ⟨fun id hid => ?_, fun m hm _ => .inl (by rwa [(e.send_leaves now reliable data comp).released] at hm)⟩
  unfold send
  dsimp only
  split
  · exact hid.popped rfl hacks (by dsimp only; rw [hu, hqueue])
  · split
    · exact hid.popped rfl hacks hqueue
    · -- there is nothing to acknowledge
      next hnone =>
      have hempty : e.store.remoteUnacked = [] := List.length_eq_zero_iff.mp (by omega)
      refine hid.mono (fun q hq => ?_) fun d hd => hd
      rw [hempty] at hq
      cases hq

theorem retransmit_answering (e : Endpoint) (deadline : Nat → Nat) (now : Nat) :
    e.Answering (e.retransmit deadline now) := by
  refine ⟨fun id hid => hid.mono ?_ ?_, fun m hm _ => .inl ?_⟩
  · intro q hq
    have hstore : (e.retransmit deadline now).store = (e.store.maybeRetransmit deadline now).2 := by
      unfold retransmit
      split <;> simp_all
    rw [hstore]
    exact hq
  · unfold retransmit
    split
    · exact fun d hd => List.mem_append_left _ hd
    · exact List.Subset.refl _
  · rwa [(e.retransmit_leaves deadline now).released] at hm

theorem sendAcks_answering (e : Endpoint) (now : Nat) : e.Answering (e.sendAcks now) := by
  obtain ⟨hs, -, -, hacks⟩ := e.store.setOutgoingAcks_spec ⟨0, 0, .replicate 8 0⟩
  refine ⟨fun id hid => ?_, fun m hm _ => .inl (by rwa [(e.sendAcks_leaves now).released] at hm)⟩
  unfold sendAcks
  split
  · exact hid.popped rfl hacks (by dsimp only; rw [hs])
  · exact hid

end Endpoint

/-- What a call of `handleIncoming` releases is queued for acknowledgement. -/
theorem ReliableStore.Incoming.queues {now : Nat} {s t : ReliableStore} {m : ReliableMeta}
    {r : Except TransportError Bool} (hi : Incoming now s m r t) :
    ∀ m' ∈ Endpoint.newlyReleased s m r t, messageIdOf m' ≠ 0 → ∃ q ∈ t.remoteUnacked, q.messageId = messageIdOf m' := by
  have hrestored : ∀ {s' : ReliableStore} {ms : List ReliableMeta}, Restores now s' ms t →
      ∀ m' ∈ ms, ∃ q ∈ t.remoteUnacked, q.messageId = messageIdOf m' := by
    intro s' ms hr m' hm'
    refine ⟨⟨messageIdOf m', now⟩, ?_, rfl⟩
    rw [hr.unacked]
    exact List.mem_append_right _ (List.mem_map_of_mem (f := fun m => (⟨messageIdOf m, now⟩ : UnackedRemoteMessage)) hm')
  unfold Endpoint.newlyReleased
  cases hi with
  | unreliable h0 =>
    intro m' hm' hne
    rw [List.drop_length, List.append_nil, List.mem_singleton] at hm'
    rw [hm'] at hne
    exact absurd h0 hne
  | duplicateQueued _ _ _ => simp
  | @duplicate _ _ _ ms _ hr =>
    intro m' hm' _
    rw [List.nil_append, hr.delayed, List.drop_left] at hm'
    exact hrestored hr m' hm'
  | full _ _ _ _ => simp
  | stored _ _ _ _ _ => simp
  | outOfOrder _ _ _ _ _ => simp
  | @inOrder h0 hn ms _ hr =>
    intro m' hm' _
    rw [hr.delayed, show (s.accept now).remoteDelayedQueue = s.remoteDelayedQueue from rfl, List.drop_left] at hm'
    rcases List.mem_append.mp hm' with hm' | hm'
    · rw [List.mem_singleton.mp hm']
      exact ((Incoming.inOrder h0 hn hr).accepted h0 hn).2
    · exact hrestored hr m' hm'

namespace Endpoint

theorem receive_answering (e : Endpoint) (past : Nat → UInt16) (now : Nat) (m : ReliableMeta) :
    e.Answering (e.receive past now m) := by
  have hin := ReliableStore.handleIncoming_incoming past now e.store m
  obtain ⟨l, hl, -, -⟩ := ReliableStore.processAcks_spec past e.store m.header
  have hgrows := hin.grows
  have hqueued := hin.queues
  have hnew : newlyReleased (e.store.processAcks past m.header) m =
      newlyReleased e.store m := by rw [hl]; rfl
  rw [hnew] at hqueued
  rw [hl] at hgrows
  refine ⟨fun id hid => hid.mono hgrows fun d hd => hd, fun m' hm' h0 => ?_⟩
  rcases List.mem_append.mp hm' with hm' | hm'
  · exact .inl hm'
  · exact .inr (.inl (hqueued m' hm' h0))

theorem pop_answering (e : Endpoint) : e.Answering e.pop := by
  unfold pop ReliableStore.popDelayedMessage
  split <;> exact ⟨fun _ hid => hid, fun _ hm _ => .inl hm⟩

end Endpoint

theorem NetStep.answering {net net' : Network} (hst : NetStep net net') (p : Side) :
    (net p).Answering (net' p) :=
  hst.on_sides (fun _ => ⟨fun _ hid => hid, fun _ hm _ => .inl hm⟩) Endpoint.send_answering
    Endpoint.retransmit_answering Endpoint.sendAcks_answering Endpoint.receive_answering Endpoint.pop_answering p

theorem ReachableNet.answers {net : Network} (h : ReachableNet net) (p : Side) :
    ∀ m ∈ (net p).released, messageIdOf m ≠ 0 → (net p).Answers (messageIdOf m) := by
  have hinit : ∀ net : Network, (net = fun _ => {}) →
      ∀ m ∈ (net p).released, messageIdOf m ≠ 0 → (net p).Answers (messageIdOf m) := by
    rintro net rfl m hm
    cases hm
  have hstep : ∀ net net' : Network,
      (∀ m ∈ (net p).released, messageIdOf m ≠ 0 → (net p).Answers (messageIdOf m)) → NetStep net net' →
      ∀ m ∈ (net' p).released, messageIdOf m ≠ 0 → (net' p).Answers (messageIdOf m) := by
    intro net net' hold hst m hm h0
    have hans := hst.answering p
    rcases hans.released m hm h0 with hm | hnew
    · exact hans.stays _ (hold m hm h0)
    · exact hnew
  exact Reachable.invariant hinit hstep h

/-- A message that is kept was put on the network. -/
def Endpoint.KeepsSent (e : Endpoint) : Prop := ∀ u ∈ e.store.localUnacked, u.msg ∈ e.sent

namespace Endpoint.KeepsSent
variable {e : Endpoint}

theorem send (h : e.KeepsSent) (now : Nat) (reliable : Bool) (data : Bytes) (comp : Option CompressionHeader) :
    (e.send now reliable data comp).KeepsSent := by
  obtain ⟨-, -, -, hs⟩ := e.store.outgoingHeader_spec reliable
  have hsame : (e.store.outgoingHeader reliable).2.localUnacked = e.store.localUnacked := by rw [hs]
  unfold Endpoint.send
  dsimp only
  split
  · intro u hu
    unfold ReliableStore.pushLocalUnacked at hu
    split at hu
    · dsimp only at hu
      rw [hsame] at hu
      exact List.mem_append_left _ (h u hu)
    · dsimp only at hu
      rw [hsame] at hu
      rcases List.mem_append.mp hu with hu | hu
      · exact List.mem_append_left _ (h u hu)
      · rw [List.mem_singleton.mp hu]
        exact List.mem_append_right _ (List.mem_singleton_self _)
  · split
    · intro u hu
      dsimp only at hu
      rw [hsame] at hu
      exact List.mem_append_left _ (h u hu)
    · intro u hu
      dsimp only at hu
      rw [hsame] at hu
      exact h u hu

theorem retransmit (h : e.KeepsSent) (deadline : Nat → Nat) (now : Nat) : (e.retransmit deadline now).KeepsSent := by
  obtain ⟨hkeep, -⟩ := ReliableStore.retransmitScan_spec deadline now e.store.localUnacked
  have hstore : (e.retransmit deadline now).store = (e.store.maybeRetransmit deadline now).2 := by
    unfold Endpoint.retransmit
    split <;> simp_all
  have hsent : e.sent ⊆ (e.retransmit deadline now).sent := by
    unfold Endpoint.retransmit
    split
    · exact List.subset_append_left _ _
    · exact List.Subset.refl _
  intro u hu
  rw [hstore] at hu
  have hmem := List.mem_map_of_mem (f := fun u => (u.messageId, u.msg)) hu
  change _ ∈ (ReliableStore.retransmitScan deadline now e.store.localUnacked).2.map _ at hmem
  rw [hkeep] at hmem
  obtain ⟨v, hv, heq⟩ := List.mem_map.mp hmem
  rw [← (Prod.mk.inj heq).2]
  exact hsent (h v hv)

theorem sendAcks (h : e.KeepsSent) (now : Nat) : (e.sendAcks now).KeepsSent := by
  unfold Endpoint.sendAcks
  split
  · intro u hu
    dsimp only at hu
    rw [(e.store.setOutgoingAcks_spec _).1] at hu
    exact List.mem_append_left _ (h u hu)
  · exact h

theorem receive (h : e.KeepsSent) (past : Nat → UInt16) (now : Nat) (m : ReliableMeta) :
    (e.receive past now m).KeepsSent := by
  obtain ⟨l, hl, hsub, -⟩ := ReliableStore.processAcks_spec past e.store m.header
  have hin := (ReliableStore.handleIncoming_incoming past now e.store m).frame.1
  rw [hl] at hin
  intro u hu
  change u ∈ (e.store.handleIncoming past now m).2.localUnacked at hu
  rw [hin] at hu
  exact h u (hsub.subset hu)

theorem pop (h : e.KeepsSent) : e.pop.KeepsSent := by
  unfold Endpoint.pop ReliableStore.popDelayedMessage
  split <;> exact h

end Endpoint.KeepsSent

theorem ReachableNet.keepsSent {net : Network} (h : ReachableNet net) (p : Side) : (net p).KeepsSent := by
  have hinit : ∀ net : Network, (net = fun _ => {}) → (net p).KeepsSent := by
    rintro net rfl u hu
    cases hu
  have hstep : ∀ net net' : Network, (net p).KeepsSent → NetStep net net' → (net' p).KeepsSent := by
    intro net net' hold hst
    exact hst.on_sides (R := fun e e' => e.KeepsSent → e'.KeepsSent) (fun _ h => h)
      (fun _ now reliable data comp h => h.send now reliable data comp) (fun _ deadline now h => h.retransmit deadline now)
      (fun _ now h => h.sendAcks now) (fun _ past now m h => h.receive past now m) (fun _ h => h.pop) p hold
  exact Reachable.invariant hinit hstep h

/-- What a party acknowledges it has released. -/
structure Endpoint.Truthful (e : Endpoint) : Prop where
  queue : Acknowledges e.released e.store
  acks : ∀ d ∈ e.sent, ∀ id ∈ d.header.ackList, id ∈ e.released.map messageIdOf

namespace Endpoint.Truthful
variable {e : Endpoint}

/-- What the store acknowledges may be put on the network. -/
theorem put (h : e.Truthful) {e' : Endpoint} {d : ReliableData} (hreleased : e'.released = e.released)
    (hd : ∀ id ∈ d.header.ackList, id ∈ e.released.map messageIdOf) (hsent : e'.sent = e.sent ++ [d])
    (hnext : e'.store.nextRemoteId = e.store.nextRemoteId)
    (hqueue : ∀ q ∈ e'.store.remoteUnacked, q ∈ e.store.remoteUnacked) : e'.Truthful := by
  refine ⟨?_, fun d' hd' => ?_⟩
  · rw [hreleased]
    exact h.queue.congr hnext hqueue
  · rw [hreleased]
    rw [hsent] at hd'
    rcases List.mem_append.mp hd' with hd' | hd'
    · exact h.acks d' hd'
    · rwa [List.mem_singleton.mp hd']

/-- The front of the queue. -/
theorem front (h : e.Truthful) : ∀ id ∈ (e.store.remoteUnacked.take 8).map (·.messageId),
    id ∈ e.released.map messageIdOf := by
  intro id hid
  obtain ⟨q, hq, rfl⟩ := List.mem_map.mp hid
  exact h.queue.unacked q (List.mem_of_mem_take hq)

theorem send (h : e.Truthful) (now : Nat) (reliable : Bool) (data : Bytes) (comp : Option CompressionHeader) :
    (e.send now reliable data comp).Truthful := by
  obtain ⟨-, hacks⟩ := e.store.outgoingHeader_acks reliable
  obtain ⟨-, -, -, hs⟩ := e.store.outgoingHeader_spec reliable
  obtain ⟨hn, hu, -⟩ := EndpointInv.pushLocalUnacked_incoming (e.store.outgoingHeader reliable).2 now
    (.of data comp (e.store.outgoingHeader reliable).1)
  have hnext : (e.store.outgoingHeader reliable).2.nextRemoteId = e.store.nextRemoteId := by rw [hs]
  have hqueue : ∀ q ∈ (e.store.outgoingHeader reliable).2.remoteUnacked, q ∈ e.store.remoteUnacked := by
    rw [hs]
    exact fun q hq => List.mem_of_mem_drop hq
  have hfront := h.front
  rw [← hacks] at hfront
  unfold Endpoint.send
  dsimp only
  split
  · exact h.put rfl hfront rfl (hn.trans hnext) (by dsimp only; rw [hu]; exact hqueue)
  · split
    · exact h.put rfl hfront rfl hnext hqueue
    · exact ⟨h.queue.congr hnext hqueue, h.acks⟩

theorem retransmit (h : e.Truthful) (hkept : e.KeepsSent) (deadline : Nat → Nat) (now : Nat) :
    (e.retransmit deadline now).Truthful := by
  obtain ⟨-, hmsg⟩ := ReliableStore.retransmitScan_spec deadline now e.store.localUnacked
  unfold Endpoint.retransmit
  split
  · next d s heq =>
    obtain ⟨hres, rfl⟩ := Prod.mk.inj heq
    obtain ⟨u, hu, rfl⟩ := hmsg d hres
    exact h.put rfl (h.acks _ (hkept u hu)) rfl rfl fun _ hq => hq
  · next s _ heq =>
    have hs : (e.store.maybeRetransmit deadline now).2 = s := by rw [heq]
    rw [← hs]
    exact ⟨h.queue.congr rfl fun _ hq => hq, h.acks⟩

theorem sendAcks (h : e.Truthful) (now : Nat) : (e.sendAcks now).Truthful := by
  obtain ⟨hs, -, -, hacks⟩ := e.store.setOutgoingAcks_spec ⟨0, 0, .replicate 8 0⟩
  have hfront := h.front
  rw [← hacks] at hfront
  unfold Endpoint.sendAcks
  split
  · refine h.put rfl hfront rfl ?_ fun q hq => ?_
    · dsimp only
      rw [hs]
    · dsimp only at hq
      rw [hs] at hq
      exact List.mem_of_mem_drop hq
  · exact h

theorem receive (h : e.Truthful) (past : Nat → UInt16) (now : Nat) (m : ReliableMeta) :
    (e.receive past now m).Truthful := by
  have hin := ReliableStore.handleIncoming_incoming past now e.store m
  obtain ⟨l, hl, -, -⟩ := ReliableStore.processAcks_spec past e.store m.header
  have hacked : Acknowledges e.released (e.store.processAcks past m.header) := by
    rw [hl]
    exact h.queue.congr rfl fun _ hq => hq
  have hqueue : (e.store.processAcks past m.header).remoteDelayedQueue = e.store.remoteDelayedQueue := by rw [hl]
  have hnew := hacked.incoming hin
  unfold Endpoint.newlyReleased at hnew
  rw [hqueue] at hnew
  refine ⟨hnew, fun d hd id hid => ?_⟩
  show id ∈ (e.released ++ _).map messageIdOf
  rw [List.map_append]
  exact List.mem_append_left _ (h.acks d hd id hid)

theorem pop (h : e.Truthful) : e.pop.Truthful := by
  unfold Endpoint.pop ReliableStore.popDelayedMessage
  split
  · exact h
  · exact ⟨h.queue.congr rfl fun _ hq => hq, h.acks⟩

end Endpoint.Truthful

theorem ReachableNet.truthful {net : Network} (h : ReachableNet net) (p : Side) : (net p).Truthful := by
  have hinit : ∀ net : Network, (net = fun _ => {}) → ReachableNet net ∧ (net p).Truthful := by
    rintro net rfl
    exact ⟨Reachable.start rfl, .fresh, by simp⟩
  have hstep : ∀ net net' : Network, ReachableNet net ∧ (net p).Truthful → NetStep net net' →
      ReachableNet net' ∧ (net' p).Truthful := by
    rintro net net' ⟨hreach, hold⟩ hst
    refine ⟨hreach.next hst, ?_⟩
    exact hst.on_sides (R := fun e e' => e.KeepsSent → e.Truthful → e'.Truthful) (fun _ _ h => h)
      (fun _ now reliable data comp _ h => h.send now reliable data comp)
      (fun _ deadline now hkept h => h.retransmit hkept deadline now) (fun _ now _ h => h.sendAcks now)
      (fun _ past now m _ h => h.receive past now m) (fun _ _ h => h.pop) p (hreach.keepsSent p) hold
  exact (Reachable.invariant hinit hstep h).2

/-- **Acknowledgements are exact.** In every state a reliable id is queued for acknowledgement, or acknowledged in
something on the network, exactly if the party has released a message with this id. -/
theorem answered_iff_released (net : Network) (h : ReachableNet net) (p : Side) (id : UInt16) (h0 : id ≠ 0) :
    (net p).Answers id ↔ ∃ m ∈ (net p).released, messageIdOf m = id := by
  have htruthful := h.truthful p
  constructor
  · rintro (⟨q, hq, rfl⟩ | ⟨d, hd, hid⟩)
    · exact List.mem_map.mp (htruthful.queue.unacked q hq)
    · exact List.mem_map.mp (htruthful.acks d hd id hid)
  · rintro ⟨m, hm, rfl⟩
    exact h.answers p m hm h0

theorem answered_iff_released_acked : (ackedNet .right).Answers 1 ↔
    ∃ m ∈ (ackedNet .right).released, messageIdOf m = 1 :=
  answered_iff_released ackedNet ackedNet_reachable .right 1 (by decide)

/-! ## Steps that send no new message -/

def SilentStep (net net' : Network) : Prop := NetStep net net' ∧ ∀ p, (net' p).log = (net p).log

/-- What a run of silent steps leaves, and what only grows. -/
structure Silent (net net' : Network) : Prop where
  roomy : RoomyNet net'
  log : ∀ p, (net' p).log = (net p).log
  kept : ∀ p, (net' p).keptIds.Sublist (net p).keptIds
  delivered : ∀ p, (net p).delivered <+: (net' p).delivered
  sent : ∀ p, (net p).sent ⊆ (net' p).sent

theorem NetStep.sent {net net' : Network} (hst : NetStep net net') (p : Side) : (net p).sent ⊆ (net' p).sent := by
  refine hst.on_sides (R := fun e e' => e.sent ⊆ e'.sent) (fun e => List.Subset.refl _)
    (fun e now reliable data comp => ?_) (fun e deadline now => ?_) (fun e now => ?_)
    (fun e _ _ _ => List.Subset.refl _) (fun e => List.Subset.refl _) p
  · unfold Endpoint.send
    dsimp only
    split
    · exact List.subset_append_left _ _
    · split
      · exact List.subset_append_left _ _
      · exact List.Subset.refl _
  · unfold Endpoint.retransmit
    split
    · exact List.subset_append_left _ _
    · exact List.Subset.refl _
  · unfold Endpoint.sendAcks
    split
    · exact List.subset_append_left _ _
    · exact List.Subset.refl _

theorem RoomyNet.silent {net net' : Network} (h : RoomyNet net) (hrun : ReflTransGen SilentStep net net') :
    Silent net net' := by
  induction hrun with
  | refl =>
    exact ⟨h, fun _ => rfl, fun _ => .refl _, fun _ => List.prefix_refl _, fun _ => List.Subset.refl _⟩
  | @tail net₁ net₂ _ hst ih =>
    obtain ⟨hstep, hlog⟩ := hst
    have hfew : ∀ p, (net₂ p).log.length < 65535 := fun p => by
      rw [hlog p]
      exact ih.roomy.few p
    refine ⟨ih.roomy.next ⟨⟨hstep, hfew⟩, fun p hne => absurd (hlog p) hne⟩, fun p => (hlog p).trans (ih.log p),
      fun p => ?_, fun p => ?_, fun p => ?_⟩
    · refine List.Sublist.trans ?_ (ih.kept p)
      cases hstep.kept p with
      | fewer _ hsub => exact hsub
      | more data hmore _ =>
        rw [hlog p] at hmore
        simp at hmore
      | full data hmore _ _ =>
        rw [hlog p] at hmore
        simp at hmore
    · exact (ih.delivered p).trans
        (ih.roomy.reachable.sequenced.delivered ih.roomy.reachable.inv ih.roomy.few hstep p)
    · exact List.Subset.trans (ih.sent p) (hstep.sent p)

/-! ## Receiving, and emptying the queue -/

/-- Every message that `p` sent is released by its peer. -/
def AllReleased (net : Network) (p : Side) : Prop := (net p.other).delivered = (net p).log

/-- Every message that `p` still keeps is acknowledged on the network. -/
def AllAcknowledged (net : Network) (p : Side) : Prop :=
  ∀ id ∈ (net p).keptIds, ∃ d ∈ (net p.other).sent, id ∈ d.header.ackList

section Phases
variable {net net' : Network} {p : Side}

theorem AllReleased.silent (h : AllReleased net p) (hs : Silent net net') : AllReleased net' p := by
  have hle := (hs.delivered p.other).length_le
  have horder := (hs.roomy.reachable.sequenced.in_order hs.roomy.few p).length_le
  have hgrow := hs.delivered p.other
  have hge : (net' p.other).delivered.length ≤ (net p.other).delivered.length := by
    change (net' p.other).delivered.length ≤ (net' p).log.length at horder
    rwa [hs.log p, ← h] at horder
  unfold AllReleased
  rw [hs.log p, ← h]
  exact (hgrow.eq_of_length (by omega)).symm

theorem AllAcknowledged.silent (h : AllAcknowledged net p) (hs : Silent net net') : AllAcknowledged net' p := by
  intro id hid
  obtain ⟨d, hd, hack⟩ := h id ((hs.kept p).subset hid)
  exact ⟨d, hs.sent p.other hd, hack⟩

end Phases

end Qunet
