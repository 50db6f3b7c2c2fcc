import Qunet.Udp.AckSafety
import Qunet.Lib.Channel

/-!
# The reliable stores are FIFO channels

* `Endpoint.delivered` : the payloads of the reliable messages that a party released;
* `Network.channel` : the abstract channel that leads from a party to its peer;
* `NetStep.side` : what a step of the network does to the party that takes it;
* `Sequenced` : what a party released is the first part of what its peer sent;
* **`network_simulates_channels`** : every step of the network is finitely many steps of the two channels;
* `released_of_gone` : what a party does not keep any more, its peer has released.
-/

namespace Qunet
open Lib

/-! ## The abstraction -/

/-- The payloads of the reliable messages among `ms`. -/
def reliablePayloads (ms : List ReliableMeta) : List Bytes :=
  (ms.filter fun m => messageIdOf m ≠ 0).map (·.data)

/-- What a party hands on of the reliable messages of its peer. -/
def Endpoint.delivered (e : Endpoint) : List Bytes := reliablePayloads e.released

/-- The channel from `p` to its peer. -/
def Network.channel (net : Network) (p : Side) : Fifo Bytes where
  sent := (net p).log
  delivered := (net p.other).delivered

@[simp] theorem Side.other_other (p : Side) : p.other.other = p := by cases p <;> rfl

@[simp] theorem reliablePayloads_nil : reliablePayloads [] = [] := rfl

theorem reliablePayloads_append (ms ns : List ReliableMeta) :
    reliablePayloads (ms ++ ns) = reliablePayloads ms ++ reliablePayloads ns := by
  unfold reliablePayloads
  rw [List.filter_append, List.map_append]

theorem reliablePayloads_reliable {m : ReliableMeta} (h : messageIdOf m ≠ 0) : reliablePayloads [m] = [m.data] := by
  simp [reliablePayloads, h]

/-! ## The steps of a party -/

/-- A step that handles no incoming message. -/
structure Endpoint.LeavesIncoming (e e' : Endpoint) : Prop where
  released : e'.released = e.released
  next : e'.store.nextRemoteId = e.store.nextRemoteId
  outOfOrder : e'.store.remoteOutOfOrder = e.store.remoteOutOfOrder
  log : ∃ more, e'.log = e.log ++ more

namespace Endpoint

theorem send_leaves (e : Endpoint) (now : Nat) (reliable : Bool) (data : Bytes) (comp : Option CompressionHeader) :
    e.LeavesIncoming (e.send now reliable data comp) := by
  obtain ⟨-, -, -, hs⟩ := e.store.outgoingHeader_spec reliable
  obtain ⟨hn, -, ho⟩ := EndpointInv.pushLocalUnacked_incoming (e.store.outgoingHeader reliable).2 now
    (.of data comp (e.store.outgoingHeader reliable).1)
  refine ⟨?_, ?_, ?_, e.send_log now reliable data comp⟩
  all_goals
    unfold send
    dsimp only
    split
    · first | rfl | (rw [hn, hs]) | (rw [ho, hs])
    · split <;> first | rfl | (rw [hs])

theorem retransmit_leaves (e : Endpoint) (deadline : Nat → Nat) (now : Nat) :
    e.LeavesIncoming (e.retransmit deadline now) := by
  have hstore : (e.retransmit deadline now).store = (e.store.maybeRetransmit deadline now).2 := by
    unfold retransmit
    split <;> simp_all
  have hreleased : (e.retransmit deadline now).released = e.released := by
    unfold retransmit
    split <;> rfl
  have hlog := e.retransmit_log deadline now
  exact ⟨hreleased, by rw [hstore]; rfl, by rw [hstore]; rfl, [], by rw [hlog, List.append_nil]⟩

theorem sendAcks_leaves (e : Endpoint) (now : Nat) : e.LeavesIncoming (e.sendAcks now) := by
  have hs := (e.store.setOutgoingAcks_spec ⟨0, 0, .replicate 8 0⟩).1
  have hlog := e.sendAcks_log now
  refine ⟨?_, ?_, ?_, [], by rw [hlog, List.append_nil]⟩
  all_goals
    unfold sendAcks
    split <;> first | rfl | (dsimp only; rw [hs])

theorem pop_leaves (e : Endpoint) : e.LeavesIncoming e.pop := by
  unfold pop ReliableStore.popDelayedMessage
  split <;> exact ⟨rfl, rfl, rfl, [], (List.append_nil _).symm⟩

end Endpoint

/-- What every operation of a party does to it, a step of the network does to both parties. -/
theorem NetStep.on_sides {R : Endpoint → Endpoint → Prop} (hrefl : ∀ e, R e e)
    (hsend : ∀ e now reliable data comp, R e (Endpoint.send now reliable data comp e))
    (hretransmit : ∀ e deadline now, R e (Endpoint.retransmit deadline now e))
    (hacks : ∀ e now, R e (Endpoint.sendAcks now e))
    (hreceive : ∀ e past now m, R e (Endpoint.receive past now m e)) (hpop : ∀ e, R e (Endpoint.pop e))
    {net net' : Network} (hst : NetStep net net') (p : Side) : R (net p) (net' p) := by
  have hside : ∀ {q : Side} {e : Endpoint}, R (net q) e → R (net p) (Function.update net q e p) := by
    intro q e h
    by_cases hp : p = q
    · subst hp
      rwa [Function.update_self]
    · rw [Function.update_of_ne hp]
      exact hrefl _
  cases hst with
  | send q now reliable data comp => exact hside (hsend _ now reliable data comp)
  | retransmit q deadline now => exact hside (hretransmit _ deadline now)
  | sendAcks q now => exact hside (hacks _ now)
  | receive q past now _ _ => exact hside (hreceive _ past now _)
  | pop q => exact hside (hpop _)

/-- **A step of the network** is the step of one party. Either the party leaves its incoming side alone, or it receives
something that its peer has put on the network. -/
theorem NetStep.side {net net' : Network} (hst : NetStep net net') :
    ∃ (p : Side) (e : Endpoint), net' = Function.update net p e ∧
      ((net p).LeavesIncoming e ∨
        ∃ (past : Nat → UInt16) (now : Nat) (m : ReliableMeta), e = (net p).receive past now m ∧
          ∃ d ∈ (net p.other).sent, Carries d m) := by
  cases hst with
  | send p now reliable data comp => exact ⟨p, _, rfl, .inl ((net p).send_leaves now reliable data comp)⟩
  | retransmit p deadline now => exact ⟨p, _, rfl, .inl ((net p).retransmit_leaves deadline now)⟩
  | sendAcks p now => exact ⟨p, _, rfl, .inl ((net p).sendAcks_leaves now)⟩
  | @receive p past now d hd m hm => exact ⟨p, _, rfl, .inr ⟨past, now, m, rfl, d, hd, hm⟩⟩
  | pop p => exact ⟨p, _, rfl, .inl (net p).pop_leaves⟩

/-! ## Released in sequence -/

/-- The reliable messages that were released are the first ones of the peer's log. -/
structure Sequenced (log : List Bytes) (released : List ReliableMeta) (s : ReliableStore) : Prop
    extends Accepted log released s where
  payloads : reliablePayloads released = log.take (s.nextRemoteId.toNat - 1)
  passed : ∀ m ∈ released, (messageIdOf m).toNat < s.nextRemoteId.toNat

namespace Sequenced
variable {log : List Bytes} {released : List ReliableMeta} {s t : ReliableStore}

theorem accept (h : Sequenced log released s) {m : ReliableMeta} (hid : messageIdOf m = s.nextRemoteId)
    (hm : Logged log (messageIdOf m) m.data) (hlog : log.length < 65535) (now : Nat) :
    Sequenced log (released ++ [m]) (s.accept now) := by
  have hle := hm.le
  rw [hid] at hle
  have hpos := ReliableStore.ne_zero_iff.mp h.next_ne_zero
  have hnext : (s.accept now).nextRemoteId.toNat = s.nextRemoteId.toNat + 1 := by
    show (succId s.nextRemoteId).toNat = _
    rw [ReliableStore.succId_toNat, if_neg (by omega)]
  refine ⟨h.toAccepted.accept hid hm hlog now, ?_, fun m' hm' => ?_⟩
  · obtain ⟨h0, hdata⟩ := hm
    rw [hid] at hdata
    rw [reliablePayloads_append, reliablePayloads_reliable h0, h.payloads, hnext,
      show s.nextRemoteId.toNat + 1 - 1 = s.nextRemoteId.toNat - 1 + 1 by omega, List.take_add_one, hdata]
    rfl
  · rw [hnext]
    rcases List.mem_append.mp hm' with hm' | hm'
    · exact Nat.lt_succ_of_lt (h.passed m' hm')
    · rw [List.mem_singleton.mp hm', hid]
      exact Nat.lt_succ_self _

theorem delay (h : Sequenced log released s) (e : StoredOutOfOrderMessage) : Sequenced log released (s.delay e) :=
  ⟨h.toAccepted.delay e, h.payloads, h.passed⟩

/-- Messages that are restored continue the sequence. -/
theorem restores {now : Nat} {ms : List ReliableMeta} (hr : ReliableStore.Restores now s ms t)
    (h : Sequenced log released s) (hlog : log.length < 65535) : Sequenced log (released ++ ms) t := by
  induction hr generalizing released with
  | done _ => rwa [List.append_nil]
  | @step s t e ms he _ ih =>
    obtain ⟨hmem, hid⟩ := ReliableStore.nextStored_some he
    have hnext := ih ((h.delay e).accept hid (h.stored e hmem) hlog now)
    rwa [List.append_assoc, List.singleton_append] at hnext

/-- Nothing is released but messages without id. -/
theorem same (h : Sequenced log released s) {ms : List ReliableMeta} (ht : Accepted log (released ++ ms) t)
    (hn : t.nextRemoteId = s.nextRemoteId) (hms : ∀ m ∈ ms, messageIdOf m = 0) : Sequenced log (released ++ ms) t := by
  have hnone : reliablePayloads ms = [] := by
    unfold reliablePayloads
    rw [List.filter_eq_nil_iff.mpr (by simpa using hms), List.map_nil]
  refine ⟨ht, ?_, fun m hm => ?_⟩
  · rw [reliablePayloads_append, hnone, List.append_nil, hn]
    exact h.payloads
  · rw [hn]
    rcases List.mem_append.mp hm with hm | hm
    · exact h.passed m hm
    · rw [hms m hm]
      exact ReliableStore.ne_zero_iff.mp h.next_ne_zero

theorem incoming {now : Nat} {m : ReliableMeta} {r : Except TransportError Bool}
    (hi : ReliableStore.Incoming now s m r t) (h : Sequenced log released s) (hs : s.Settled) (hm : LoggedMeta log m)
    (hlog : log.length < 65535) : Sequenced log (released ++ Endpoint.newlyReleased s m r t) t := by
  have hacc := h.toAccepted.incoming hi hm hlog
  cases hi with
  | unreliable h0 =>
    refine h.same hacc rfl ?_
    simpa [Endpoint.newlyReleased] using h0
  | duplicateQueued _ _ _ => exact h.same hacc rfl (by simp [Endpoint.newlyReleased])
  | @duplicate _ _ _ ms _ hr =>
    obtain ⟨rfl, rfl⟩ := hr.eq_of_settled hs
    exact h.same hacc rfl (by simp [Endpoint.newlyReleased])
  | full _ _ _ _ => exact h.same hacc rfl (by simp [Endpoint.newlyReleased])
  | stored _ _ _ _ _ => exact h.same hacc rfl (by simp [Endpoint.newlyReleased])
  | outOfOrder _ _ _ _ _ => exact h.same hacc rfl (by simp [Endpoint.newlyReleased])
  | @inOrder h0 hn ms _ hr =>
    have hfirst := (h.accept hn (hm.resolve_left h0) hlog now).restores hr hlog
    have hnew : Endpoint.newlyReleased s m (.ok true) t = [m] ++ ms := by
      unfold Endpoint.newlyReleased
      rw [hr.delayed, show (s.accept now).remoteDelayedQueue = s.remoteDelayedQueue from rfl, List.drop_left]
    rw [hnew, ← List.append_assoc]
    exact hfirst

/-- The sequence only depends on the incoming side, and on what the peer has sent so far. -/
theorem congr (h : Sequenced log released s) {log' : List Bytes} (ht : Accepted log' released t)
    (hlog : log <+: log') (hn : t.nextRemoteId = s.nextRemoteId) : Sequenced log' released t := by
  refine ⟨ht, ?_, by rw [hn]; exact h.passed⟩
  obtain ⟨more, rfl⟩ := hlog
  have hle := h.next_le
  rw [h.payloads, hn, List.take_append_of_le_length (by omega)]

end Sequenced

/-! ## The network -/

/-- Both parties release in sequence, as long as the ids have not wrapped around. -/
def NetSequenced (net : Network) : Prop :=
  (∀ p, (net p).log.length < 65535) →
    ∀ p, Sequenced (net p.other).log (net p).released (net p).store ∧ (net p).store.Waiting

/-- The logs only grow. -/
theorem NetStep.log {net net' : Network} (hst : NetStep net net') (p : Side) : (net p).log <+: (net' p).log := by
  obtain ⟨q, e, rfl, hside⟩ := hst.side
  by_cases hp : p = q
  · subst hp
    rw [Function.update_self]
    rcases hside with hleaves | ⟨past, now, m, rfl, -⟩
    · obtain ⟨more, hmore⟩ := hleaves.log
      rw [hmore]
      exact List.prefix_append _ _
    · exact List.prefix_refl _
  · rw [Function.update_of_ne hp]

theorem NetStep.few {net net' : Network} (hst : NetStep net net') (hfew : ∀ p, (net' p).log.length < 65535) (p : Side) :
    (net p).log.length < 65535 :=
  Nat.lt_of_le_of_lt (hst.log p).length_le (hfew p)

/-- What a received message does to the sequence. -/
theorem Sequenced.receive {log : List Bytes} {e : Endpoint} (h : Sequenced log e.released e.store)
    (hw : e.store.Waiting) (past : Nat → UInt16) (now : Nat) {m : ReliableMeta} (hm : LoggedMeta log m)
    (hlog : log.length < 65535) :
    let e' := e.receive past now m
    Sequenced log e'.released e'.store ∧ e'.store.Waiting ∧ e.released <+: e'.released := by
  have hin := ReliableStore.handleIncoming_incoming past now e.store m
  obtain ⟨l, hl, -, -⟩ := ReliableStore.processAcks_spec past e.store m.header
  have hacked : Sequenced log e.released (e.store.processAcks past m.header) := by
    rw [hl]
    exact h.congr (h.toAccepted.congr rfl (fun _ hr => hr) rfl) (List.prefix_refl _) rfl
  have hwaiting : (e.store.processAcks past m.header).Waiting := by
    rw [hl]
    exact hw.congr rfl rfl
  have hqueue : (e.store.processAcks past m.header).remoteDelayedQueue = e.store.remoteDelayedQueue := by rw [hl]
  have hnew := hacked.incoming hin hwaiting.settled hm hlog
  unfold Endpoint.newlyReleased at hnew
  rw [hqueue] at hnew
  exact ⟨hnew, hwaiting.incoming hin, List.prefix_append _ _⟩

theorem NetSequenced.step {net net' : Network} (h : NetSequenced net) (hinv : NetInv net') (hold : NetInv net)
    (hst : NetStep net net') : NetSequenced net' := by
  intro hfew p
  have hbefore := hst.few hfew
  obtain ⟨hseq, hw⟩ := h hbefore p
  have hacc := (hinv hfew p).accepted
  have hgrow := hst.log p.other
  obtain ⟨q, e, rfl, hside⟩ := hst.side
  by_cases hp : p = q
  · subst hp
    rw [Function.update_self] at hacc ⊢
    rcases hside with hleaves | ⟨past, now, m, rfl, d, hd, hm⟩
    · rw [hleaves.released] at hacc ⊢
      exact ⟨hseq.congr hacc hgrow hleaves.next, hw.congr hleaves.outOfOrder hleaves.next⟩
    · rw [Function.update_of_ne p.other_ne]
      have hlogged : LoggedMeta (net p.other).log m := hm.logged ((hold hbefore p.other).sent d hd)
      obtain ⟨hseq', hw', -⟩ := hseq.receive hw past now hlogged (hbefore p.other)
      exact ⟨hseq', hw'⟩
  · rw [Function.update_of_ne hp] at hacc ⊢
    exact ⟨hseq.congr hacc hgrow rfl, hw⟩

theorem ReachableNet.sequenced {net : Network} (h : ReachableNet net) : NetSequenced net := by
  have hinit : ∀ net : Network, (net = fun _ => {}) → NetInv net ∧ NetSequenced net := by
    rintro net rfl
    have hinv : NetInv fun _ => {} := ReachableNet.inv (Reachable.start rfl)
    refine ⟨hinv, fun hfew p => ?_⟩
    exact ⟨⟨(hinv hfew p).accepted, rfl, by simp⟩, ReliableStore.ReachableStore.fresh.waiting⟩
  have hstep : ∀ net net' : Network, NetInv net ∧ NetSequenced net → NetStep net net' →
      NetInv net' ∧ NetSequenced net' :=
    fun _ _ hn hst => ⟨hn.1.step hst, hn.2.step (hn.1.step hst) hn.1 hst⟩
  exact (Reachable.invariant hinit hstep h).2

/-- A step with few messages so far. -/
def FewStep (net net' : Network) : Prop := NetStep net net' ∧ ∀ p, (net' p).log.length < 65535

theorem NetSequenced.in_order {net : Network} (h : NetSequenced net) (hfew : ∀ p, (net p).log.length < 65535)
    (p : Side) : (net.channel p).delivered <+: (net.channel p).sent := by
  have hseq := (h hfew p.other).1.payloads
  rw [p.other_other] at hseq
  show reliablePayloads (net p.other).released <+: (net p).log
  rw [hseq]
  exact List.take_prefix _ _

/-- What a party released stays released. -/
theorem NetSequenced.delivered {net net' : Network} (h : NetSequenced net) (hinv : NetInv net)
    (hfew : ∀ p, (net p).log.length < 65535) (hst : NetStep net net') (p : Side) :
    (net p).delivered <+: (net' p).delivered := by
  obtain ⟨hseq, hw⟩ := h hfew p
  obtain ⟨q, e, rfl, hside⟩ := hst.side
  by_cases hp : p = q
  · subst hp
    rw [Function.update_self]
    unfold Endpoint.delivered
    rcases hside with hleaves | ⟨past, now, m, rfl, d, hd, hm⟩
    · rw [hleaves.released]
    · have hlogged : LoggedMeta (net p.other).log m := hm.logged ((hinv hfew p.other).sent d hd)
      obtain ⟨-, -, more, hmore⟩ := hseq.receive hw past now hlogged (hfew p.other)
      rw [← hmore, reliablePayloads_append]
      exact List.prefix_append _ _
  · rw [Function.update_of_ne hp]

instance : Fintype Side := ⟨{.left, .right}, fun p => by cases p <;> decide⟩

/-- A state of the network stands for its two channels. -/
def StandsFor (net : Network) (channels : Side → Fifo Bytes) : Prop :=
  NetInv net ∧ NetSequenced net ∧ (∀ p, (net p).log.length < 65535) ∧ channels = net.channel

/-- **The network refines two FIFO channels**, over any interleaving and with any loss, repetition and reordering. -/
theorem network_simulates_channels :
    Simulation (· = fun _ => {}) FewStep (· = fun _ => {}) (OneSide Fifo.Step) StandsFor := by
  refine ⟨?_, ?_⟩
  · rintro net rfl
    have hreach : ReachableNet fun _ => {} := Reachable.start rfl
    refine ⟨_, rfl, hreach.inv, hreach.sequenced, fun p => by simp, ?_⟩
    funext p
    rfl
  · rintro net _ net' ⟨hinv, hseq, hfew, rfl⟩ ⟨hst, hfew'⟩
    have hinv' := hinv.step hst
    have hseq' := hseq.step hinv' hinv hst
    refine ⟨Network.channel net', OneSide.all fun p => ?_, hinv', hseq', hfew', rfl⟩
    exact Fifo.extend (hst.log p) (hseq.delivered hinv hfew hst p.other) (hseq'.in_order hfew' p)

/-! ## What is not kept any more -/

/-- What was released stays released. -/
theorem NetStep.released {net net' : Network} (hst : NetStep net net') (p : Side) :
    (net p).released <+: (net' p).released := by
  obtain ⟨q, e, rfl, hside⟩ := hst.side
  by_cases hp : p = q
  · subst hp
    rw [Function.update_self]
    rcases hside with hleaves | ⟨past, now, m, rfl, -⟩
    · rw [hleaves.released]
    · exact List.prefix_append _ _
  · rw [Function.update_of_ne hp]

/-- A message that a party does not keep any more was released by its peer. -/
theorem released_of_gone {net net' : Network} (h : ReachableNet net) (hrun : Relation.ReflTransGen NetStep net net')
    (hfew : ∀ p, (net' p).log.length < 65535) {p : Side} {id : UInt16} (hid : id ∈ (net p).keptIds)
    (hgone : id ∉ (net' p).keptIds) : ∃ m ∈ (net' p.other).released, messageIdOf m = id := by
  induction hrun with
  | refl => exact absurd hid hgone
  | @tail net₁ net₂ hrun hst ih =>
    have hfew₁ := hst.few hfew
    have hreleased := (hst.released p.other).subset
    by_cases hkept : id ∈ (net₁ p).keptIds
    · obtain ⟨d, hd, m, hm, past, i, hi, rfl⟩ := kept_gone hst hkept hgone
      have hreach : ReachableNet net₁ := by
        obtain ⟨start, hstart, hbefore⟩ := h
        exact ⟨start, hstart, hbefore.trans hrun⟩
      have hhonest := (hreach.inv hfew₁ p.other).sent d hd
      have hack : m.header.ackAt past i ∈ d.header.ackList := by
        rw [← hm.header.acks]
        exact ReliableStore.ackAt_mem (by rw [hm.header.ackCount]; exact hhonest.ackCount) hi
      obtain ⟨m', hm', hid'⟩ := List.mem_map.mp (hhonest.acks _ hack)
      exact ⟨m', hreleased hm', hid'⟩
    · obtain ⟨m, hm, hid'⟩ := ih hfew₁ hkept
      exact ⟨m, hreleased hm, hid'⟩

end Qunet
