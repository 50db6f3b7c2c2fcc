import Qunet.Udp.Channel
import Qunet.Udp.Reordering

/-!
# What is kept is enough to recover

* `Endpoint.KeptStep` : what a step of the network does to the messages that a party keeps for retransmission;
* `RoomyStep` : a step of the network in which no send finds its window of 64 messages full;
* `Window` : the sender keeps, in order, everything that the peer has not released;
* **`nothing_lost`** : a reliable message is released by the peer or still kept by its sender;
* `Catching` : a party to which the kept messages are arriving in order;
* **`clean_round`** : when every kept message arrives once, everything is released, and acknowledged unless it is too
  old to be recognised.
-/

namespace Qunet
open Lib

/-! ## The messages a party keeps -/

/-- What a step does to the log and to the kept ids. -/
inductive Endpoint.KeptStep (e e' : Endpoint) : Prop where
  | fewer (hlog : e'.log = e.log) (h : e'.keptIds.Sublist e.keptIds)
  | more (data : Bytes) (hlog : e'.log = e.log ++ [data]) (h : e'.keptIds = e.keptIds ++ [e.store.nextLocalId])
  | full (data : Bytes) (hlog : e'.log = e.log ++ [data]) (hfull : 64 ≤ e.store.localUnacked.length)
      (h : e'.keptIds = e.keptIds)

namespace Endpoint

theorem send_kept (e : Endpoint) (now : Nat) (reliable : Bool) (data : Bytes) (comp : Option CompressionHeader) :
    e.KeptStep (e.send now reliable data comp) := by
  obtain ⟨-, -, hid, hs⟩ := e.store.outgoingHeader_spec reliable
  have hsame : (e.store.outgoingHeader reliable).2.localUnacked = e.store.localUnacked := by rw [hs]
  unfold send
  dsimp only
  split
  · next h0 =>
    have hnext : (e.store.outgoingHeader reliable).1.messageId = e.store.nextLocalId := by
      cases reliable with
      | false => exact absurd hid h0
      | true => exact hid
    by_cases hfull : 64 ≤ e.store.localUnacked.length
    · refine .full data rfl hfull ?_
      unfold keptIds ReliableStore.pushLocalUnacked
      rw [hsame, if_pos hfull]
      exact congrArg _ hsame
    · refine .more data rfl ?_
      unfold keptIds ReliableStore.pushLocalUnacked
      rw [hsame, if_neg hfull, List.map_append, ← hnext]
      rfl
  · split <;> exact .fewer rfl (by rw [keptIds, hsame]; exact List.Sublist.refl _)

theorem receive_kept (e : Endpoint) (past : Nat → UInt16) (now : Nat) (m : ReliableMeta) :
    e.KeptStep (e.receive past now m) := by
  obtain ⟨l, hl, hsub, -⟩ := ReliableStore.processAcks_spec past e.store m.header
  have hin := (ReliableStore.handleIncoming_incoming past now e.store m).frame.1
  rw [hl] at hin
  refine .fewer rfl ?_
  show ((e.store.handleIncoming past now m).2.localUnacked.map (·.messageId)).Sublist _
  rw [hin]
  exact hsub.map _

end Endpoint

theorem NetStep.kept {net net' : Network} (hst : NetStep net net') (p : Side) : (net p).KeptStep (net' p) := by
  refine hst.on_sides (fun e => .fewer rfl (.refl _)) (fun e => e.send_kept) (fun e deadline now => ?_)
    (fun e now => ?_) (fun e => e.receive_kept) (fun e => ?_) p
  · exact .fewer (e.retransmit_log deadline now) (by rw [e.retransmit_keeps])
  · exact .fewer (e.sendAcks_log now) (by rw [e.sendAcks_keeps])
  · exact .fewer rfl (by rw [e.pop_keeps])

/-! ## Nothing is lost -/

/-- A step in which every reliable message that is sent finds room in the window. -/
structure RoomyStep (net net' : Network) : Prop where
  few : FewStep net net'
  room : ∀ p, (net' p).log ≠ (net p).log → (net p).store.localUnacked.length < 64

/-- The network as long as no window was full. -/
def RoomyNet (net : Network) : Prop := Reachable (· = fun _ => {}) RoomyStep net

/-- A party whose peer has released `released` messages keeps the other ones, oldest first. -/
structure Window (e : Endpoint) (released : Nat) : Prop where
  ordered : (e.keptIds.map (·.toNat)).Pairwise (· < ·)
  covered : ∀ n < e.log.length, released ≤ n → ∃ id ∈ e.keptIds, id.toNat = n + 1

theorem Sequenced.delivered_length {log : List Bytes} {released : List ReliableMeta} {s : ReliableStore}
    (h : Sequenced log released s) : (reliablePayloads released).length = s.nextRemoteId.toNat - 1 := by
  have hle := h.next_le
  rw [h.payloads, List.length_take]
  omega

/-- A released id is that of a delivered message. -/
theorem Sequenced.delivered_of_released {log : List Bytes} {released : List ReliableMeta} {s : ReliableStore}
    (h : Sequenced log released s) {id : UInt16} (hid : id ∈ released.map messageIdOf) :
    id.toNat ≤ (reliablePayloads released).length := by
  obtain ⟨m, hm, rfl⟩ := List.mem_map.mp hid
  have hlt := h.passed m hm
  rw [h.delivered_length]
  omega

/-- A kept id that disappears belongs to a delivered message. -/
theorem NetSequenced.gone {net net' : Network} (h : NetSequenced net) (hinv : NetInv net)
    (hfew : ∀ p, (net p).log.length < 65535) (hst : NetStep net net') {p : Side} {id : UInt16}
    (hid : id ∈ (net p).keptIds) (hgone : id ∉ (net' p).keptIds) : id.toNat ≤ (net p.other).delivered.length := by
  obtain ⟨d, hd, m, hm, past, i, hi, rfl⟩ := kept_gone hst hid hgone
  have hhonest := (hinv hfew p.other).sent d hd
  refine (h hfew p.other).1.delivered_of_released (hhonest.acks _ ?_)
  rw [← hm.header.acks]
  exact ReliableStore.ackAt_mem (by rw [hm.header.ackCount]; exact hhonest.ackCount) hi

/-- Kept ids are ids of logged messages. -/
theorem EndpointInv.keptIds_le {log : List Bytes} {e : Endpoint} (h : EndpointInv log e) {id : UInt16}
    (hid : id ∈ e.keptIds) : id.toNat ≤ e.log.length := by
  obtain ⟨u, hu, rfl⟩ := List.mem_map.mp hid
  obtain ⟨hhonest, heq, h0⟩ := h.kept.honest u hu
  rw [heq] at h0 ⊢
  exact (hhonest.logged.resolve_left h0).le

theorem Window.step {net net' : Network} (h : ∀ p, Window (net p) (net p.other).delivered.length) (hinv : NetInv net)
    (hseq : NetSequenced net) (hst : RoomyStep net net') (p : Side) :
    Window (net' p) (net' p.other).delivered.length := by
  have hfew := hst.few.1.few hst.few.2
  have hmono := (hseq.delivered hinv hfew hst.few.1 p.other).length_le
  have hcovered : ∀ n < (net p).log.length, (net' p.other).delivered.length ≤ n →
      ∃ id ∈ (net' p).keptIds, id.toNat = n + 1 := by
    intro n hn hle
    obtain ⟨id, hid, hnum⟩ := (h p).covered n hn (by omega)
    refine ⟨id, ?_, hnum⟩
    by_contra hgone
    have hdelivered := hseq.gone hinv hfew hst.few.1 hid hgone
    omega
  cases hst.few.1.kept p with
  | fewer hlog hsub => exact ⟨(h p).ordered.sublist (hsub.map _), by rwa [hlog]⟩
  | full data hlog hfull _ =>
    have hroom := hst.room p (by rw [hlog]; simp)
    omega
  | more data hlog hkept =>
    have hnext := (hinv hfew p).kept.next
    constructor
    · rw [hkept, List.map_append, List.map_singleton, List.pairwise_append]
      refine ⟨(h p).ordered, List.pairwise_singleton _ _, fun k hk k' hk' => ?_⟩
      obtain ⟨id, hid, rfl⟩ := List.mem_map.mp hk
      rw [List.mem_singleton.mp hk', hnext]
      exact Nat.lt_succ_of_le ((hinv hfew p).keptIds_le hid)
    · intro n hn hle
      rw [hlog, List.length_append, List.length_singleton] at hn
      rcases Nat.lt_succ_iff_lt_or_eq.mp hn with hlt | rfl
      · exact hcovered n hlt hle
      · refine ⟨_, ?_, hnext⟩
        rw [hkept]
        exact List.mem_append_right _ (List.mem_singleton_self _)

theorem RoomyNet.reachable {net : Network} (h : RoomyNet net) : ReachableNet net := by
  obtain ⟨start, hstart, hrun⟩ := h
  exact ⟨start, hstart, Relation.ReflTransGen.mono (fun _ _ hst => hst.few.1) _ _ hrun⟩

theorem RoomyNet.few {net : Network} (h : RoomyNet net) : ∀ p, (net p).log.length < 65535 := by
  have hinit : ∀ net : Network, (net = fun _ => {}) → ∀ p, (net p).log.length < 65535 := by
    rintro net rfl p
    exact Nat.zero_lt_succ _
  have hstep : ∀ net net' : Network, (∀ p, (net p).log.length < 65535) → RoomyStep net net' →
      ∀ p, (net' p).log.length < 65535 := fun _ _ _ hst => hst.few.2
  exact Reachable.invariant hinit hstep h

theorem RoomyNet.window {net : Network} (h : RoomyNet net) (p : Side) :
    Window (net p) (net p.other).delivered.length := by
  have hinit : ∀ net : Network, (net = fun _ => {}) →
      ReachableNet net ∧ ∀ p, Window (net p) (net p.other).delivered.length := by
    rintro net rfl
    exact ⟨Reachable.start rfl, fun p => ⟨List.Pairwise.nil, fun n hn => absurd hn (Nat.not_lt_zero n)⟩⟩
  have hstep : ∀ net net' : Network,
      (ReachableNet net ∧ ∀ p, Window (net p) (net p.other).delivered.length) → RoomyStep net net' →
      ReachableNet net' ∧ ∀ p, Window (net' p) (net' p.other).delivered.length :=
    fun _ _ hn hst => ⟨hn.1.next hst.few.1, fun p => Window.step hn.2 hn.1.inv hn.1.sequenced hst p⟩
  exact (Reachable.invariant hinit hstep h).2 p

/-- **Nothing is lost.** Every reliable message that was sent has been released by the peer, in its place, or its
sender still keeps it for retransmission with the right id and payload. -/
theorem nothing_lost (net : Network) (h : RoomyNet net) (p : Side) (n : Nat) (hn : n < (net p).log.length) :
    (net p.other).delivered[n]? = (net p).log[n]? ∨
      ∃ u ∈ (net p).store.localUnacked, u.messageId.toNat = n + 1 ∧ (net p).log[n]? = some u.msg.data := by
  rcases Nat.lt_or_ge n (net p.other).delivered.length with hlt | hge
  · left
    have hpayloads := (h.reachable.sequenced h.few p.other).1.payloads
    rw [p.other_other] at hpayloads
    change n < (reliablePayloads (net p.other).released).length at hlt
    show (reliablePayloads (net p.other).released)[n]? = _
    rw [hpayloads] at hlt ⊢
    rw [List.length_take] at hlt
    rw [List.getElem?_take_of_lt (by omega)]
  · right
    obtain ⟨id, hid, hnum⟩ := (h.window p).covered n hn hge
    obtain ⟨u, hu, rfl⟩ := List.mem_map.mp hid
    obtain ⟨hhonest, heq, h0⟩ := (h.reachable.inv h.few p).kept.honest u hu
    have hlogged := hhonest.logged.resolve_left (by rwa [← heq])
    rw [← heq] at hlogged
    refine ⟨u, hu, hnum, ?_⟩
    have hdata := hlogged.2
    rwa [hnum, Nat.add_sub_cancel] at hdata

/-- The second reliable message of the left party. -/
def secondMessage : ReliableData := .of [8] none ⟨2, 0, .replicate 8 0⟩

/-- Two messages are sent, and only the second one has arrived. -/
def overtakenNet : Network :=
  let net : Network := Function.update (fun _ => {}) .left (Endpoint.send 0 true [7] none {})
  let net := Function.update net .left ((net .left).send 1 true [8] none)
  Function.update net .right ((net .right).receive (fun _ => 0) 2 (arrived secondMessage))

theorem overtakenNet_roomy : RoomyNet overtakenNet := by
  have h0 : RoomyNet fun _ => {} := Reachable.start rfl
  have h1 := Reachable.next h0 ⟨⟨NetStep.send _ .left 0 true [7] none, by intro p; cases p <;> decide⟩,
    by intro p; cases p <;> decide⟩
  have h2 := Reachable.next h1 ⟨⟨NetStep.send _ .left 1 true [8] none, by intro p; cases p <;> decide⟩,
    by intro p; cases p <;> decide⟩
  exact Reachable.next h2 ⟨⟨NetStep.receive _ .right (fun _ => 0) 2 (d := secondMessage) (by decide)
    (arrived_carries _), by intro p; cases p <;> decide⟩, by intro p; cases p <;> decide⟩

theorem nothing_lost_overtaken : (overtakenNet .right).delivered[0]? = (overtakenNet .left).log[0]? ∨
    ∃ u ∈ (overtakenNet .left).store.localUnacked, u.messageId.toNat = 0 + 1 ∧
      (overtakenNet .left).log[0]? = some u.msg.data :=
  nothing_lost overtakenNet overtakenNet_roomy .left 0 (by decide)

/-! ## A clean round -/

open ReliableStore in
/-- One message arrives: what `handleIncoming` returns, and the party after it. -/
def Endpoint.arrive (e : Endpoint) (a : Arrival) : Except TransportError Bool × Endpoint :=
  ((e.store.handleIncoming a.past a.now a.message).1, e.receive a.past a.now a.message)

/-- The queue of acknowledgements only grows. -/
theorem ReliableStore.Incoming.grows {now : Nat} {s t : ReliableStore} {m : ReliableMeta}
    {r : Except TransportError Bool} (hi : Incoming now s m r t) : ∀ q ∈ s.remoteUnacked, q ∈ t.remoteUnacked := by
  cases hi with
  | duplicate _ _ _ hr =>
    rw [hr.unacked]
    exact fun q hq => List.mem_append_left _ (List.mem_append_left _ hq)
  | inOrder _ _ hr =>
    rw [hr.unacked]
    exact fun q hq => List.mem_append_left _ (List.mem_append_left _ hq)
  | _ => exact fun _ hq => hq

/-- The next message is accepted. -/
theorem ReliableStore.Incoming.accepted {now : Nat} {s t : ReliableStore} {m : ReliableMeta}
    {r : Except TransportError Bool} (hi : Incoming now s m r t) (h0 : messageIdOf m ≠ 0)
    (hn : messageIdOf m = s.nextRemoteId) : r = .ok true ∧ ∃ q ∈ t.remoteUnacked, q.messageId = messageIdOf m := by
  have hnot : ¬ s.isDuplicate (messageIdOf m) := fun hd => absurd hd.1 (by rw [hn]; exact UInt16.lt_irrefl _)
  cases hi with
  | unreliable hz => exact absurd hz h0
  | duplicateQueued _ hd _ => exact absurd hd hnot
  | duplicate _ hd _ _ => exact absurd hd hnot
  | full _ _ hne _ => exact absurd hn hne
  | stored _ _ hne _ _ => exact absurd hn hne
  | outOfOrder _ _ hne _ _ => exact absurd hn hne
  | inOrder _ _ hr =>
    refine ⟨rfl, ⟨s.nextRemoteId, now⟩, ?_, hn.symm⟩
    rw [hr.unacked]
    exact List.mem_append_left _ (List.mem_append_right _ (List.mem_singleton_self _))

/-- A message that is the next one, or a recent one, is no error, and its id is queued for acknowledgement. -/
theorem ReliableStore.Incoming.lands {now : Nat} {s t : ReliableStore} {m : ReliableMeta}
    {r : Except TransportError Bool} (hi : Incoming now s m r t) (hs : s.Settled) (h0 : messageIdOf m ≠ 0)
    (hle : (messageIdOf m).toNat ≤ s.nextRemoteId.toNat)
    (hnear : s.nextRemoteId.toNat < (messageIdOf m).toNat + 16384) :
    (∃ b, r = .ok b) ∧ ∃ q ∈ t.remoteUnacked, q.messageId = messageIdOf m := by
  by_cases hn : messageIdOf m = s.nextRemoteId
  · obtain ⟨rfl, hq⟩ := hi.accepted h0 hn
    exact ⟨⟨true, rfl⟩, hq⟩
  · have hdup : s.isDuplicate (messageIdOf m) := by
      refine ⟨?_, by omega⟩
      rw [UInt16.lt_iff_toNat_lt]
      have hne : (messageIdOf m).toNat ≠ s.nextRemoteId.toNat := fun h => hn (UInt16.toNat_inj.mp h)
      omega
    cases hi with
    | unreliable hz => exact absurd hz h0
    | duplicateQueued _ _ hq => exact ⟨⟨_, rfl⟩, hq⟩
    | @duplicate _ _ _ ms _ hr =>
      obtain ⟨-, rfl⟩ := hr.eq_of_settled hs
      exact ⟨⟨_, rfl⟩, _, List.mem_append_right _ (List.mem_singleton_self _), rfl⟩
    | full _ hnot _ _ => exact absurd hdup hnot
    | stored _ hnot _ _ _ => exact absurd hdup hnot
    | outOfOrder _ hnot _ _ _ => exact absurd hdup hnot
    | inOrder _ heq _ => exact absurd heq hn

/-- The messages `todo` that the sender of `log` keeps have yet to arrive, and nothing else is missing. -/
structure Catching (log : List Bytes) (todo : List UnackedLocalMessage) (e : Endpoint) : Prop where
  sequenced : Sequenced log e.released e.store
  waiting : e.store.Waiting
  ordered : todo.Pairwise fun u v => u.messageId.toNat < v.messageId.toNat
  logged : ∀ u ∈ todo, Logged log u.messageId u.msg.data ∧ u.messageId = u.msg.header.messageId
  covered : ∀ n < log.length, e.delivered.length ≤ n → ∃ u ∈ todo, u.messageId.toNat = n + 1

/-- What comes of the arrival of the kept message `u` is no error, and the id is queued for acknowledgement at `e` - or
`u` is so old that it is no longer recognised as a duplicate. -/
def Landed (log : List Bytes) (e : Endpoint) (u : UnackedLocalMessage) (result : Except TransportError Bool) : Prop :=
  log.length + 1 < u.messageId.toNat + 16384 →
    (∃ b, result = .ok b) ∧ ∃ q ∈ e.store.remoteUnacked, q.messageId = u.messageId

theorem Landed.mono {log : List Bytes} {e e' : Endpoint} {u : UnackedLocalMessage}
    {result : Except TransportError Bool} (h : Landed log e u result)
    (hgrows : ∀ q ∈ e.store.remoteUnacked, q ∈ e'.store.remoteUnacked) : Landed log e' u result := by
  intro hnear
  obtain ⟨hok, q, hq, hid⟩ := h hnear
  exact ⟨hok, q, hgrows q hq, hid⟩

namespace Catching
variable {log : List Bytes} {todo : List UnackedLocalMessage} {e : Endpoint} {u : UnackedLocalMessage}

theorem delivered_length (h : Catching log todo e) : e.delivered.length = e.store.nextRemoteId.toNat - 1 :=
  h.sequenced.delivered_length

/-- The oldest kept message is the next one, or one that was released before. -/
theorem head_le (h : Catching log (u :: todo) e) : u.messageId.toNat ≤ e.store.nextRemoteId.toNat := by
  by_contra hlt
  have hlen := h.delivered_length
  have hle := (h.logged u List.mem_cons_self).1.le
  have hpos := ReliableStore.ne_zero_iff.mp h.sequenced.next_ne_zero
  obtain ⟨v, hv, hnum⟩ := h.covered e.delivered.length (by omega) (Nat.le_refl _)
  rcases List.mem_cons.mp hv with rfl | hv
  · omega
  · have hless := List.rel_of_pairwise_cons h.ordered hv
    omega

/-- An arrival of the oldest kept message. -/
theorem landed (h : Catching log (u :: todo) e) (hlog : log.length < 65535) {a : ReliableStore.Arrival}
    (ha : Carries u.msg a.message) :
    Landed log (e.arrive a).2 u (e.arrive a).1 ∧
      (∀ q ∈ e.store.remoteUnacked, q ∈ (e.arrive a).2.store.remoteUnacked) ∧ Catching log todo (e.arrive a).2 := by
  obtain ⟨hlogged, hheader⟩ := h.logged u List.mem_cons_self
  have hid : messageIdOf a.message = u.messageId := by rw [hheader, messageIdOf, ha.header.messageId]
  have hm : Logged log (messageIdOf a.message) a.message.data := by rwa [hid, ha.data]
  have hnext := h.sequenced.next_le
  have hhead := h.head_le
  obtain ⟨unacked, hin⟩ := ReliableStore.handleIncoming_acked a.past a.now e.store a.message
  obtain ⟨hseq, hwaiting, hreleased⟩ := h.sequenced.receive h.waiting a.past a.now (.inr hm) hlog
  have hmono : e.delivered.length ≤ (e.arrive a).2.delivered.length := by
    obtain ⟨more, hmore⟩ := hreleased
    show _ ≤ (reliablePayloads (e.receive a.past a.now a.message).released).length
    rw [← hmore, reliablePayloads_append, List.length_append]
    exact Nat.le_add_right _ _
  -- it is released now, or was before
  have hdelivered : u.messageId.toNat ≤ (e.arrive a).2.delivered.length := by
    by_cases hn : messageIdOf a.message = e.store.nextRemoteId
    · obtain ⟨htrue, -⟩ := hin.accepted hm.1 hn
      refine hseq.delivered_of_released ?_
      rw [← hid]
      refine List.mem_map_of_mem (List.mem_append_right _ ?_)
      unfold Endpoint.newlyReleased
      rw [htrue]
      exact List.mem_append_left _ (List.mem_singleton_self _)
    · have hlen := h.delivered_length
      have hne : u.messageId.toNat ≠ e.store.nextRemoteId.toNat := fun heq =>
        hn (hid.trans (UInt16.toNat_inj.mp heq))
      omega
  refine ⟨fun hnear => ?_, hin.grows, hseq, hwaiting, h.ordered.of_cons,
    fun v hv => h.logged v (List.mem_cons_of_mem u hv), fun n hn hle => ?_⟩
  · have hlands := hin.lands h.waiting.settled hm.1 (by rw [hid]; exact hhead) (by rw [hid]; dsimp only; omega)
    rwa [hid] at hlands
  · obtain ⟨v, hv, hnum⟩ := h.covered n hn (by omega)
    rcases List.mem_cons.mp hv with rfl | hv
    · omega
    · exact ⟨v, hv, hnum⟩

/-- When all of them have arrived, everything is released. -/
theorem done (h : Catching log [] e) : e.delivered = log := by
  have hlen := h.delivered_length
  have hge : log.length ≤ e.delivered.length := by
    by_contra hlt
    obtain ⟨v, hv, -⟩ := h.covered e.delivered.length (by omega) (Nat.le_refl _)
    cases hv
  have hpayloads : e.delivered = log.take (e.store.nextRemoteId.toNat - 1) := h.sequenced.payloads
  rw [hpayloads, List.take_of_length_le (by omega)]

/-- The kept messages arrive one after the other. -/
theorem run (h : Catching log todo e) (hlog : log.length < 65535) {arrivals : List ReliableStore.Arrival}
    (harrive : List.Forall₂ (fun u a => Carries u.msg a.message) todo arrivals) :
    let r := runMachine Endpoint.arrive e arrivals
    Catching log [] r.2 ∧ List.Forall₂ (Landed log r.2) todo r.1 ∧
      ∀ q ∈ e.store.remoteUnacked, q ∈ r.2.store.remoteUnacked := by
  induction harrive generalizing e with
  | nil => exact ⟨h, .nil, fun _ hq => hq⟩
  | @cons u a todo arrivals ha _ ih =>
    obtain ⟨hlanded, hgrows, hrest⟩ := h.landed hlog ha
    obtain ⟨hdone, hresults, hgrows'⟩ := ih hrest
    dsimp only
    rw [runMachine_cons]
    exact ⟨hdone, .cons (hlanded.mono hgrows') hresults, fun q hq => hgrows' q (hgrows q hq)⟩

end Catching

/-- Whatever was lost before, the peer only has to be sent what is kept, and of that only what it has not released. -/
theorem RoomyNet.catching {net : Network} (h : RoomyNet net) (p : Side) {todo : List UnackedLocalMessage}
    (hsub : todo.Sublist (net p).store.localUnacked)
    (hall : ∀ u ∈ (net p).store.localUnacked, (net p.other).delivered.length < u.messageId.toNat → u ∈ todo) :
    Catching (net p).log todo (net p.other) := by
  have hwindow := h.window p
  obtain ⟨hseq, hwaiting⟩ := h.reachable.sequenced h.few p.other
  rw [p.other_other] at hseq
  refine ⟨hseq, hwaiting, ?_, fun u hu => ?_, fun n hn hle => ?_⟩
  · have hordered := hwindow.ordered
    unfold Endpoint.keptIds at hordered
    rw [List.map_map, List.pairwise_map] at hordered
    exact hordered.sublist hsub
  · obtain ⟨hhonest, heq, h0⟩ := (h.reachable.inv h.few p).kept.honest u (hsub.subset hu)
    rw [heq] at h0 ⊢
    exact ⟨hhonest.logged.resolve_left h0, rfl⟩
  · obtain ⟨id, hid, hnum⟩ := hwindow.covered n hn hle
    obtain ⟨u, hu, rfl⟩ := List.mem_map.mp hid
    exact ⟨u, hall u hu (by omega), hnum⟩

/-- **A clean round.** Whatever was lost before: when every message that a party keeps arrives once, oldest first, the
peer releases everything that was sent. It gives up on nothing and queues all of it for acknowledgement, except for
what is so old that it is no longer recognised as a duplicate. -/
theorem clean_round (net : Network) (h : RoomyNet net) (p : Side) (arrivals : List ReliableStore.Arrival)
    (harrive : List.Forall₂ (fun u a => Carries u.msg a.message) (net p).store.localUnacked arrivals) :
    let r := runMachine Endpoint.arrive (net p.other) arrivals
    r.2.delivered = (net p).log ∧
      List.Forall₂ (fun u result => (net p).log.length + 1 < u.messageId.toNat + 16384 →
        (∃ b, result = .ok b) ∧ ∃ q ∈ r.2.store.remoteUnacked, q.messageId = u.messageId)
        (net p).store.localUnacked r.1 := by
  obtain ⟨hdone, hresults, -⟩ := (h.catching p (.refl _) fun _ hu _ => hu).run (h.few p) harrive
  exact ⟨hdone.done, hresults⟩

theorem clean_round_overtaken :
    (runMachine Endpoint.arrive (overtakenNet .right)
      [⟨fun _ => 0, 3, arrived firstMessage⟩, ⟨fun _ => 0, 4, arrived secondMessage⟩]).2.delivered = [[7], [8]] := by
  have hkept : (overtakenNet .left).store.localUnacked = [⟨1, firstMessage, 0, 0⟩, ⟨2, secondMessage, 1, 0⟩] := by
    decide
  refine (clean_round overtakenNet overtakenNet_roomy .left _ ?_).1
  rw [hkept]
  exact .cons (arrived_carries _) (.cons (arrived_carries _) .nil)

end Qunet
