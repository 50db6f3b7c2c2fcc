import Qunet.Udp.Reordering

/-!
# Retransmissions of released messages

A peer whose acknowledgement was lost sends a released message again.

* `outgoingAcks` : the ids that the next calls of `setOutgoingAcks` acknowledge;
* `ReAcked` : the message is dropped, nothing is stored, and its id is acknowledged again;
* `Behind` : an id is `d` positions behind the next expected one, in the cyclic order of the ids;
* **`reAcked_iff`** : which ids within 16383 positions behind are acknowledged again;
* `wrapped_duplicate_stored` : after 65535 messages the last one, sent again, is taken for a new one.
-/

namespace Qunet
open Lib

namespace ReliableStore

/-! ## Acknowledging again -/

/-- The ids that the next `n` calls of `setOutgoingAcks` acknowledge. -/
def outgoingAcks (hdr : ReliabilityHeader) : Nat → ReliableStore → List UInt16
  | 0, _ => []
  | n + 1, s => (s.setOutgoingAcks hdr).1.ackList ++ outgoingAcks hdr n (s.setOutgoingAcks hdr).2

/-- What `handleIncoming` should do with a message that was released before. -/
structure ReAcked (past : Nat → UInt16) (now : Nat) (s : ReliableStore) (m : ReliableMeta) : Prop where
  result : (s.handleIncoming past now m).1 = .ok false
  outOfOrder : (s.handleIncoming past now m).2.remoteOutOfOrder = s.remoteOutOfOrder
  queued : ∃ u ∈ (s.handleIncoming past now m).2.remoteUnacked, u.messageId = messageIdOf m
  acked : ∀ hdr, ∃ n, messageIdOf m ∈ outgoingAcks hdr n (s.handleIncoming past now m).2

/-- `id` is `d` positions behind `next`. -/
def Behind (d : Nat) (id next : UInt16) : Prop := succId^[d] id = next

instance (d : Nat) (id next : UInt16) : Decidable (Behind d id next) := inferInstanceAs (Decidable (_ = _))

/-- Every call takes eight ids from the front of the queue. -/
theorem outgoingAcks_eq (hdr : ReliabilityHeader) (n : Nat) (s : ReliableStore) :
    outgoingAcks hdr n s = (s.remoteUnacked.take (8 * n)).map (·.messageId) := by
  induction n generalizing s with
  | zero => rw [outgoingAcks, Nat.mul_zero, List.take_zero, List.map_nil]
  | succ n ih =>
    obtain ⟨hs, -, -, hacks⟩ := setOutgoingAcks_spec s hdr
    rw [outgoingAcks, ih, hacks, hs, ← List.map_append, show 8 * (n + 1) = 8 + 8 * n by omega, List.take_add]

/-- A queued id is acknowledged after finitely many calls. -/
theorem acked_of_queued {s : ReliableStore} {id : UInt16} (h : ∃ u ∈ s.remoteUnacked, u.messageId = id)
    (hdr : ReliabilityHeader) : ∃ n, id ∈ outgoingAcks hdr n s := by
  obtain ⟨u, hu, rfl⟩ := h
  refine ⟨s.remoteUnacked.length, ?_⟩
  rw [outgoingAcks_eq, List.take_of_length_le (by omega)]
  exact List.mem_map_of_mem hu

/-! ## Which ids are acknowledged again -/

section Behind
variable {d : Nat} {id next : UInt16} (hid : id ≠ 0) (hb : Behind d id next) (h1 : 1 ≤ d) (hd : d ≤ 16383)
include hid hb h1 hd

theorem Behind.ne : id ≠ next := by
  rintro rfl
  have h := iterate_succId_toNat d hid
  rw [hb] at h
  have := ne_zero_iff.mp hid
  omega

/-- Without a wraparound in between, the distance is the difference. -/
theorem Behind.sub_lt (hlt : id < next) : next.toNat - id.toNat < 16384 := by
  have hlt' := UInt16.lt_iff_toNat_lt.mp hlt
  have h := iterate_succId_toNat d hid
  have hpos := ne_zero_iff.mp hid
  rw [hb] at h
  omega

end Behind

/-- The duplicate test, on ids up to 16383 positions behind, is the comparison of the ids. -/
theorem isDuplicate_iff {s : ReliableStore} {d : Nat} {id : UInt16} (hid : id ≠ 0) (hb : Behind d id s.nextRemoteId)
    (h1 : 1 ≤ d) (hd : d ≤ 16383) : s.isDuplicate id ↔ id < s.nextRemoteId :=
  ⟨fun h => h.1, fun h => ⟨h, hb.sub_lt hid h1 hd h⟩⟩

theorem ReAcked.intro {past : Nat → UInt16} {now : Nat} {s : ReliableStore} {m : ReliableMeta}
    (hres : (s.handleIncoming past now m).1 = .ok false)
    (hout : (s.handleIncoming past now m).2.remoteOutOfOrder = s.remoteOutOfOrder)
    (hq : ∃ u ∈ (s.handleIncoming past now m).2.remoteUnacked, u.messageId = messageIdOf m) :
    ReAcked past now s m :=
  ⟨hres, hout, hq, acked_of_queued hq⟩

/-- **Retransmissions across the wraparound**: of the ids up to 16383 positions behind the next expected one, exactly
those that are also numerically less are recognised; one on the other side of the wraparound is treated as new, and
does no harm only if it was already stored and is still queued for acknowledgement. -/
theorem reAcked_iff (s : ReliableStore) (hs : ReachableStore s) (past : Nat → UInt16) (now : Nat) (m : ReliableMeta)
    (hid : messageIdOf m ≠ 0) (d : Nat) (h1 : 1 ≤ d) (hd : d ≤ 16383)
    (hb : Behind d (messageIdOf m) s.nextRemoteId) :
    ReAcked past now s m ↔ messageIdOf m < s.nextRemoteId ∨
      (s.remoteOutOfOrder.length < 32 ∧ (∃ e ∈ s.remoteOutOfOrder, e.id = messageIdOf m) ∧
        ∃ u ∈ s.remoteUnacked, u.messageId = messageIdOf m) := by
  have hne := hb.ne hid h1 hd
  have hdup := isDuplicate_iff hid hb h1 hd
  obtain ⟨unacked, hin⟩ := handleIncoming_acked past now s m
  generalize hr : s.handleIncoming past now m = r at hin
  obtain ⟨res, t⟩ := r
  dsimp only at hin
  cases hin with
  | unreliable h0 => exact absurd h0 hid
  | duplicateQueued _ hdt hq =>
    exact iff_of_true (.intro (by rw [hr]) (by rw [hr]) (by rw [hr]; exact hq)) (.inl (hdup.mp hdt))
  | @duplicate _ hdt _ ms t hrest =>
    obtain ⟨-, rfl⟩ := hrest.eq_of_settled hs.waiting.settled
    refine iff_of_true (.intro (by rw [hr]) (by rw [hr]) ?_) (.inl (hdup.mp hdt))
    rw [hr]
    exact ⟨_, List.mem_append_right _ (List.mem_singleton_self _), rfl⟩
  | full _ hdt _ h32 =>
    refine iff_of_false (fun h => ?_) ?_
    · have hres := h.result
      rw [hr] at hres
      cases hres
    · rintro (hlt | ⟨hlt, -⟩)
      · exact hdt (hdup.mpr hlt)
      · exact absurd h32 (by simpa using hlt)
  | stored _ hdt _ h32 hst =>
    constructor
    · intro h
      have hq := h.queued
      rw [hr] at hq
      exact .inr ⟨h32, hst, hq⟩
    · rintro (hlt | ⟨-, -, hq⟩)
      · exact absurd (hdup.mpr hlt) hdt
      · exact .intro (by rw [hr]) (by rw [hr]) (by rw [hr]; exact hq)
  | outOfOrder _ hdt _ _ hst =>
    refine iff_of_false (fun h => ?_) ?_
    · have hout := h.outOfOrder
      rw [hr] at hout
      simp at hout
    · rintro (hlt | ⟨-, hst', -⟩)
      · exact hdt (hdup.mpr hlt)
      · exact hst hst'
  | inOrder _ hn => exact absurd hn hne

theorem reAcked_first : ReAcked (fun _ => 0) 7 (({} : ReliableStore).handleIncoming (fun _ => 0) 5 (numbered 1)).2
    (numbered 1) := by
  have hs : ReachableStore (({} : ReliableStore).handleIncoming (fun _ => 0) 5 (numbered 1)).2 :=
    ReachableStore.fresh.step (.incoming _ _ _ _)
  exact (reAcked_iff _ hs _ _ _ (by decide) 1 (by decide) (by decide) (by decide)).mpr (.inl (by decide))

/-! ## A duplicate across the wraparound -/

/-- A store that received its first `n` messages in order and acknowledged each one. -/
def inOrderRun : Nat → ReliableStore
  | 0 => {}
  | n + 1 =>
    let s := ((inOrderRun n).handleIncoming (fun _ => 0) n (numbered (inOrderRun n).nextRemoteId)).2
    (s.setOutgoingAcks ⟨0, 0, .replicate 8 0⟩).2

theorem inOrderRun_reachable (n : Nat) : ReachableStore (inOrderRun n) := by
  induction n with
  | zero => exact .fresh
  | succ n ih => exact (ih.step (.incoming _ _ _ _)).step (.acks _ _)

theorem inOrderRun_eq (n : Nat) : inOrderRun n = { nextRemoteId := succId^[n] 1 } := by
  induction n with
  | zero => rfl
  | succ n ih =>
    have h0 : succId^[n] 1 ≠ 0 := iterate_succId_ne_zero n (by decide)
    rw [inOrderRun, ih, Function.iterate_succ_apply']
    generalize succId^[n] 1 = id at h0
    have hin := handleIncoming_incoming (fun _ => 0) n { nextRemoteId := id } (numbered id)
    change Incoming n { nextRemoteId := id } (numbered id) _ _ at hin
    dsimp only
    generalize handleIncoming (fun _ => 0) n { nextRemoteId := id } (numbered id) = r at hin ⊢
    rw [(setOutgoingAcks_spec _ _).1]
    obtain ⟨res, t⟩ := r
    dsimp only at hin ⊢
    cases hin with
    | unreliable hz => exact absurd hz h0
    | duplicateQueued _ hd => exact absurd hd.1 (UInt16.lt_irrefl id)
    | duplicate _ hd => exact absurd hd.1 (UInt16.lt_irrefl id)
    | full _ _ hn => exact absurd rfl hn
    | stored _ _ hn => exact absurd rfl hn
    | outOfOrder _ _ hn => exact absurd rfl hn
    | inOrder _ _ hr =>
      obtain ⟨-, rfl⟩ := hr.eq_of_settled (by simp [Settled, accept])
      rfl

/-- All of `1, …, 65535` are released, and `1` is expected again. -/
theorem inOrderRun_wrapped : inOrderRun 65535 = {} := by
  rw [inOrderRun_eq, show succId^[65535] 1 = 1 by
    rw [← UInt16.toNat_inj, iterate_succId_toNat _ (by decide)]; rfl]

theorem wrapped_duplicate_stored :
    ReachableStore (inOrderRun 65535) ∧ Behind 1 (messageIdOf (numbered 65535)) (inOrderRun 65535).nextRemoteId ∧
      ¬ ReAcked (fun _ => 0) 70000 (inOrderRun 65535) (numbered 65535) := by
  refine ⟨inOrderRun_reachable _, ?_, fun h => ?_⟩
  · rw [inOrderRun_wrapped]
    decide
  · have hout := h.outOfOrder
    rw [inOrderRun_wrapped] at hout
    revert hout
    decide

end ReliableStore

end Qunet
