import Qunet.Udp.Duplicates

/-!
# A stored message that arrives again

* `Queued` : stored ids are distinct, and none is the expected one or taken for a duplicate;
* `Harmless` : what receiving a stored message again is to do;
* `harmless_iff` : it does exactly that as long as the out-of-order list is not full.
-/

namespace Qunet
open Lib

namespace ReliableStore

/-- The message is answered with `Ok(false)` and the incoming side stays as it is. -/
structure Harmless (past : Nat → UInt16) (now : Nat) (s : ReliableStore) (m : ReliableMeta) : Prop where
  result : (s.handleIncoming past now m).1 = .ok false
  outOfOrder : (s.handleIncoming past now m).2.remoteOutOfOrder = s.remoteOutOfOrder
  delayed : (s.handleIncoming past now m).2.remoteDelayedQueue = s.remoteDelayedQueue
  unacked : (s.handleIncoming past now m).2.remoteUnacked = s.remoteUnacked
  next : (s.handleIncoming past now m).2.nextRemoteId = s.nextRemoteId

/-- The stored ids are distinct and no duplicates: each is still to come. -/
structure Queued (s : ReliableStore) : Prop where
  nodup : (s.remoteOutOfOrder.map (·.id)).Nodup
  ne_zero : ∀ e ∈ s.remoteOutOfOrder, e.id ≠ 0
  toCome : ∀ e ∈ s.remoteOutOfOrder, ¬ s.isDuplicate e.id

theorem Queued.congr {s t : ReliableStore} (h : s.Queued) (ho : t.remoteOutOfOrder = s.remoteOutOfOrder)
    (hn : t.nextRemoteId = s.nextRemoteId) : t.Queued := by
  refine ⟨by rw [ho]; exact h.nodup, by rw [ho]; exact h.ne_zero, fun e he => ?_⟩
  have hd := h.toCome e (by rwa [ho] at he)
  unfold isDuplicate at hd ⊢
  rwa [hn]

/-- An id that is not the expected one and no duplicate is no duplicate of the next expected one either. -/
theorem not_duplicate_succId {next id : UInt16} (hnext : next ≠ 0) (hid : id ≠ 0) (hne : id ≠ next)
    (hd : ¬ (id < next ∧ next.toNat - id.toNat < 16384)) :
    ¬ (id < succId next ∧ (succId next).toNat - id.toNat < 16384) := by
  have hpos := ne_zero_iff.mp hnext
  have hpos' := ne_zero_iff.mp hid
  have hne' : id.toNat ≠ next.toNat := fun h => hne (UInt16.toNat_inj.mp h)
  have hsucc := succId_toNat next
  rw [UInt16.lt_iff_toNat_lt] at hd ⊢
  split at hsucc <;> omega

/-- The expected id may be passed once no stored message waits for it. -/
theorem Queued.accept {s : ReliableStore} (h : s.Queued) (hs : s.Settled) (h0 : s.nextRemoteId ≠ 0) (now : Nat) :
    (s.accept now).Queued :=
  ⟨h.nodup, h.ne_zero, fun e he => not_duplicate_succId h0 (h.ne_zero e he) (hs e he) (h.toCome e he)⟩

/-- The ids being distinct, nothing waits for the expected id after the message with it was taken out. -/
theorem Queued.delay {s : ReliableStore} (h : s.Queued) (e : StoredOutOfOrderMessage) :
    (s.delay e).Queued ∧ (s.delay e).Settled := by
  have hsub : (s.delay e).remoteOutOfOrder.Sublist s.remoteOutOfOrder := List.eraseP_sublist
  exact ⟨⟨h.nodup.sublist (hsub.map _), fun e' he => h.ne_zero e' (hsub.subset he),
    fun e' he => h.toCome e' (hsub.subset he)⟩, ne_of_mem_eraseP h.nodup⟩

theorem Queued.restores {now : Nat} {s t : ReliableStore} {ms : List ReliableMeta} (hr : Restores now s ms t)
    (h : s.Queued) (h0 : s.nextRemoteId ≠ 0) : t.Queued := by
  induction hr with
  | done _ => exact h
  | @step s t e ms _ _ ih =>
    obtain ⟨hq, hsettled⟩ := h.delay e
    exact ih (hq.accept hsettled h0 now) (succId_ne_zero _)

theorem Queued.incoming {now : Nat} {s t : ReliableStore} {m : ReliableMeta} {r : Except TransportError Bool}
    (h : s.Queued) (hw : s.Waiting) (hi : Incoming now s m r t) : t.Queued := by
  cases hi with
  | unreliable => exact h
  | duplicateQueued => exact h
  | duplicate _ _ _ hr => exact .restores hr (h.congr rfl rfl) hw.next_ne_zero
  | full => exact h
  | stored => exact h
  | outOfOrder h0 hd _ _ hs =>
    refine ⟨?_, fun e he => ?_, fun e he => ?_⟩
    · rw [List.map_append, List.map_singleton, List.nodup_append]
      refine ⟨h.nodup, by simp, fun a ha b hb heq => ?_⟩
      obtain ⟨e, he, rfl⟩ := List.mem_map.mp ha
      exact hs ⟨e, he, heq.trans (List.mem_singleton.mp hb)⟩
    · rcases List.mem_append.mp he with he | he
      · exact h.ne_zero e he
      · rw [List.mem_singleton.mp he]; exact h0
    · rcases List.mem_append.mp he with he | he
      · exact h.toCome e he
      · rw [List.mem_singleton.mp he]; exact hd
  | inOrder _ _ hr => exact .restores hr (h.accept hw.settled hw.next_ne_zero now) (succId_ne_zero _)

theorem Queued.step {s t : ReliableStore} (h : s.Queued) (hw : s.Waiting) (hst : StoreStep s t) : t.Queued := by
  rcases hst.receives with ⟨unacked, now, m, r, hin⟩ | ⟨ho, hn⟩
  · have hqueued : ({ s with localUnacked := unacked } : ReliableStore).Queued := h.congr rfl rfl
    have hwaiting : ({ s with localUnacked := unacked } : ReliableStore).Waiting := hw.congr rfl rfl
    exact hqueued.incoming hwaiting hin
  · exact h.congr ho hn

theorem ReachableStore.queued {s : ReliableStore} (h : ReachableStore s) : s.Queued := by
  have hinit : ∀ s : ReliableStore, s = {} → s.Queued ∧ s.Waiting := by
    rintro s rfl
    exact ⟨⟨by simp, by simp, by simp⟩, ReachableStore.fresh.waiting⟩
  have hstep : ∀ s t : ReliableStore, s.Queued ∧ s.Waiting → StoreStep s t → t.Queued ∧ t.Waiting :=
    fun s t hs hst => ⟨hs.1.step hs.2 hst, hs.2.step hst⟩
  exact (Reachable.invariant hinit hstep h).1

/-- **A stored message that arrives again**: it is ignored as long as the list has a free place, because the capacity
is looked at before the list is searched for the id. -/
theorem harmless_iff (s : ReliableStore) (hs : ReachableStore s) (past : Nat → UInt16) (now : Nat) (m : ReliableMeta)
    (hst : ∃ e ∈ s.remoteOutOfOrder, e.id = messageIdOf m) :
    Harmless past now s m ↔ s.remoteOutOfOrder.length < 32 := by
  obtain ⟨e, he, hid⟩ := hst
  have h0 : messageIdOf m ≠ 0 := hid ▸ hs.queued.ne_zero e he
  have hd : ¬ s.isDuplicate (messageIdOf m) := hid ▸ hs.queued.toCome e he
  have hne : messageIdOf m ≠ s.nextRemoteId := hid ▸ hs.waiting.settled e he
  obtain ⟨unacked, hin⟩ := handleIncoming_acked past now s m
  generalize hr : s.handleIncoming past now m = r at hin
  obtain ⟨res, t⟩ := r
  dsimp only at hin
  cases hin with
  | unreliable hz => exact absurd hz h0
  | duplicateQueued _ hdt => exact absurd hdt hd
  | duplicate _ hdt => exact absurd hdt hd
  | full _ _ _ h32 =>
    refine iff_of_false (fun h => ?_) (Nat.not_lt.mpr h32)
    have hres := h.result
    rw [hr] at hres
    cases hres
  | stored _ _ _ h32 =>
    exact iff_of_true ⟨by rw [hr], by rw [hr], by rw [hr], by rw [hr], by rw [hr]⟩ h32
  | outOfOrder _ _ _ _ hs' => exact absurd ⟨e, he, hid⟩ hs'
  | inOrder _ hn => exact absurd hn hne

/-! ## A full list -/

/-- A store that waits for the first message and received the `n` messages after it. -/
def waitingRun : Nat → ReliableStore
  | 0 => {}
  | n + 1 => ((waitingRun n).handleIncoming (fun _ => 0) n (numbered (UInt16.ofNat (n + 2)))).2

theorem waitingRun_reachable (n : Nat) : ReachableStore (waitingRun n) := by
  induction n with
  | zero => exact .fresh
  | succ n ih => exact ih.step (.incoming _ _ _ _)

theorem harmless_second : Harmless (fun _ => 0) 5 (waitingRun 1) (numbered 2) :=
  (harmless_iff _ (waitingRun_reachable 1) _ _ _ (by decide)).mpr (by decide)

/-- With 32 messages stored, a retransmission of the first of them ends the connection. -/
theorem full_list_not_harmless :
    ReachableStore (waitingRun 32) ∧ (∃ e ∈ (waitingRun 32).remoteOutOfOrder, e.id = messageIdOf (numbered 2)) ∧
      ((waitingRun 32).handleIncoming (fun _ => 0) 40 (numbered 2)).1 = .error (.custom .tooUnreliable) ∧
      ¬ Harmless (fun _ => 0) 40 (waitingRun 32) (numbered 2) := by
  have herr : ((waitingRun 32).handleIncoming (fun _ => 0) 40 (numbered 2)).1 = .error (.custom .tooUnreliable) := by
    decide +kernel
  refine ⟨waitingRun_reachable 32, by decide +kernel, herr, fun h => ?_⟩
  have hres := h.result
  rw [herr] at hres
  cases hres

end ReliableStore

end Qunet
