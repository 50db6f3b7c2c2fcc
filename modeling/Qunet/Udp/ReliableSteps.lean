import Qunet.Udp.ReliableStore
import Qunet.Lib.Machine
import Mathlib.Data.List.Basic

/-!
# What the operations of the reliable store can do

* `Restores` : `maybeRestoreRemote`, one restored message at a time (`maybeRestoreRemote_restores`);
* `Incoming` : one call of `handleIncoming`, guards included (`handleIncoming_incoming`);
* `processAcks_*`, `setOutgoingAcks_spec` : the two directions of the acknowledgements;
* `StoreStep` : the operations as a transition relation, and `Settled`, its first invariant.
-/

namespace Qunet
open Lib

namespace ReliableStore

/-- In a list without two elements of one value, `eraseP` takes all elements with a value. -/
theorem ne_of_mem_eraseP {α β : Type} [DecidableEq β] {f : α → β} {b : β} {l : List α} (hn : (l.map f).Nodup) :
    ∀ a ∈ l.eraseP fun a => f a = b, f a ≠ b := by
  induction l with
  | nil => simp
  | cons a l ih =>
    rw [List.map_cons, List.nodup_cons] at hn
    intro a' ha'
    by_cases ha : f a = b
    · rw [List.eraseP_cons_of_pos (by simpa using ha)] at ha'
      exact fun heq => hn.1 (List.mem_map.mpr ⟨a', ha', heq.trans ha.symm⟩)
    · rw [List.eraseP_cons_of_neg (by simpa using ha)] at ha'
      rcases List.mem_cons.mp ha' with rfl | ha'
      · exact ha
      · exact ih hn.2 a' ha'

/-! ## Restoring out-of-order messages -/

/-- The next expected message was received: it is to be acknowledged, and the next id is expected. -/
def accept (now : Nat) (s : ReliableStore) : ReliableStore :=
  { s with nextRemoteId := succId s.nextRemoteId, remoteUnacked := s.remoteUnacked ++ [⟨s.nextRemoteId, now⟩] }

/-- The stored message with the next expected id. -/
def nextStored (s : ReliableStore) : Option StoredOutOfOrderMessage :=
  s.remoteOutOfOrder.find? fun e => e.id = s.nextRemoteId

/-- The stored message with the next expected id moves to the delayed queue. -/
def delay (e : StoredOutOfOrderMessage) (s : ReliableStore) : ReliableStore :=
  { s with remoteDelayedQueue := s.remoteDelayedQueue ++ [e.message]
           remoteOutOfOrder := s.remoteOutOfOrder.eraseP fun e => e.id = s.nextRemoteId }

/-- No stored message has the next expected id. -/
def Settled (s : ReliableStore) : Prop := ∀ e ∈ s.remoteOutOfOrder, e.id ≠ s.nextRemoteId

theorem nextStored_eq_none {s : ReliableStore} : s.nextStored = none ↔ s.Settled := by
  simp [nextStored, Settled]

theorem nextStored_some {s : ReliableStore} {e : StoredOutOfOrderMessage} (h : s.nextStored = some e) :
    e ∈ s.remoteOutOfOrder ∧ e.id = s.nextRemoteId :=
  ⟨List.mem_of_find?_eq_some h, by simpa using List.find?_some h⟩

theorem pushRemoteUnackedThen_eq (restore : ReliableStore → ReliableStore) (now : Nat) (s : ReliableStore) :
    pushRemoteUnackedThen restore now s = restore (s.accept now) := by
  simp [pushRemoteUnackedThen, pushRemoteUnackedWithId, accept]

/-- The messages `ms` are restored one after the other, until none is left to restore. -/
inductive Restores (now : Nat) : ReliableStore → List ReliableMeta → ReliableStore → Prop where
  | done {s : ReliableStore} (h : s.Settled) : Restores now s [] s
  | step {s t : ReliableStore} {e : StoredOutOfOrderMessage} {ms : List ReliableMeta}
      (h : s.nextStored = some e) (rest : Restores now ((s.delay e).accept now) ms t) :
      Restores now s (e.message :: ms) t

theorem delay_length {s : ReliableStore} {e : StoredOutOfOrderMessage} (h : s.nextStored = some e) :
    (s.delay e).remoteOutOfOrder.length = s.remoteOutOfOrder.length - 1 := by
  obtain ⟨hmem, hid⟩ := nextStored_some h
  exact List.length_eraseP_of_mem hmem (by simpa using hid)

theorem maybeRestoreRemote_none {now rounds : Nat} {s : ReliableStore} (h : s.nextStored = none) :
    maybeRestoreRemote now (rounds + 1) s = s := by
  unfold nextStored at h
  unfold maybeRestoreRemote
  rw [h]

theorem maybeRestoreRemote_some {now rounds : Nat} {s : ReliableStore} {e : StoredOutOfOrderMessage}
    (h : s.nextStored = some e) :
    maybeRestoreRemote now (rounds + 1) s = maybeRestoreRemote now rounds ((s.delay e).accept now) := by
  unfold nextStored at h
  rw [← pushRemoteUnackedThen_eq (maybeRestoreRemote now rounds) now (s.delay e), maybeRestoreRemote, h]
  rfl

theorem maybeRestoreRemote_restores (now : Nat) (rounds : Nat) (s : ReliableStore)
    (hr : s.remoteOutOfOrder.length ≤ rounds) : ∃ ms, Restores now s ms (maybeRestoreRemote now rounds s) := by
  induction rounds generalizing s with
  | zero =>
    have hnil : s.remoteOutOfOrder = [] := List.length_eq_zero_iff.mp (by omega)
    exact ⟨[], .done (by simp [Settled, hnil])⟩
  | succ rounds ih =>
    cases h : s.nextStored with
    | none =>
      rw [maybeRestoreRemote_none h]
      exact ⟨[], .done (nextStored_eq_none.mp h)⟩
    | some e =>
      have hlen := delay_length h
      have hpos : 0 < s.remoteOutOfOrder.length := List.length_pos_of_mem (nextStored_some h).1
      have hrounds : ((s.delay e).accept now).remoteOutOfOrder.length ≤ rounds := by
        show (s.delay e).remoteOutOfOrder.length ≤ rounds
        omega
      obtain ⟨ms, hms⟩ := ih ((s.delay e).accept now) hrounds
      rw [maybeRestoreRemote_some h]
      exact ⟨e.message :: ms, .step h hms⟩

/-- The ids of `n` messages in a row, starting with `id`. -/
def idsFrom (id : UInt16) : Nat → List UInt16
  | 0 => []
  | n + 1 => id :: idsFrom (succId id) n

section Restores
variable {now : Nat} {s t : ReliableStore} {ms : List ReliableMeta}

theorem Restores.settled (h : Restores now s ms t) : t.Settled := by
  induction h with
  | done h => exact h
  | step _ _ ih => exact ih

theorem Restores.ids (h : Restores now s ms t) : ms.map messageIdOf = idsFrom s.nextRemoteId ms.length := by
  induction h with
  | done _ => rfl
  | step h _ ih =>
    rw [List.map_cons, List.length_cons, idsFrom, ih]
    exact congrArg (· :: _) (nextStored_some h).2

theorem Restores.next (h : Restores now s ms t) : t.nextRemoteId = succId^[ms.length] s.nextRemoteId := by
  induction h with
  | done _ => rfl
  | step _ _ ih => rw [ih, List.length_cons, Function.iterate_succ_apply]; rfl

theorem Restores.delayed (h : Restores now s ms t) : t.remoteDelayedQueue = s.remoteDelayedQueue ++ ms := by
  induction h with
  | done _ => rw [List.append_nil]
  | step _ _ ih => rw [ih]; simp [accept, delay]

theorem Restores.unacked (h : Restores now s ms t) :
    t.remoteUnacked = s.remoteUnacked ++ ms.map fun m => ⟨messageIdOf m, now⟩ := by
  induction h with
  | done _ => simp
  | step h _ ih =>
    have hid : messageIdOf _ = _ := (nextStored_some h).2
    rw [ih]
    simp [accept, delay, hid]

theorem Restores.outOfOrder (h : Restores now s ms t) : t.remoteOutOfOrder.Sublist s.remoteOutOfOrder := by
  induction h with
  | done _ => exact List.Sublist.refl _
  | step _ _ ih => exact ih.trans List.eraseP_sublist

theorem Restores.stored (h : Restores now s ms t) : ∀ m ∈ ms, ∃ e ∈ s.remoteOutOfOrder, e.message = m := by
  induction h with
  | done _ => simp
  | step h _ ih =>
    intro m hm
    rcases List.mem_cons.mp hm with rfl | hm
    · exact ⟨_, (nextStored_some h).1, rfl⟩
    · obtain ⟨e, he, rfl⟩ := ih m hm
      exact ⟨e, List.mem_of_mem_eraseP he, rfl⟩

/-- Restoring touches nothing of the outgoing side. -/
theorem Restores.frame (h : Restores now s ms t) :
    t.localUnacked = s.localUnacked ∧ t.nextLocalId = s.nextLocalId ∧ t.avgRttMicros = s.avgRttMicros := by
  induction h with
  | done _ => exact ⟨rfl, rfl, rfl⟩
  | step _ _ ih => exact ih

/-- In a settled store nothing is restored. -/
theorem Restores.eq_of_settled (h : Restores now s ms t) (hs : s.Settled) : ms = [] ∧ t = s := by
  cases h with
  | done _ => exact ⟨rfl, rfl⟩
  | step h _ => exact absurd (nextStored_some h).2 (hs _ (nextStored_some h).1)

end Restores

theorem pushRemoteUnacked_restores (now : Nat) (s : ReliableStore) :
    ∃ ms, Restores now (s.accept now) ms (s.pushRemoteUnacked now) := by
  rw [pushRemoteUnacked, pushRemoteUnackedThen_eq]
  exact maybeRestoreRemote_restores now _ _ (Nat.le_refl _)

/-! ## One incoming message -/

/-- What `handleIncoming` can do once the acknowledgements are processed. -/
inductive Incoming (now : Nat) (s : ReliableStore) (m : ReliableMeta) :
    Except TransportError Bool → ReliableStore → Prop where
  | unreliable (h0 : messageIdOf m = 0) : Incoming now s m (.ok true) s
  | duplicateQueued (h0 : messageIdOf m ≠ 0) (hd : s.isDuplicate (messageIdOf m))
      (hq : ∃ u ∈ s.remoteUnacked, u.messageId = messageIdOf m) : Incoming now s m (.ok false) s
  | duplicate (h0 : messageIdOf m ≠ 0) (hd : s.isDuplicate (messageIdOf m))
      (hq : ¬ ∃ u ∈ s.remoteUnacked, u.messageId = messageIdOf m) {ms : List ReliableMeta} {t : ReliableStore}
      (hr : Restores now { s with remoteUnacked := s.remoteUnacked ++ [⟨messageIdOf m, now⟩] } ms t) :
      Incoming now s m (.ok false) t
  | full (h0 : messageIdOf m ≠ 0) (hd : ¬ s.isDuplicate (messageIdOf m)) (hn : messageIdOf m ≠ s.nextRemoteId)
      (h32 : 32 ≤ s.remoteOutOfOrder.length) : Incoming now s m (.error (.custom .tooUnreliable)) s
  | stored (h0 : messageIdOf m ≠ 0) (hd : ¬ s.isDuplicate (messageIdOf m)) (hn : messageIdOf m ≠ s.nextRemoteId)
      (h32 : s.remoteOutOfOrder.length < 32) (hs : ∃ e ∈ s.remoteOutOfOrder, e.id = messageIdOf m) :
      Incoming now s m (.ok false) s
  | outOfOrder (h0 : messageIdOf m ≠ 0) (hd : ¬ s.isDuplicate (messageIdOf m)) (hn : messageIdOf m ≠ s.nextRemoteId)
      (h32 : s.remoteOutOfOrder.length < 32) (hs : ¬ ∃ e ∈ s.remoteOutOfOrder, e.id = messageIdOf m) :
      Incoming now s m (.ok false) { s with remoteOutOfOrder := s.remoteOutOfOrder ++ [⟨m, now⟩] }
  | inOrder (h0 : messageIdOf m ≠ 0) (hn : messageIdOf m = s.nextRemoteId) {ms : List ReliableMeta} {t : ReliableStore}
      (hr : Restores now (s.accept now) ms t) : Incoming now s m (.ok true) t

/-- **One call of `handleIncoming`.** -/
theorem handleIncoming_incoming (past : Nat → UInt16) (now : Nat) (s : ReliableStore) (m : ReliableMeta) :
    Incoming now (s.processAcks past m.header) m (s.handleIncoming past now m).1 (s.handleIncoming past now m).2 := by
  unfold handleIncoming
  dsimp only
  generalize s.processAcks past m.header = s
  by_cases h0 : m.header.messageId = 0
  · rw [if_pos h0]
    exact .unreliable h0
  rw [if_neg h0]
  by_cases hd : s.isDuplicate m.header.messageId
  · rw [if_pos hd]
    unfold pushRemoteDuplicate pushRemoteUnackedWithId
    by_cases hq : ∃ u ∈ s.remoteUnacked, u.messageId = m.header.messageId
    · rw [if_pos ⟨rfl, hq⟩]
      exact .duplicateQueued h0 hd hq
    · rw [if_neg (fun h => hq h.2)]
      obtain ⟨ms, hms⟩ := maybeRestoreRemote_restores now s.remoteOutOfOrder.length
        { s with remoteUnacked := s.remoteUnacked ++ [⟨m.header.messageId, now⟩] } (Nat.le_refl _)
      exact .duplicate h0 hd hq hms
  rw [if_neg hd]
  by_cases hn : m.header.messageId = s.nextRemoteId
  · rw [if_neg (not_not.mpr hn)]
    obtain ⟨ms, hms⟩ := pushRemoteUnacked_restores now s
    exact .inOrder h0 hn hms
  rw [if_pos hn]
  unfold storeRemoteOutOfOrder
  by_cases h32 : 32 ≤ s.remoteOutOfOrder.length
  · rw [if_pos h32]
    exact .full h0 hd hn h32
  rw [if_neg h32]
  by_cases hs : ∃ e ∈ s.remoteOutOfOrder, e.id = m.header.messageId
  · rw [if_pos hs]
    exact .stored h0 hd hn (by omega) hs
  · rw [if_neg hs]
    exact .outOfOrder h0 hd hn (by omega) hs

/-- An incoming message touches nothing of the outgoing side but what it acknowledges. -/
theorem Incoming.frame {now : Nat} {s t : ReliableStore} {m : ReliableMeta} {r : Except TransportError Bool}
    (h : Incoming now s m r t) : t.localUnacked = s.localUnacked ∧ t.nextLocalId = s.nextLocalId := by
  cases h with
  | unreliable => exact ⟨rfl, rfl⟩
  | duplicateQueued => exact ⟨rfl, rfl⟩
  | duplicate _ _ _ hr => exact ⟨hr.frame.1, hr.frame.2.1⟩
  | full => exact ⟨rfl, rfl⟩
  | stored => exact ⟨rfl, rfl⟩
  | outOfOrder => exact ⟨rfl, rfl⟩
  | inOrder _ _ hr => exact ⟨hr.frame.1, hr.frame.2.1⟩

/-- What holds of the messages that wait, and of the incoming one, holds of those that wait afterwards. -/
theorem Incoming.all {P : ReliableMeta → Prop} {now : Nat} {s t : ReliableStore} {m : ReliableMeta}
    {r : Except TransportError Bool} (h : Incoming now s m r t) (hm : P m) (ho : ∀ e ∈ s.remoteOutOfOrder, P e.message)
    (hd : ∀ m ∈ s.remoteDelayedQueue, P m) :
    (∀ e ∈ t.remoteOutOfOrder, P e.message) ∧ ∀ m ∈ t.remoteDelayedQueue, P m := by
  -- restoring moves messages from the one list to the other
  have hrestores : ∀ {s₁ : ReliableStore} {ms : List ReliableMeta}, Restores now s₁ ms t →
      s₁.remoteOutOfOrder = s.remoteOutOfOrder → s₁.remoteDelayedQueue = s.remoteDelayedQueue →
      (∀ e ∈ t.remoteOutOfOrder, P e.message) ∧ ∀ m ∈ t.remoteDelayedQueue, P m := by
    intro s₁ ms hr h₁ h₂
    constructor
    · intro e he
      exact ho e (h₁ ▸ hr.outOfOrder.subset he)
    · intro m' hm'
      rw [hr.delayed, h₂] at hm'
      rcases List.mem_append.mp hm' with hm' | hm'
      · exact hd m' hm'
      · obtain ⟨e, he, rfl⟩ := hr.stored m' hm'
        exact ho e (h₁ ▸ he)
  cases h with
  | unreliable => exact ⟨ho, hd⟩
  | duplicateQueued => exact ⟨ho, hd⟩
  | duplicate _ _ _ hr => exact hrestores hr rfl rfl
  | full => exact ⟨ho, hd⟩
  | stored => exact ⟨ho, hd⟩
  | outOfOrder =>
    refine ⟨fun e he => ?_, hd⟩
    rcases List.mem_append.mp he with he | he
    · exact ho e he
    · rw [List.mem_singleton.mp he]
      exact hm
  | inOrder _ _ hr => exact hrestores hr rfl rfl

/-! ## Ids -/

theorem succId_toNat (id : UInt16) : (succId id).toNat = if id.toNat = 65535 then 1 else id.toNat + 1 := by
  have hlt := id.toNat_lt
  have hadd : (id + 1).toNat = (id.toNat + 1) % 65536 := by simp
  have hzero : id + 1 = 0 ↔ id.toNat = 65535 := by
    rw [← UInt16.toNat_inj, hadd, UInt16.toNat_zero]
    omega
  unfold succId
  by_cases h : id.toNat = 65535
  · rw [if_pos (hzero.mpr h), if_pos h]; rfl
  · rw [if_neg (fun hz => h (hzero.mp hz)), if_neg h, hadd]
    omega

theorem succId_ne_zero (id : UInt16) : succId id ≠ 0 := by
  rw [Ne, ← UInt16.toNat_inj, succId_toNat, UInt16.toNat_zero]
  split <;> omega

theorem ne_zero_iff {id : UInt16} : id ≠ 0 ↔ 0 < id.toNat := by
  rw [Ne, ← UInt16.toNat_inj, UInt16.toNat_zero]
  omega

theorem iterate_succId_ne_zero (n : Nat) {id : UInt16} (h : id ≠ 0) : succId^[n] id ≠ 0 := by
  cases n with
  | zero => exact h
  | succ n => rw [Function.iterate_succ_apply']; exact succId_ne_zero _

/-- The ids run through `1, …, 65535` cyclically. -/
theorem iterate_succId_toNat (n : Nat) {id : UInt16} (h : id ≠ 0) :
    (succId^[n] id).toNat = (id.toNat - 1 + n) % 65535 + 1 := by
  have hpos := ne_zero_iff.mp h
  induction n with
  | zero =>
    have hlt := id.toNat_lt
    rw [Function.iterate_zero_apply, Nat.add_zero, Nat.mod_eq_of_lt (by omega)]
    omega
  | succ n ih =>
    rw [Function.iterate_succ_apply', succId_toNat, ih]
    split <;> omega

theorem idsFrom_length (id : UInt16) (n : Nat) : (idsFrom id n).length = n := by
  induction n generalizing id with
  | zero => rfl
  | succ n ih => rw [idsFrom, List.length_cons, ih]

/-- A run of ids splits anywhere. -/
theorem idsFrom_add (id : UInt16) (m n : Nat) : idsFrom id (m + n) = idsFrom id m ++ idsFrom (succId^[m] id) n := by
  induction m generalizing id with
  | zero => simp [idsFrom]
  | succ m ih => rw [Nat.succ_add, idsFrom, idsFrom, ih, Function.iterate_succ_apply, List.cons_append]

/-! ## Acknowledgements -/

theorem ackLocal_spec (s : ReliableStore) (id : UInt16) :
    ∃ l, s.ackLocal id = { s with localUnacked := l } ∧ l.Sublist s.localUnacked ∧
      ∀ u ∈ s.localUnacked, u ∉ l → u.messageId = id := by
  refine ⟨_, rfl, List.eraseP_sublist, fun u hu hn => ?_⟩
  by_contra hne
  exact hn ((List.mem_eraseP_of_neg (by simpa using hne)).mpr hu)

/-- The acknowledgements remove local messages and nothing else, each one named at a visited index. -/
theorem processAcks_spec (past : Nat → UInt16) (s : ReliableStore) (h : ReliabilityHeader) :
    ∃ l, s.processAcks past h = { s with localUnacked := l } ∧ l.Sublist s.localUnacked ∧
      ∀ u ∈ s.localUnacked, u ∉ l → ∃ i ∈ h.ackIndices, h.ackAt past i = u.messageId := by
  unfold processAcks
  generalize h.ackIndices = is
  induction is generalizing s with
  | nil => exact ⟨s.localUnacked, rfl, List.Sublist.refl _, fun u hu hn => absurd hu hn⟩
  | cons i is ih =>
    obtain ⟨l₁, h₁, hsub₁, hrem₁⟩ := ackLocal_spec s (h.ackAt past i)
    obtain ⟨l₂, h₂, hsub₂, hrem₂⟩ := ih (s.ackLocal (h.ackAt past i))
    rw [h₁] at h₂ hsub₂ hrem₂
    refine ⟨l₂, by rw [List.foldl_cons, h₁, h₂], hsub₂.trans hsub₁, fun u hu hn => ?_⟩
    by_cases hmid : u ∈ l₁
    · obtain ⟨j, hj, he⟩ := hrem₂ u hmid hn
      exact ⟨j, List.mem_cons_of_mem i hj, he⟩
    · exact ⟨i, List.mem_cons_self, (hrem₁ u hu hmid).symm⟩

/-- A call of `handleIncoming`, behind the removal of the acknowledged messages. -/
theorem handleIncoming_acked (past : Nat → UInt16) (now : Nat) (s : ReliableStore) (m : ReliableMeta) :
    ∃ unacked, Incoming now { s with localUnacked := unacked } m (s.handleIncoming past now m).1
      (s.handleIncoming past now m).2 := by
  obtain ⟨unacked, hacked, -, -⟩ := processAcks_spec past s m.header
  exact ⟨unacked, hacked ▸ handleIncoming_incoming past now s m⟩

/-- An honest count names only entries of the array. -/
theorem ackAt_mem {past : Nat → UInt16} {h : ReliabilityHeader} (hc : h.ackCount ≤ 8) {i : Nat}
    (hi : i ∈ h.ackIndices) : h.ackAt past i ∈ h.ackList := by
  rw [ReliabilityHeader.ackIndices, List.mem_range] at hi
  have h8 : i < 8 := by omega
  rw [ReliabilityHeader.ackAt, dif_pos h8, ReliabilityHeader.ackList]
  refine List.mem_iff_getElem.mpr ⟨i, by simp; omega, ?_⟩
  rw [List.getElem_take, Vector.getElem_toList]

theorem setOutgoingAcksLoop_spec (k i : Nat) (h : ReliabilityHeader) (s : ReliableStore) (hi : h.ackCount = i)
    (hk : i + k ≤ 8) :
    let r := setOutgoingAcksLoop (List.range' i k) h s
    r.2 = { s with remoteUnacked := s.remoteUnacked.drop k } ∧ r.1.messageId = h.messageId ∧
      r.1.ackCount = i + min k s.remoteUnacked.length ∧
      r.1.ackList = h.ackList ++ (s.remoteUnacked.take k).map (·.messageId) := by
  induction k generalizing i h s with
  | zero => simp [setOutgoingAcksLoop, hi]
  | succ k ih =>
    rw [List.range'_succ]
    unfold setOutgoingAcksLoop
    cases hu : s.remoteUnacked with
    | nil =>
      have hs : s = { s with remoteUnacked := [] } := by rw [← hu]
      refine ⟨by rw [List.drop_nil]; exact hs, rfl, by simp [hi], by simp⟩
    | cons msg rest =>
      obtain ⟨h1, h2, h3, h4⟩ := ih (i + 1)
        { h with acks := h.acks.setIfInBounds i msg.messageId, ackCount := h.ackCount + 1 }
        { s with remoteUnacked := rest } (by rw [hi]) (by omega)
      refine ⟨h1, h2, ?_, ?_⟩
      · rw [h3, List.length_cons]
        dsimp only
        omega
      · have hlist : ReliabilityHeader.ackList
            { h with acks := h.acks.setIfInBounds i msg.messageId, ackCount := h.ackCount + 1 } =
              h.ackList ++ [msg.messageId] := by
          unfold ReliabilityHeader.ackList
          rw [Vector.toList_setIfInBounds, hi, List.take_add_one, List.take_set_of_le (Nat.le_refl i),
            List.getElem?_set_self (by rw [Vector.length_toList]; omega)]
          rfl
        rw [h4, hlist]
        simp

/-- The oldest eight received ids are acknowledged and leave the queue. -/
theorem setOutgoingAcks_spec (s : ReliableStore) (h : ReliabilityHeader) :
    (s.setOutgoingAcks h).2 = { s with remoteUnacked := s.remoteUnacked.drop 8 } ∧
      (s.setOutgoingAcks h).1.messageId = h.messageId ∧
      (s.setOutgoingAcks h).1.ackCount = min 8 s.remoteUnacked.length ∧
      (s.setOutgoingAcks h).1.ackList = (s.remoteUnacked.take 8).map (·.messageId) := by
  have hspec := setOutgoingAcksLoop_spec 8 0 { h with ackCount := 0 } s rfl (by omega)
  rw [← List.range_eq_range'] at hspec
  obtain ⟨h1, h2, h3, h4⟩ := hspec
  exact ⟨h1, h2, by rw [setOutgoingAcks, h3]; omega, by rw [setOutgoingAcks, h4]; simp [ReliabilityHeader.ackList]⟩

/-! ## Retransmission -/

/-- The scan only touches the clocks and counters, and returns a kept message. -/
theorem retransmitScan_spec (deadline : Nat → Nat) (now : Nat) (l : List UnackedLocalMessage) :
    (retransmitScan deadline now l).2.map (fun u => (u.messageId, u.msg)) = l.map (fun u => (u.messageId, u.msg)) ∧
      ∀ d, (retransmitScan deadline now l).1 = .ok (some d) → ∃ u ∈ l, u.msg = d := by
  induction l with
  | nil => simp [retransmitScan]
  | cons u l ih =>
    unfold retransmitScan
    split
    · dsimp only
      split
      · exact ⟨rfl, fun d hd => by cases hd⟩
      · refine ⟨rfl, fun d hd => ?_⟩
        cases hd
        exact ⟨u, List.mem_cons_self, rfl⟩
    · refine ⟨by rw [List.map_cons, List.map_cons, ih.1], fun d hd => ?_⟩
      obtain ⟨v, hv, rfl⟩ := ih.2 d hd
      exact ⟨v, List.mem_cons_of_mem u hv, rfl⟩

/-! ## The store as a transition system -/

/-- Any operation, with any arguments. -/
inductive StoreStep : ReliableStore → ReliableStore → Prop where
  | incoming (s : ReliableStore) (past : Nat → UInt16) (now : Nat) (m : ReliableMeta) :
      StoreStep s (s.handleIncoming past now m).2
  | pop (s : ReliableStore) : StoreStep s s.popDelayedMessage.2
  | nextId (s : ReliableStore) : StoreStep s s.nextMessageId.2
  | acks (s : ReliableStore) (h : ReliabilityHeader) : StoreStep s (s.setOutgoingAcks h).2
  | push (s : ReliableStore) (now : Nat) (msg : ReliableData) : StoreStep s (s.pushLocalUnacked now msg).2
  | retransmit (s : ReliableStore) (deadline : Nat → Nat) (now : Nat) : StoreStep s (s.maybeRetransmit deadline now).2
  | rtt (s : ReliableStore) (rttMicros : UInt64) : StoreStep s (s.updateRtt rttMicros)

/-- The states of a store, from its construction on. -/
def ReachableStore (s : ReliableStore) : Prop := Reachable (· = {}) StoreStep s

theorem ReachableStore.fresh : ReachableStore {} := Reachable.start rfl

theorem ReachableStore.step {s t : ReliableStore} (h : ReachableStore s) (hst : StoreStep s t) : ReachableStore t :=
  Reachable.next h hst

/-- The next id is never 0 and never the id of a stored message. -/
structure Waiting (s : ReliableStore) : Prop where
  settled : s.Settled
  next_ne_zero : s.nextRemoteId ≠ 0

/-- The incoming side decides whether a store is waiting. -/
theorem Waiting.congr {s t : ReliableStore} (h : s.Waiting) (ho : t.remoteOutOfOrder = s.remoteOutOfOrder)
    (hn : t.nextRemoteId = s.nextRemoteId) : t.Waiting := by
  refine ⟨?_, by rw [hn]; exact h.next_ne_zero⟩
  unfold Settled
  rw [ho, hn]
  exact h.settled

theorem Waiting.restores {now : Nat} {s t : ReliableStore} {ms : List ReliableMeta} (h : Restores now s ms t)
    (h0 : s.nextRemoteId ≠ 0) : t.Waiting :=
  ⟨h.settled, by rw [h.next]; exact iterate_succId_ne_zero _ h0⟩

theorem Waiting.incoming {now : Nat} {s t : ReliableStore} {m : ReliableMeta} {r : Except TransportError Bool}
    (h : s.Waiting) (hi : Incoming now s m r t) : t.Waiting := by
  cases hi with
  | unreliable => exact h
  | duplicateQueued => exact h
  | duplicate _ _ _ hr => exact .restores hr h.next_ne_zero
  | full => exact h
  | stored => exact h
  | outOfOrder _ _ hn =>
    refine ⟨fun e he => ?_, h.next_ne_zero⟩
    rcases List.mem_append.mp he with he | he
    · exact h.settled e he
    · rw [List.mem_singleton.mp he]; exact hn
  | inOrder _ _ hr => exact .restores hr (succId_ne_zero _)

/-- A step handles an incoming message, or leaves the incoming side alone. -/
theorem StoreStep.receives {s t : ReliableStore} (hst : StoreStep s t) :
    (∃ unacked now m r, Incoming now { s with localUnacked := unacked } m r t) ∨
      t.remoteOutOfOrder = s.remoteOutOfOrder ∧ t.nextRemoteId = s.nextRemoteId := by
  cases hst with
  | incoming past now m =>
    obtain ⟨unacked, hin⟩ := handleIncoming_acked past now s m
    exact Or.inl ⟨unacked, now, m, _, hin⟩
  | pop =>
    refine Or.inr ?_
    unfold popDelayedMessage
    split <;> exact ⟨rfl, rfl⟩
  | nextId => exact Or.inr ⟨rfl, rfl⟩
  | acks header =>
    rw [(setOutgoingAcks_spec s header).1]
    exact Or.inr ⟨rfl, rfl⟩
  | push now msg =>
    refine Or.inr ?_
    unfold pushLocalUnacked
    split <;> exact ⟨rfl, rfl⟩
  | retransmit deadline now => exact Or.inr ⟨rfl, rfl⟩
  | rtt rttMicros => exact Or.inr ⟨rfl, rfl⟩

theorem Waiting.step {s t : ReliableStore} (h : s.Waiting) (hst : StoreStep s t) : t.Waiting := by
  rcases hst.receives with ⟨unacked, now, m, r, hin⟩ | ⟨ho, hn⟩
  · have hacked : ({ s with localUnacked := unacked } : ReliableStore).Waiting := h.congr rfl rfl
    exact hacked.incoming hin
  · exact h.congr ho hn

theorem ReachableStore.waiting {s : ReliableStore} (h : ReachableStore s) : s.Waiting := by
  have hinit : ∀ s : ReliableStore, s = {} → s.Waiting := by
    rintro s rfl
    exact ⟨by simp [Settled], by decide⟩
  have hstep : ∀ s t : ReliableStore, s.Waiting → StoreStep s t → t.Waiting := fun s t hs hst => hs.step hst
  exact Reachable.invariant hinit hstep h

end ReliableStore

end Qunet
