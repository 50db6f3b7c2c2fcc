import Qunet.Udp.AckSafety
import Mathlib.Data.List.Nodup
import Mathlib.Data.List.Perm.Subperm

/-!
# One lost transmission between two reliable stores

* `numberedId` : the id of the reliable message with a given number; ids repeat after 65535 messages;
* `Transmission`, `Link`, `LinkStep` : all but one of the transmissions arrive, once and in order;
* `Ordered` : which messages are on their way;
* `Gap`, `LinkInv` : what holds until the lost message arrives;
* **`lost_transmission_room`** : how many messages may arrive behind the lost one.
-/

namespace Qunet
open Lib

/-! ## Numbers and ids -/

/-- The id of the reliable message number `n`; a message without id has the number 0. -/
def numberedId (n : Nat) : UInt16 := succId^[n] 0

theorem numberedId_succ (n : Nat) : numberedId (n + 1) = succId (numberedId n) := Function.iterate_succ_apply' _ _ _

theorem numberedId_toNat {n : Nat} (h : 0 < n) : (numberedId n).toNat = (n - 1) % 65535 + 1 := by
  obtain ⟨m, rfl⟩ := Nat.exists_eq_succ_of_ne_zero (Nat.ne_of_gt h)
  unfold numberedId
  rw [Function.iterate_succ_apply, ReliableStore.iterate_succId_toNat m (ReliableStore.succId_ne_zero 0)]
  have hone : (succId 0).toNat = 1 := rfl
  rw [hone]
  simp

theorem numberedId_eq_zero {n : Nat} : numberedId n = 0 ↔ n = 0 := by
  constructor
  · intro h
    by_contra hn
    have htoNat := numberedId_toNat (Nat.pos_of_ne_zero hn)
    rw [h, UInt16.toNat_zero] at htoNat
    omega
  · rintro rfl
    rfl

/-- Ids that are less than 65535 messages apart differ. -/
theorem numberedId_ne {k n : Nat} (hlt : k < n) (hnear : n < k + 65535) : numberedId n ≠ numberedId k := by
  intro h
  by_cases hk : k = 0
  · subst hk
    have := numberedId_eq_zero.mp h
    omega
  · have htoNat := congrArg UInt16.toNat h
    rw [numberedId_toNat (by omega), numberedId_toNat (by omega)] at htoNat
    omega

/-- A message up to 16384 numbers ahead is no duplicate. -/
theorem not_isDuplicate_ahead {s : ReliableStore} {k n : Nat} (hk : 0 < k) (hnext : s.nextRemoteId = numberedId k)
    (hlt : k < n) (hnear : n ≤ k + 16384) : ¬ s.isDuplicate (numberedId n) := by
  rintro ⟨hless, hdistance⟩
  rw [hnext, UInt16.lt_iff_toNat_lt, numberedId_toNat (by omega), numberedId_toNat hk] at hless
  rw [hnext, numberedId_toNat hk, numberedId_toNat (n := n) (by omega)] at hdistance
  omega

/-! ## The link -/

/-- A message on its way: the first transmission of a reliable message, a retransmission, or a message without id. -/
structure Transmission where
  number : Nat
  first : Bool
  msg : ReliableData

/-- A sender, a receiver and what is between them. The last three fields are ghosts: how many transmissions of later
messages have arrived since one was lost, and of how many messages; and what `handleIncoming` has returned, until the
lost message is retransmitted and arrives. -/
structure Link where
  sender : ReliableStore := {}
  receiver : ReliableStore := {}
  /-- oldest first -/
  channel : List Transmission := []
  /-- the number of reliable messages sent -/
  count : Nat := 0
  lost : Option Transmission := none
  recovered : Bool := false
  behind : Nat := 0
  messagesBehind : Nat := 0
  results : List (Except TransportError Bool) := []

namespace Link

/-- The message that is missing: its first transmission is lost. -/
def missing (l : Link) : Option Nat := l.lost.bind fun t => if t.first then some t.number else none

/-- A retransmission of the lost message. -/
def recovers (l : Link) (tr : Transmission) : Bool :=
  l.lost.any fun t => !tr.first && (tr.number = t.number && tr.number ≠ 0)

/-- A transmission of a message later than the missing one. -/
def isBehind (l : Link) (tr : Transmission) : Bool := l.missing.any fun k => k < tr.number

def transmit (tr : Transmission) (sender : ReliableStore) (l : Link) : Link :=
  { l with sender, channel := l.channel ++ [tr] }

/-- The oldest transmission arrives as `m`. -/
def arrive (past : Nat → UInt16) (now : Nat) (tr : Transmission) (rest : List Transmission) (m : ReliableMeta)
    (l : Link) : Link :=
  let r := l.receiver.handleIncoming past now m
  if l.recovered || l.recovers tr then { l with receiver := r.2, channel := rest, recovered := true }
  else
    { l with receiver := r.2, channel := rest, results := l.results ++ [r.1]
             behind := if l.isBehind tr then l.behind + 1 else l.behind
             messagesBehind := if l.isBehind tr && tr.first then l.messagesBehind + 1 else l.messagesBehind }

/-- No call has given up. -/
def Quiet (l : Link) : Prop := ∀ r ∈ l.results, r ≠ .error (.custom .tooUnreliable)

/-- The receiver sees that a retransmission of a message it has already is a duplicate. -/
def Recognised (l : Link) (tr : Transmission) : Prop :=
  tr.first = false → tr.number ≠ 0 → l.isBehind tr = false → l.recovers tr = false →
    l.receiver.isDuplicate tr.msg.header.messageId

end Link

/-- What the receiver does on its own: it sends, keeps and retransmits messages, and hands out delayed ones. -/
inductive OwnStep (s : ReliableStore) : ReliableStore → Prop where
  | send (reliable : Bool) : OwnStep s (s.outgoingHeader reliable).2
  | push (now : Nat) (msg : ReliableData) : OwnStep s (s.pushLocalUnacked now msg).2
  | retransmit (deadline : Nat → Nat) (now : Nat) : OwnStep s (s.maybeRetransmit deadline now).2
  | pop : OwnStep s s.popDelayedMessage.2

/-- The transmissions arrive once and in order, under the condition `cond`, except for at most one. What the sender
hears from the receiver is arbitrary, and its own window is never full. -/
inductive LinkStep (cond : Link → Transmission → Prop) (l : Link) : Link → Prop where
  | send (now : Nat) (data : Bytes) (comp : Option CompressionHeader) {r : ReliabilityHeader × ReliableStore}
      {sender : ReliableStore} (hr : r = l.sender.outgoingHeader true)
      (hpush : r.2.pushLocalUnacked now (.of data comp r.1) = (.ok (), sender)) :
      LinkStep cond l { l.transmit ⟨l.count + 1, true, .of data comp r.1⟩ sender with count := l.count + 1 }
  | sendUnreliable (data : Bytes) (comp : Option CompressionHeader) {r : ReliabilityHeader × ReliableStore}
      (hr : r = l.sender.outgoingHeader false) : LinkStep cond l (l.transmit ⟨0, false, .of data comp r.1⟩ r.2)
  /-- The number is that of the newest message with this id. -/
  | retransmit (deadline : Nat → Nat) (now : Nat) {msg : ReliableData} {sender : ReliableStore} {number : Nat}
      (h : l.sender.maybeRetransmit deadline now = (.ok (some msg), sender))
      (hid : msg.header.messageId = numberedId number) (hpos : 0 < number) (hle : number ≤ l.count)
      (hnewest : l.count < number + 65535) : LinkStep cond l (l.transmit ⟨number, false, msg⟩ sender)
  | hear (past : Nat → UInt16) (now : Nat) (m : ReliableMeta) :
      LinkStep cond l { l with sender := (l.sender.handleIncoming past now m).2 }
  | pop : LinkStep cond l { l with sender := l.sender.popDelayedMessage.2 }
  | own {receiver : ReliableStore} (h : OwnStep l.receiver receiver) : LinkStep cond l { l with receiver }
  | arrive (past : Nat → UInt16) (now : Nat) {tr : Transmission} {rest : List Transmission} {m : ReliableMeta}
      (hchannel : l.channel = tr :: rest) (hm : Carries tr.msg m) (hcond : cond l tr) :
      LinkStep cond l (l.arrive past now tr rest m)
  | lose {tr : Transmission} {rest : List Transmission} (hchannel : l.channel = tr :: rest) (hlost : l.lost = none) :
      LinkStep cond l { l with channel := rest, lost := some tr }

/-- The links of the runs in which every transmission that arrives meets the condition. -/
def LinkRun (cond : Link → Transmission → Prop) : Link → Prop := Reachable (· = {}) (LinkStep cond)

/-! ## What is on its way -/

/-- A transmission that comes when the next first transmission is that of the message number `next`. -/
structure Transmission.Follows (tr : Transmission) (next : Nat) : Prop where
  first : tr.first = true → tr.number = next
  earlier : tr.first = false → tr.number < next
  id : tr.msg.header.messageId = numberedId tr.number

def Transmission.following (tr : Transmission) (next : Nat) : Nat := if tr.first then next + 1 else next

/-- The first transmissions of the messages from `next` on, in order, up to the number `count`. -/
def Ordered (count : Nat) : Nat → List Transmission → Prop
  | next, [] => next = count + 1
  | next, tr :: rest => tr.Follows next ∧ Ordered count (tr.following next) rest

theorem Ordered.concat {count next : Nat} {l : List Transmission} {tr : Transmission} (h : Ordered count next l)
    (htr : tr.Follows (count + 1)) : Ordered (if tr.first then count + 1 else count) next (l ++ [tr]) := by
  induction l generalizing next with
  | nil =>
    have hnext : next = count + 1 := h
    subst hnext
    refine ⟨htr, ?_⟩
    show tr.following (count + 1) = _
    unfold Transmission.following
    split <;> rfl
  | cons t l ih => exact ⟨h.1, ih h.2⟩

/-! ## Until the lost message arrives -/

namespace Link

/-- No message is missing, and the receiver expects the next one. -/
structure NoGap (l : Link) (next : Nat) : Prop where
  missing : l.missing = none
  expected : l.receiver.nextRemoteId = numberedId next
  stored : l.receiver.remoteOutOfOrder = []
  none_behind : l.messagesBehind = 0

/-- The receiver expects the missing message, and stores those behind it. -/
structure Gap (l : Link) (k next : Nat) : Prop where
  missing : l.missing = some k
  expected : l.receiver.nextRemoteId = numberedId k
  next_eq : next = k + 1 + l.messagesBehind
  settled : l.receiver.Settled
  stored_le : l.receiver.remoteOutOfOrder.length ≤ l.behind
  bounded : l.receiver.remoteOutOfOrder.length ≤ 32
  stored : ∀ n, k < n → n < next → ∃ e ∈ l.receiver.remoteOutOfOrder, e.id = numberedId n

/-- The later messages have different ids, and so there are at most 32 of them. -/
theorem Gap.messagesBehind_le {l : Link} {k next : Nat} (h : l.Gap k next) (hnear : next ≤ k + 65535) :
    l.messagesBehind ≤ 32 := by
  have hnext := h.next_eq
  let ids := (List.range' (k + 1) l.messagesBehind).map numberedId
  have hnodup : ids.Nodup := by
    refine List.Nodup.map_on ?_ List.nodup_range'
    intro n hn n' hn' heq
    rw [List.mem_range'_1] at hn hn'
    rcases Nat.lt_trichotomy n n' with hlt | rfl | hlt
    · exact absurd heq.symm (numberedId_ne hlt (by omega))
    · rfl
    · exact absurd heq (numberedId_ne hlt (by omega))
  have hsubset : ids ⊆ l.receiver.remoteOutOfOrder.map (·.id) := by
    intro id hid
    obtain ⟨n, hn, rfl⟩ := List.mem_map.mp hid
    rw [List.mem_range'_1] at hn
    obtain ⟨e, he, hid⟩ := h.stored n (by omega) (by omega)
    rw [← hid]
    exact List.mem_map_of_mem he
  have hle := (List.subperm_of_subset hnodup hsubset).length_le
  have hbounded := h.bounded
  rw [List.length_map, List.length_map, List.length_range'] at hle
  omega

end Link

/-- What `handleIncoming` makes of a message with this id, as far as the incoming side tells. -/
inductive Taken (s : ReliableStore) (id : UInt16) : Except TransportError Bool → ReliableStore → Prop where
  | kept {b : Bool} {t : ReliableStore} (h : id = 0 ∨ s.isDuplicate id) (hnext : t.nextRemoteId = s.nextRemoteId)
      (hstored : t.remoteOutOfOrder = s.remoteOutOfOrder) : Taken s id (.ok b) t
  | expected {t : ReliableStore} (h0 : id ≠ 0) (h : id = s.nextRemoteId) (hempty : s.remoteOutOfOrder = [] →
      t.nextRemoteId = succId s.nextRemoteId ∧ t.remoteOutOfOrder = []) : Taken s id (.ok true) t
  | full {t : ReliableStore} (h0 : id ≠ 0) (hd : ¬ s.isDuplicate id) (hn : id ≠ s.nextRemoteId)
      (hfull : 32 ≤ s.remoteOutOfOrder.length) : Taken s id (.error (.custom .tooUnreliable)) t
  | ahead {t : ReliableStore} (h0 : id ≠ 0) (hd : ¬ s.isDuplicate id) (hn : id ≠ s.nextRemoteId)
      (hroom : s.remoteOutOfOrder.length < 32) (hnext : t.nextRemoteId = s.nextRemoteId) (hsettled : t.Settled)
      (hmem : ∀ e ∈ s.remoteOutOfOrder, e ∈ t.remoteOutOfOrder) (hnew : ∃ e ∈ t.remoteOutOfOrder, e.id = id)
      (hle : t.remoteOutOfOrder.length ≤ s.remoteOutOfOrder.length + 1) : Taken s id (.ok false) t

theorem handleIncoming_taken {s : ReliableStore} (hs : s.Settled) (past : Nat → UInt16) (now : Nat) (m : ReliableMeta) :
    Taken s (messageIdOf m) (s.handleIncoming past now m).1 (s.handleIncoming past now m).2 := by
  obtain ⟨unacked, hin⟩ := ReliableStore.handleIncoming_acked past now s m
  generalize s.handleIncoming past now m = r at hin
  obtain ⟨result, t⟩ := r
  dsimp only at hin
  cases hin with
  | unreliable h0 => exact .kept (Or.inl h0) rfl rfl
  | duplicateQueued h0 hd hq => exact .kept (Or.inr hd) rfl rfl
  | @duplicate h0 hd hq ms t hr =>
    obtain ⟨-, ht⟩ := hr.eq_of_settled hs
    rw [ht]
    exact .kept (Or.inr hd) rfl rfl
  | full h0 hd hn h32 => exact .full h0 hd hn h32
  | stored h0 hd hn h32 hst => exact .ahead h0 hd hn h32 rfl hs (fun _ he => he) hst (Nat.le_succ _)
  | outOfOrder h0 hd hn h32 hst =>
    refine .ahead h0 hd hn h32 rfl (fun e he => ?_) (fun e he => List.mem_append_left _ he)
      ⟨⟨m, now⟩, List.mem_append_right _ (List.mem_singleton_self _), rfl⟩ ?_
    · rcases List.mem_append.mp he with he | he
      · exact hs e he
      · rw [List.mem_singleton.mp he]
        exact hn
    · exact Nat.le_of_eq List.length_append
  | @inOrder h0 hn ms t hr =>
    refine .expected h0 hn fun hempty => ?_
    have hsettled : (ReliableStore.accept now { s with localUnacked := unacked }).Settled := by
      intro e he
      have hnone : e ∈ s.remoteOutOfOrder := he
      rw [hempty] at hnone
      cases hnone
    obtain ⟨-, ht⟩ := hr.eq_of_settled hsettled
    rw [ht]
    exact ⟨rfl, hempty⟩

namespace Taken
variable {s t : ReliableStore} {id : UInt16} {r : Except TransportError Bool}

/-- A message without id, or a duplicate, leaves the incoming side alone. -/
theorem of_duplicate (h : Taken s id r t) (hdup : id = 0 ∨ s.isDuplicate id) :
    r ≠ .error (.custom .tooUnreliable) ∧ t.nextRemoteId = s.nextRemoteId ∧
      t.remoteOutOfOrder = s.remoteOutOfOrder := by
  cases h with
  | kept _ hnext hstored => exact ⟨by simp, hnext, hstored⟩
  | expected h0 hn =>
    rcases hdup with hz | hdup
    · exact absurd hz h0
    · exact absurd hn (UInt16.ne_of_lt hdup.1)
  | full h0 hd => exact absurd hdup (by simp [h0, hd])
  | ahead h0 hd => exact absurd hdup (by simp [h0, hd])

/-- The expected message, when none is stored. -/
theorem of_expected (h : Taken s id r t) (h0 : id ≠ 0) (hn : id = s.nextRemoteId) (hempty : s.remoteOutOfOrder = []) :
    r ≠ .error (.custom .tooUnreliable) ∧ t.nextRemoteId = succId s.nextRemoteId ∧ t.remoteOutOfOrder = [] := by
  cases h with
  | kept hdup =>
    rcases hdup with hz | hdup
    · exact absurd hz h0
    · exact absurd hn (UInt16.ne_of_lt hdup.1)
  | expected _ _ hnext => exact ⟨by simp, hnext hempty⟩
  | full _ _ hne => exact absurd hn hne
  | ahead _ _ hne => exact absurd hn hne

/-- A message ahead of the expected one is stored, unless there is no room. -/
theorem of_ahead (h : Taken s id r t) (hs : s.Settled) (h0 : id ≠ 0) (hn : id ≠ s.nextRemoteId) :
    (r = .error (.custom .tooUnreliable) → 32 ≤ s.remoteOutOfOrder.length) ∧
    (r ≠ .error (.custom .tooUnreliable) → t.nextRemoteId = s.nextRemoteId ∧ t.Settled ∧
      (∀ e ∈ s.remoteOutOfOrder, e ∈ t.remoteOutOfOrder) ∧
      t.remoteOutOfOrder.length ≤ s.remoteOutOfOrder.length + 1 ∧
      (s.remoteOutOfOrder.length ≤ 32 → t.remoteOutOfOrder.length ≤ 32) ∧
      (¬ s.isDuplicate id → ∃ e ∈ t.remoteOutOfOrder, e.id = id)) := by
  cases h with
  | kept hdup hnext hstored =>
    refine ⟨by simp, fun _ => ⟨hnext, ?_, ?_, ?_, ?_, ?_⟩⟩
    · intro e he
      rw [hstored] at he
      rw [hnext]
      exact hs e he
    · rw [hstored]
      exact fun e he => he
    · rw [hstored]
      exact Nat.le_succ _
    · rw [hstored]
      exact fun hle => hle
    · exact fun hd => absurd (hdup.resolve_left h0) hd
  | expected _ hne => exact absurd hne hn
  | full _ _ _ hfull => exact ⟨fun _ => hfull, fun hr => absurd rfl hr⟩
  | ahead _ _ _ hroom hnext hsettled hmem hnew hle =>
    exact ⟨by simp, fun _ => ⟨hnext, hsettled, hmem, hle, fun _ => by omega, fun _ => hnew⟩⟩

end Taken

namespace Link
variable {l : Link} {tr : Transmission} {rest : List Transmission} {m : ReliableMeta} {next : Nat}

theorem isBehind_of_missing {k : Nat} (h : l.missing = some k) : l.isBehind tr = true ↔ k < tr.number := by
  simp [isBehind, h]

theorem isBehind_of_no_gap (h : l.missing = none) : l.isBehind tr = false := by
  simp [isBehind, h]

/-- What a transmission changes, when it is not that of the lost message. -/
theorem arrive_eq (past : Nat → UInt16) (now : Nat) (hrecovered : l.recovered = false)
    (hrecovers : l.recovers tr = false) :
    l.arrive past now tr rest m =
      { l with receiver := (l.receiver.handleIncoming past now m).2, channel := rest
               results := l.results ++ [(l.receiver.handleIncoming past now m).1]
               behind := if l.isBehind tr then l.behind + 1 else l.behind
               messagesBehind := if l.isBehind tr && tr.first then l.messagesBehind + 1 else l.messagesBehind } := by
  unfold arrive
  simp [hrecovered, hrecovers]

/-- A retransmission of a message that the receiver has is a duplicate. -/
theorem Recognised.duplicate (hcond : l.Recognised tr) (hfirst : tr.first = false) (hbehind : l.isBehind tr = false)
    (hrecovers : l.recovers tr = false) (hid : tr.msg.header.messageId = numberedId tr.number) :
    numberedId tr.number = 0 ∨ l.receiver.isDuplicate (numberedId tr.number) := by
  by_cases hz : tr.number = 0
  · exact Or.inl (numberedId_eq_zero.mpr hz)
  · have hdup := hcond hfirst hz hbehind hrecovers
    rw [hid] at hdup
    exact Or.inr hdup

/-- Without a gap, the next message is taken, and a retransmission is a duplicate. -/
theorem NoGap.arrive (h : l.NoGap next) (hpos : 0 < next) (hfollows : tr.Follows next)
    (hrecovered : l.recovered = false) (hrecovers : l.recovers tr = false) (hcond : l.Recognised tr)
    (hm : Carries tr.msg m) (past : Nat → UInt16) (now : Nat) :
    (l.receiver.handleIncoming past now m).1 ≠ .error (.custom .tooUnreliable) ∧
      (l.arrive past now tr rest m).NoGap (tr.following next) := by
  have hid : messageIdOf m = numberedId tr.number := hm.header.messageId.trans hfollows.id
  have hbehind : l.isBehind tr = false := isBehind_of_no_gap h.missing
  have hsettled : l.receiver.Settled := by
    intro e he
    rw [h.stored] at he
    cases he
  have htaken := handleIncoming_taken hsettled past now m
  rw [hid] at htaken
  rw [arrive_eq past now hrecovered hrecovers, hbehind]
  cases hfirst : tr.first with
  | true =>
    have hnumber := hfollows.first hfirst
    have hne : numberedId tr.number ≠ 0 := fun hz => by
      have := numberedId_eq_zero.mp hz
      omega
    obtain ⟨hresult, hnext, hstored⟩ := htaken.of_expected hne (by rw [hnumber, h.expected]) h.stored
    refine ⟨hresult, ⟨h.missing, ?_, hstored, h.none_behind⟩⟩
    simp only [Transmission.following, hfirst, if_true, numberedId_succ, ← h.expected]
    exact hnext
  | false =>
    obtain ⟨hresult, hnext, hstored⟩ := htaken.of_duplicate (hcond.duplicate hfirst hbehind hrecovers hfollows.id)
    refine ⟨hresult, ⟨h.missing, ?_, hstored.trans h.stored, h.none_behind⟩⟩
    simp only [Transmission.following, hfirst, Bool.false_eq_true, if_false]
    exact hnext.trans h.expected

/-- A message behind the gap is stored while there is room. -/
theorem Gap.arrive_later {k : Nat} (h : l.Gap k next) (hk : 0 < k) (hmany : l.messagesBehind ≤ 32)
    (hfollows : tr.Follows next) (hrecovered : l.recovered = false) (hrecovers : l.recovers tr = false)
    (hm : Carries tr.msg m) (hlater : k < tr.number) (past : Nat → UInt16) (now : Nat) :
    ((l.receiver.handleIncoming past now m).1 = .error (.custom .tooUnreliable) →
      l.isBehind tr = true ∧ 32 ≤ l.behind) ∧
    ((l.receiver.handleIncoming past now m).1 ≠ .error (.custom .tooUnreliable) →
      (l.arrive past now tr rest m).Gap k (tr.following next)) := by
  have hid : messageIdOf m = numberedId tr.number := hm.header.messageId.trans hfollows.id
  have htaken := handleIncoming_taken h.settled past now m
  have hnext := h.next_eq
  have hbehind := (isBehind_of_missing h.missing).mpr hlater
  rw [hid] at htaken
  rw [arrive_eq past now hrecovered hrecovers, hbehind]
  have hle : tr.number ≤ next := by
    cases hfirst : tr.first with
    | true => exact Nat.le_of_eq (hfollows.first hfirst)
    | false => exact Nat.le_of_lt (hfollows.earlier hfirst)
  have hne : numberedId tr.number ≠ l.receiver.nextRemoteId := by
    rw [h.expected]
    exact numberedId_ne hlater (by omega)
  have hnew := not_isDuplicate_ahead hk h.expected hlater (by omega)
  have hzero : numberedId tr.number ≠ 0 := fun hz => by
    have := numberedId_eq_zero.mp hz
    omega
  obtain ⟨hfull, hroom⟩ := htaken.of_ahead h.settled hzero hne
  refine ⟨fun hr => ⟨rfl, (hfull hr).trans h.stored_le⟩, fun hr => ?_⟩
  obtain ⟨hexpected, hsettled, hmem, hlength, hbounded, hstored⟩ := hroom hr
  refine ⟨h.missing, hexpected.trans h.expected, ?_, hsettled, ?_, hbounded h.bounded, ?_⟩
  · unfold Transmission.following
    cases tr.first <;> simp only [Bool.true_and, Bool.false_eq_true, if_true, if_false] <;> omega
  · exact hlength.trans (Nat.succ_le_succ h.stored_le)
  · intro n hkn hn
    by_cases hold : n < next
    · obtain ⟨e, he, hid⟩ := h.stored n hkn hold
      exact ⟨e, hmem e he, hid⟩
    · have hfirst : tr.first = true := by
        by_contra hfirst
        simp only [Transmission.following, hfirst, if_false] at hn
        exact hold hn
      simp only [Transmission.following, hfirst, if_true] at hn
      have hnumber := hfollows.first hfirst
      have heq : n = tr.number := by omega
      rw [heq]
      exact hstored hnew

/-- A message in front of the gap is a duplicate. -/
theorem Gap.arrive_earlier {k : Nat} (h : l.Gap k next) (hfollows : tr.Follows next)
    (hrecovered : l.recovered = false) (hrecovers : l.recovers tr = false) (hcond : l.Recognised tr)
    (hm : Carries tr.msg m) (hearlier : ¬ k < tr.number) (past : Nat → UInt16) (now : Nat) :
    (l.receiver.handleIncoming past now m).1 ≠ .error (.custom .tooUnreliable) ∧
      (l.arrive past now tr rest m).Gap k (tr.following next) := by
  have hid : messageIdOf m = numberedId tr.number := hm.header.messageId.trans hfollows.id
  have htaken := handleIncoming_taken h.settled past now m
  have hnext := h.next_eq
  have hbehind : l.isBehind tr = false := by
    simp [isBehind, h.missing, hearlier]
  rw [hid] at htaken
  rw [arrive_eq past now hrecovered hrecovers, hbehind]
  have hfirst : tr.first = false := by
    by_contra hfirst
    have := hfollows.first (by simpa using hfirst)
    omega
  obtain ⟨hresult, hexpected, hstored⟩ := htaken.of_duplicate (hcond.duplicate hfirst hbehind hrecovers hfollows.id)
  refine ⟨hresult, ?_⟩
  simp only [Transmission.following, hfirst, Bool.false_eq_true, if_false, Bool.false_and]
  refine ⟨h.missing, hexpected.trans h.expected, hnext, ?_, ?_, ?_, ?_⟩
  · intro e he
    rw [hstored] at he
    rw [hexpected]
    exact h.settled e he
  · rw [hstored]
    exact h.stored_le
  · rw [hstored]
    exact h.bounded
  · rw [hstored]
    exact h.stored

/-- Behind a gap, a later message is stored while there is room, and an earlier one is a duplicate. -/
theorem Gap.arrive {k : Nat} (h : l.Gap k next) (hk : 0 < k) (hmany : l.messagesBehind ≤ 32)
    (hfollows : tr.Follows next) (hrecovered : l.recovered = false) (hrecovers : l.recovers tr = false)
    (hcond : l.Recognised tr) (hm : Carries tr.msg m) (past : Nat → UInt16) (now : Nat) :
    ((l.receiver.handleIncoming past now m).1 = .error (.custom .tooUnreliable) →
      l.isBehind tr = true ∧ 32 ≤ l.behind) ∧
    ((l.receiver.handleIncoming past now m).1 ≠ .error (.custom .tooUnreliable) →
      (l.arrive past now tr rest m).Gap k (tr.following next)) := by
  by_cases hlater : k < tr.number
  · exact h.arrive_later hk hmany hfollows hrecovered hrecovers hm hlater past now
  · obtain ⟨hresult, hgap⟩ := h.arrive_earlier hfollows hrecovered hrecovers hcond hm hlater past now
    exact ⟨fun hr => absurd hr hresult, fun _ => hgap⟩

end Link

/-! ## Runs -/

/-- What holds all the time, if retransmissions are recognised. -/
structure LinkInv (l : Link) : Prop where
  numbered : l.sender.nextLocalId = numberedId (l.count + 1)
  waiting : l.recovered = false → l.Quiet →
    ∃ next, 0 < next ∧ Ordered l.count next l.channel ∧ (l.NoGap next ∨ ∃ k, 0 < k ∧ l.Gap k next)
  quiet : l.behind ≤ 32 → l.Quiet
  few : l.Quiet → l.messagesBehind ≤ 32

theorem LinkInv.fresh : LinkInv {} where
  numbered := rfl
  waiting _ _ := ⟨1, Nat.one_pos, rfl, Or.inl ⟨rfl, rfl, rfl, rfl⟩⟩
  quiet _ _ hr := by cases hr
  few _ := Nat.zero_le _

namespace LinkInv
variable {l : Link}

theorem transmit (h : LinkInv l) {tr : Transmission} {sender : ReliableStore} {count : Nat}
    (htr : tr.Follows (l.count + 1)) (hcount : count = if tr.first then l.count + 1 else l.count)
    (hlocal : sender.nextLocalId = numberedId (count + 1)) : LinkInv { l.transmit tr sender with count } where
  numbered := hlocal
  waiting hrecovered hquiet := by
    obtain ⟨next, hpos, hordered, hgap⟩ := h.waiting hrecovered hquiet
    have hordered' := hordered.concat htr
    rw [← hcount] at hordered'
    refine ⟨next, hpos, hordered', ?_⟩
    obtain hgap | ⟨k, hk, hgap⟩ := hgap
    · exact Or.inl ⟨hgap.missing, hgap.expected, hgap.stored, hgap.none_behind⟩
    · exact Or.inr ⟨k, hk, hgap.missing, hgap.expected, hgap.next_eq, hgap.settled, hgap.stored_le, hgap.bounded,
        hgap.stored⟩
  quiet := h.quiet
  few := h.few

/-- Only the incoming side of the receiver matters, and the next id of the sender. -/
theorem congr (h : LinkInv l) {sender receiver : ReliableStore} (hlocal : sender.nextLocalId = l.sender.nextLocalId)
    (hexpected : receiver.nextRemoteId = l.receiver.nextRemoteId)
    (hstored : receiver.remoteOutOfOrder = l.receiver.remoteOutOfOrder) :
    LinkInv { l with sender, receiver } where
  numbered := hlocal.trans h.numbered
  waiting hrecovered hquiet := by
    obtain ⟨next, hpos, hordered, hgap⟩ := h.waiting hrecovered hquiet
    refine ⟨next, hpos, hordered, ?_⟩
    obtain hgap | ⟨k, hk, hgap⟩ := hgap
    · exact Or.inl ⟨hgap.missing, hexpected.trans hgap.expected, hstored.trans hgap.stored, hgap.none_behind⟩
    · refine Or.inr ⟨k, hk, hgap.missing, hexpected.trans hgap.expected, hgap.next_eq, ?_, ?_, ?_, ?_⟩
      · intro e he
        dsimp only at he ⊢
        rw [hstored] at he
        rw [hexpected]
        exact hgap.settled e he
      · exact (congrArg List.length hstored).trans_le hgap.stored_le
      · exact (congrArg List.length hstored).trans_le hgap.bounded
      · dsimp only
        rw [hstored]
        exact hgap.stored
  quiet := h.quiet
  few := h.few

theorem lose (h : LinkInv l) {tr : Transmission} {rest : List Transmission} (hchannel : l.channel = tr :: rest)
    (hlost : l.lost = none) : LinkInv { l with channel := rest, lost := some tr } where
  numbered := h.numbered
  waiting hrecovered hquiet := by
    obtain ⟨next, hpos, hordered, hgap⟩ := h.waiting hrecovered hquiet
    rw [hchannel] at hordered
    obtain ⟨hfollows, hrest⟩ := hordered
    obtain hgap | ⟨k, hk, hgap⟩ := hgap
    · cases hfirst : tr.first with
      | true =>
        have hnumber := hfollows.first hfirst
        simp only [Transmission.following, hfirst, if_true] at hrest
        refine ⟨next + 1, Nat.succ_pos _, hrest, Or.inr ⟨next, hpos, ?_, hgap.expected, ?_, ?_, ?_, ?_, ?_⟩⟩
        · simp [Link.missing, hfirst, hnumber]
        · simp only [hgap.none_behind, Nat.add_zero]
        · intro e he
          rw [hgap.stored] at he
          cases he
        · rw [hgap.stored]
          exact Nat.zero_le _
        · rw [hgap.stored]
          exact Nat.zero_le _
        · intro n hkn hn
          omega
      | false =>
        simp only [Transmission.following, hfirst, Bool.false_eq_true, if_false] at hrest
        refine ⟨next, hpos, hrest, Or.inl ⟨?_, hgap.expected, hgap.stored, hgap.none_behind⟩⟩
        simp [Link.missing, hfirst]
    · have hmissing := hgap.missing
      simp [Link.missing, hlost] at hmissing
  quiet := h.quiet
  few := h.few

theorem arrive (h : LinkInv l) {tr : Transmission} {rest : List Transmission} {m : ReliableMeta}
    (hchannel : l.channel = tr :: rest) (hm : Carries tr.msg m) (hcond : l.Recognised tr) (past : Nat → UInt16)
    (now : Nat) : LinkInv (l.arrive past now tr rest m) := by
  by_cases hearly : (l.recovered || l.recovers tr) = true
  · unfold Link.arrive
    simp only [hearly, if_true]
    exact ⟨h.numbered, fun hr => (by cases hr), h.quiet, h.few⟩
  · obtain ⟨hrecovered, hrecovers⟩ : l.recovered = false ∧ l.recovers tr = false := by simpa using hearly
    have heq : l.arrive past now tr rest m = _ := Link.arrive_eq past now hrecovered hrecovers
    have hquiet_iff : (l.arrive past now tr rest m).Quiet ↔
        l.Quiet ∧ (l.receiver.handleIncoming past now m).1 ≠ .error (.custom .tooUnreliable) := by
      rw [heq]
      simp [Link.Quiet, or_imp, forall_and]
    have hstep : l.Quiet → ∃ next, 0 < next ∧ Ordered l.count next rest ∧
        (((l.receiver.handleIncoming past now m).1 = .error (.custom .tooUnreliable) →
          l.isBehind tr = true ∧ 32 ≤ l.behind) ∧
        ((l.receiver.handleIncoming past now m).1 ≠ .error (.custom .tooUnreliable) →
          (l.arrive past now tr rest m).NoGap next ∨
            ∃ k, 0 < k ∧ next ≤ k + 65535 ∧ (l.arrive past now tr rest m).Gap k next)) := by
      intro hquiet
      obtain ⟨next, hpos, hordered, hgap⟩ := h.waiting hrecovered hquiet
      rw [hchannel] at hordered
      obtain ⟨hfollows, hrest⟩ := hordered
      have hfollowing : next ≤ tr.following next ∧ tr.following next ≤ next + 1 := by
        unfold Transmission.following
        split <;> omega
      refine ⟨tr.following next, by omega, hrest, ?_⟩
      obtain hgap | ⟨k, hk, hgap⟩ := hgap
      · obtain ⟨hresult, hgap'⟩ := hgap.arrive hpos hfollows hrecovered hrecovers hcond hm past now
        exact ⟨fun hr => absurd hr hresult, fun _ => Or.inl hgap'⟩
      · have hmany := h.few hquiet
        have hnext := hgap.next_eq
        obtain ⟨hfull, hgap'⟩ := hgap.arrive hk hmany hfollows hrecovered hrecovers hcond hm past now
        exact ⟨hfull, fun hr => Or.inr ⟨k, hk, by omega, hgap' hr⟩⟩
    refine ⟨?_, fun _ hquiet => ?_, fun hbehind => ?_, fun hquiet => ?_⟩
    · rw [heq]
      exact h.numbered
    · obtain ⟨hquiet, hresult⟩ := hquiet_iff.mp hquiet
      obtain ⟨next, hpos, hordered, -, hgap⟩ := hstep hquiet
      refine ⟨next, hpos, ?_, (hgap hresult).imp id fun ⟨k, hk, _, hgap⟩ => ⟨k, hk, hgap⟩⟩
      rw [heq]
      exact hordered
    · rw [heq] at hbehind
      dsimp only at hbehind
      have hquiet : l.Quiet := h.quiet (by split at hbehind <;> omega)
      obtain ⟨next, -, -, hfull, -⟩ := hstep hquiet
      refine hquiet_iff.mpr ⟨hquiet, fun hr => ?_⟩
      obtain ⟨hlater, hle⟩ := hfull hr
      rw [if_pos hlater] at hbehind
      omega
    · obtain ⟨hquiet, hresult⟩ := hquiet_iff.mp hquiet
      obtain ⟨next, -, -, -, hgap⟩ := hstep hquiet
      obtain hgap | ⟨k, -, hnear, hgap⟩ := hgap hresult
      · rw [hgap.none_behind]
        exact Nat.zero_le _
      · exact hgap.messagesBehind_le hnear

theorem step (h : LinkInv l) {l' : Link} (hstep : LinkStep Link.Recognised l l') : LinkInv l' := by
  cases hstep with
  | @send now data comp r sender hr hpush =>
    obtain ⟨-, -, hid, hstore⟩ := l.sender.outgoingHeader_spec true
    rw [← hr] at hid hstore
    refine h.transmit ⟨fun _ => rfl, fun hf => (by cases hf), ?_⟩ rfl ?_
    · exact hid.trans h.numbered
    · have hkeep : sender.nextLocalId = r.2.nextLocalId := by
        unfold ReliableStore.pushLocalUnacked at hpush
        split at hpush
        · cases hpush
        · cases hpush
          rfl
      rw [hkeep, hstore]
      simp only [if_true]
      rw [h.numbered, ← numberedId_succ]
  | @sendUnreliable data comp r hr =>
    obtain ⟨-, -, hid, hstore⟩ := l.sender.outgoingHeader_spec false
    rw [← hr] at hid hstore
    have hcount : l.count = if false = true then l.count + 1 else l.count := rfl
    refine h.transmit ⟨fun hf => (by cases hf), fun _ => Nat.succ_pos _, hid⟩ hcount ?_
    exact (congrArg ReliableStore.nextLocalId hstore).trans h.numbered
  | @retransmit deadline now msg sender number hsent hid hpos hle hnewest =>
    have hcount : l.count = if false = true then l.count + 1 else l.count := rfl
    refine h.transmit ⟨fun hf => (by cases hf), fun _ => Nat.lt_succ_of_le hle, hid⟩ hcount ?_
    have hsender : sender = (l.sender.maybeRetransmit deadline now).2 := by rw [hsent]
    rw [hsender]
    exact h.numbered
  | hear past now m =>
    refine h.congr ?_ rfl rfl
    obtain ⟨acked, hacked, -, -⟩ := ReliableStore.processAcks_spec past l.sender m.header
    have hframe := (ReliableStore.handleIncoming_incoming past now l.sender m).frame.2
    rw [hacked] at hframe
    exact hframe
  | pop =>
    refine h.congr ?_ rfl rfl
    unfold ReliableStore.popDelayedMessage
    split <;> rfl
  | own hown =>
    cases hown with
    | send reliable =>
      obtain ⟨-, -, -, hstore⟩ := l.receiver.outgoingHeader_spec reliable
      exact h.congr rfl (by rw [hstore]) (by rw [hstore])
    | push now msg =>
      unfold ReliableStore.pushLocalUnacked
      split
      · exact h.congr rfl rfl rfl
      · exact h.congr rfl rfl rfl
    | retransmit deadline now => exact h.congr rfl rfl rfl
    | pop =>
      unfold ReliableStore.popDelayedMessage
      split
      · exact h.congr rfl rfl rfl
      · exact h.congr rfl rfl rfl
  | arrive past now hchannel hm hcond => exact h.arrive hchannel hm hcond past now
  | lose hchannel hlost => exact h.lose hchannel hlost

end LinkInv

theorem LinkRun.inv {l : Link} (h : LinkRun Link.Recognised l) : LinkInv l := by
  have hinit : ∀ l : Link, l = {} → LinkInv l := by
    rintro l rfl
    exact .fresh
  exact Reachable.invariant hinit (fun _ _ h hstep => h.step hstep) h

/-- **The room behind a gap.** Until the lost message arrives, the receiver does not give up if at most 32 transmissions
of later messages arrive; and it does if more than 32 later messages do. -/
theorem lost_transmission_room {l : Link} (h : LinkRun Link.Recognised l) :
    (l.behind ≤ 32 → l.Quiet) ∧ (l.Quiet → l.messagesBehind ≤ 32) := ⟨h.inv.quiet, h.inv.few⟩

/-! ### Bursts -/

/-- The sender sends this many messages without data, none of which has arrived. -/
def burst : Nat → Link
  | 0 => {}
  | n + 1 =>
    let r := (burst n).sender.outgoingHeader true
    let msg := ReliableData.of [] none r.1
    { (burst n).transmit ⟨(burst n).count + 1, true, msg⟩ (r.2.pushLocalUnacked 0 msg).2 with
      count := (burst n).count + 1 }

/-- The transmissions arrive. -/
def drain : List Transmission → Link → Link
  | [], l => l
  | tr :: rest, l => drain rest (l.arrive (fun _ => 0) 0 tr rest (arrived tr.msg))

/-- The first message of a burst is lost, and the others arrive. -/
def lostBurst (n : Nat) : Link :=
  drain (burst n).channel.tail { burst n with channel := (burst n).channel.tail, lost := (burst n).channel.head? }

section
variable {cond : Link → Transmission → Prop}

/-- The window has room for 64 messages. -/
theorem burst_run (n : Nat) (hn : n ≤ 64) :
    LinkRun cond (burst n) ∧ (burst n).sender.localUnacked.length = n ∧ (burst n).lost = none ∧
      (∀ tr ∈ (burst n).channel, tr.first = true) ∧ (burst n).channel.length = n := by
  induction n with
  | zero => exact ⟨Reachable.start rfl, rfl, rfl, fun _ h => (by cases h), rfl⟩
  | succ n ih =>
    obtain ⟨hrun, hlength, hlost, hfirst, hchannel⟩ := ih (by omega)
    obtain ⟨-, -, -, hstore⟩ := (burst n).sender.outgoingHeader_spec true
    have hunacked := congrArg ReliableStore.localUnacked hstore
    dsimp only at hunacked
    have hpush : ∀ msg, ((burst n).sender.outgoingHeader true).2.pushLocalUnacked 0 msg = (.ok (),
        { ((burst n).sender.outgoingHeader true).2 with
          localUnacked := (burst n).sender.localUnacked ++ [⟨msg.header.messageId, msg, 0, 0⟩] }) := by
      intro msg
      unfold ReliableStore.pushLocalUnacked
      rw [hunacked, if_neg (by omega)]
    refine ⟨Reachable.next hrun (.send 0 [] none rfl (Prod.ext ?_ rfl)), ?_, hlost, ?_, ?_⟩
    · rw [hpush]
    · show ((((burst n).sender.outgoingHeader true).2.pushLocalUnacked 0 _).2).localUnacked.length = n + 1
      rw [hpush]
      simp [hlength]
    · intro tr htr
      rcases List.mem_append.mp htr with htr | htr
      · exact hfirst tr htr
      · rw [List.mem_singleton.mp htr]
    · show ((burst n).channel ++ [_]).length = n + 1
      simp [hchannel]

theorem drain_run (hcond : ∀ l tr, tr.first = true → cond l tr) {ts : List Transmission} {l : Link}
    (h : LinkRun cond l) (hchannel : l.channel = ts) (hfirst : ∀ tr ∈ ts, tr.first = true) :
    LinkRun cond (drain ts l) := by
  induction ts generalizing l with
  | nil => exact h
  | cons tr rest ih =>
    have hstep : LinkStep cond l (l.arrive (fun _ => 0) 0 tr rest (arrived tr.msg)) :=
      .arrive _ _ hchannel (arrived_carries tr.msg) (hcond l tr (hfirst tr List.mem_cons_self))
    refine ih (Reachable.next h hstep) ?_ fun tr htr => hfirst tr (List.mem_cons_of_mem _ htr)
    unfold Link.arrive
    dsimp only
    split <;> rfl

theorem lostBurst_run (hcond : ∀ l tr, tr.first = true → cond l tr) {n : Nat} (hn : n < 64) :
    LinkRun cond (lostBurst (n + 1)) := by
  obtain ⟨hrun, -, hlost, hfirst, hlength⟩ := @burst_run cond (n + 1) hn
  unfold lostBurst
  generalize hchannel : (burst (n + 1)).channel = channel at *
  cases channel with
  | nil => cases hlength
  | cons tr rest =>
    exact drain_run hcond (Reachable.next hrun (.lose hchannel hlost)) rfl fun tr htr =>
      hfirst tr (List.mem_cons_of_mem _ htr)

end

/-- With 32 messages behind the lost one, all is well. -/
theorem lost_transmission_room_32 : LinkRun Link.Recognised (lostBurst 33) ∧ (lostBurst 33).behind = 32 ∧
    (lostBurst 33).Quiet := by
  have hrun : LinkRun Link.Recognised (lostBurst 33) :=
    lostBurst_run (fun _ _ hfirst hf => absurd hf (by simp [hfirst])) (by omega)
  have hbehind : (lostBurst 33).behind = 32 := by decide +kernel
  exact ⟨hrun, hbehind, (lost_transmission_room hrun).1 hbehind.le⟩

/-- With 33, well within the window of the sender, the receiver gives up. -/
theorem lostBurst_gives_up : ¬ ∀ l, LinkRun (fun _ _ => True) l → l.Quiet := by
  intro hclaim
  have hquiet := hclaim _ (lostBurst_run (fun _ _ _ => trivial) (show 33 < 64 by decide))
  have hgives : (.error (.custom .tooUnreliable)) ∈ (lostBurst 34).results := by decide +kernel
  exact hquiet _ hgives rfl

end Qunet
