import Qunet.Udp.ReliableSteps
import Qunet.Lib.Reorder

/-!
# The reliable store as a reorder buffer

The caller hands every incoming message to `handleIncoming` and then drains the delayed queue.

* `receive`, `releasedBy` : one such round, and everything the rounds hand to the caller;
* `Buffers l out s` : after the arrivals `l` the store `s` has released `out` and holds the first copies of the rest;
* `Buffers.receive` : one round keeps it; `Buffers.run` : so does a run without errors;
* **`reorder_buffer`** : the released messages are the first copies of the ids `1, …, m`, and `m + 1` has not arrived.
-/

namespace Qunet
open Lib

namespace ReliableStore

/-! ## Receiving and draining -/

/-- Pop delayed messages, at most `rounds` of them. -/
def drainDelayedLoop : Nat → ReliableStore → List ReliableMeta × ReliableStore
  | 0, s => ([], s)
  | rounds + 1, s =>
    match s.popDelayedMessage with
    | (none, s) => ([], s)
    | (some m, s) => (m :: (drainDelayedLoop rounds s).1, (drainDelayedLoop rounds s).2)

/-- Call `popDelayedMessage` until it returns nothing. -/
def drainDelayed (s : ReliableStore) : List ReliableMeta × ReliableStore :=
  drainDelayedLoop s.remoteDelayedQueue.length s

/-- A call of `handleIncoming`: the message, the clock, and the memory behind the message's ack array. -/
structure Arrival where
  past : Nat → UInt16
  now : Nat
  message : ReliableMeta

/-- One call of `handleIncoming`, after which the caller drains the delayed queue. -/
def receive (s : ReliableStore) (a : Arrival) : Except TransportError (List ReliableMeta) × ReliableStore :=
  match s.handleIncoming a.past a.now a.message with
  | (.error e, s) => (.error e, s)
  | (.ok inOrder, s) => (.ok ((if inOrder then [a.message] else []) ++ s.drainDelayed.1), s.drainDelayed.2)

/-- What one round hands to the caller. -/
def handedOn : Except TransportError (List ReliableMeta) → List ReliableMeta
  | .ok ms => ms
  | .error _ => []

/-- What a fresh store hands to the caller, in call order. -/
def releasedBy (arrivals : List Arrival) : List ReliableMeta := (runMachine receive {} arrivals).1.flatMap handedOn

/-- The number of a message. -/
abbrev idNumber (m : ReliableMeta) : Nat := (messageIdOf m).toNat

theorem drainDelayedLoop_eq (rounds : Nat) (s : ReliableStore) (h : s.remoteDelayedQueue.length = rounds) :
    drainDelayedLoop rounds s = (s.remoteDelayedQueue, { s with remoteDelayedQueue := [] }) := by
  induction rounds generalizing s with
  | zero =>
    have hnil : s.remoteDelayedQueue = [] := List.length_eq_zero_iff.mp h
    rw [drainDelayedLoop, hnil, ← hnil]
  | succ rounds ih =>
    unfold drainDelayedLoop popDelayedMessage
    cases hq : s.remoteDelayedQueue with
    | nil => rw [hq] at h; cases h
    | cons m rest =>
      rw [hq, List.length_cons, Nat.add_right_cancel_iff] at h
      dsimp only
      rw [ih _ h]

theorem drainDelayed_eq (s : ReliableStore) :
    s.drainDelayed = (s.remoteDelayedQueue, { s with remoteDelayedQueue := [] }) := drainDelayedLoop_eq _ s rfl

/-! ## The invariant -/

/-- The messages of the out-of-order list. -/
def storedMessages (s : ReliableStore) : List ReliableMeta := s.remoteOutOfOrder.map (·.message)

/-- After the arrivals `l`: `out` is released in order, and of every id from the next one on the first copy is held. -/
structure Holds (l out : List ReliableMeta) (s : ReliableStore) : Prop where
  copies : Copies idNumber l out
  next : s.nextRemoteId.toNat = out.length + 1
  stored : ∀ k, out.length < k → firstCopy idNumber s.storedMessages k = firstCopy idNumber l k

/-- Between two rounds nothing more can be released and the delayed queue is empty. -/
structure Buffers (l out : List ReliableMeta) (s : ReliableStore) : Prop extends Holds l out s where
  missing : firstCopy idNumber l (out.length + 1) = none
  drained : s.remoteDelayedQueue = []

/-- The number of an id, as a number. -/
theorem id_eq_iff {a b : UInt16} {k : Nat} (hb : b.toNat = k) : a = b ↔ a.toNat = k := by
  rw [← UInt16.toNat_inj, hb]

theorem nextStored_firstCopy {s : ReliableStore} {k : Nat} (hk : s.nextRemoteId.toNat = k) :
    firstCopy idNumber s.storedMessages k = s.nextStored.map (·.message) := by
  have hpred : (fun e : StoredOutOfOrderMessage => decide (idNumber e.message = k)) =
      fun e => decide (e.id = s.nextRemoteId) := by
    funext e
    rw [decide_eq_decide, ← id_eq_iff hk]
  rw [firstCopy, storedMessages, List.find?_map, nextStored, ← hpred]
  rfl

theorem storedMessages_delay (s : ReliableStore) (e : StoredOutOfOrderMessage) :
    (s.delay e).storedMessages = s.storedMessages.eraseP fun m => messageIdOf m = s.nextRemoteId := by
  unfold storedMessages delay
  rw [List.eraseP_map]
  rfl

/-- Taking out a message with another id does not change the first copy. -/
theorem firstCopy_eraseP {l : List ReliableMeta} {id : UInt16} {k : Nat} (hk : id.toNat ≠ k) :
    firstCopy idNumber (l.eraseP fun m => messageIdOf m = id) k = firstCopy idNumber l k := by
  unfold firstCopy
  induction l with
  | nil => rfl
  | cons m l ih =>
    by_cases hm : messageIdOf m = id
    · have hne : idNumber m ≠ k := by rw [idNumber, hm]; exact hk
      simp [hm, hne]
    · simp only [List.eraseP_cons, hm, decide_false, cond_false, List.find?_cons, ih]

/-- Taking the next message out of the out-of-order list leaves the later ones. -/
theorem Holds.delay_accept {l out : List ReliableMeta} {s : ReliableStore} (h : Holds l out s)
    {e : StoredOutOfOrderMessage} (he : s.nextStored = some e) (hfew : out.length + 1 < 65535) (now : Nat) :
    Holds l (out ++ [e.message]) ((s.delay e).accept now) := by
  have hm : firstCopy idNumber l (out.length + 1) = some e.message := by
    rw [← h.stored _ (Nat.lt_succ_self _), nextStored_firstCopy h.next, he]
    rfl
  have hlen : (out ++ [e.message]).length = out.length + 1 := by simp
  have hn := h.next
  refine ⟨h.copies.release hm, ?_, fun k hk => ?_⟩
  · change (succId s.nextRemoteId).toNat = _
    rw [succId_toNat, hlen, if_neg (by omega), hn]
  · change firstCopy idNumber (s.delay e).storedMessages k = _
    rw [storedMessages_delay, firstCopy_eraseP (by omega)]
    exact h.stored k (by omega)

/-- A restoration releases the restored messages in order, until one is missing. -/
theorem Holds.restores {now : Nat} {s t : ReliableStore} {ms : List ReliableMeta} (hr : Restores now s ms t)
    {l out : List ReliableMeta} (h : Holds l out s) (hfew : out.length + ms.length < 65535) :
    Holds l (out ++ ms) t ∧ firstCopy idNumber l ((out ++ ms).length + 1) = none := by
  induction hr generalizing out with
  | done hs =>
    rw [List.append_nil]
    refine ⟨h, ?_⟩
    rw [← h.stored _ (Nat.lt_succ_self _), nextStored_firstCopy h.next, nextStored_eq_none.mpr hs]
    rfl
  | @step s t e ms he _ ih =>
    rw [List.length_cons] at hfew
    have hnext := ih (h.delay_accept he (by omega) now) (by simp; omega)
    rwa [List.append_assoc, List.singleton_append] at hnext

theorem Buffers.settled {l out : List ReliableMeta} {s : ReliableStore} (h : Buffers l out s) : s.Settled := by
  have hnone : s.nextStored.map (·.message) = none := by
    rw [← nextStored_firstCopy h.next, h.stored _ (Nat.lt_succ_self _), h.missing]
  exact nextStored_eq_none.mp (Option.map_eq_none_iff.mp hnone)

/-- An arrival that is behind the next id, or whose first copy is known, changes nothing. -/
theorem Buffers.arrive {l out : List ReliableMeta} {s t : ReliableStore} (h : Buffers l out s) {m : ReliableMeta}
    (hn : messageIdOf m ≠ s.nextRemoteId)
    (hm : out.length < idNumber m → ∃ a, firstCopy idNumber s.storedMessages (idNumber m) = some a)
    (ho : t.remoteOutOfOrder = s.remoteOutOfOrder) (hnext : t.nextRemoteId = s.nextRemoteId)
    (hq : t.remoteDelayedQueue = s.remoteDelayedQueue) : Buffers (l ++ [m]) out t := by
  have hne : idNumber m ≠ out.length + 1 := fun hk => hn ((id_eq_iff h.next).mpr hk)
  refine ⟨⟨h.copies.arrive m, by rw [hnext]; exact h.next, fun k hk => ?_⟩, ?_, by rw [hq]; exact h.drained⟩
  · rw [storedMessages, ho, ← storedMessages, h.stored k hk]
    by_cases hmk : idNumber m = k
    · obtain ⟨a, ha⟩ := hm (by omega)
      rw [hmk, h.stored k hk] at ha
      rw [ha, firstCopy_concat_of_some ha]
    · rw [firstCopy_concat_of_ne hmk]
  · rw [firstCopy_concat_of_ne hne]
    exact h.missing

/-- A duplicate arrives. -/
theorem Buffers.duplicate {l out : List ReliableMeta} {s t : ReliableStore} (h : Buffers l out s) {m : ReliableMeta}
    (hd : s.isDuplicate (messageIdOf m)) (ho : t.remoteOutOfOrder = s.remoteOutOfOrder)
    (hnext : t.nextRemoteId = s.nextRemoteId) (hq : t.remoteDelayedQueue = s.remoteDelayedQueue) :
    Buffers (l ++ [m]) out t := by
  have hlt : idNumber m < s.nextRemoteId.toNat := UInt16.lt_iff_toNat_lt.mp hd.1
  have hn := h.next
  exact h.arrive (fun he => by rw [idNumber, he] at hlt; omega) (fun hk => absurd hk (by omega)) ho hnext hq

/-- The next message arrives and is handed on. -/
theorem Buffers.accept {l out : List ReliableMeta} {s : ReliableStore} (h : Buffers l out s) {m : ReliableMeta}
    (hn : messageIdOf m = s.nextRemoteId) (hfew : out.length + 1 < 65535) (now : Nat) :
    Holds (l ++ [m]) (out ++ [m]) (s.accept now) := by
  have hm : idNumber m = out.length + 1 := (id_eq_iff h.next).mp hn
  have hlen : (out ++ [m]).length = out.length + 1 := by simp
  have hnext := h.next
  refine ⟨(h.copies.arrive m).release ?_, ?_, fun k hk => ?_⟩
  · rw [firstCopy_concat, h.missing, Option.none_or, if_pos hm]
  · change (succId s.nextRemoteId).toNat = _
    rw [succId_toNat, hlen, if_neg (by omega), hnext]
  · rw [firstCopy_concat_of_ne (by omega)]
    exact h.stored k (by omega)

/-- One message, before the delayed queue is drained: it is handed on if it is in order, and `ms` are restored. -/
theorem Buffers.incoming {l out : List ReliableMeta} {s t : ReliableStore} {now : Nat} {m : ReliableMeta} {b : Bool}
    (h : Buffers l out s) (h0 : messageIdOf m ≠ 0) (hi : Incoming now s m (.ok b) t)
    (hfew : (out ++ ((if b then [m] else []) ++ t.remoteDelayedQueue)).length < 65535) :
    Buffers (l ++ [m]) (out ++ ((if b then [m] else []) ++ t.remoteDelayedQueue))
      { t with remoteDelayedQueue := [] } := by
  cases hi with
  | unreliable hz => exact absurd hz h0
  | duplicateQueued _ hd =>
    rw [h.drained]
    simp only [Bool.false_eq_true, if_false, List.append_nil]
    exact h.duplicate hd rfl rfl h.drained.symm
  | duplicate _ hd _ hr =>
    obtain ⟨rfl, rfl⟩ := hr.eq_of_settled h.settled
    dsimp only
    rw [h.drained]
    simp only [Bool.false_eq_true, if_false, List.append_nil]
    exact h.duplicate hd rfl rfl h.drained.symm
  | stored _ _ hn _ hs =>
    rw [h.drained]
    simp only [Bool.false_eq_true, if_false, List.append_nil]
    obtain ⟨e, he, hid⟩ := hs
    refine h.arrive hn (fun _ => ?_) rfl rfl h.drained.symm
    rw [← Option.isSome_iff_exists, firstCopy, List.find?_isSome]
    exact ⟨e.message, List.mem_map_of_mem he, by simpa [idNumber, messageIdOf] using congrArg UInt16.toNat hid⟩
  | outOfOrder _ _ hn =>
    have hne : idNumber m ≠ out.length + 1 := fun hk => hn ((id_eq_iff h.next).mpr hk)
    dsimp only
    rw [h.drained]
    simp only [Bool.false_eq_true, if_false, List.append_nil]
    refine ⟨⟨h.copies.arrive m, h.next, fun k hk => ?_⟩, ?_, rfl⟩
    · have hst := h.stored k hk
      unfold storedMessages at hst ⊢
      rw [List.map_append, List.map_singleton, firstCopy_concat, firstCopy_concat, hst]
    · rw [firstCopy_concat_of_ne hne]
      exact h.missing
  | @inOrder _ hn ms t hr =>
    have hq : t.remoteDelayedQueue = ms := by
      rw [hr.delayed, show (s.accept now).remoteDelayedQueue = s.remoteDelayedQueue from rfl, h.drained,
        List.nil_append]
    rw [hq] at hfew ⊢
    simp only [if_true, List.singleton_append] at hfew ⊢
    rw [List.length_append, List.length_cons] at hfew
    obtain ⟨hholds, hmissing⟩ := (h.accept hn (by omega) now).restores hr (by simp; omega)
    rw [List.append_assoc, List.singleton_append] at hholds hmissing
    exact ⟨⟨hholds.copies, hholds.next, hholds.stored⟩, hmissing, rfl⟩

/-- The acknowledgements in a header do not touch the incoming side. -/
theorem Buffers.processAcks {l out : List ReliableMeta} {s : ReliableStore} (h : Buffers l out s)
    (past : Nat → UInt16) (hdr : ReliabilityHeader) : Buffers l out (s.processAcks past hdr) := by
  obtain ⟨u, hu, -, -⟩ := processAcks_spec past s hdr
  rw [hu]
  exact ⟨⟨h.copies, h.next, h.stored⟩, h.missing, h.drained⟩

/-- **One round** without error keeps the buffer. -/
theorem Buffers.receive {l out : List ReliableMeta} {s : ReliableStore} (h : Buffers l out s) {a : Arrival}
    (h0 : messageIdOf a.message ≠ 0) {ms : List ReliableMeta} (hok : (s.receive a).1 = .ok ms)
    (hfew : (out ++ ms).length < 65535) : Buffers (l ++ [a.message]) (out ++ ms) (s.receive a).2 := by
  have hi := handleIncoming_incoming a.past a.now s a.message
  unfold ReliableStore.receive at hok ⊢
  generalize s.handleIncoming a.past a.now a.message = r at hi hok ⊢
  obtain ⟨res, t⟩ := r
  cases res with
  | error e => cases hok
  | ok inOrder =>
    dsimp only at hok ⊢ hi
    rw [drainDelayed_eq] at hok ⊢
    cases hok
    exact (h.processAcks a.past a.message.header).incoming h0 hi hfew

theorem Buffers.init : Buffers [] [] {} :=
  ⟨⟨Copies.nil [], rfl, fun _ _ => rfl⟩, rfl, rfl⟩

theorem releasedBy_concat (arrivals : List Arrival) (a : Arrival) :
    releasedBy (arrivals ++ [a]) =
      releasedBy arrivals ++ handedOn ((runMachine ReliableStore.receive {} arrivals).2.receive a).1 := by
  simp [releasedBy, runMachine_concat]

/-- **A run without errors** keeps the buffer. -/
theorem Buffers.run (arrivals : List Arrival) (hids : ∀ a ∈ arrivals, messageIdOf a.message ≠ 0)
    (hok : ∀ r ∈ (runMachine ReliableStore.receive {} arrivals).1, r.isOk)
    (hfew : (releasedBy arrivals).length < 65535) :
    Buffers (arrivals.map (·.message)) (releasedBy arrivals) (runMachine ReliableStore.receive {} arrivals).2 := by
  induction arrivals using List.reverseRecOn with
  | nil => exact Buffers.init
  | append_singleton arrivals a ih =>
    rw [releasedBy_concat] at hfew ⊢
    rw [runMachine_concat] at hok ⊢
    have hprev := ih (fun b hb => hids b (List.mem_append_left _ hb)) (fun r hr => hok r (List.mem_append_left _ hr))
      (by rw [List.length_append] at hfew; omega)
    have hlast := hok _ (List.mem_append_right _ (List.mem_singleton_self _))
    cases hms : ((runMachine ReliableStore.receive {} arrivals).2.receive a).1 with
    | error e => rw [hms] at hlast; cases hlast
    | ok ms =>
      rw [hms] at hfew
      rw [List.map_append]
      exact hprev.receive (hids a (List.mem_append_right _ (List.mem_singleton_self a))) hms hfew

/-- **The reorder buffer**: the released ids are `1, …, m` in this order, each message is the first copy received, all
of them were received, and `m + 1` was not. -/
theorem reorder_buffer (arrivals : List Arrival) (hids : ∀ a ∈ arrivals, messageIdOf a.message ≠ 0)
    (hok : ∀ r ∈ (runMachine ReliableStore.receive {} arrivals).1, r.isOk)
    (hfew : (releasedBy arrivals).length < 65535) :
    (releasedBy arrivals).map idNumber = List.range' 1 (releasedBy arrivals).length ∧
      (∀ m ∈ releasedBy arrivals, firstCopy idNumber (arrivals.map (·.message)) (idNumber m) = some m) ∧
      (∀ m ∈ arrivals.map (·.message), idNumber m ≠ (releasedBy arrivals).length + 1) ∧
      ∀ k, 1 ≤ k → k ≤ (releasedBy arrivals).length → ∃ m ∈ arrivals.map (·.message), idNumber m = k := by
  have hb := Buffers.run arrivals hids hok hfew
  have hr : Released idNumber (arrivals.map (·.message)) (releasedBy arrivals) := ⟨hb.copies, hb.missing⟩
  exact ⟨hr.copies.keys, fun m hm => hr.copies.mem hm, hr.smallest.1, hr.smallest.2⟩

/-- An empty message with the given id. -/
def numbered (id : UInt16) : ReliableMeta where
  type := msgData
  compressionHeader := none
  reliabilityHeader := some ⟨id, 0, .replicate 8 0⟩
  fragmentationHeader := none
  data := []
  dataOffset := 5
  header := ⟨id, 0, .replicate 8 0⟩
  has_header := rfl

/-- The second message overtakes the first. -/
def overtaking : List Arrival := [⟨fun _ => 0, 1, numbered 2⟩, ⟨fun _ => 0, 2, numbered 1⟩]

theorem reorder_buffer_overtaking :
    (releasedBy overtaking).map idNumber = [1, 2] ∧ ∀ m ∈ overtaking.map (·.message), idNumber m ≠ 3 := by
  have h := reorder_buffer overtaking (by decide) (by decide) (by decide)
  exact ⟨h.1, h.2.2.1⟩

end ReliableStore

end Qunet
