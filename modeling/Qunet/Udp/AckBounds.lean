import Qunet.Udp.Receiving
import Qunet.Udp.Reassembly

/-!
# The indices at which ack arrays are read

* `UdpTransport.ackAccesses` : every index that `processAcks` has visited and that `countRelStats` visits;
* `processAcks_past`, `countRelStats_past` : within the array, what lies behind it does not matter;
* `headersOf`, `CountsItem` : the reliability header of a message once it is reassembled, and its count;
* `Bounded` : what a transport keeps of reliability headers has counts within the array (`Bounded.item`, `.event`);
* `FragmentStore.Carries` : the reliability headers in a fragment store come from its fragments;
* **`ackAccesses_lt_iff`** : the accesses of a run lie in the array exactly if the counts of the headers do.
-/

namespace Qunet
open Lib

/-! ## Headers in the fragment store -/

namespace FragmentStore

/-- Every stored reliability header satisfies `Q`. -/
def Carries (Q : ReliabilityHeader → Prop) (s : FragmentStore) : Prop :=
  ∀ e ∈ s.messages.entries, ∀ h ∈ e.2.reliabilityHeader, Q h

variable {Q : ReliabilityHeader → Prop} {s : FragmentStore}

theorem entryFor_carries (h : s.Carries Q) (now : Nat) (id : UInt16) :
    ∀ hdr ∈ (s.entryFor now id).reliabilityHeader, Q hdr := by
  have hentry : ∀ hdr ∈ ((s.messages.lookup id).getD {}).reliabilityHeader, Q hdr := by
    cases hl : s.messages.lookup id with
    | none =>
      intro hdr hm
      cases hm
    | some msg => exact h ⟨id, msg⟩ (mem_entries.mp hl)
  intro hdr hm
  refine hentry hdr ?_
  unfold entryFor at hm
  dsimp only at hm
  split at hm
  · exact hm
  · exact hm

theorem insert_carries {messages : PartialMessages} {id : UInt16} {msg : PartialMessage}
    (h : ∀ e ∈ messages.entries, ∀ hdr ∈ e.2.reliabilityHeader, Q hdr) (hmsg : ∀ hdr ∈ msg.reliabilityHeader, Q hdr) :
    ∀ e ∈ (messages.insert id msg).entries, ∀ hdr ∈ e.2.reliabilityHeader, Q hdr := by
  intro e he
  rcases mem_insert he with rfl | ⟨-, he⟩
  · exact hmsg
  · exact h e he

theorem scanStored_some {now : Nat} {l : List (Sigma fun _ : UInt16 => PartialMessage)} {msg : PartialMessage}
    (h : (scanStored now l).1 = some msg) : ∃ e ∈ l, e.2 = msg := by
  induction l with
  | nil => cases h
  | cons e l ih =>
    unfold scanStored at h
    split at h
    · cases h
      exact ⟨e, List.mem_cons_self, rfl⟩
    · split at h
      · obtain ⟨e', he', rfl⟩ := ih h
        exact ⟨e', List.mem_cons_of_mem e he', rfl⟩
      · obtain ⟨e', he', rfl⟩ := ih h
        exact ⟨e', List.mem_cons_of_mem e he', rfl⟩

theorem processStored_carries (order : Traversal) (now : Nat) (h : s.Carries Q) :
    (processStored order now s).2.Carries Q ∧
      ∀ m, (processStored order now s).1 = .ok (some m) → ∀ hdr ∈ m.reliabilityHeader, Q hdr := by
  have hkept : ({ s with messages := scanned order now s.messages } : FragmentStore).Carries Q :=
    fun e he => h e (mem_scanned he)
  unfold processStored
  dsimp only
  cases hr : (scanStored now (order.visit s.messages.entries)).1 with
  | none => exact ⟨hkept, fun m hm => by cases hm⟩
  | some msg =>
    refine ⟨hkept, fun m hm hdr hh => ?_⟩
    obtain ⟨e, he, rfl⟩ := scanStored_some hr
    dsimp only at hm
    unfold PartialMessage.reassemble at hm
    split at hm
    · cases hm
      exact h e ((order.perm s.messages.entries).mem_iff.mp he) hdr hh
    · cases hm

/-- The reliability headers that the store keeps and returns are those of its fragments. -/
theorem processFragment_carries (order : Traversal) (now : Nat) (h : s.Carries Q) {m : FragmentMeta}
    (hm : ∀ hdr ∈ m.reliabilityHeader, Q hdr) :
    (s.processFragment order now m).2.Carries Q ∧
      ∀ m', (s.processFragment order now m).1 = .ok (some m') → ∀ hdr ∈ m'.reliabilityHeader, Q hdr := by
  have hentry := entryFor_carries h now m.header.messageId
  unfold processFragment
  dsimp only
  split
  · exact ⟨insert_carries h hentry, fun m' hm' => by cases hm'⟩
  · have hadd : ∀ hdr ∈ ((s.entryFor now m.header.messageId).add m).reliabilityHeader, Q hdr := by
      intro hdr hh
      unfold PartialMessage.add at hh
      dsimp only at hh
      cases hrel : m.reliabilityHeader with
      | none =>
        rw [hrel, Option.none_or] at hh
        exact hentry hdr hh
      | some own =>
        rw [hrel, Option.some_or] at hh
        exact hm hdr (hrel ▸ hh)
    exact processStored_carries order now (insert_carries h hadd)

end FragmentStore

namespace UdpTransport

/-- Every index of an ack array that has been read, and that a snapshot of the statistics reads. -/
def ackAccesses (t : UdpTransport) : List Nat :=
  t.trace.processed.flatMap ReliabilityHeader.ackIndices ++ t.tracker.ackAccesses

/-! ## Accesses within the array -/

theorem ackIndices_lt_iff {h : ReliabilityHeader} : (∀ i ∈ h.ackIndices, i < 8) ↔ h.ackCount ≤ 8 := by
  constructor
  · intro hall
    by_contra hgt
    exact absurd (hall 8 (List.mem_range.mpr (by omega))) (lt_irrefl 8)
  · intro hle i hi
    rw [ReliabilityHeader.ackIndices, List.mem_range] at hi
    omega

theorem ackAt_past (past past' : Nat → UInt16) (h : ReliabilityHeader) {i : Nat} (hi : i < 8) :
    h.ackAt past i = h.ackAt past' i := by
  rw [ReliabilityHeader.ackAt, ReliabilityHeader.ackAt, dif_pos hi, dif_pos hi]

/-- Within the array, what lies behind it does not matter to `processAcks`. -/
theorem processAcks_past (past past' : Nat → UInt16) (s : ReliableStore) {h : ReliabilityHeader}
    (hall : ∀ i ∈ h.ackIndices, i < 8) : s.processAcks past h = s.processAcks past' h := by
  apply List.foldl_ext
  intro s i hi
  rw [ackAt_past past past' h (hall i hi)]

/-- Nor to the statistics. -/
theorem countRelStats_past (past past' : Nat → UInt16) (s : StatTracker) (hall : ∀ i ∈ s.ackAccesses, i < 8) :
    StatTracker.countRelStats past s.messages = StatTracker.countRelStats past' s.messages := by
  have hfold : s.messages.foldl (StatTracker.countMessage past) {} =
      s.messages.foldl (StatTracker.countMessage past') {} := by
    apply List.foldl_ext
    intro t msg hmsg
    have hmessage : ∀ i ∈ StatTracker.ackIndicesOf msg, i < 8 := fun i hi =>
      hall i (List.mem_flatMap.mpr ⟨msg, hmsg, hi⟩)
    unfold StatTracker.countMessage
    cases msg.relHeader with
    | none => rfl
    | some hdr =>
      apply List.foldl_ext
      intro t i hi
      rw [ackAt_past past past' hdr (hmessage i hi)]
  unfold StatTracker.countRelStats
  rw [hfold]

/-! ## The header of a reassembled message -/

/-- The reliability header with which a message, once it is reassembled, comes to the reliable store. -/
def headersOf (w : World) (t : UdpTransport) (item : Except MessageDecodeError QunetMessageMeta) :
    List ReliabilityHeader :=
  match item with
  | .error _ => []
  | .ok m =>
    if m.type ≠ msgData then []
    else match (defragment w t m).1 with
      | .ok (some m') => m'.reliabilityHeader.toList
      | _ => []

/-- The count in this header is at most the length of the array. -/
def CountsItem (w : World) (t : UdpTransport) (item : Except MessageDecodeError QunetMessageMeta) : Prop :=
  ∀ h ∈ headersOf w t item, h.ackCount ≤ 8

/-- What a transport keeps of reliability headers lies within the array. -/
structure Bounded (t : UdpTransport) : Prop where
  outOfOrder : ∀ e ∈ t.relStore.remoteOutOfOrder, e.message.header.ackCount ≤ 8
  delayed : ∀ m ∈ t.relStore.remoteDelayedQueue, m.header.ackCount ≤ 8
  processed : ∀ h ∈ t.trace.processed, h.ackCount ≤ 8
  recorded : ∀ i ∈ t.tracker.ackAccesses, i < 8

theorem Bounded.lt {t : UdpTransport} (h : t.Bounded) : ∀ i ∈ t.ackAccesses, i < 8 := by
  intro i hi
  rcases List.mem_append.mp hi with hi | hi
  · obtain ⟨hdr, hh, hi⟩ := List.mem_flatMap.mp hi
    exact ackIndices_lt_iff.mpr (h.processed hdr hh) i hi
  · exact h.recorded i hi

theorem processed_of_lt {t : UdpTransport} (h : ∀ i ∈ t.ackAccesses, i < 8) :
    ∀ hdr ∈ t.trace.processed, hdr.ackCount ≤ 8 := by
  intro hdr hh
  refine ackIndices_lt_iff.mp fun i hi => h i ?_
  exact List.mem_append_left _ (List.mem_flatMap.mpr ⟨hdr, hh, hi⟩)

/-! ## One message -/

/-- Recording an incoming message adds the indices of its header. -/
theorem onDownMessage_accesses (now bytes : Nat) (compressed : Option Nat) (rel : Option ReliabilityHeader)
    (s : StatTracker) {i : Nat} (hi : i ∈ (s.onDownMessage now bytes compressed rel).ackAccesses) :
    i ∈ s.ackAccesses ∨ ∃ h ∈ rel, i ∈ h.ackIndices := by
  unfold StatTracker.onDownMessage StatTracker.onMessage at hi
  split at hi
  · exact .inl hi
  · unfold StatTracker.ackAccesses at hi
    rw [List.flatMap_append] at hi
    rcases List.mem_append.mp hi with hi | hi
    · exact .inl hi
    · right
      cases rel with
      | none => simp [StatTracker.ackIndicesOf] at hi
      | some h => exact ⟨h, rfl, by simpa [StatTracker.ackIndicesOf] using hi⟩

theorem Bounded.congr {t t' : UdpTransport} (h : t.Bounded) (hs : t'.relStore = t.relStore)
    (htr : t'.trace.processed = t.trace.processed) (hst : t'.tracker = t.tracker) : t'.Bounded := by
  constructor
  · rw [hs]
    exact h.outOfOrder
  · rw [hs]
    exact h.delayed
  · rw [htr]
    exact h.processed
  · rw [hst]
    exact h.recorded

theorem Bounded.countDownMessage {t : UdpTransport} (h : t.Bounded) (w : World) {m : QunetMessageMeta}
    (hm : ∀ hdr ∈ m.reliabilityHeader, hdr.ackCount ≤ 8) : (countDownMessage w m t).Bounded := by
  refine ⟨h.outOfOrder, h.delayed, h.processed, fun i hi => ?_⟩
  have hcases : i ∈ t.tracker.ackAccesses ∨ ∃ hdr ∈ m.reliabilityHeader, i ∈ hdr.ackIndices := by
    unfold UdpTransport.countDownMessage at hi
    dsimp only at hi
    split at hi
    · exact onDownMessage_accesses _ _ _ _ _ hi
    · exact onDownMessage_accesses _ _ _ _ _ hi
  rcases hcases with hold | ⟨hdr, hh, hnew⟩
  · exact h.recorded i hold
  · exact ackIndices_lt_iff.mpr (hm hdr hh) i hnew

theorem Bounded.finishData {t : UdpTransport} (h : t.Bounded) (w : World) {m : QunetMessageMeta}
    (hm : ∀ hdr ∈ m.reliabilityHeader, hdr.ackCount ≤ 8) : (finishData w t m).2.Bounded := by
  have hcount := h.countDownMessage w hm
  cases hd : decompress w t m with
  | error e =>
    rw [finishData_error hd]
    exact hcount
  | ok data =>
    rw [finishData_ok hd]
    exact hcount.congr rfl rfl rfl

/-- A message that the reliable store sees. -/
theorem incoming_bounded {now : Nat} {s s' : ReliableStore} {m : ReliableMeta} {r : Except TransportError Bool}
    (hm : m.header.ackCount ≤ 8) (hi : ReliableStore.Incoming now s m r s')
    (ho : ∀ e ∈ s.remoteOutOfOrder, e.message.header.ackCount ≤ 8)
    (hd : ∀ m ∈ s.remoteDelayedQueue, m.header.ackCount ≤ 8) :
    (∀ e ∈ s'.remoteOutOfOrder, e.message.header.ackCount ≤ 8) ∧
      ∀ m ∈ s'.remoteDelayedQueue, m.header.ackCount ≤ 8 := hi.all hm ho hd

theorem Bounded.acceptReliable {t : UdpTransport} (h : t.Bounded) (w : World) {m : QunetMessageMeta}
    (hm : ∀ hdr ∈ m.reliabilityHeader, hdr.ackCount ≤ 8) : (acceptReliable w t m).2.Bounded := by
  cases hof : HeaderMeta.of? QunetMessageMeta.reliabilityHeader m with
  | none =>
    rw [acceptReliable_none hof]
    exact h
  | some rm =>
    have hrm : rm.header.ackCount ≤ 8 := by
      refine hm rm.header ?_
      rw [← HeaderMeta.of?_eq_some.mp hof]
      exact rm.has_header
    rw [acceptReliable_some hof]
    obtain ⟨unacked, hi⟩ := ReliableStore.handleIncoming_acked w.past w.now t.relStore rm
    obtain ⟨ho, hd⟩ := incoming_bounded hrm hi h.outOfOrder h.delayed
    refine ⟨ho, hd, fun hdr hh => ?_, h.recorded⟩
    rcases List.mem_append.mp hh with hh | hh
    · exact h.processed hdr hh
    · rw [List.mem_singleton.mp hh]
      exact hrm

theorem Bounded.defragment {t : UdpTransport} (h : t.Bounded) (w : World) (m : QunetMessageMeta) :
    (defragment w t m).2.Bounded := by
  obtain ⟨fs, hfs⟩ := defragment_eq w t m
  rw [hfs]
  exact h.congr rfl rfl rfl

theorem headersOf_data {w : World} {t t₁ : UdpTransport} {m m' : QunetMessageMeta} (hm : m.type = msgData)
    (h : defragment w t m = (.ok (some m'), t₁)) : headersOf w t (.ok m) = m'.reliabilityHeader.toList := by
  unfold headersOf
  dsimp only
  rw [if_neg (not_not.mpr hm), h]

theorem Bounded.processData {t : UdpTransport} (h : t.Bounded) (w : World) {m : QunetMessageMeta}
    (hm : m.type = msgData) (hc : CountsItem w t (.ok m)) : (processData w t m).2.Bounded := by
  refine processData_state (fun _ => h.defragment w m) fun m' hdef => ?_
  have hm' : ∀ hdr ∈ m'.reliabilityHeader, hdr.ackCount ≤ 8 := by
    intro hdr hh
    refine hc hdr ?_
    rw [headersOf_data hm (Prod.ext hdef rfl)]
    exact Option.mem_toList.mpr hh
  have hacc := (h.defragment w m).acceptReliable w hm'
  exact ⟨hacc, hacc.finishData w hm'⟩

section
variable [Dbuf]

theorem processControl_fields (w : World) (t : UdpTransport) (m : QunetMessageMeta) :
    (processControl w t m).2.relStore = t.relStore ∧ (processControl w t m).2.fragStore = t.fragStore ∧
      (processControl w t m).2.trace.processed = t.trace.processed ∧
      (processControl w t m).2.tracker = t.tracker.onDownMessage w.now m.data.length none none := by
  unfold processControl
  dsimp only
  cases decodeWithMeta m with
  | error e => exact ⟨rfl, rfl, rfl, rfl⟩
  | ok msg => cases msg <;> exact ⟨rfl, rfl, rfl, rfl⟩

theorem Bounded.processControl {t : UdpTransport} (h : t.Bounded) (w : World) (m : QunetMessageMeta) :
    (processControl w t m).2.Bounded := by
  obtain ⟨hs, -, htr, hst⟩ := processControl_fields w t m
  have hcount :
      ({ t with tracker := t.tracker.onDownMessage w.now m.data.length none none } : UdpTransport).Bounded := by
    refine ⟨h.outOfOrder, h.delayed, h.processed, fun i hi => ?_⟩
    rcases onDownMessage_accesses _ _ _ _ _ hi with hold | ⟨hdr, hh, -⟩
    · exact h.recorded i hold
    · cases hh
  exact hcount.congr hs htr hst

/-- The state after a round is that of `processOne`, apart from the queue. -/
theorem receiveItem_state {w : World} {Inv : UdpTransport → Prop} {toReturn : Option Received} {t : UdpTransport}
    {item : Except MessageDecodeError QunetMessageMeta} (h : Inv t)
    (hcongr : ∀ t p, Inv t → Inv { t with pendingMessages := p })
    (hone : ∀ m, item = .ok m → Inv (processOne w t m).2) : Inv (receiveItem w toReturn t item).2 := by
  have hafter {m : QunetMessageMeta} {r : Except TransportError (Option Received)} {t₁ : UdpTransport}
      (hm : item = .ok m) (hp : processOne w t m = (r, t₁)) : Inv t₁ := by
    have hinv := hone m hm
    rwa [hp] at hinv
  have hstep := receiveItem_step w toReturn t item
  generalize receiveItem w toReturn t item = r at hstep ⊢
  obtain ⟨o, t'⟩ := r
  dsimp only at hstep ⊢
  cases hstep with
  | malformed => exact h
  | padding => exact h
  | failed _ hp => exact hafter rfl hp
  | silent _ hp => exact hafter rfl hp
  | @handed m r t₁ _ hp =>
    cases toReturn with
    | none => exact hafter rfl hp
    | some first => exact hcongr t₁ _ (hafter rfl hp)

/-- One round of the loop over a datagram. -/
theorem Bounded.item {t : UdpTransport} (h : t.Bounded) {w : World} {toReturn : Option Received}
    {item : Except MessageDecodeError QunetMessageMeta} (hc : CountsItem w t item) :
    (receiveItem w toReturn t item).2.Bounded := by
  refine receiveItem_state h (fun t p ht => ht.congr rfl rfl rfl) fun m hm => ?_
  subst hm
  unfold processOne
  split
  · exact Bounded.processControl h w m
  · next hdata => exact Bounded.processData h w (not_not.mp hdata) hc

/-! ## What was processed -/

omit [Dbuf] in
theorem finishData_processed (w : World) (t : UdpTransport) (m : QunetMessageMeta) :
    (finishData w t m).2.trace.processed = t.trace.processed := by
  cases hd : decompress w t m with
  | error e => rw [finishData_error hd]; rfl
  | ok data => rw [finishData_ok hd]; rfl

omit [Dbuf] in
theorem finishData_fragStore (w : World) (t : UdpTransport) (m : QunetMessageMeta) :
    (finishData w t m).2.fragStore = t.fragStore := by
  cases hd : decompress w t m with
  | error e => rw [finishData_error hd]; rfl
  | ok data => rw [finishData_ok hd]; rfl

omit [Dbuf] in
theorem acceptReliable_processed (w : World) (t : UdpTransport) (m : QunetMessageMeta) :
    (acceptReliable w t m).2.trace.processed = t.trace.processed ++ m.reliabilityHeader.toList := by
  cases hof : HeaderMeta.of? QunetMessageMeta.reliabilityHeader m with
  | none =>
    rw [acceptReliable_none hof, HeaderMeta.of?_eq_none.mp hof]
    exact (List.append_nil _).symm
  | some rm =>
    have hrel : m.reliabilityHeader = some rm.header := by
      rw [← HeaderMeta.of?_eq_some.mp hof]
      exact rm.has_header
    rw [acceptReliable_some hof, hrel]
    rfl

omit [Dbuf] in
theorem processData_processed {w : World} {t : UdpTransport} {m : QunetMessageMeta} (hm : m.type = msgData) :
    (processData w t m).2.trace.processed = t.trace.processed ++ headersOf w t (.ok m) := by
  have htr : (defragment w t m).2.trace = t.trace := (defragment_frame rfl).2.1
  refine @processData_state w t m (fun t' => t'.trace.processed = t.trace.processed ++ headersOf w t (.ok m))
    (fun hnone => ?_) fun m' hdef => ?_
  · have hnil : headersOf w t (.ok m) = [] := by
      unfold headersOf
      dsimp only
      split
      · rfl
      · split
        · next heq => exact absurd heq (hnone _)
        · rfl
    rw [htr, hnil, List.append_nil]
  · rw [finishData_processed, acceptReliable_processed, htr, headersOf_data hm (Prod.ext hdef rfl)]
    exact ⟨rfl, rfl⟩

/-- A round processes the header of its message. -/
theorem receiveItem_processed (w : World) (toReturn : Option Received) (t : UdpTransport)
    (item : Except MessageDecodeError QunetMessageMeta) :
    (receiveItem w toReturn t item).2.trace.processed = t.trace.processed ++ headersOf w t item := by
  have hone {m : QunetMessageMeta} {r : Except TransportError (Option Received)} {t₁ : UdpTransport}
      (hp : processOne w t m = (r, t₁)) : t₁.trace.processed = t.trace.processed ++ headersOf w t (.ok m) := by
    have hafter : (processOne w t m).2.trace.processed = t.trace.processed ++ headersOf w t (.ok m) := by
      unfold processOne
      by_cases hm : m.type = msgData
      · rw [if_neg (not_not.mpr hm)]
        exact processData_processed hm
      · unfold headersOf
        dsimp only
        rw [if_pos hm, if_pos hm, List.append_nil]
        exact (processControl_fields w t m).2.2.1
    rwa [hp] at hafter
  have hstep := receiveItem_step w toReturn t item
  generalize receiveItem w toReturn t item = r at hstep ⊢
  obtain ⟨o, t'⟩ := r
  dsimp only at hstep ⊢
  cases hstep with
  | malformed => exact (List.append_nil _).symm
  | @padding m hpad =>
    have hdata : m.type ≠ msgData := by
      rw [hpad]
      decide
    unfold headersOf
    dsimp only
    rw [if_pos hdata, List.append_nil]
  | failed _ hp => exact hone hp
  | silent _ hp => exact hone hp
  | handed _ hp =>
    have hm := hone hp
    cases toReturn <;> exact hm

/-- If the headers processed at the end are within the array, those of the datagram were. -/
theorem eachItem_counts {w : World} {toReturn : Option Received} {t : UdpTransport}
    {items : List (Except MessageDecodeError QunetMessageMeta)}
    (h : ∀ hdr ∈ (receiveBatch w toReturn t items).2.trace.processed, hdr.ackCount ≤ 8) :
    EachItem (CountsItem w) w toReturn t items ∧ ∀ hdr ∈ t.trace.processed, hdr.ackCount ≤ 8 := by
  induction items generalizing toReturn t with
  | nil => exact ⟨trivial, h⟩
  | cons item items ih =>
    have hproc := receiveItem_processed w toReturn t item
    unfold receiveBatch at h
    unfold EachItem
    rcases hr : receiveItem w toReturn t item with ⟨(e | o), t₁⟩
    · rw [hr] at h hproc
      dsimp only at h hproc
      rw [hproc] at h
      exact ⟨⟨fun hdr hh => h hdr (List.mem_append_right _ hh), trivial⟩,
        fun hdr hh => h hdr (List.mem_append_left _ hh)⟩
    · rw [hr] at h hproc
      dsimp only at h hproc
      obtain ⟨hrest, hall⟩ := ih h
      rw [hproc] at hall
      exact ⟨⟨fun hdr hh => hall hdr (List.mem_append_right _ hh), hrest⟩,
        fun hdr hh => hall hdr (List.mem_append_left _ hh)⟩

/-! ## Runs -/

omit [Dbuf] in
theorem Bounded.keepsIncoming {t t' : UdpTransport} (h : t.Bounded) (hk : KeepsIncoming t t') : t'.Bounded := by
  refine ⟨?_, ?_, ?_, fun i hi => h.recorded i (hk.recorded i hi)⟩
  · rw [hk.outOfOrder]
    exact h.outOfOrder
  · rw [hk.delayed]
    exact h.delayed
  · rw [hk.trace]
    exact h.processed

/-- One round of the receive loop with the given `recv`, or any operation that does not receive. -/
inductive TransportEvent where
  | receive (w : World) (input : World × RecvResult)
  | other (f : UdpTransport → UdpTransport) (hf : ∀ t, KeepsIncoming t (f t))

def afterEvent (t : UdpTransport) : TransportEvent → UdpTransport
  | .receive w input => (receiveMessageInner w t [input]).elim t fun r => r.2.1
  | .other f _ => f t

def afterEvents (t : UdpTransport) (events : List TransportEvent) : UdpTransport := events.foldl afterEvent t

/-- The counts of the datagram that the round reads, if it reads one. -/
def CountsEvent (t : UdpTransport) : TransportEvent → Prop
  | .receive w (w', .datagram bytes) =>
    receiveQueued w t = none → EachItem (CountsItem w') w' none (countDownPacket w' t (receiveBuffer bytes))
      (datagramItems (receiveBuffer bytes) false)
  | _ => True

def CountsRun : UdpTransport → List TransportEvent → Prop
  | _, [] => True
  | t, e :: es => CountsEvent t e ∧ CountsRun (afterEvent t e) es

/-- The counts in a datagram as `decodeMeta` reads them. -/
def WireCounts : TransportEvent → Prop
  | .receive _ (_, .datagram bytes) =>
    ∀ m, .ok m ∈ datagramItems (receiveBuffer bytes) false → ∀ h ∈ m.reliabilityHeader, h.ackCount ≤ 8
  | _ => True

/-- A round of the receive loop returns what is queued, or reads the socket. -/
theorem afterEvent_queued {w : World} {t t' : UdpTransport} {r : Except TransportError (Option Received)}
    (input : World × RecvResult) (h : receiveQueued w t = some (r, t')) : afterEvent t (.receive w input) = t' := by
  have hinner : receiveMessageInner w t [input] = some (r, t', [input]) := by
    unfold receiveMessageInner
    rw [h]
  show (receiveMessageInner w t [input]).elim t _ = t'
  rw [hinner]
  rfl

theorem afterEvent_datagram {w : World} {t : UdpTransport} (w' : World) (bytes : Bytes)
    (h : receiveQueued w t = none) :
    afterEvent t (.receive w (w', .datagram bytes)) = (receiveDatagram w' t bytes).2 := by
  have hinner : receiveMessageInner w t [(w', .datagram bytes)] =
      some ((receiveDatagram w' t bytes).1, (receiveDatagram w' t bytes).2, []) := by
    unfold receiveMessageInner
    rw [h]
  show (receiveMessageInner w t [(w', .datagram bytes)]).elim t _ = _
  rw [hinner]
  rfl

theorem afterEvent_error {w : World} {t : UdpTransport} (w' : World) (e : TransportError)
    (h : receiveQueued w t = none) : afterEvent t (.receive w (w', .error e)) = t := by
  have hinner : receiveMessageInner w t [(w', .error e)] = some (.error e, t, []) := by
    unfold receiveMessageInner
    rw [h]
  show (receiveMessageInner w t [(w', .error e)]).elim t _ = t
  rw [hinner]
  rfl

omit [Dbuf] in
/-- Returning a queued message processes no header. -/
theorem receiveQueued_fields {w : World} {t t' : UdpTransport} {r : Except TransportError (Option Received)}
    (h : receiveQueued w t = some (r, t')) :
    t'.trace.processed = t.trace.processed ∧ t'.fragStore = t.fragStore ∧ (t.Bounded → t'.Bounded) := by
  rcases receiveQueued_some h with ⟨first, rest, hp, -, rfl⟩ | ⟨m, rest, hp, hd, hf⟩
  · exact ⟨rfl, rfl, fun hb => hb.congr rfl rfl rfl⟩
  · obtain rfl : (finishData w (t.withDelayed rest) m.toQunetMessageMeta).2 = t' := by rw [hf]
    refine ⟨finishData_processed _ _ _, finishData_fragStore _ _ _, fun hb => ?_⟩
    have hpop : (t.withDelayed rest).Bounded :=
      ⟨hb.outOfOrder, fun m' hm' => hb.delayed m' (hd ▸ List.mem_cons_of_mem m hm'), hb.processed, hb.recorded⟩
    refine hpop.finishData w fun hdr hh => ?_
    rw [m.has_header] at hh
    cases hh
    exact hb.delayed m (hd ▸ List.mem_cons_self)

/-- **One event.** -/
theorem Bounded.event {t : UdpTransport} (h : t.Bounded) {e : TransportEvent} (hc : CountsEvent t e) :
    (afterEvent t e).Bounded := by
  rcases e with ⟨w, w', ⟨e⟩ | ⟨bytes⟩⟩ | ⟨f, hf⟩
  · rcases hq : receiveQueued w t with _ | ⟨r, t'⟩
    · rw [afterEvent_error w' e hq]
      exact h
    · rw [afterEvent_queued _ hq]
      exact (receiveQueued_fields hq).2.2 h
  · rcases hq : receiveQueued w t with _ | ⟨r, t'⟩
    · rw [afterEvent_datagram w' bytes hq]
      have hstart : (countDownPacket w' t (receiveBuffer bytes)).Bounded := by
        refine ⟨h.outOfOrder, h.delayed, h.processed, fun i hi => h.recorded i ?_⟩
        unfold countDownPacket StatTracker.onDownPacket StatTracker.onPacket at hi
        dsimp only at hi
        split at hi
        · exact hi
        · exact hi
      unfold receiveDatagram
      dsimp only
      split
      · exact h
      · exact EachItem.invariant (fun o t i _ ht hi => ht.item hi) hstart (hc hq)
    · rw [afterEvent_queued _ hq]
      exact (receiveQueued_fields hq).2.2 h
  · exact h.keepsIncoming (hf t)

/-- The headers processed after an event tell the counts of its datagram, and include those processed before. -/
theorem countsEvent_of_processed {t : UdpTransport} {e : TransportEvent}
    (h : ∀ hdr ∈ (afterEvent t e).trace.processed, hdr.ackCount ≤ 8) :
    CountsEvent t e ∧ ∀ hdr ∈ t.trace.processed, hdr.ackCount ≤ 8 := by
  rcases e with ⟨w, w', ⟨e⟩ | ⟨bytes⟩⟩ | ⟨f, hf⟩
  · refine ⟨trivial, ?_⟩
    rcases hq : receiveQueued w t with _ | ⟨r, t'⟩
    · rw [afterEvent_error w' e hq] at h
      exact h
    · rw [afterEvent_queued _ hq, (receiveQueued_fields hq).1] at h
      exact h
  · rcases hq : receiveQueued w t with _ | ⟨r, t'⟩
    · rw [afterEvent_datagram w' bytes hq] at h
      unfold receiveDatagram at h
      dsimp only at h
      split at h
      · next hlen =>
        refine ⟨fun _ => ?_, h⟩
        rw [List.length_eq_zero_iff.mp hlen, datagramItems_nil]
        exact trivial
      · obtain ⟨heach, hall⟩ := eachItem_counts h
        exact ⟨fun _ => heach, hall⟩
    · rw [afterEvent_queued _ hq, (receiveQueued_fields hq).1] at h
      refine ⟨fun hnone => ?_, h⟩
      rw [hq] at hnone
      cases hnone
  · refine ⟨trivial, ?_⟩
    rw [← (hf t).trace]
    exact h

theorem Bounded.run {t : UdpTransport} (h : t.Bounded) {events : List TransportEvent} (hc : CountsRun t events) :
    (afterEvents t events).Bounded := by
  induction events generalizing t with
  | nil => exact h
  | cons e es ih => exact ih (h.event hc.1) hc.2

theorem countsRun_of_processed {t : UdpTransport} {events : List TransportEvent}
    (h : ∀ hdr ∈ (afterEvents t events).trace.processed, hdr.ackCount ≤ 8) :
    CountsRun t events ∧ ∀ hdr ∈ t.trace.processed, hdr.ackCount ≤ 8 := by
  induction events generalizing t with
  | nil => exact ⟨trivial, h⟩
  | cons e es ih =>
    obtain ⟨hrest, hall⟩ := ih h
    obtain ⟨hevent, hbefore⟩ := countsEvent_of_processed hall
    exact ⟨⟨hevent, hrest⟩, hbefore⟩

/-! ## Counts on the wire -/

/-- The fragment store holds headers with counts within the array only. -/
def PartialsBounded (t : UdpTransport) : Prop := t.fragStore.Carries fun h => h.ackCount ≤ 8

omit [Dbuf] in
theorem defragment_carries {w : World} {t : UdpTransport} {m : QunetMessageMeta} (h : t.PartialsBounded)
    (hm : ∀ hdr ∈ m.reliabilityHeader, hdr.ackCount ≤ 8) :
    (defragment w t m).2.PartialsBounded ∧
      ∀ m', (defragment w t m).1 = .ok (some m') → ∀ hdr ∈ m'.reliabilityHeader, hdr.ackCount ≤ 8 := by
  unfold defragment
  cases hof : HeaderMeta.of? QunetMessageMeta.fragmentationHeader m with
  | none =>
    refine ⟨h, fun m' hm' => ?_⟩
    cases hm'
    exact hm
  | some fm =>
    have hfm : ∀ hdr ∈ fm.reliabilityHeader, hdr.ackCount ≤ 8 := by
      rw [HeaderMeta.of?_eq_some.mp hof]
      exact hm
    exact FragmentStore.processFragment_carries w.order w.now h hfm

omit [Dbuf] in
theorem acceptReliable_fragStore (w : World) (t : UdpTransport) (m : QunetMessageMeta) :
    (acceptReliable w t m).2.fragStore = t.fragStore := by
  cases hof : HeaderMeta.of? QunetMessageMeta.reliabilityHeader m with
  | none => rw [acceptReliable_none hof]
  | some rm => rw [acceptReliable_some hof]

omit [Dbuf] in
theorem processData_fragStore (w : World) (t : UdpTransport) (m : QunetMessageMeta) :
    (processData w t m).2.fragStore = (defragment w t m).2.fragStore := by
  refine @processData_state w t m (fun t' => t'.fragStore = (defragment w t m).2.fragStore) (fun _ => rfl) fun m' _ => ?_
  rw [finishData_fragStore, acceptReliable_fragStore]
  exact ⟨rfl, rfl⟩

/-- One round of the loop over a datagram. -/
theorem PartialsBounded.item {t : UdpTransport} (h : t.PartialsBounded) {w : World} {toReturn : Option Received}
    {item : Except MessageDecodeError QunetMessageMeta}
    (hm : ∀ m, item = .ok m → ∀ hdr ∈ m.reliabilityHeader, hdr.ackCount ≤ 8) :
    (receiveItem w toReturn t item).2.PartialsBounded ∧ CountsItem w t item := by
  constructor
  · refine receiveItem_state h (fun t p ht => ht) fun m hitem => ?_
    unfold processOne
    split
    · unfold PartialsBounded
      rw [(processControl_fields w t m).2.1]
      exact h
    · unfold PartialsBounded
      rw [processData_fragStore]
      exact (defragment_carries h (hm m hitem)).1
  · intro hdr hh
    unfold headersOf at hh
    split at hh
    · cases hh
    · split at hh
      · cases hh
      · split at hh
        · next m' hdef => exact (defragment_carries h (hm _ rfl)).2 m' hdef hdr (Option.mem_toList.mp hh)
        · cases hh

/-- **The wire.** If every count in a datagram is at most 8, so are those of the reassembled messages. -/
theorem PartialsBounded.event {t : UdpTransport} (h : t.PartialsBounded) {e : TransportEvent} (hw : WireCounts e) :
    (afterEvent t e).PartialsBounded ∧ CountsEvent t e := by
  rcases e with ⟨w, w', ⟨e⟩ | ⟨bytes⟩⟩ | ⟨f, hf⟩
  · refine ⟨?_, trivial⟩
    rcases hq : receiveQueued w t with _ | ⟨r, t'⟩
    · rw [afterEvent_error w' e hq]
      exact h
    · rw [afterEvent_queued _ hq, PartialsBounded, (receiveQueued_fields hq).2.1]
      exact h
  · have hstart : (countDownPacket w' t (receiveBuffer bytes)).PartialsBounded := h
    have hitem : ∀ toReturn (t : UdpTransport) item, item ∈ datagramItems (receiveBuffer bytes) false →
        t.PartialsBounded → (receiveItem w' toReturn t item).2.PartialsBounded ∧ CountsItem w' t item :=
      fun toReturn t item hmem ht => ht.item fun m hm => hw m (hm ▸ hmem)
    have hcounts : EachItem (CountsItem w') w' none (countDownPacket w' t (receiveBuffer bytes))
        (datagramItems (receiveBuffer bytes) false) :=
      EachItem.of_invariant (fun o t i hi ht => (hitem o t i hi ht).1) (fun t i hi ht => (hitem none t i hi ht).2)
        hstart
    refine ⟨?_, fun _ => hcounts⟩
    rcases hq : receiveQueued w t with _ | ⟨r, t'⟩
    · rw [afterEvent_datagram w' bytes hq]
      unfold receiveDatagram
      dsimp only
      split
      · exact h
      · exact EachItem.invariant (fun o t i hi ht _ => (hitem o t i hi ht).1) hstart hcounts
    · rw [afterEvent_queued _ hq, PartialsBounded, (receiveQueued_fields hq).2.1]
      exact h
  · refine ⟨?_, trivial⟩
    unfold PartialsBounded FragmentStore.Carries
    rw [show (afterEvent t (.other f hf)).fragStore.messages = t.fragStore.messages from (hf t).partials]
    exact h

theorem countsRun_of_wire {t : UdpTransport} (h : t.PartialsBounded) {events : List TransportEvent}
    (hw : ∀ e ∈ events, WireCounts e) : CountsRun t events := by
  induction events generalizing t with
  | nil => exact trivial
  | cons e es ih =>
    obtain ⟨hnext, hcounts⟩ := h.event (hw e List.mem_cons_self)
    exact ⟨hcounts, ih hnext fun e' he' => hw e' (List.mem_cons_of_mem e he')⟩

/-- **The accesses to ack arrays in a run.** `decodeMeta` keeps within the array whatever the count is. `processAcks` and
`countRelStats` do exactly if every header that comes to the reliable store counts at most 8 acknowledgements, and so
they do if every count on the wire is at most 8. -/
theorem ackAccesses_lt_iff (mtu : Nat) (events : List TransportEvent) :
    (∀ ackCount, ∀ i ∈ decodeAckIndices ackCount, i < 8) ∧
      ((∀ i ∈ (afterEvents { mtu := mtu } events).ackAccesses, i < 8) ↔ CountsRun { mtu := mtu } events) ∧
      ((∀ e ∈ events, WireCounts e) → CountsRun { mtu := mtu } events) := by
  have hfresh : ({ mtu := mtu } : UdpTransport).Bounded := by
    refine ⟨?_, ?_, ?_, ?_⟩
    all_goals
      intro x hx
      cases hx
  refine ⟨fun ackCount i hi => ?_, ⟨fun h => ?_, fun hc => ?_⟩, fun hw => ?_⟩
  · rw [decodeAckIndices, List.mem_range] at hi
    omega
  · exact (countsRun_of_processed (processed_of_lt h)).1
  · exact (hfresh.run hc).lt
  · refine countsRun_of_wire (fun e he => ?_) hw
    cases he

end

/-- An ack-only message that counts nine acknowledgements. -/
def nineAcks : Bytes := [0x90, 0, 0, 9, 0] ++ List.replicate 16 0

/-- `processAcks` and `countRelStats` read the ninth entry of an array of eight. -/
theorem nineAcks_reads_past :
    ¬ ∀ i ∈ (@afterEvents Dbuf.little {} [.receive idleWorld (idleWorld, .datagram nineAcks)]).ackAccesses, i < 8 := by
  decide

end UdpTransport

end Qunet
