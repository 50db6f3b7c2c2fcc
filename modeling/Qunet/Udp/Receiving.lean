import Qunet.Udp.Transport

/-!
# What receiving does with the messages of a datagram

* `DataStep` : the ways in which `processData` can end;
* `ItemStep` : the ways in which a round of the loop can end;
* `receiveBatch_ok` : a datagram without errors is decoded into `toReturn` and the queue of pending messages;
* `EachItem` : a condition on every message of a datagram, in the state in which the loop comes to it;
* `QueuedStep`, `receiveQueued_some` : what is returned before the socket is read;
* `receiveMessageInner_ok`, `receiveMessageLoop_rounds` : one round, and that the rounds suffice;
* `receiveMessage_pending` : the queue is what the next calls return;
* `NothingLost` : what was decoded or accepted in a call that fails is still to be returned;
* **`nothingLost_iff`** : a malformed message spares its neighbours only if none was decoded before it;
* `KeepsIncoming` : an operation that does not receive.
-/

namespace Qunet
open Lib

namespace UdpTransport

/-! ## One message -/

/-- What `processData` can do. -/
inductive DataStep (w : World) (t : UdpTransport) (m : QunetMessageMeta) :
    Except TransportError (Option Received) → UdpTransport → Prop where
  | fragmentError {e : TransportError} {t₁ : UdpTransport} (h : defragment w t m = (.error e, t₁)) :
      DataStep w t m (.error e) t₁
  | incomplete {t₁ : UdpTransport} (h : defragment w t m = (.ok none, t₁)) : DataStep w t m (.ok none) t₁
  | refused {m' : QunetMessageMeta} {e : TransportError} {t₁ t₂ : UdpTransport}
      (h : defragment w t m = (.ok (some m'), t₁)) (hr : acceptReliable w t₁ m' = (.error e, t₂)) :
      DataStep w t m (.error e) t₂
  | dropped {m' : QunetMessageMeta} {t₁ t₂ : UdpTransport} (h : defragment w t m = (.ok (some m'), t₁))
      (hr : acceptReliable w t₁ m' = (.ok false, t₂)) : DataStep w t m (.ok none) t₂
  | undecodable {m' : QunetMessageMeta} {e : TransportError} {t₁ t₂ : UdpTransport}
      (h : defragment w t m = (.ok (some m'), t₁)) (hr : acceptReliable w t₁ m' = (.ok true, t₂))
      (hd : decompress w t₂ m' = .error e) : DataStep w t m (.error e) (countDownMessage w m' t₂)
  | delivered {m' : QunetMessageMeta} {data : Bytes} {t₁ t₂ : UdpTransport}
      (h : defragment w t m = (.ok (some m'), t₁)) (hr : acceptReliable w t₁ m' = (.ok true, t₂))
      (hd : decompress w t₂ m' = .ok data) :
      DataStep w t m (.ok (some ⟨.data { data }, m'⟩)) ((countDownMessage w m' t₂).noteDecoded ⟨.data { data }, m'⟩)

theorem finishData_error {w : World} {t : UdpTransport} {m : QunetMessageMeta} {e : TransportError}
    (h : decompress w t m = .error e) : finishData w t m = (.error e, countDownMessage w m t) := by
  unfold finishData decodePreFinalDataMessage
  rw [h]
  rfl

theorem finishData_ok {w : World} {t : UdpTransport} {m : QunetMessageMeta} {data : Bytes}
    (h : decompress w t m = .ok data) :
    finishData w t m = (.ok (some ⟨.data { data }, m⟩), (countDownMessage w m t).noteDecoded ⟨.data { data }, m⟩) := by
  unfold finishData decodePreFinalDataMessage
  rw [h]
  rfl

theorem processData_step (w : World) (t : UdpTransport) (m : QunetMessageMeta) :
    DataStep w t m (processData w t m).1 (processData w t m).2 := by
  unfold processData
  rcases hf : defragment w t m with ⟨(e | (_ | m')), t₁⟩
  · exact .fragmentError hf
  · exact .incomplete hf
  · rcases hr : acceptReliable w t₁ m' with ⟨(e | (_ | _)), t₂⟩
    · dsimp only
      rw [hr]
      exact .refused hf hr
    · dsimp only
      rw [hr]
      exact .dropped hf hr
    · dsimp only
      rw [hr]
      dsimp only
      cases hd : decompress w t₂ m' with
      | error e =>
        rw [finishData_error hd]
        exact .undecodable hf hr hd
      | ok data =>
        rw [finishData_ok hd]
        exact .delivered hf hr hd

/-- What holds of the state wherever `processData` can stop holds after it. -/
theorem processData_state {w : World} {t : UdpTransport} {m : QunetMessageMeta} {Inv : UdpTransport → Prop}
    (hstop : (∀ m', (defragment w t m).1 ≠ .ok (some m')) → Inv (defragment w t m).2)
    (hmessage : ∀ m', (defragment w t m).1 = .ok (some m') → Inv (acceptReliable w (defragment w t m).2 m').2 ∧
      Inv (finishData w (acceptReliable w (defragment w t m).2 m').2 m').2) : Inv (processData w t m).2 := by
  unfold processData
  rcases hf : defragment w t m with ⟨(e | (_ | m')), t₁⟩
  · rw [hf] at hstop
    exact hstop (fun m' => nofun)
  · rw [hf] at hstop
    exact hstop (fun m' => nofun)
  · rw [hf] at hmessage
    obtain ⟨hrefused, hfinished⟩ := hmessage m' rfl
    dsimp only at hrefused hfinished ⊢
    rcases hr : acceptReliable w t₁ m' with ⟨(e | (_ | _)), t₂⟩
    · rw [hr] at hrefused
      exact hrefused
    · rw [hr] at hrefused
      exact hrefused
    · rw [hr] at hfinished
      exact hfinished

/-- The message that the result hands on. -/
def handed : Except TransportError (Option Received) → List Received
  | .ok (some r) => [r]
  | _ => []

/-- The id of a message, when it is a reliable data message. -/
def reliableId (r : Received) : Option UInt16 :=
  match r.message with
  | .data _ => r.origin.reliabilityHeader.bind fun h => if h.messageId = 0 then none else some h.messageId
  | _ => none

def reliableIds (rs : List Received) : List UInt16 := rs.filterMap reliableId

/-- The reliable message that `acceptReliable` accepts. -/
def acceptedBy (w : World) (t : UdpTransport) (m : QunetMessageMeta) : List ReliableMeta :=
  match HeaderMeta.of? QunetMessageMeta.reliabilityHeader m with
  | none => []
  | some rm => acceptedOf rm (t.relStore.handleIncoming w.past w.now rm).1

/-- The reliable message that the store accepts while `m` is processed. -/
def acceptedWhile (w : World) (t : UdpTransport) (m : QunetMessageMeta) : List ReliableMeta :=
  if m.type ≠ msgData then []
  else match defragment w t m with
    | (.ok (some m'), t₁) => acceptedBy w t₁ m'
    | _ => []

/-- The queue is untouched, what is handed on is recorded as decoded, and what the store accepts as accepted. -/
structure Frame (t t' : UdpTransport) (r : List Received) (a : List ReliableMeta) : Prop where
  pending : t'.pendingMessages = t.pendingMessages
  decoded : t'.trace.decoded = t.trace.decoded ++ r
  accepted : t'.trace.accepted = t.trace.accepted ++ a

theorem defragment_eq (w : World) (t : UdpTransport) (m : QunetMessageMeta) :
    ∃ fs, (defragment w t m).2 = { t with fragStore := fs } := by
  unfold defragment
  split
  · exact ⟨t.fragStore, rfl⟩
  · exact ⟨_, rfl⟩

theorem defragment_frame {w : World} {t t₁ : UdpTransport} {m : QunetMessageMeta}
    {r : Except TransportError (Option QunetMessageMeta)} (h : defragment w t m = (r, t₁)) :
    t₁.pendingMessages = t.pendingMessages ∧ t₁.trace = t.trace ∧ t₁.relStore = t.relStore := by
  obtain ⟨fs, hfs⟩ := defragment_eq w t m
  rw [h] at hfs
  rw [show t₁ = _ from hfs]
  exact ⟨rfl, rfl, rfl⟩

/-- What the reliable store does with a message. -/
theorem acceptReliable_some {w : World} {t : UdpTransport} {m : QunetMessageMeta} {rm : ReliableMeta}
    (h : HeaderMeta.of? QunetMessageMeta.reliabilityHeader m = some rm) :
    acceptReliable w t m = ((t.relStore.handleIncoming w.past w.now rm).1,
      { t with relStore := (t.relStore.handleIncoming w.past w.now rm).2
               trace := t.trace.noteIncoming rm (t.relStore.handleIncoming w.past w.now rm).1 }) := by
  unfold acceptReliable
  rw [h]

theorem acceptReliable_none {w : World} {t : UdpTransport} {m : QunetMessageMeta}
    (h : HeaderMeta.of? QunetMessageMeta.reliabilityHeader m = none) : acceptReliable w t m = (.ok true, t) := by
  unfold acceptReliable
  rw [h]

theorem acceptedBy_some {w : World} {t : UdpTransport} {m : QunetMessageMeta} {rm : ReliableMeta}
    (h : HeaderMeta.of? QunetMessageMeta.reliabilityHeader m = some rm) :
    acceptedBy w t m = acceptedOf rm (t.relStore.handleIncoming w.past w.now rm).1 := by
  unfold acceptedBy
  rw [h]

theorem acceptedBy_none {w : World} {t : UdpTransport} {m : QunetMessageMeta}
    (h : HeaderMeta.of? QunetMessageMeta.reliabilityHeader m = none) : acceptedBy w t m = [] := by
  unfold acceptedBy
  rw [h]

theorem acceptReliable_frame {w : World} {t t₁ : UdpTransport} {m : QunetMessageMeta} {r : Except TransportError Bool}
    (h : acceptReliable w t m = (r, t₁)) : Frame t t₁ [] (acceptedBy w t m) := by
  cases hof : HeaderMeta.of? QunetMessageMeta.reliabilityHeader m with
  | none =>
    rw [acceptReliable_none hof] at h
    obtain ⟨-, rfl⟩ := Prod.mk.inj h
    rw [acceptedBy_none hof]
    exact ⟨rfl, (List.append_nil _).symm, (List.append_nil _).symm⟩
  | some rm =>
    rw [acceptReliable_some hof] at h
    obtain ⟨-, rfl⟩ := Prod.mk.inj h
    rw [acceptedBy_some hof]
    exact ⟨rfl, (List.append_nil _).symm, rfl⟩

theorem countDownMessage_frame (w : World) (m : QunetMessageMeta) (t : UdpTransport) :
    Frame t (countDownMessage w m t) [] [] := ⟨rfl, (List.append_nil _).symm, (List.append_nil _).symm⟩

theorem noteDecoded_frame (r : Received) (t : UdpTransport) : Frame t (t.noteDecoded r) [r] [] :=
  ⟨rfl, rfl, (List.append_nil _).symm⟩

theorem Frame.trans {t t' t'' : UdpTransport} {r r' : List Received} {a a' : List ReliableMeta}
    (h : Frame t t' r a) (h' : Frame t' t'' r' a') : Frame t t'' (r ++ r') (a ++ a') :=
  ⟨h'.pending.trans h.pending, by rw [h'.decoded, h.decoded, List.append_assoc],
    by rw [h'.accepted, h.accepted, List.append_assoc]⟩

/-- A defragmented message is accepted as the reliable store says. -/
theorem defragment_trans {w : World} {t t₁ t₂ : UdpTransport} {m : QunetMessageMeta}
    {f : Except TransportError (Option QunetMessageMeta)} {r : List Received} {a : List ReliableMeta}
    (h : defragment w t m = (f, t₁)) (h' : Frame t₁ t₂ r a) : Frame t t₂ r a := by
  obtain ⟨hp, htr, -⟩ := defragment_frame h
  exact ⟨h'.pending.trans hp, by rw [h'.decoded, htr], by rw [h'.accepted, htr]⟩

theorem acceptedWhile_eq {w : World} {t t₁ : UdpTransport} {m m' : QunetMessageMeta} (hm : m.type = msgData)
    (h : defragment w t m = (.ok (some m'), t₁)) : acceptedWhile w t m = acceptedBy w t₁ m' := by
  unfold acceptedWhile
  rw [if_neg (not_not.mpr hm), h]

theorem acceptedWhile_nil {w : World} {t t₁ : UdpTransport} {m : QunetMessageMeta}
    {f : Except TransportError (Option QunetMessageMeta)} (h : defragment w t m = (f, t₁))
    (hf : ∀ m', f ≠ .ok (some m')) : acceptedWhile w t m = [] := by
  unfold acceptedWhile
  split
  · rfl
  · rw [h]
    split
    · next heq => exact absurd (congrArg Prod.fst heq) (hf _)
    · rfl

theorem DataStep.frame {w : World} {t t' : UdpTransport} {m : QunetMessageMeta}
    {r : Except TransportError (Option Received)} (h : DataStep w t m r t') (hm : m.type = msgData) :
    Frame t t' (handed r) (acceptedWhile w t m) := by
  cases h with
  | fragmentError h =>
    rw [acceptedWhile_nil h (fun m' => nofun)]
    exact defragment_trans h ⟨rfl, (List.append_nil _).symm, (List.append_nil _).symm⟩
  | incomplete h =>
    rw [acceptedWhile_nil h (fun m' => nofun)]
    exact defragment_trans h ⟨rfl, (List.append_nil _).symm, (List.append_nil _).symm⟩
  | refused h hr =>
    rw [acceptedWhile_eq hm h]
    exact defragment_trans h (acceptReliable_frame hr)
  | dropped h hr =>
    rw [acceptedWhile_eq hm h]
    exact defragment_trans h (acceptReliable_frame hr)
  | @undecodable m' _ _ t₂ h hr _ =>
    rw [acceptedWhile_eq hm h]
    have hframe := (acceptReliable_frame hr).trans (countDownMessage_frame w m' t₂)
    rw [List.append_nil, List.append_nil] at hframe
    exact defragment_trans h hframe
  | @delivered m' data _ t₂ h hr _ =>
    rw [acceptedWhile_eq hm h]
    have hframe := ((acceptReliable_frame hr).trans (countDownMessage_frame w m' t₂)).trans
      (noteDecoded_frame ⟨.data { data }, m'⟩ (countDownMessage w m' t₂))
    rw [List.append_nil, List.append_nil, List.append_nil, List.nil_append] at hframe
    exact defragment_trans h hframe

/-- Accepted and handed on are the same, unless the message fails. -/
theorem DataStep.ids {w : World} {t t' : UdpTransport} {m : QunetMessageMeta} {o : Option Received}
    (h : DataStep w t m (.ok o) t') (hm : m.type = msgData) :
    (acceptedWhile w t m).map messageIdOf = reliableIds (handed (.ok o)) := by
  cases h with
  | incomplete h =>
    rw [acceptedWhile_nil h (fun m' => nofun)]
    rfl
  | @dropped m' t₁ _ h hr =>
    rw [acceptedWhile_eq hm h]
    cases hof : HeaderMeta.of? QunetMessageMeta.reliabilityHeader m' with
    | none =>
      rw [acceptReliable_none hof] at hr
      cases (Prod.mk.inj hr).1
    | some rm =>
      rw [acceptReliable_some hof] at hr
      rw [acceptedBy_some hof, (Prod.mk.inj hr).1]
      rfl
  | @delivered m' data t₁ _ h hr _ =>
    rw [acceptedWhile_eq hm h]
    cases hof : HeaderMeta.of? QunetMessageMeta.reliabilityHeader m' with
    | none =>
      have hrel := HeaderMeta.of?_eq_none.mp hof
      rw [acceptedBy_none hof]
      simp [handed, reliableIds, reliableId, hrel]
    | some rm =>
      have hrel : m'.reliabilityHeader = some rm.header := by
        rw [← HeaderMeta.of?_eq_some.mp hof]
        exact rm.has_header
      rw [acceptReliable_some hof] at hr
      rw [acceptedBy_some hof, (Prod.mk.inj hr).1]
      by_cases h0 : messageIdOf rm = 0
      · simp [handed, reliableIds, reliableId, acceptedOf, hrel, h0]
      · simp [handed, reliableIds, reliableId, acceptedOf, hrel, h0]

section
variable [Dbuf]

omit [Dbuf] in
theorem decodeAs_ne_data {α : Type} {r : DecodeReader α} {wrap : α → QunetMessage} {data : Bytes} {d : DataMessage}
    (hwrap : ∀ a, wrap a ≠ .data d) : decodeAs r wrap data ≠ .ok (.data d) := by
  unfold decodeAs
  intro h
  cases hr : r data with
  | error e =>
    rw [hr] at h
    cases h
  | ok p =>
    rw [hr] at h
    exact hwrap p.1 (Except.ok.inj h)

omit [Dbuf] in
theorem ite_ne {α : Type} {c : Prop} [Decidable c] {x y z : α} (hx : x ≠ z) (hy : y ≠ z) :
    (if c then x else y) ≠ z := by
  by_cases h : c
  · rwa [if_pos h]
  · rwa [if_neg h]

/-- A control message is not decoded to a data message. -/
theorem decodeWithMeta_not_data {m : QunetMessageMeta} {d : DataMessage} : decodeWithMeta m ≠ .ok (.data d) := by
  unfold decodeWithMeta
  refine ite_ne (by nofun) ?_
  iterate 6 refine ite_ne (decodeAs_ne_data (by nofun)) ?_
  refine ite_ne (by nofun) (ite_ne (by nofun) ?_)
  exact ite_ne (decodeAs_ne_data (by nofun)) (ite_ne (by nofun) (by nofun))

theorem processControl_frame (w : World) (t : UdpTransport) (m : QunetMessageMeta) :
    Frame t (processControl w t m).2 (handed (processControl w t m).1) [] ∧
      reliableIds (handed (processControl w t m).1) = [] := by
  unfold processControl
  dsimp only
  cases hd : decodeWithMeta m with
  | error e => exact ⟨⟨rfl, (List.append_nil _).symm, (List.append_nil _).symm⟩, rfl⟩
  | ok msg =>
    cases msg with
    | data d => exact absurd hd decodeWithMeta_not_data
    | keepaliveResponse _ => exact ⟨⟨rfl, rfl, (List.append_nil _).symm⟩, rfl⟩
    | _ => exact ⟨⟨rfl, rfl, (List.append_nil _).symm⟩, rfl⟩

/-- What `processOne` does to the queue and the record. -/
theorem processOne_frame (w : World) (t : UdpTransport) (m : QunetMessageMeta) :
    Frame t (processOne w t m).2 (handed (processOne w t m).1) (acceptedWhile w t m) := by
  unfold processOne
  by_cases hm : m.type = msgData
  · rw [if_neg (not_not.mpr hm)]
    exact (processData_step w t m).frame hm
  · have hacc : acceptedWhile w t m = [] := by
      unfold acceptedWhile
      rw [if_pos hm]
    rw [if_pos hm, hacc]
    exact (processControl_frame w t m).1

/-- Without an error, what the store accepts is handed on. -/
theorem processOne_ids {w : World} {t t' : UdpTransport} {m : QunetMessageMeta} {o : Option Received}
    (h : processOne w t m = (.ok o, t')) : (acceptedWhile w t m).map messageIdOf = reliableIds (handed (.ok o)) := by
  unfold processOne at h
  by_cases hm : m.type = msgData
  · rw [if_neg (not_not.mpr hm)] at h
    have hstep := processData_step w t m
    rw [h] at hstep
    exact hstep.ids hm
  · have hacc : acceptedWhile w t m = [] := by
      unfold acceptedWhile
      rw [if_pos hm]
    rw [if_pos hm] at h
    have hids := (processControl_frame w t m).2
    rw [h] at hids
    rw [hacc, hids]
    rfl

/-! ## The messages of a datagram -/

/-- What is to be returned, in the order in which it will be. -/
def queue (toReturn : Option Received) (t : UdpTransport) : List Received := toReturn.toList ++ t.pendingMessages

/-- Messages wait in the queue only behind a message to return. -/
def QueueOk (toReturn : Option Received) (t : UdpTransport) : Prop := toReturn = none → t.pendingMessages = []

/-- Some rounds of the loop: the messages `rs` were decoded and queued, `acc` accepted. -/
structure BatchFrame (toReturn : Option Received) (t : UdpTransport) (toReturn' : Option Received) (t' : UdpTransport)
    (rs : List Received) (acc : List ReliableMeta) : Prop where
  queue : queue toReturn' t' = queue toReturn t ++ rs
  decoded : t'.trace.decoded = t.trace.decoded ++ rs
  accepted : t'.trace.accepted = t.trace.accepted ++ acc
  ids : acc.map messageIdOf = reliableIds rs
  ok : QueueOk toReturn' t'

omit [Dbuf] in
theorem BatchFrame.refl {toReturn : Option Received} {t : UdpTransport} (h : QueueOk toReturn t) :
    BatchFrame toReturn t toReturn t [] [] :=
  ⟨(List.append_nil _).symm, (List.append_nil _).symm, (List.append_nil _).symm, rfl, h⟩

omit [Dbuf] in
theorem BatchFrame.trans {toReturn toReturn' toReturn'' : Option Received} {t t' t'' : UdpTransport}
    {rs rs' : List Received} {acc acc' : List ReliableMeta} (h : BatchFrame toReturn t toReturn' t' rs acc)
    (h' : BatchFrame toReturn' t' toReturn'' t'' rs' acc') :
    BatchFrame toReturn t toReturn'' t'' (rs ++ rs') (acc ++ acc') := by
  refine ⟨?_, ?_, ?_, ?_, h'.ok⟩
  · rw [h'.queue, h.queue, List.append_assoc]
  · rw [h'.decoded, h.decoded, List.append_assoc]
  · rw [h'.accepted, h.accepted, List.append_assoc]
  · rw [List.map_append, h.ids, h'.ids, reliableIds, reliableIds, reliableIds, List.filterMap_append]

/-- The reliable message that the store accepts in a round. -/
def acceptedIn (w : World) (t : UdpTransport) : Except MessageDecodeError QunetMessageMeta → List ReliableMeta
  | .error _ => []
  | .ok m => if m.type = msgPadding then [] else acceptedWhile w t m

/-- What a round of the loop can do. -/
inductive ItemStep (w : World) (toReturn : Option Received) (t : UdpTransport) :
    Except MessageDecodeError QunetMessageMeta → Except TransportError (Option Received) → UdpTransport → Prop where
  | malformed (e : MessageDecodeError) : ItemStep w toReturn t (.error e) (.error (.decode e)) t
  | padding {m : QunetMessageMeta} (hpad : m.type = msgPadding) : ItemStep w toReturn t (.ok m) (.ok toReturn) t
  | failed {m : QunetMessageMeta} {e : TransportError} {t₁ : UdpTransport} (hpad : m.type ≠ msgPadding)
      (h : processOne w t m = (.error e, t₁)) : ItemStep w toReturn t (.ok m) (.error e) t₁
  | silent {m : QunetMessageMeta} {t₁ : UdpTransport} (hpad : m.type ≠ msgPadding)
      (h : processOne w t m = (.ok none, t₁)) : ItemStep w toReturn t (.ok m) (.ok toReturn) t₁
  | handed {m : QunetMessageMeta} {r : Received} {t₁ : UdpTransport} (hpad : m.type ≠ msgPadding)
      (h : processOne w t m = (.ok (some r), t₁)) :
      ItemStep w toReturn t (.ok m) (.ok (handOn toReturn r t₁).1) (handOn toReturn r t₁).2

theorem receiveItem_step (w : World) (toReturn : Option Received) (t : UdpTransport)
    (item : Except MessageDecodeError QunetMessageMeta) :
    ItemStep w toReturn t item (receiveItem w toReturn t item).1 (receiveItem w toReturn t item).2 := by
  cases item with
  | error e => exact .malformed e
  | ok m =>
    unfold receiveItem
    dsimp only
    by_cases hpad : m.type = msgPadding
    · rw [if_pos hpad]
      exact .padding hpad
    · rw [if_neg hpad]
      rcases hp : processOne w t m with ⟨(e | (_ | r)), t₁⟩
      · exact .failed hpad hp
      · exact .silent hpad hp
      · exact .handed hpad hp

omit [Dbuf] in
theorem acceptedIn_padding {w : World} {t : UdpTransport} {m : QunetMessageMeta} (hpad : m.type = msgPadding) :
    acceptedIn w t (.ok m) = [] := if_pos hpad

omit [Dbuf] in
theorem acceptedIn_message {w : World} {t : UdpTransport} {m : QunetMessageMeta} (hpad : m.type ≠ msgPadding) :
    acceptedIn w t (.ok m) = acceptedWhile w t m := if_neg hpad

/-- One round of the loop. -/
theorem receiveItem_ok {w : World} {toReturn toReturn' : Option Received} {t t' : UdpTransport}
    {item : Except MessageDecodeError QunetMessageMeta} (hq : QueueOk toReturn t)
    (h : receiveItem w toReturn t item = (.ok toReturn', t')) :
    ∃ rs, BatchFrame toReturn t toReturn' t' rs (acceptedIn w t item) := by
  have hstep := receiveItem_step w toReturn t item
  rw [h] at hstep
  dsimp only at hstep
  cases hstep with
  | padding hpad =>
    rw [acceptedIn_padding hpad]
    exact ⟨[], .refl hq⟩
  | @silent m t₁ hpad hp =>
    have hframe := processOne_frame w t m
    rw [hp] at hframe
    rw [acceptedIn_message hpad]
    refine ⟨[], ?_, hframe.decoded, hframe.accepted, processOne_ids hp, fun hnone => ?_⟩
    · rw [queue, queue, hframe.pending, List.append_nil]
    · rw [hframe.pending, hq hnone]
  | @handed m r t₁ hpad hp =>
    have hframe := processOne_frame w t m
    rw [hp] at hframe
    rw [acceptedIn_message hpad]
    refine ⟨[r], ?_, ?_, ?_, processOne_ids hp, ?_⟩
    · have hpend : t₁.pendingMessages = t.pendingMessages := hframe.pending
      cases toReturn with
      | none =>
        rw [hq rfl] at hpend
        simp [queue, handOn, hpend, hq rfl]
      | some first => simp [queue, handOn, hpend]
    · cases toReturn <;> exact hframe.decoded
    · cases toReturn <;> exact hframe.accepted
    · intro hnone
      cases toReturn <;> cases hnone

/-- The whole loop, when no message fails. -/
theorem receiveBatch_ok {w : World} {toReturn toReturn' : Option Received} {t t' : UdpTransport}
    {items : List (Except MessageDecodeError QunetMessageMeta)} (hq : QueueOk toReturn t)
    (h : receiveBatch w toReturn t items = (.ok toReturn', t')) :
    ∃ rs acc, BatchFrame toReturn t toReturn' t' rs acc := by
  induction items generalizing toReturn t with
  | nil =>
    obtain ⟨ho, rfl⟩ := Prod.mk.inj h
    cases ho
    exact ⟨[], [], .refl hq⟩
  | cons item items ih =>
    unfold receiveBatch at h
    rcases hi : receiveItem w toReturn t item with ⟨(e | o), t₁⟩
    · rw [hi] at h
      cases h
    · rw [hi] at h
      obtain ⟨rs, hframe⟩ := receiveItem_ok hq hi
      obtain ⟨rs', acc', hframe'⟩ := ih hframe.ok h
      exact ⟨rs ++ rs', acceptedIn w t item ++ acc', hframe.trans hframe'⟩

/-- A loop that fails at some message has processed those before it. -/
theorem receiveBatch_append_error {w : World} {toReturn toReturn' : Option Received} {t t₁ t₂ : UdpTransport}
    {pre post : List (Except MessageDecodeError QunetMessageMeta)} {item : Except MessageDecodeError QunetMessageMeta}
    {e : TransportError} (hpre : receiveBatch w toReturn t pre = (.ok toReturn', t₁))
    (hitem : receiveItem w toReturn' t₁ item = (.error e, t₂)) :
    receiveBatch w toReturn t (pre ++ item :: post) = (.error e, t₂) := by
  induction pre generalizing toReturn t with
  | nil =>
    obtain ⟨ho, rfl⟩ := Prod.mk.inj hpre
    cases ho
    rw [List.nil_append, receiveBatch, hitem]
  | cons first pre ih =>
    unfold receiveBatch at hpre
    rcases hi : receiveItem w toReturn t first with ⟨(e' | o), t'⟩
    · rw [hi] at hpre
      cases hpre
    · rw [hi] at hpre
      rw [List.cons_append, receiveBatch, hi]
      exact ih hpre

/-- A round that fails leaves the queue alone. -/
theorem receiveItem_error {w : World} {toReturn : Option Received} {t t' : UdpTransport}
    {item : Except MessageDecodeError QunetMessageMeta} {e : TransportError}
    (h : receiveItem w toReturn t item = (.error e, t')) : Frame t t' [] (acceptedIn w t item) := by
  have hstep := receiveItem_step w toReturn t item
  rw [h] at hstep
  dsimp only at hstep
  cases hstep with
  | malformed => exact ⟨rfl, (List.append_nil _).symm, (List.append_nil _).symm⟩
  | @failed m _ _ hpad hp =>
    have hframe := processOne_frame w t m
    rw [hp] at hframe
    rw [acceptedIn_message hpad]
    exact hframe

/-- `P` holds of every message of a datagram, in the state in which the loop comes to it. -/
def EachItem (P : UdpTransport → Except MessageDecodeError QunetMessageMeta → Prop) (w : World) :
    Option Received → UdpTransport → List (Except MessageDecodeError QunetMessageMeta) → Prop
  | _, _, [] => True
  | toReturn, t, item :: rest =>
    P t item ∧
      match receiveItem w toReturn t item with
      | (.error _, _) => True
      | (.ok toReturn, t) => EachItem P w toReturn t rest

/-- What every round preserves, for the messages of the datagram, holds after the loop. -/
theorem EachItem.invariant {P : UdpTransport → Except MessageDecodeError QunetMessageMeta → Prop}
    {Inv : UdpTransport → Prop} {w : World} {items : List (Except MessageDecodeError QunetMessageMeta)}
    (hstep : ∀ toReturn t item, item ∈ items → Inv t → P t item → Inv (receiveItem w toReturn t item).2)
    {toReturn : Option Received} {t : UdpTransport} (hinv : Inv t) (h : EachItem P w toReturn t items) :
    Inv (receiveBatch w toReturn t items).2 := by
  induction items generalizing toReturn t with
  | nil => exact hinv
  | cons item items ih =>
    unfold EachItem at h
    unfold receiveBatch
    have hnext := hstep toReturn t item List.mem_cons_self hinv h.1
    rcases hr : receiveItem w toReturn t item with ⟨(e | o), t₁⟩
    · rw [hr] at hnext
      exact hnext
    · rw [hr] at hnext h
      exact ih (fun o t i hi => hstep o t i (List.mem_cons_of_mem item hi)) hnext h.2

/-- What an invariant of the rounds implies holds of every message. -/
theorem EachItem.of_invariant {P : UdpTransport → Except MessageDecodeError QunetMessageMeta → Prop}
    {Inv : UdpTransport → Prop} {w : World} {items : List (Except MessageDecodeError QunetMessageMeta)}
    (hstep : ∀ toReturn t item, item ∈ items → Inv t → Inv (receiveItem w toReturn t item).2)
    (hP : ∀ t item, item ∈ items → Inv t → P t item) {toReturn : Option Received} {t : UdpTransport} (hinv : Inv t) :
    EachItem P w toReturn t items := by
  induction items generalizing toReturn t with
  | nil => exact trivial
  | cons item items ih =>
    refine ⟨hP t item List.mem_cons_self hinv, ?_⟩
    have hnext := hstep toReturn t item List.mem_cons_self hinv
    rcases hr : receiveItem w toReturn t item with ⟨(e | o), t₁⟩
    · exact trivial
    · rw [hr] at hnext
      exact ih (fun o t i hi => hstep o t i (List.mem_cons_of_mem item hi))
        (fun t i hi => hP t i (List.mem_cons_of_mem item hi)) hnext

/-! ## The queue is returned first -/

/-- The delayed queue without its first message. -/
def withDelayed (rest : List ReliableMeta) (t : UdpTransport) : UdpTransport :=
  { t with relStore := { t.relStore with remoteDelayedQueue := rest } }

/-- What `receiveQueued` can return. -/
inductive QueuedStep (w : World) (t : UdpTransport) :
    Option (Except TransportError (Option Received) × UdpTransport) → Prop where
  | pending {r : Received} {rest : List Received} (hp : t.pendingMessages = r :: rest) :
      QueuedStep w t (some (.ok (some r), { t with pendingMessages := rest }))
  | delayed {m : ReliableMeta} {rest : List ReliableMeta} (hp : t.pendingMessages = [])
      (hd : t.relStore.remoteDelayedQueue = m :: rest) :
      QueuedStep w t (some (finishData w (t.withDelayed rest) m.toQunetMessageMeta))
  | empty (hp : t.pendingMessages = []) (hd : t.relStore.remoteDelayedQueue = []) : QueuedStep w t none

omit [Dbuf] in
theorem receiveQueued_step (w : World) (t : UdpTransport) : QueuedStep w t (receiveQueued w t) := by
  unfold receiveQueued
  cases hp : t.pendingMessages with
  | cons r rest => exact .pending hp
  | nil =>
    unfold ReliableStore.popDelayedMessage
    cases hd : t.relStore.remoteDelayedQueue with
    | nil => exact .empty hp hd
    | cons m rest =>
      have hstep : QueuedStep w t (some (finishData w (t.withDelayed rest) m.toQunetMessageMeta)) := .delayed hp hd
      unfold withDelayed at hstep
      rw [hp] at hstep
      exact hstep

omit [Dbuf] in
/-- Something is returned before the socket is read: a message that waits, or one that was restored. -/
theorem receiveQueued_some {w : World} {t t' : UdpTransport} {r : Except TransportError (Option Received)}
    (h : receiveQueued w t = some (r, t')) :
    (∃ first rest, t.pendingMessages = first :: rest ∧ r = .ok (some first) ∧ t' = { t with pendingMessages := rest }) ∨
      ∃ m rest, t.pendingMessages = [] ∧ t.relStore.remoteDelayedQueue = m :: rest ∧
        finishData w (t.withDelayed rest) m.toQunetMessageMeta = (r, t') := by
  have hstep := receiveQueued_step w t
  rw [h] at hstep
  generalize hres : some (r, t') = res at hstep
  cases hstep with
  | pending hp =>
    cases hres
    exact .inl ⟨_, _, hp, rfl, rfl⟩
  | delayed hp hd => exact .inr ⟨_, _, hp, hd, (Option.some.inj hres).symm⟩
  | empty => cases hres

omit [Dbuf] in
theorem receiveQueued_none {w : World} {t : UdpTransport} (h : receiveQueued w t = none) :
    t.pendingMessages = [] ∧ t.relStore.remoteDelayedQueue = [] := by
  have hstep := receiveQueued_step w t
  rw [h] at hstep
  cases hstep with
  | empty hp hd => exact ⟨hp, hd⟩

/-- A round without an error returns something that waited, or reads a datagram. -/
theorem receiveMessageInner_ok {w : World} {t t' : UdpTransport} {sock sock' : SocketInput} {o : Option Received}
    (h : receiveMessageInner w t sock = some (.ok o, t', sock')) :
    receiveQueued w t = some (.ok o, t') ∨
      ∃ w' bytes, receiveQueued w t = none ∧ sock = (w', .datagram bytes) :: sock' ∧
        receiveBatch w' none (countDownPacket w' t (receiveBuffer bytes)) (datagramItems (receiveBuffer bytes) false) =
          (.ok o, t') := by
  unfold receiveMessageInner at h
  rcases hq : receiveQueued w t with _ | ⟨r, t₁⟩
  · rw [hq] at h
    right
    cases sock with
    | nil => cases h
    | cons input sock =>
      obtain ⟨w', ⟨e⟩ | ⟨bytes⟩⟩ := input
      · cases h
      · simp only [Option.some.injEq, Prod.mk.injEq] at h
        obtain ⟨hok, rfl, rfl⟩ := h
        refine ⟨w', bytes, rfl, rfl, ?_⟩
        unfold receiveDatagram at hok ⊢
        dsimp only at hok ⊢
        by_cases hlen : (receiveBuffer bytes).length = 0
        · rw [if_pos hlen] at hok
          cases hok
        · rw [if_neg hlen] at hok ⊢
          exact Prod.ext hok rfl
  · rw [hq] at h
    left
    simp only [Option.some.injEq, Prod.mk.injEq] at h
    obtain ⟨rfl, rfl, -⟩ := h
    rfl

/-- A round that returns no message reads from the socket. -/
theorem receiveMessageInner_none {w : World} {t t' : UdpTransport} {sock sock' : SocketInput}
    (h : receiveMessageInner w t sock = some (.ok none, t', sock')) : sock'.length < sock.length := by
  rcases receiveMessageInner_ok h with hq | ⟨w', bytes, -, rfl, -⟩
  · rcases receiveQueued_some hq with ⟨first, rest, -, ho, -⟩ | ⟨m, rest, -, -, hf⟩
    · cases ho
    · cases hdec : decompress w (t.withDelayed rest) m.toQunetMessageMeta with
      | error e =>
        rw [finishData_error hdec] at hf
        cases hf
      | ok data =>
        rw [finishData_ok hdec] at hf
        cases hf
  · exact Nat.lt_succ_self _

/-- More rounds than inputs change nothing. -/
theorem receiveMessageLoop_rounds (w : World) (rounds : Nat) (t : UdpTransport) (sock : SocketInput)
    (h : sock.length < rounds) (more : Nat) :
    receiveMessageLoop w (rounds + more) t sock = receiveMessageLoop w rounds t sock := by
  induction rounds generalizing t sock with
  | zero => exact absurd h (Nat.not_lt_zero _)
  | succ rounds ih =>
    rw [show rounds + 1 + more = (rounds + more) + 1 by omega, receiveMessageLoop, receiveMessageLoop]
    rcases hm : receiveMessageInner w t sock with _ | ⟨(e | (_ | r)), t₁, sock₁⟩
    · rfl
    · rfl
    · have hlt := receiveMessageInner_none hm
      exact ih t₁ sock₁ (by omega)
    · rfl

/-- A waiting message is returned without reading the socket. -/
theorem receiveMessage_pending (w : World) (t : UdpTransport) (sock : SocketInput) {r : Received}
    {rest : List Received} (h : t.pendingMessages = r :: rest) :
    receiveMessage w t sock = some (.ok r, { t with pendingMessages := rest }, sock) := by
  unfold receiveMessage receiveMessageLoop receiveMessageInner receiveQueued
  rw [h]

/-! ## A message that fails -/

/-- Every message decoded since `t` is in the queue, and every reliable one that the store accepted is among them. -/
structure NothingLost (t t' : UdpTransport) : Prop where
  decoded : t'.trace.decoded = t.trace.decoded ++ t'.pendingMessages
  accepted : ∃ acc, t'.trace.accepted = t.trace.accepted ++ acc ∧ acc.map messageIdOf = reliableIds t'.pendingMessages

theorem datagramItems_nil (server : Bool) : datagramItems [] server = [] := rfl

/-- Processing the messages before the one that fails. -/
theorem receiveBatch_start {w : World} {t t₁ : UdpTransport} {buffer : Bytes} {toReturn : Option Received}
    {items : List (Except MessageDecodeError QunetMessageMeta)} (hp : t.pendingMessages = [])
    (h : receiveBatch w none (countDownPacket w t buffer) items = (.ok toReturn, t₁)) :
    ∃ rs acc, toReturn.toList ++ t₁.pendingMessages = rs ∧ t₁.trace.decoded = t.trace.decoded ++ rs ∧
      t₁.trace.accepted = t.trace.accepted ++ acc ∧ acc.map messageIdOf = reliableIds rs ∧ QueueOk toReturn t₁ := by
  have hstart : queue none (countDownPacket w t buffer) = [] := hp
  have hok : QueueOk none (countDownPacket w t buffer) := fun _ => hp
  obtain ⟨rs, acc, hframe⟩ := receiveBatch_ok hok h
  have hqueue := hframe.queue
  rw [hstart, List.nil_append] at hqueue
  exact ⟨rs, acc, hqueue, hframe.decoded, hframe.accepted, hframe.ids, hframe.ok⟩

/-- **A malformed message.** The socket is read, and the messages `pre` of the datagram are processed before `item` fails.
What they brought is still to be returned exactly if they brought nothing, and `item` is not a reliable message that the
store accepted before it failed. -/
theorem nothingLost_iff (w₀ w : World) (t t₁ t₂ : UdpTransport) (bytes : Bytes) (sock : SocketInput)
    (pre post : List (Except MessageDecodeError QunetMessageMeta)) (item : Except MessageDecodeError QunetMessageMeta)
    (toReturn : Option Received) (e : TransportError) (hqueued : receiveQueued w₀ t = none)
    (hitems : datagramItems (receiveBuffer bytes) false = pre ++ item :: post)
    (hpre : receiveBatch w none (countDownPacket w t (receiveBuffer bytes)) pre = (.ok toReturn, t₁))
    (hitem : receiveItem w toReturn t₁ item = (.error e, t₂)) :
    receiveMessageInner w₀ t ((w, .datagram bytes) :: sock) = some (.error e, t₂, sock) ∧
      (NothingLost t t₂ ↔ toReturn = none ∧ acceptedIn w t₁ item = []) := by
  obtain ⟨hpend, -⟩ := receiveQueued_none hqueued
  obtain ⟨rs, acc, hqueue, hdec, hacc, hids, hok⟩ := receiveBatch_start hpend hpre
  have hframe := receiveItem_error hitem
  have hdec₂ : t₂.trace.decoded = t.trace.decoded ++ rs := by rw [hframe.decoded, List.append_nil, hdec]
  have hacc₂ : t₂.trace.accepted = t.trace.accepted ++ (acc ++ acceptedIn w t₁ item) := by
    rw [hframe.accepted, hacc, List.append_assoc]
  refine ⟨?_, ?_, ?_⟩
  · have hlen : (receiveBuffer bytes).length ≠ 0 := by
      intro h0
      rw [List.length_eq_zero_iff.mp h0, datagramItems_nil] at hitems
      exact absurd hitems.symm (by simp)
    unfold receiveMessageInner receiveDatagram
    rw [hqueued]
    dsimp only
    rw [if_neg hlen, hitems, receiveBatch_append_error hpre hitem]
  · intro hkept
    have hrs : rs = t₁.pendingMessages := by
      have heq := hkept.decoded
      rw [hdec₂, hframe.pending] at heq
      exact List.append_cancel_left heq
    have hnone : toReturn = none := by
      cases toReturn with
      | none => rfl
      | some r =>
        rw [hrs] at hqueue
        exact absurd (congrArg List.length hqueue) (by simp)
    have hempty : t₁.pendingMessages = [] := hok hnone
    obtain ⟨acc', hacc', hids'⟩ := hkept.accepted
    rw [hframe.pending, hempty] at hids'
    rw [hacc₂] at hacc'
    have hall := List.append_cancel_left hacc'
    rw [List.map_eq_nil_iff.mp hids'] at hall
    exact ⟨hnone, (List.append_eq_nil_iff.mp hall).2⟩
  · rintro ⟨hnone, hitemAcc⟩
    have hempty : t₁.pendingMessages = [] := hok hnone
    rw [hnone, hempty] at hqueue
    have hrs : rs = [] := hqueue.symm
    subst hrs
    refine ⟨by rw [hdec₂, hframe.pending, hempty], acc, ?_, ?_⟩
    · rw [hacc₂, hitemAcc, List.append_nil]
    · rw [hids, hframe.pending, hempty]

end

/-! ## Operations that do not receive -/

/-- The incoming side is untouched. Statistics may be dropped. -/
structure KeepsIncoming (t t' : UdpTransport) : Prop where
  outOfOrder : t'.relStore.remoteOutOfOrder = t.relStore.remoteOutOfOrder
  delayed : t'.relStore.remoteDelayedQueue = t.relStore.remoteDelayedQueue
  next : t'.relStore.nextRemoteId = t.relStore.nextRemoteId
  partials : t'.fragStore.messages = t.fragStore.messages
  pending : t'.pendingMessages = t.pendingMessages
  trace : t'.trace = t.trace
  recorded : ∀ i ∈ t'.tracker.ackAccesses, i ∈ t.tracker.ackAccesses

theorem KeepsIncoming.refl (t : UdpTransport) : KeepsIncoming t t := ⟨rfl, rfl, rfl, rfl, rfl, rfl, fun _ h => h⟩

theorem KeepsIncoming.trans {t t' t'' : UdpTransport} (h : KeepsIncoming t t') (h' : KeepsIncoming t' t'') :
    KeepsIncoming t t'' :=
  ⟨h'.outOfOrder.trans h.outOfOrder, h'.delayed.trans h.delayed, h'.next.trans h.next, h'.partials.trans h.partials,
    h'.pending.trans h.pending, h'.trace.trans h.trace, fun i hi => h.recorded i (h'.recorded i hi)⟩

/-- A world in which no library call succeeds. -/
def idleWorld : World := ⟨0, .listed, fun _ => 0, fun _ _ _ => none, fun _ _ => none⟩

/-- The reliable message 1, a compressed message that the libraries cannot restore, and a third one. -/
def brokenBetween : Bytes := [0x98, 1, 0, 0, 0, 1, 0, 42, 0x89, 5, 0, 0, 0, 1, 0, 7, 0x80, 9]

/-- A transport that has received message 1. -/
def secondExpected : UdpTransport where
  zstdReady := true
  relStore := { nextRemoteId := 2 }

/-- Message 1 was received before, so that nothing was handed on when the second one fails. -/
theorem nothingLost_duplicate :
    ∃ t₂, @receiveMessageInner Dbuf.little idleWorld secondExpected
        [(idleWorld, .datagram brokenBetween)] = some (.error (.decompressor .decompressionFailed), t₂, []) ∧
      NothingLost secondExpected t₂ := by
  have h := @nothingLost_iff Dbuf.little idleWorld idleWorld secondExpected _ _ brokenBetween []
    [_] [_] _ none (.decompressor .decompressionFailed) rfl rfl rfl rfl
  exact ⟨_, h.1, h.2.mpr ⟨rfl, rfl⟩⟩

/-- The reliable message 1 with the payload `[42]`, and behind its boundary a message of an unknown type. -/
def brokenBatch : Bytes := [0x98, 1, 0, 0, 0, 1, 0, 42, 0]

/-- The reliable message is accepted, decoded and then lost. -/
theorem brokenBatch_loses :
    ∃ t₂, @receiveMessageInner Dbuf.little idleWorld {} [(idleWorld, .datagram brokenBatch)] =
      some (.error (.decode .invalidMessageType), t₂, []) ∧
      t₂.relStore.remoteUnacked.map (·.messageId) = [1] ∧ t₂.pendingMessages = [] ∧ ¬ NothingLost {} t₂ := by
  refine ⟨_, rfl, rfl, rfl, fun h => ?_⟩
  have hlen := congrArg List.length h.decoded
  revert hlen
  decide

end UdpTransport

end Qunet
