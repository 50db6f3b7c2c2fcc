import Qunet.Message.RoundTrip

/-!
# The end of a datagram

* `CutsInto` : `decodeMeta` cuts the datagram into messages without an error;
* `nthCall` : the iterator after calls of `next`, whatever they return;
* `nthCall_of_error` : an error is returned again by every later call;
* **`next_ends_iff`** : a consumer that goes on after an error comes to the end exactly if there is none, and one that
  stops at the first error makes no more calls than the datagram has bytes.
-/

namespace Qunet
open Lib

section
variable [Dbuf]

/-- All messages of the bytes, cut off one after another, are well formed; the first one has a connection id if
`connId`. -/
inductive CutsInto : Bool → Bytes → Prop where
  | nil {connId : Bool} : CutsInto connId []
  | cons {connId : Bool} {msgType : UInt8} {rest : Bytes} {m : QunetMessageMeta}
      (hm : decodeMeta msgType rest connId = .ok m)
      (h : CutsInto false ((msgType :: rest).drop (m.dataOffset + m.data.length))) : CutsInto connId (msgType :: rest)

namespace QunetUdpMessageIter

/-- What is left of the datagram. -/
def unread (it : QunetUdpMessageIter) : Bytes := it.data.drop it.pos

/-- The next message has a connection id. -/
def expectConnId (it : QunetUdpMessageIter) : Bool := it.pos = 0 && it.server

/-- The position behind a message. -/
def past (m : QunetMessageMeta) (it : QunetUdpMessageIter) : QunetUdpMessageIter :=
  { it with pos := it.pos + (m.dataOffset + m.data.length) }

/-- The iterator after `k` calls of `next`. -/
def nthCall (k : Nat) (it : QunetUdpMessageIter) : QunetUdpMessageIter := (fun it => it.next.2)^[k] it

theorem nthCall_succ (k : Nat) (it : QunetUdpMessageIter) : nthCall (k + 1) it = nthCall k it.next.2 :=
  Function.iterate_succ_apply _ k it

/-! ## One call -/

theorem next_of_nil {it : QunetUdpMessageIter} (h : it.unread = []) : it.next = (none, it) := by
  unfold unread at h
  unfold next
  split
  · rfl
  · rw [h]

theorem next_of_error {it : QunetUdpMessageIter} {msgType : UInt8} {rest : Bytes} {e : MessageDecodeError}
    (heof : it.eof = false) (h : it.unread = msgType :: rest)
    (he : decodeMeta msgType rest it.expectConnId = .error e) : it.next = (some (.error e), it) := by
  unfold unread at h
  unfold expectConnId at he
  simp [next, heof, h, he]

theorem next_of_ok {it : QunetUdpMessageIter} {msgType : UInt8} {rest : Bytes} {m : QunetMessageMeta}
    (heof : it.eof = false) (h : it.unread = msgType :: rest)
    (hm : decodeMeta msgType rest it.expectConnId = .ok m) :
    it.next = (some (.ok m), it.past m) := by
  unfold unread at h
  unfold expectConnId at hm
  simp [next, heof, h, hm, past]

/-- What a call that has returned a message leaves. -/
theorem past_unread {it : QunetUdpMessageIter} {msgType : UInt8} {rest : Bytes} {m : QunetMessageMeta}
    (h : it.unread = msgType :: rest) (hm : decodeMeta msgType rest it.expectConnId = .ok m) :
    (it.past m).unread = (msgType :: rest).drop (m.dataOffset + m.data.length) ∧ (it.past m).expectConnId = false ∧
      (it.past m).unread.length < it.unread.length := by
  have hpos := decodeMeta_offset_pos hm
  have hunread : (it.past m).unread = (msgType :: rest).drop (m.dataOffset + m.data.length) := by
    rw [← h, unread, unread, List.drop_drop]
    rfl
  refine ⟨hunread, ?_, ?_⟩
  · have hne : it.pos + (m.dataOffset + m.data.length) ≠ 0 := by omega
    show (decide (it.pos + (m.dataOffset + m.data.length) = 0) && it.server) = false
    rw [decide_eq_false hne, Bool.false_and]
  · rw [hunread, h, List.length_drop, List.length_cons]
    omega

/-! ## Calls that go on after an error -/

/-- `m_eof` is never set, and the position stays: the error comes back. -/
theorem nthCall_of_error {it : QunetUdpMessageIter} {e : MessageDecodeError} (h : it.next = (some (.error e), it))
    (k : Nat) : (nthCall k it).next = (some (.error e), it) := by
  induction k with
  | zero => exact h
  | succ k ih => rwa [nthCall_succ, h]

/-- One of the first `n + 1` calls returns nothing. -/
def EndsWithin (n : Nat) (it : QunetUdpMessageIter) : Prop := ∃ k ≤ n, (nthCall k it).next.1 = none

theorem EndsWithin.mono {n n' : Nat} {it : QunetUdpMessageIter} (h : EndsWithin n it) (hle : n ≤ n') :
    EndsWithin n' it := by
  obtain ⟨k, hk, hnone⟩ := h
  exact ⟨k, by omega, hnone⟩

theorem EndsWithin.of_next {n : Nat} {it : QunetUdpMessageIter} (h : EndsWithin n it.next.2) :
    EndsWithin (n + 1) it := by
  obtain ⟨k, hk, hnone⟩ := h
  exact ⟨k + 1, by omega, by rwa [nthCall_succ]⟩

theorem endsWithin_of_cutsInto (n : Nat) {it : QunetUdpMessageIter} (heof : it.eof = false)
    (hn : it.unread.length ≤ n) (h : CutsInto it.expectConnId it.unread) : EndsWithin n it := by
  induction n generalizing it with
  | zero => exact ⟨0, le_refl 0, by rw [nthCall, Function.iterate_zero_apply,
      next_of_nil (List.length_eq_zero_iff.mp (by omega))]⟩
  | succ n ih =>
    cases hunread : it.unread with
    | nil =>
      refine ⟨0, by omega, ?_⟩
      rw [nthCall, Function.iterate_zero_apply, next_of_nil hunread]
    | cons msgType rest =>
      rw [hunread] at h
      cases h with
      | @cons _ _ _ m hm hrest =>
        obtain ⟨hleft, hid, hlt⟩ := past_unread hunread hm
        apply EndsWithin.of_next
        rw [next_of_ok heof hunread hm]
        apply ih (show (it.past m).eof = false from heof) (by omega)
        rwa [hleft, hid]

theorem cutsInto_of_ends (k : Nat) {it : QunetUdpMessageIter} (heof : it.eof = false)
    (h : (nthCall k it).next.1 = none) : CutsInto it.expectConnId it.unread := by
  induction k generalizing it with
  | zero =>
    cases hunread : it.unread with
    | nil => exact .nil
    | cons msgType rest =>
      rw [nthCall, Function.iterate_zero_apply] at h
      cases hm : decodeMeta msgType rest it.expectConnId with
      | error e => rw [next_of_error heof hunread hm] at h; cases h
      | ok m => rw [next_of_ok heof hunread hm] at h; cases h
  | succ k ih =>
    cases hunread : it.unread with
    | nil => exact .nil
    | cons msgType rest =>
      cases hm : decodeMeta msgType rest it.expectConnId with
      | error e =>
        rw [nthCall_of_error (next_of_error heof hunread hm)] at h
        cases h
      | ok m =>
        obtain ⟨hleft, hid, -⟩ := past_unread hunread hm
        rw [nthCall_succ, next_of_ok heof hunread hm] at h
        have hrest := ih (show (it.past m).eof = false from heof) h
        rw [hleft, hid] at hrest
        exact .cons hm hrest

/-! ## Calls that stop at the first error -/

theorem itemsFrom_length (fuel : Nat) (it : QunetUdpMessageIter) : (itemsFrom fuel it).length ≤ it.unread.length := by
  induction fuel generalizing it with
  | zero => exact Nat.zero_le _
  | succ fuel ih =>
    cases heof : it.eof with
    | true => simp [itemsFrom, next, heof]
    | false =>
      cases hunread : it.unread with
      | nil => simp [itemsFrom, next_of_nil hunread]
      | cons msgType rest =>
        cases hm : decodeMeta msgType rest it.expectConnId with
        | error e => simp [itemsFrom, next_of_error heof hunread hm]
        | ok m =>
          obtain ⟨-, -, hlt⟩ := past_unread hunread hm
          have hitems := ih (it.past m)
          rw [hunread] at hlt
          simp only [itemsFrom, next_of_ok heof hunread hm, List.length_cons]
          simp only [List.length_cons] at hlt
          omega

end QunetUdpMessageIter

open QunetUdpMessageIter

/-- **The iterator ends.** A consumer that stops at the first error sees no more items than the datagram has bytes. One
that goes on comes to the end, with one of its first `n + 1` calls on `n` bytes, exactly if no message is malformed. -/
theorem next_ends_iff (data : Bytes) (server : Bool) :
    (datagramItems data server).length ≤ data.length ∧
      (EndsWithin data.length { data, server } ↔ CutsInto server data) := by
  refine ⟨itemsFrom_length _ _, fun h => ?_, fun h => ?_⟩
  · obtain ⟨k, -, hk⟩ := h
    simpa [expectConnId, unread] using cutsInto_of_ends k rfl hk
  · exact endsWithin_of_cutsInto data.length rfl (le_refl _) (by simpa [expectConnId, unread] using h)

end

/-- A message of a type that does not exist is returned as an error by every call. -/
theorem next_stuck :
    ¬ ∃ k, (@QunetUdpMessageIter.next Dbuf.little
      (@QunetUdpMessageIter.nthCall Dbuf.little k { data := [0], server := false })).1 = none := by
  rintro ⟨k, hk⟩
  have hstuck := @QunetUdpMessageIter.nthCall_of_error Dbuf.little { data := [0], server := false }
    .invalidMessageType rfl k
  rw [hstuck] at hk
  cases hk

end Qunet
