import Qunet.Lib.Machine
import Qunet.Ping.Pinger

/-!
# Callbacks of pings

* `Accounted` : every request that was taken has been called back or is outgoing, and its id is its number;
* `Accounted.complete` : a ping is called back and erased, wherever it stands;
* `round_accounted` : so it stays in every round; `sweep_calls_back` : a ping is not erased without its callback;
* **`callbacks_once`** : no callback is invoked twice, and none is lost.
-/

namespace Qunet
open Lib

/-- The requests that have been called back. -/
def Pinger.calledBack (p : Pinger) : List Nat := p.called.map (·.1)

/-- The requests whose pings are outgoing. -/
def Pinger.waiting (p : Pinger) : List Nat := p.outgoingPings.map (·.callback)

structure Accounted (p : Pinger) : Prop where
  requests : (p.calledBack ++ p.waiting).Perm (List.range p.taken)
  nextId : p.nextPingId = UInt32.ofNat p.taken
  ids : ∀ ping ∈ p.outgoingPings, ping.pingId = UInt32.ofNat (ping.callback + 1)

namespace Accounted
variable {p p' : Pinger}

theorem start : Accounted {} := ⟨.refl _, rfl, by simp⟩

/-- Nothing but the cache, the socket and the datagrams changes. -/
theorem same (h : Accounted p) (hcalled : p'.called = p.called) (hout : p'.outgoingPings = p.outgoingPings)
    (htaken : p'.taken = p.taken) (hnext : p'.nextPingId = p.nextPingId) : Accounted p' := by
  refine ⟨?_, by rw [hnext, htaken, h.nextId], hout ▸ h.ids⟩
  unfold Pinger.calledBack Pinger.waiting
  rw [hcalled, hout, htaken]
  exact h.requests

/-- A ping is called back and erased. -/
theorem complete (h : Accounted p) {before after : List OutgoingPing} {ping : OutgoingPing} {result : PingerResult}
    (hping : p.outgoingPings = before ++ ping :: after) (hcalled : p'.called = (ping.callback, result) :: p.called)
    (hout : p'.outgoingPings = before ++ after) (htaken : p'.taken = p.taken) (hnext : p'.nextPingId = p.nextPingId) :
    Accounted p' := by
  refine ⟨?_, by rw [hnext, htaken, h.nextId], fun other hother => h.ids other ?_⟩
  · have hbefore : p.waiting = before.map (·.callback) ++ ping.callback :: after.map (·.callback) := by
      simp [Pinger.waiting, hping]
    have hafter : p'.waiting = before.map (·.callback) ++ after.map (·.callback) := by simp [Pinger.waiting, hout]
    have hback : p'.calledBack = ping.callback :: p.calledBack := by simp [Pinger.calledBack, hcalled]
    have hmoved : (p'.calledBack ++ p'.waiting).Perm (p.calledBack ++ p.waiting) := by
      rw [hback, hafter, hbefore, List.cons_append, ← List.append_assoc, ← List.append_assoc]
      exact List.perm_middle.symm
    rw [htaken]
    exact hmoved.trans h.requests
  · rw [hout] at hother
    rw [hping]
    exact ((List.sublist_cons_self ping after).append_left before).subset hother

/-- A request is taken; its callback is invoked or its ping is outgoing. -/
theorem take (h : Accounted p) (called : List (Nat × PingerResult)) (outgoing : List OutgoingPing)
    (hcalled : p'.called = called ++ p.called) (hout : p'.outgoingPings = p.outgoingPings ++ outgoing)
    (hnew : called.map (·.1) ++ outgoing.map (·.callback) = [p.taken])
    (hids : ∀ ping ∈ outgoing, ping.pingId = p.nextPingId + 1 ∧ ping.callback = p.taken)
    (htaken : p'.taken = p.taken + 1) (hnext : p'.nextPingId = p.nextPingId + 1) : Accounted p' := by
  have hid : p.nextPingId + 1 = UInt32.ofNat (p.taken + 1) := by
    rw [h.nextId, UInt32.ofNat_add]
    rfl
  refine ⟨?_, by rw [hnext, htaken, hid], fun ping hping => ?_⟩
  · have hback : p'.calledBack = called.map (·.1) ++ p.calledBack := by simp [Pinger.calledBack, hcalled]
    have hwaiting : p'.waiting = p.waiting ++ outgoing.map (·.callback) := by simp [Pinger.waiting, hout]
    have hmoved : (p'.calledBack ++ p'.waiting).Perm ((p.calledBack ++ p.waiting) ++ [p.taken]) := by
      have hcomm : (called.map (·.1) ++ (p.calledBack ++ p.waiting)).Perm
          ((p.calledBack ++ p.waiting) ++ called.map (·.1)) := List.perm_append_comm
      rw [hback, hwaiting, ← hnew]
      simpa only [List.append_assoc] using hcomm.append_right (outgoing.map (·.callback))
    rw [htaken, List.range_succ]
    exact hmoved.trans (h.requests.append_right [p.taken])
  · rw [hout] at hping
    rcases List.mem_append.mp hping with hold | hadded
    · exact h.ids ping hold
    · obtain ⟨hpingId, hcallback⟩ := hids ping hadded
      rw [hpingId, hcallback, hid]

end Accounted

/-! ## The handlers -/

section
variable {p : Pinger}

theorem thrDoPing_accounted [Dbuf] (h : Accounted p) (address : SocketAddress) (random : Nat → UInt8)
    (accepted : Bool) (now : Nat) : Accounted (p.thrDoPing address random accepted now) := by
  unfold Pinger.thrDoPing
  cases accepted with
  | true => exact h.take [] [_] rfl rfl rfl (by simp) rfl rfl
  | false => exact h.take [_] [] rfl (List.append_nil _).symm rfl (by simp) rfl rfl

theorem thrDispatchResult_accounted (h : Accounted p) (result : PingerResult) (address : SocketAddress) (now : Nat) :
    Accounted (p.thrDispatchResult result address now) := by
  unfold Pinger.thrDispatchResult
  split
  · exact h
  · next ping hfind =>
    obtain ⟨hid, before, after, hping, hbefore⟩ := List.find?_eq_some_iff_append.mp hfind
    refine h.complete hping rfl ?_ rfl rfl
    have hnone : ∀ other ∈ before, ¬ (other.pingId == result.pingId) = true := by simpa using hbefore
    show p.outgoingPings.eraseP _ = before ++ after
    rw [hping, List.eraseP_append_right _ hnone,
      List.eraseP_cons_of_pos (p := fun other : OutgoingPing => other.pingId == result.pingId) hid]

theorem timeOut_accounted (h : Accounted p) {i : Nat} {ping : OutgoingPing} (hi : p.outgoingPings[i]? = some ping) :
    Accounted (p.timeOut i ping) := by
  obtain ⟨hlt, hget⟩ := List.getElem?_eq_some_iff.mp hi
  have hsplit : p.outgoingPings = p.outgoingPings.take i ++ ping :: p.outgoingPings.drop (i + 1) := by
    rw [← hget, ← List.drop_eq_getElem_cons hlt, List.take_append_drop]
  exact h.complete hsplit rfl (List.eraseIdx_eq_take_drop_succ _ _) rfl rfl

theorem round_accounted [Dbuf] (h : Accounted p) (e : PingerEvent) : Accounted (p.round e) := by
  cases e with
  | bindAny bound => exact h.same rfl rfl rfl rfl
  | requested address random accepted now => exact thrDoPing_accounted h address random accepted now
  | closed => exact h
  | received r now =>
    match r with
    | .error .connectionReset => exact h
    | .error .other => exact h.same rfl rfl rfl rfl
    | .ok (data, src) =>
      unfold Pinger.round Pinger.onReceived
      dsimp only
      split
      · exact h
      · exact thrDispatchResult_accounted h _ src now
  | sleptUntil now => exact removeTimedOut_invariant Accounted (fun _ _ _ hi h => timeOut_accounted h hi) h
  | evicted address => exact h.same rfl rfl rfl rfl

/-- A sweep keeps the pings that have not timed out, and calls the others back. -/
theorem sweep_calls_back [Dbuf] (p : Pinger) (now : Nat) {ping : OutgoingPing} (h : ping ∈ p.outgoingPings) :
    if Pinger.timedOut now ping then ping.callback ∈ (p.round (.sleptUntil now)).calledBack
    else ping ∈ (p.round (.sleptUntil now)).outgoingPings := by
  split
  · next hlate =>
    show ping.callback ∈ (p.thrRemoveTimedOutPings now).called.map (·.1)
    rw [thrRemoveTimedOutPings_called, List.map_append, List.map_reverse, List.map_map]
    exact List.mem_append_left _ (List.mem_reverse.mpr (List.mem_map_of_mem (List.mem_filter.mpr ⟨h, hlate⟩)))
  · next hearly =>
    show ping ∈ (p.thrRemoveTimedOutPings now).outgoingPings
    rw [thrRemoveTimedOutPings_outgoing]
    exact List.mem_filter.mpr ⟨h, by simpa using hearly⟩

end

/-! ## Runs -/

theorem run_accounted [Dbuf] {es : List PingerEvent} {p : Pinger} (h : runSteps pingerStep {} es = some p) :
    Accounted p := by
  refine runSteps_invariant (fun p e p' hstep hp => ?_) .start h
  rw [pingerStep_eq_some hstep]
  exact round_accounted hp e

/-- Requests with different numbers have different ids, up to 2^32. -/
theorem pingId_inj {i j : Nat} (hi : i + 1 < 2 ^ 32) (hj : j + 1 < 2 ^ 32)
    (h : UInt32.ofNat (i + 1) = UInt32.ofNat (j + 1)) : i = j := by
  have hnat := congrArg UInt32.toNat h
  simp only [UInt32.toNat_ofNat'] at hnat
  rw [Nat.mod_eq_of_lt hi, Nat.mod_eq_of_lt hj] at hnat
  omega

/-- No callback is invoked twice; the outgoing pings are those of the requests that have not been called back, each once,
and have different ids. -/
theorem callbacks_once [Dbuf] {es : List PingerEvent} {p : Pinger} (h : runSteps pingerStep {} es = some p)
    (hfew : p.taken < 2 ^ 32) :
    p.calledBack.Nodup ∧ (∀ i, i ∈ p.waiting ↔ i < p.taken ∧ i ∉ p.calledBack) ∧ p.waiting.Nodup ∧
      (p.outgoingPings.map (·.pingId)).Nodup := by
  have hp := run_accounted h
  have hnodup : (p.calledBack ++ p.waiting).Nodup := hp.requests.nodup_iff.mpr List.nodup_range
  obtain ⟨hcalled, hwaiting, hdisjoint⟩ := List.nodup_append'.mp hnodup
  have hmem (i : Nat) : i ∈ p.calledBack ∨ i ∈ p.waiting ↔ i < p.taken := by
    rw [← List.mem_append, hp.requests.mem_iff, List.mem_range]
  refine ⟨hcalled, fun i => ⟨fun hi => ⟨(hmem i).mp (Or.inr hi), fun hback => hdisjoint hback hi⟩, fun hi => ?_⟩,
    hwaiting, ?_⟩
  · exact ((hmem i).mpr hi.1).resolve_left hi.2
  · have hids : p.outgoingPings.map (·.pingId) = p.waiting.map fun i => UInt32.ofNat (i + 1) := by
      rw [Pinger.waiting, List.map_map]
      exact List.map_congr_left hp.ids
    rw [hids]
    refine List.Nodup.map_on (fun i hi j hj heq => ?_) hwaiting
    have hlti := (hmem i).mp (Or.inr hi)
    have hltj := (hmem j).mp (Or.inr hj)
    exact pingId_inj (by omega) (by omega) heq

/-- Four requests, the second of which is not sent, an answer to the first, and a sweep that comes too late for the third
and too early for the last. -/
def pingEvents : List PingerEvent :=
  [.bindAny true, .requested pingedAddress (fun _ => 0) true 0, .requested pingedAddress (fun _ => 0) false 1,
    .requested pingedAddress (fun _ => 0) true 2,
    .received (.ok ([2, 1, 0, 0, 0, 1, 1, 0xf4, 0x10, 0, 0], pingedAddress)) 3,
    .requested pingedAddress (fun _ => 0) true (pingTimeout + 2), .sleptUntil (pingTimeout + 3)]

theorem callbacks_once_answered : ∃ p, @runSteps _ _ (@pingerStep Dbuf.little) {} pingEvents = some p ∧
    p.calledBack = [2, 0, 1] ∧ p.calledBack.Nodup ∧ 3 ∈ p.waiting := by
  have hrun : ∃ p, @runSteps _ _ (@pingerStep Dbuf.little) {} pingEvents = some p ∧ p.calledBack = [2, 0, 1] ∧
      p.taken = 4 := ⟨_, rfl, by decide +kernel, by decide +kernel⟩
  obtain ⟨p, hp, hcalled, htaken⟩ := hrun
  obtain ⟨hnodup, hwaiting, -⟩ := @callbacks_once Dbuf.little _ p hp (by simp [htaken])
  exact ⟨p, hp, hcalled, hnodup, (hwaiting 3).mpr (by simp [htaken, hcalled])⟩

end Qunet
