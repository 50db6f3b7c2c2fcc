import Qunet.Lib.Machine
import Qunet.Ping.Pinger

/-!
# The protocols in the ping cache

* `ProtocolsKnown` : every entry has protocols, and so has every pong that a callback is given;
* `FallsBack` : a pong that leaves its protocols out finds an entry of its source;
* `thrDispatchResult_known_iff` : what one pong does to the cache;
* **`protocolsKnown_iff`** : over all runs, the cache knows the protocols exactly if every such pong finds an entry.
-/

namespace Qunet
open Lib

structure ProtocolsKnown (p : Pinger) : Prop where
  cached : ∀ address entry, p.cache address = some entry → entry.protocols ≠ []
  answered : ∀ i result, (i, result) ∈ p.called → result.timedOut = false → result.errored = false →
    result.protocols ≠ []

theorem ProtocolsKnown.getCached {p : Pinger} (h : ProtocolsKnown p) {address : SocketAddress} {result : PingResult}
    (hget : p.getCached address = some result) : result.protocols ≠ [] := by
  obtain ⟨entry, hentry, rfl⟩ := Option.map_eq_some_iff.mp hget
  exact h.cached _ entry hentry

/-- The ping that a pong answers. -/
def Pinger.answers (result : PingerResult) (p : Pinger) : Bool := p.outgoingPings.any (·.pingId == result.pingId)

/-- The round is not that of a pong without protocols that answers a ping and finds no entry of its source. -/
def FallsBack [Dbuf] (p : Pinger) : PingerEvent → Prop
  | .received (.ok (data, src)) _ => ∀ result, thrParsePingResponse data = .ok result → p.answers result = true →
      result.protocols = [] → (p.cache (toV6 src)).isSome
  | _ => True

section
variable {p p' : Pinger}

/-- Entries are only dropped, and callbacks of failures invoked. -/
theorem ProtocolsKnown.mono (h : ProtocolsKnown p)
    (hcache : ∀ address entry, p'.cache address = some entry → p.cache address = some entry)
    (hcalled : ∀ i result, (i, result) ∈ p'.called →
      (i, result) ∈ p.called ∨ result.timedOut = true ∨ result.errored = true) : ProtocolsKnown p' := by
  refine ⟨fun address entry hentry => h.cached address entry (hcache address entry hentry), ?_⟩
  intro i result hmem htime herror
  rcases hcalled i result hmem with hold | hlate | hfailed
  · exact h.answered i result hold htime herror
  · simp [htime] at hlate
  · simp [herror] at hfailed

theorem ProtocolsKnown.same (h : ProtocolsKnown p) (hcache : p'.cache = p.cache) (hcalled : p'.called = p.called) :
    ProtocolsKnown p' :=
  h.mono (fun _ _ => hcache ▸ id) fun _ _ hmem => Or.inl (hcalled ▸ hmem)

theorem resultProtocols_known_iff (h : ProtocolsKnown p) (protocols : List SupportedProtocol) (v6 : SocketAddressV6) :
    Pinger.resultProtocols protocols (p.cache v6) ≠ [] ↔ (protocols = [] → (p.cache v6).isSome) := by
  unfold Pinger.resultProtocols
  cases protocols with
  | nil =>
    cases hentry : p.cache v6 with
    | none => simp
    | some entry => simpa using h.cached v6 entry hentry
  | cons proto rest => simp

/-- A pong keeps the protocols known exactly if it has some, or finds an entry, or answers no ping. -/
theorem thrDispatchResult_known_iff (h : ProtocolsKnown p) (result : PingerResult) (address : SocketAddress)
    (now : Nat) : ProtocolsKnown (p.thrDispatchResult result address now) ↔
      (p.answers result = true → result.protocols = [] → (p.cache (toV6 address)).isSome) := by
  unfold Pinger.thrDispatchResult Pinger.answers
  split
  · next hnone =>
    have hany : p.outgoingPings.any (·.pingId == result.pingId) = false := by simpa using hnone
    exact iff_of_true h fun hanswers => absurd hanswers (by simp [hany])
  · next ping hfind =>
    have hany : p.outgoingPings.any (·.pingId == result.pingId) = true :=
      List.any_eq_true.mpr ⟨ping, List.mem_of_find?_eq_some hfind, by simpa using List.find?_some hfind⟩
    rw [hany, ← resultProtocols_known_iff h]
    constructor
    · intro hknown _
      exact hknown.cached (toV6 address) _ (Function.update_self _ _ _)
    · intro hanswered
      have hprotocols := hanswered rfl
      refine ⟨fun other entry hentry => ?_, fun i r hmem htime herror => ?_⟩
      · by_cases hother : other = toV6 address
        · subst hother
          cases (Function.update_self _ _ _).symm.trans hentry
          exact hprotocols
        · exact h.cached other entry ((Function.update_of_ne hother _ _).symm.trans hentry)
      · rcases List.mem_cons.mp hmem with heq | hold
        · cases heq
          exact hprotocols
        · exact h.answered i r hold htime herror

theorem thrDoPing_known [Dbuf] (h : ProtocolsKnown p) (address : SocketAddress) (random : Nat → UInt8)
    (accepted : Bool) (now : Nat) : ProtocolsKnown (p.thrDoPing address random accepted now) := by
  unfold Pinger.thrDoPing
  cases accepted with
  | true => exact h.same rfl rfl
  | false =>
    refine h.mono (fun _ _ => id) fun i result hmem => ?_
    rcases List.mem_cons.mp hmem with heq | hold
    · cases heq
      exact Or.inr (Or.inr rfl)
    · exact Or.inl hold

theorem timeOut_known (h : ProtocolsKnown p) (i : Nat) (ping : OutgoingPing) : ProtocolsKnown (p.timeOut i ping) := by
  refine h.mono (fun _ _ => id) fun j result hmem => ?_
  rcases List.mem_cons.mp hmem with heq | hold
  · cases heq
    exact Or.inr (Or.inl rfl)
  · exact Or.inl hold

theorem round_known_iff [Dbuf] (h : ProtocolsKnown p) (e : PingerEvent) : ProtocolsKnown (p.round e) ↔ FallsBack p e := by
  cases e with
  | bindAny bound => exact iff_of_true (h.same rfl rfl) trivial
  | requested address random accepted now => exact iff_of_true (thrDoPing_known h address random accepted now) trivial
  | closed => exact iff_of_true h trivial
  | received r now =>
    match r with
    | .error .connectionReset => exact iff_of_true h trivial
    | .error .other => exact iff_of_true (h.same rfl rfl) trivial
    | .ok (data, src) =>
      unfold Pinger.round Pinger.onReceived FallsBack
      dsimp only
      split
      · next e herror => exact iff_of_true h fun result hresult => (by rw [herror] at hresult; cases hresult)
      · next result hresult =>
        rw [thrDispatchResult_known_iff h]
        constructor
        · intro hfound other hother
          rw [hresult] at hother
          cases hother
          exact hfound
        · exact fun hfound => hfound result hresult
  | sleptUntil now =>
    exact iff_of_true (removeTimedOut_invariant ProtocolsKnown (fun _ i ping _ hp => timeOut_known hp i ping) h) trivial
  | evicted address =>
    refine iff_of_true (h.mono (fun other entry hentry => ?_) fun _ _ => Or.inl) trivial
    by_cases hother : other = address
    · subst hother
      cases (Function.update_self _ _ _).symm.trans hentry
    · exact (Function.update_of_ne hother _ _).symm.trans hentry

end

/-! ## Runs -/

/-- In a run, the protocols are always known exactly if every pong without protocols finds an entry of its source. -/
theorem protocolsKnown_iff [Dbuf] (es : List PingerEvent) :
    EveryState pingerStep ProtocolsKnown {} es ↔ EveryStep pingerStep FallsBack {} es := by
  have hstart : ProtocolsKnown {} := ⟨fun _ _ hentry => (by cases hentry), fun _ _ hmem => (by cases hmem)⟩
  have hstep : ∀ p e p', pingerStep p e = some p' → True → ProtocolsKnown p → (ProtocolsKnown p' ↔ FallsBack p e) := by
    intro p e p' hstep _ hp
    rw [pingerStep_eq_some hstep]
    exact round_known_iff hp e
  exact everyState_iff_everyStep (fun _ _ _ _ _ => trivial) hstep trivial hstart es

/-- A ping, and an answer without protocols. -/
def omittedEvents : List PingerEvent :=
  [.bindAny true, .requested pingedAddress (fun _ => 0) true 0,
    .received (.ok ([2, 1, 0, 0, 0, 0, 0, 0], pingedAddress)) 1]

/-- The entry that is then created has no protocols. -/
theorem protocols_unknown : ¬ ∀ (_ : Dbuf) (es : List PingerEvent), EveryState pingerStep ProtocolsKnown {} es := by
  intro h
  have hrun : ∃ p, @runSteps _ _ (@pingerStep Dbuf.little) {} omittedEvents = some p ∧
      p.cache (toV6 pingedAddress) = some ⟨1, []⟩ := ⟨_, rfl, rfl⟩
  obtain ⟨p, hp, hentry⟩ := hrun
  exact ((h Dbuf.little omittedEvents).last hp).cached _ _ hentry rfl

end Qunet
