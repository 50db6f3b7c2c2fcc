import Qunet.Udp.Retransmitting
import Qunet.Udp.ControlMessages
import Qunet.Udp.Fragmenting
import Qunet.Transport.Keepalive

/-!
# The timer of a UDP transport (`UdpTransport::untilTimerExpiry`, `UdpTransport::handleTimerExpiry`)

* `TimedUdp` : a UDP transport with the clocks of `BaseTransport`;
* `handleTimerExpiry` : retransmissions, then urgent acknowledgements, then a keepalive;
* `handleTimerExpiry_spec` : what a call that succeeds leaves to do;
* **`timer_comes_to_rest`** : the timer does not stay expired, so the worker does not spin;
* **`silent_server_detected_udp`** : a server that falls silent is noticed by a fixed instant.
-/

namespace Qunet
open Lib

structure TimedUdp extends UdpTransport where
  latestRttMicros : Nat := 0
  lastActivity : Option Nat := none
  lastKeepalive : Option Nat := none
  totalKeepalives : Nat := 0
  totalRttEstimates : Nat := 0
  activeKeepaliveInterval : Option Nat := none

/-- A call that sends: its result, what the socket is given and the transport. There is none if a loop does not end. -/
abbrev SendOutcome := Option (Except TransportError Unit × List Bytes × TimedUdp)

/-- `ARC_CO_UNWRAP(co_await …)`, and what follows it. -/
def SendOutcome.andThen (r : SendOutcome) (f : TimedUdp → SendOutcome) : SendOutcome :=
  match r with
  | some (.ok (), out, t) => (f t).map fun r => (r.1, out ++ r.2.1, r.2.2)
  | r => r

theorem SendOutcome.andThen_ok {r : SendOutcome} {f : TimedUdp → SendOutcome} {out : List Bytes} {t : TimedUdp}
    (h : r.andThen f = some (.ok (), out, t)) :
    ∃ out₁ t₁ out₂, r = some (.ok (), out₁, t₁) ∧ f t₁ = some (.ok (), out₂, t) ∧ out = out₁ ++ out₂ := by
  unfold andThen at h
  split at h
  · obtain ⟨⟨r₂, out₂, t₂⟩, hf, hres⟩ := Option.map_eq_some_iff.mp h
    cases hres
    exact ⟨_, _, out₂, rfl, hf, rfl⟩
  · next hne =>
    subst h
    exact absurd rfl (hne out t)

theorem SendOutcome.andThen_returns {r : SendOutcome} {f : TimedUdp → SendOutcome} {P : TimedUdp → Prop}
    (hr : ∃ res out t, r = some (res, out, t) ∧ (res = .ok () → P t)) (hf : ∀ t, P t → (f t).isSome) :
    (r.andThen f).isSome := by
  obtain ⟨res, out, t, rfl, hP⟩ := hr
  cases res with
  | error e => rfl
  | ok _ =>
    unfold SendOutcome.andThen
    rw [Option.isSome_map]
    exact hf t (hP rfl)

namespace TimedUdp

/-- The part that the keepalives depend on. -/
def keepalive (t : TimedUdp) : KeepaliveState where
  latestRttMicros := t.latestRttMicros
  lastActivity := t.lastActivity
  lastKeepalive := t.lastKeepalive
  totalKeepalives := t.totalKeepalives
  totalRttEstimates := t.totalRttEstimates
  unackedKeepalives := t.unackedKeepalives
  activeKeepaliveInterval := t.activeKeepaliveInterval

def updateLastActivity (now : Nat) (t : TimedUdp) : TimedUdp := { t with lastActivity := some now }

def updateLastSentKeepalive (now : Nat) (t : TimedUdp) : TimedUdp :=
  { t with lastKeepalive := some now, totalKeepalives := t.totalKeepalives + 1
           unackedKeepalives := t.unackedKeepalives + 1 }

/-- The statistics of an outgoing message whose size nobody filled in. -/
def logOutgoingMessage (now : Nat) (relHeader : Option ReliabilityHeader) (t : TimedUdp) : TimedUdp :=
  { t with tracker := t.tracker.onMessage true now 0 none relHeader }

section
variable [Dbuf]

/-- `doSendUnfragmentedData`, and the call of `updateLastActivity` at its end. -/
def doSend (w : SendWorld) (msg : DataMessage) (retransmission : Bool) (t : TimedUdp) : SendOutcome :=
  match UdpTransport.doSendUnfragmentedData w t.toUdpTransport msg retransmission with
  | none => none
  | some (.error e, out, u) => some (.error e, out, { t with toUdpTransport := u })
  | some (.ok (), out, u) => some (.ok (), out, updateLastActivity w.now { t with toUdpTransport := u })

/-- `sendMessage` on a keepalive message, stamped with `stamp`. -/
def sendKeepalive (w : SendWorld) (stamp : UInt64) (t : TimedUdp) : SendOutcome :=
  let t := t.updateLastSentKeepalive w.now
  match (QunetMessage.keepalive ⟨stamp⟩).encodeControlMsg t.connectionId with
  | none => none
  | some encoded =>
    match UdpTransport.sendControl w t.toUdpTransport encoded with
    | (.error e, out, u) => some (.error e, out, { t with toUdpTransport := u })
    | (.ok (), out, u) =>
      some (.ok (), out, logOutgoingMessage w.now none (updateLastActivity w.now { t with toUdpTransport := u }))

/-- The loop `while (auto msg = maybeRetransmit())`, at most `rounds` rounds of it. The `i`-th send of the call takes
`w i` from outside. -/
def retransmitAll (deadline : Nat → Nat) (w : Nat → SendWorld) : Nat → Nat → TimedUdp → SendOutcome
  | 0, _, _ => none
  | rounds + 1, i, t =>
    match t.relStore.maybeRetransmit deadline (w i).now with
    | (.error e, s) => some (.error e, [], { t with relStore := s })
    | (.ok none, s) => some (.ok (), [], { t with relStore := s })
    | (.ok (some msg), s) =>
      (doSend (w i) msg.toDataMessage true { t with relStore := s }).andThen fun t =>
        retransmitAll deadline w rounds (i + 1) (t.logOutgoingMessage (w i).now (some msg.header))

/-- The explicit acknowledgement: a message with no data. -/
def sendUrgentAcks (w : SendWorld) (t : TimedUdp) : SendOutcome :=
  if t.relStore.hasUrgentOutgoingAcks w.now then
    let r := t.relStore.setOutgoingAcks ⟨0, 0, .replicate 8 0⟩
    (doSend w { data := [], relHeader := some r.1 } false { t with relStore := r.2 }).andThen fun t =>
      some (.ok (), [], t.logOutgoingMessage w.now (some r.1))
  else some (.ok (), [], t)

/-- What one call takes from outside: what the clock shows in the `i`-th round of the loop, before the acknowledgements
and before the keepalive, and the answers to its sends. -/
structure ExpiryWorld where
  retransmitNow : Nat → Nat
  ackNow : Nat
  now : Nat
  retransmit : Nat → Nat → LinkOutcome
  ack : Nat → LinkOutcome
  keepalive : Nat → LinkOutcome
  stamp : UInt64
  random : Nat → UInt8

/-- However fast the clock runs, a message is retransmitted ten times at most and then given up, which bounds the rounds of
the loop. -/
def handleTimerExpiry (deadline : Nat → Nat) (w : ExpiryWorld) (t : TimedUdp) : SendOutcome :=
  match t.keepalive.handleTimerExpiry with
  | .error e => some (.error e, [], t)
  | .ok () =>
    (retransmitAll deadline (fun i => ⟨w.retransmitNow i, w.retransmit i, w.random⟩)
      (10 * t.relStore.localUnacked.length + 1) 0 t).andThen fun t =>
        (sendUrgentAcks ⟨w.ackNow, w.ack, w.random⟩ t).andThen fun t =>
          if udpSchedule.untilKeepalive w.now t.keepalive = 0 then
            sendKeepalive ⟨w.now, w.keepalive, w.random⟩ w.stamp t
          else some (.ok (), [], t)

end

def untilTimerExpiry (deadline : Nat → Nat) (now : Nat) (t : TimedUdp) : WithTop Nat :=
  min (ReliableStore.untilTimerExpiry deadline now t.relStore)
    (udpSchedule.untilKeepalive now t.keepalive : WithTop Nat)

/-! ## What a call that succeeds leaves -/

section
variable [Dbuf]

/-- A send that is not remembered. -/
structure JustSent (now : Nat) (t t' : TimedUdp) : Prop where
  relStore : t'.relStore = t.relStore
  unacked : t'.unackedKeepalives = t.unackedKeepalives
  activity : t'.lastActivity = some now

omit [Dbuf] in
/-- A retransmission is not kept. -/
theorem reliableOf_retransmission (msg : DataMessage) : msg.reliableOf true = none := by
  unfold DataMessage.reliableOf
  split
  · rfl
  · simp

omit [Dbuf] in
/-- A message without id is not kept. -/
theorem reliableOf_unreliable {header : ReliabilityHeader} (h : header.messageId = 0) (data : Bytes)
    (retransmission : Bool) :
    ({ data, relHeader := some header } : DataMessage).reliableOf retransmission = none := by
  unfold DataMessage.reliableOf
  simp [h]

omit [Dbuf] in
theorem rememberSent_forgets {w : SendWorld} {msg : DataMessage} {retransmission : Bool} (u : UdpTransport)
    (h : msg.reliableOf retransmission = none) : UdpTransport.rememberSent w msg retransmission u = (.ok (), u) := by
  unfold UdpTransport.rememberSent
  rw [h]

theorem doSend_ok {w : SendWorld} {msg : DataMessage} {retransmission : Bool} {t t' : TimedUdp} {out : List Bytes}
    (hforget : msg.reliableOf retransmission = none) (h : t.doSend w msg retransmission = some (.ok (), out, t')) :
    JustSent w.now t t' := by
  unfold doSend at h
  split at h
  · cases h
  · cases h
  · next out' u hsend =>
    cases h
    unfold UdpTransport.doSendUnfragmentedData at hsend
    split at hsend
    · have hsend := Option.some.inj hsend
      unfold UdpTransport.sendUnfragmented at hsend
      rw [rememberSent_forgets _ hforget] at hsend
      dsimp only at hsend
      split at hsend
      · cases hsend
      · cases hsend
        exact ⟨rfl, rfl, rfl⟩
    · dsimp only at hsend
      split at hsend
      · cases hsend
      · cases hsend
      · rw [rememberSent_forgets _ hforget] at hsend
        cases hsend
        exact ⟨rfl, rfl, rfl⟩

/-- What the loop leaves: nothing is due, and only the clocks of the kept messages have changed. -/
structure Retransmitted (deadline : Nat → Nat) (now : Nat) (t t' : TimedUdp) : Prop where
  idle : ∀ u ∈ t'.relStore.localUnacked, ¬ ReliableStore.Due deadline now u
  remote : t'.relStore.remoteUnacked = t.relStore.remoteUnacked
  unacked : t'.unackedKeepalives = t.unackedKeepalives

omit [Dbuf] in
/-- The loop ends when nothing is due. -/
theorem maybeRetransmit_none {deadline : Nat → Nat} {now : Nat} {s s' : ReliableStore}
    (h : s.maybeRetransmit deadline now = (.ok none, s')) :
    s' = s ∧ ∀ u ∈ s.localUnacked, ¬ ReliableStore.Due deadline now u := by
  have hscan := ReliableStore.retransmitScan_cases deadline now s.localUnacked
  unfold ReliableStore.maybeRetransmit at h
  generalize ReliableStore.retransmitScan deadline now s.localUnacked = r at h hscan
  cases hscan with
  | idle hidle =>
    obtain ⟨-, rfl⟩ := Prod.mk.inj h
    exact ⟨rfl, hidle⟩
  | @taken pre post u hl hpre hu => exact absurd (Prod.mk.inj h).1 (ReliableStore.attempt_ne_none u)

theorem retransmitAll_ok {deadline : Nat → Nat} {w : Nat → SendWorld} {now : Nat} (hnow : ∀ i, (w i).now = now)
    {rounds i : Nat} {t t' : TimedUdp} {out : List Bytes}
    (h : retransmitAll deadline w rounds i t = some (.ok (), out, t')) : Retransmitted deadline now t t' := by
  induction rounds generalizing i t out with
  | zero => cases h
  | succ rounds ih =>
    unfold retransmitAll at h
    rw [hnow] at h
    split at h
    · cases h
    · next s heq =>
      obtain ⟨rfl, hidle⟩ := maybeRetransmit_none heq
      cases h
      exact ⟨hidle, rfl, rfl⟩
    · next msg s heq =>
      obtain ⟨out₁, t₁, out₂, hsend, hrest, -⟩ := SendOutcome.andThen_ok h
      have hsent := doSend_ok (reliableOf_retransmission _) hsend
      have hnext := ih hrest
      have hremote : s.remoteUnacked = t.relStore.remoteUnacked := by
        obtain ⟨-, rfl⟩ := Prod.mk.inj heq
        rfl
      refine ⟨hnext.idle, hnext.remote.trans ?_, hnext.unacked.trans hsent.unacked⟩
      exact (congrArg ReliableStore.remoteUnacked hsent.relStore).trans hremote

/-- At most eight acknowledgements leave in a call, the oldest ones. -/
theorem sendUrgentAcks_ok {w : SendWorld} {t t' : TimedUdp} {out : List Bytes}
    (h : t.sendUrgentAcks w = some (.ok (), out, t')) :
    t'.relStore.localUnacked = t.relStore.localUnacked ∧ t'.unackedKeepalives = t.unackedKeepalives ∧
      t'.relStore.remoteUnacked =
        if t.relStore.hasUrgentOutgoingAcks w.now then t.relStore.remoteUnacked.drop 8
        else t.relStore.remoteUnacked := by
  obtain ⟨hs, hid, -⟩ := t.relStore.setOutgoingAcks_spec ⟨0, 0, .replicate 8 0⟩
  unfold sendUrgentAcks at h
  dsimp only at h
  split at h
  · next hurgent =>
    obtain ⟨out₁, t₁, out₂, hsend, hrest, -⟩ := SendOutcome.andThen_ok h
    cases hrest
    have hsent := doSend_ok (reliableOf_unreliable hid [] false) hsend
    have hstore := hsent.relStore
    dsimp only at hstore
    rw [if_pos hurgent]
    refine ⟨?_, hsent.unacked, ?_⟩
    · show t₁.relStore.localUnacked = _
      rw [hstore, hs]
    · show t₁.relStore.remoteUnacked = _
      rw [hstore, hs]
  · next hcalm =>
    cases h
    rw [if_neg hcalm]
    exact ⟨rfl, rfl, rfl⟩

/-- After a keepalive the next one is not due. -/
theorem sendKeepalive_ok {w : SendWorld} {stamp : UInt64} {t t' : TimedUdp} {out : List Bytes}
    (h : t.sendKeepalive w stamp = some (.ok (), out, t')) :
    t'.relStore = t.relStore ∧ udpSchedule.untilKeepalive w.now t'.keepalive ≠ 0 := by
  unfold sendKeepalive at h
  dsimp only at h
  split at h
  · cases h
  · next encoded hencoded =>
    unfold UdpTransport.sendControl at h
    dsimp only at h
    split at h
    · cases h
    · next out' u hsend =>
      cases h
      split at hsend
      · cases hsend
      · cases hsend
        refine ⟨rfl, ?_⟩
        rw [KeepaliveSchedule.untilKeepalive_unacked (Nat.succ_pos _)]
        show fromSecs 2 - (w.now - w.now) ≠ 0
        unfold fromSecs
        omega

/-- What a call that succeeds leaves to do. -/
structure Expired (deadline : Nat → Nat) (now : Nat) (t t' : TimedUdp) : Prop where
  idle : ∀ u ∈ t'.relStore.localUnacked, ¬ ReliableStore.Due deadline now u
  acks : t'.relStore.remoteUnacked =
    if t.relStore.hasUrgentOutgoingAcks now then t.relStore.remoteUnacked.drop 8 else t.relStore.remoteUnacked
  keepalive : udpSchedule.untilKeepalive now t'.keepalive ≠ 0

/-- The clock stands still during the call. -/
structure ExpiryWorld.At (w : ExpiryWorld) (now : Nat) : Prop where
  retransmit : ∀ i, w.retransmitNow i = now
  ack : w.ackNow = now
  keepalive : w.now = now

theorem handleTimerExpiry_spec {deadline : Nat → Nat} {w : ExpiryWorld} {now : Nat} (hw : w.At now) {t t' : TimedUdp}
    {out : List Bytes} (h : t.handleTimerExpiry deadline w = some (.ok (), out, t')) : Expired deadline now t t' := by
  unfold handleTimerExpiry at h
  split at h
  · cases h
  · obtain ⟨out₁, t₁, out₂, hretransmit, h, -⟩ := SendOutcome.andThen_ok h
    obtain ⟨out₃, t₂, out₄, hacks, h, -⟩ := SendOutcome.andThen_ok h
    obtain ⟨hclock, hack, rfl⟩ := hw
    have hfirst := retransmitAll_ok (w := fun i => ⟨w.retransmitNow i, w.retransmit i, w.random⟩) hclock hretransmit
    obtain ⟨hlocal, -, hremote⟩ := sendUrgentAcks_ok hacks
    have hurgent : t₁.relStore.hasUrgentOutgoingAcks w.now = t.relStore.hasUrgentOutgoingAcks w.now := by
      unfold ReliableStore.hasUrgentOutgoingAcks
      rw [hfirst.remote]
    rw [hfirst.remote] at hremote
    dsimp only at hremote
    rw [hack, hurgent] at hremote
    split at h
    · obtain ⟨hstore, hkeepalive⟩ := sendKeepalive_ok h
      refine ⟨?_, ?_, hkeepalive⟩
      · rw [hstore, hlocal]
        exact hfirst.idle
      · rw [hstore]
        exact hremote
    · next hlater =>
      cases h
      refine ⟨?_, hremote, hlater⟩
      rw [hlocal]
      exact hfirst.idle

/-! ## The timer comes to rest -/

omit [Dbuf] in
/-- After a call that succeeds only urgent acknowledgements can keep the timer expired. -/
theorem Expired.rests {deadline : Nat → Nat} {now : Nat} {t t' : TimedUdp} (h : Expired deadline now t t') :
    t'.untilTimerExpiry deadline now = 0 ↔ t'.relStore.hasUrgentOutgoingAcks now = true := by
  have hmin : t'.untilTimerExpiry deadline now = 0 ↔ ReliableStore.untilTimerExpiry deadline now t'.relStore = 0 := by
    unfold untilTimerExpiry
    rw [← bot_eq_zero', min_eq_bot, bot_eq_zero', Nat.cast_eq_zero]
    exact or_iff_left h.keepalive
  rw [hmin, ReliableStore.untilTimerExpiry_eq_zero]
  constructor
  · rintro (⟨u, hu, hdue⟩ | hurgent)
    · exact absurd hdue (h.idle u hu)
    · simpa [ReliableStore.hasUrgentOutgoingAcks] using hurgent
  · intro hurgent
    right
    simpa [ReliableStore.hasUrgentOutgoingAcks] using hurgent

/-- `n` calls that succeed, all at one instant. -/
inductive Expires (deadline : Nat → Nat) (now : Nat) : Nat → TimedUdp → TimedUdp → Prop where
  | zero (t : TimedUdp) : Expires deadline now 0 t t
  | succ {n : Nat} {w : ExpiryWorld} {t t' t'' : TimedUdp} {out : List Bytes} (hrest : Expires deadline now n t t')
      (hnow : w.At now) (h : t'.handleTimerExpiry deadline w = some (.ok (), out, t'')) :
      Expires deadline now (n + 1) t t''

theorem Expires.acks {deadline : Nat → Nat} {now n : Nat} {t t' : TimedUdp} (h : Expires deadline now n t t') :
    t'.relStore.hasUrgentOutgoingAcks now = true →
      t'.relStore.remoteUnacked = t.relStore.remoteUnacked.drop (8 * n) := by
  induction h with
  | zero t => exact fun _ => rfl
  | @succ n w t t' t'' out _ hnow hcall ih =>
    have hspec := handleTimerExpiry_spec hnow hcall
    intro hurgent
    have hacks := hspec.acks
    split at hacks
    · next hbefore => rw [hacks, ih hbefore, List.drop_drop, Nat.mul_succ]
    · next hcalm =>
      unfold ReliableStore.hasUrgentOutgoingAcks at hurgent hcalm
      rw [hacks] at hurgent
      exact absurd hurgent hcalm

/-- The headers of the kept messages name at most eight messages each. -/
def KeepsFew (s : ReliableStore) : Prop := ∀ u ∈ s.localUnacked, u.msg.header.ackCount ≤ 8

theorem doSend_returns {t : TimedUdp} (hmtu : t.mtu = 1200) (w : SendWorld) (msg : DataMessage)
    (hrel : ∀ h ∈ msg.relHeader, h.ackCount ≤ 8) (retransmission : Bool) :
    ∃ r out t', t.doSend w msg retransmission = some (r, out, t') ∧ t'.mtu = 1200 := by
  have hreturns : ∃ r out u, UdpTransport.doSendUnfragmentedData w t.toUdpTransport msg retransmission =
      some (r, out, u) := by
    by_cases hfit : msg.unfragTotalSize ≤ t.mtu
    · obtain ⟨r, u, h⟩ := doSendUnfragmentedData_fits retransmission hfit w
      exact ⟨r, _, u, h⟩
    · obtain ⟨chunks, -, h⟩ := doSendUnfragmentedData_splits retransmission hrel hmtu (by omega)
      obtain ⟨r, u, h⟩ := h w
      exact ⟨r, _, u, h⟩
  obtain ⟨r, out, u, h⟩ := hreturns
  have hmtu' : u.mtu = 1200 := (UdpTransport.doSendUnfragmentedData_settings h).1.trans hmtu
  unfold doSend
  rw [h]
  cases r with
  | error e => exact ⟨_, _, _, rfl, hmtu'⟩
  | ok _ => exact ⟨_, _, _, rfl, hmtu'⟩

/-- So many more retransmissions can be asked for before every message has been given up. -/
def attemptsLeft (s : ReliableStore) : Nat := (s.localUnacked.map fun u => 10 - u.retransmitAttempts).sum

omit [Dbuf] in
theorem attemptsLeft_le (s : ReliableStore) : attemptsLeft s ≤ 10 * s.localUnacked.length := by
  have hle := List.sum_le_card_nsmul (s.localUnacked.map fun u => 10 - u.retransmitAttempts) 10 fun n hn => by
    obtain ⟨u, -, rfl⟩ := List.mem_map.mp hn
    exact Nat.sub_le _ _
  rwa [List.length_map, Nat.nsmul_eq_mul, Nat.mul_comm] at hle

omit [Dbuf] in
/-- A round takes a message, which has one attempt less left. -/
theorem maybeRetransmit_some {deadline : Nat → Nat} {now : Nat} {s s' : ReliableStore} {msg : ReliableData}
    (h : s.maybeRetransmit deadline now = (.ok (some msg), s')) (hfew : KeepsFew s) :
    attemptsLeft s' + 1 = attemptsLeft s ∧ KeepsFew s' ∧ msg.header.ackCount ≤ 8 := by
  have hscan := ReliableStore.retransmitScan_cases deadline now s.localUnacked
  unfold ReliableStore.maybeRetransmit at h
  generalize ReliableStore.retransmitScan deadline now s.localUnacked = r at h hscan
  cases hscan with
  | idle hidle => cases (Prod.mk.inj h).1
  | @taken pre post u hl hpre hu =>
    obtain ⟨hres, rfl⟩ := Prod.mk.inj h
    obtain ⟨h10, rfl⟩ := ReliableStore.attempt_ok hres
    have hu8 := hfew u (by rw [hl]; simp)
    refine ⟨?_, fun v hv => ?_, hu8⟩
    · simp only [attemptsLeft, hl, List.map_append, List.map_cons, List.sum_append, List.sum_cons, ReliableStore.retried]
      omega
    · rcases List.mem_append.mp hv with hv | hv
      · exact hfew v (by rw [hl]; exact List.mem_append_left _ hv)
      · rcases List.mem_cons.mp hv with rfl | hv
        · exact hu8
        · exact hfew v (by rw [hl]; exact List.mem_append_right _ (List.mem_cons_of_mem _ hv))

theorem retransmitAll_returns (deadline : Nat → Nat) (w : Nat → SendWorld) {rounds i : Nat} {t : TimedUdp}
    (hmtu : t.mtu = 1200) (hfew : KeepsFew t.relStore) (hrounds : attemptsLeft t.relStore < rounds) :
    ∃ r out t', retransmitAll deadline w rounds i t = some (r, out, t') ∧ t'.mtu = 1200 := by
  induction rounds generalizing i t with
  | zero => omega
  | succ rounds ih =>
    unfold retransmitAll
    split
    · exact ⟨_, _, _, rfl, hmtu⟩
    · exact ⟨_, _, _, rfl, hmtu⟩
    · next msg s heq =>
      obtain ⟨hless, hfew', h8⟩ := maybeRetransmit_some heq hfew
      obtain ⟨r, out, t₁, hsend, hmtu'⟩ := doSend_returns (t := { t with relStore := s }) hmtu (w i) _
        (by rw [msg.has_header]; rintro h ⟨⟩; exact h8) true
      rw [hsend]
      cases r with
      | error e => exact ⟨_, _, _, rfl, hmtu'⟩
      | ok _ =>
        have hsent := doSend_ok (reliableOf_retransmission _) hsend
        have hstore : t₁.relStore = s := hsent.relStore
        obtain ⟨r, out', t', hrest, hmtu''⟩ := ih (i := i + 1) (t := t₁.logOutgoingMessage (w i).now (some msg.header))
          hmtu' (by show KeepsFew t₁.relStore; rwa [hstore])
          (by show attemptsLeft t₁.relStore < rounds; rw [hstore]; omega)
        unfold SendOutcome.andThen
        dsimp only
        rw [hrest]
        exact ⟨_, _, _, rfl, hmtu''⟩

theorem sendUrgentAcks_returns {t : TimedUdp} (hmtu : t.mtu = 1200) (w : SendWorld) :
    ∃ r out t', t.sendUrgentAcks w = some (r, out, t') := by
  obtain ⟨-, -, hcount, -⟩ := t.relStore.setOutgoingAcks_spec ⟨0, 0, .replicate 8 0⟩
  unfold sendUrgentAcks
  dsimp only
  split
  · obtain ⟨r, out, t₁, hsend, -⟩ := doSend_returns
      (t := { t with relStore := (t.relStore.setOutgoingAcks ⟨0, 0, .replicate 8 0⟩).2 }) hmtu w
      { data := [], relHeader := some (t.relStore.setOutgoingAcks ⟨0, 0, .replicate 8 0⟩).1 }
      (by rintro h ⟨⟩; omega) false
    rw [hsend]
    cases r with
    | error e => exact ⟨_, _, _, rfl⟩
    | ok _ => exact ⟨_, _, _, rfl⟩
  · exact ⟨_, _, _, rfl⟩

theorem sendKeepalive_returns (t : TimedUdp) (w : SendWorld) (stamp : UInt64) : (t.sendKeepalive w stamp).isSome := by
  unfold sendKeepalive
  dsimp only
  split
  · next hnone => cases hnone
  · split <;> rfl

/-- A call returns, whatever becomes of its datagrams, and however fast the clock runs. -/
theorem handleTimerExpiry_returns (deadline : Nat → Nat) {t : TimedUdp} (hmtu : t.mtu = 1200)
    (hfew : KeepsFew t.relStore) (w : ExpiryWorld) : (t.handleTimerExpiry deadline w).isSome := by
  unfold handleTimerExpiry
  split
  · rfl
  · obtain ⟨r, out, t₁, hretransmit, hmtu'⟩ := retransmitAll_returns deadline
      (fun i => ⟨w.retransmitNow i, w.retransmit i, w.random⟩) (i := 0) hmtu hfew
      (Nat.lt_succ_of_le (attemptsLeft_le t.relStore))
    refine SendOutcome.andThen_returns (P := fun t => t.mtu = 1200) ⟨r, out, t₁, hretransmit, fun _ => hmtu'⟩ ?_
    intro t₂ hmtu₂
    obtain ⟨r, out, t₃, hacks⟩ := sendUrgentAcks_returns hmtu₂ ⟨w.ackNow, w.ack, w.random⟩
    refine SendOutcome.andThen_returns (P := fun _ => True) ⟨r, out, t₃, hacks, fun _ => trivial⟩ fun t₄ _ => ?_
    split
    · exact sendKeepalive_returns _ _ _
    · rfl

/-- **The timer comes to rest.** Every call returns. And at one instant, after as many calls that succeed as it takes to
acknowledge everything in the queue, eight ids a call, and at least one, the timer is no longer expired. -/
theorem timer_comes_to_rest (deadline : Nat → Nat) (t : TimedUdp) (hmtu : t.mtu = 1200)
    (hfew : KeepsFew t.relStore) :
    (∀ w, (t.handleTimerExpiry deadline w).isSome) ∧
      ∀ now n t', Expires deadline now (n + 1) t t' → t.relStore.remoteUnacked.length ≤ 8 * (n + 1) →
        t'.untilTimerExpiry deadline now ≠ 0 := by
  refine ⟨handleTimerExpiry_returns deadline hmtu hfew, fun now n t' h hqueue => ?_⟩
  have hacks := h.acks
  cases h with
  | @succ _ w _ t₁ _ out hrest hnow hcall =>
    rw [Ne, (handleTimerExpiry_spec hnow hcall).rests]
    intro hurgent
    have hempty := hacks hurgent
    rw [List.drop_eq_nil_of_le hqueue] at hempty
    unfold ReliableStore.hasUrgentOutgoingAcks at hurgent
    rw [hempty] at hurgent
    cases hurgent

end

/-- Nine ids are queued for acknowledgement, and no keepalive was ever sent. -/
def nineQueued : TimedUdp :=
  { relStore := { remoteUnacked := (List.range 9).map fun i => ⟨UInt16.ofNat (i + 1), 0⟩ }, mtu := 1200 }

/-- A call after 60 milliseconds on a link that takes every datagram. -/
def openExpiry : ExpiryWorld :=
  ⟨fun _ => 60000000, 60000000, 60000000, fun _ _ => .sent, fun _ => .sent, fun _ => .sent, 0, fun _ => 0⟩

theorem openExpiry_at : openExpiry.At 60000000 := ⟨fun _ => rfl, rfl, rfl⟩

theorem timer_comes_to_rest_nine : ∃ t', @Expires Dbuf.little (fun _ => 1) 60000000 2 nineQueued t' ∧
    t'.untilTimerExpiry (fun _ => 1) 60000000 ≠ 0 := by
  have hfirst := @Expires.succ Dbuf.little (fun _ => 1) 60000000 0 openExpiry nineQueued nineQueued _ _
    (@Expires.zero Dbuf.little _ _ nineQueued) openExpiry_at rfl
  have hsecond := @Expires.succ Dbuf.little (fun _ => 1) 60000000 1 openExpiry nineQueued _ _ _ hfirst openExpiry_at rfl
  exact ⟨_, hsecond, (@timer_comes_to_rest Dbuf.little (fun _ => 1) nineQueued rfl
    (fun u hu => by cases hu)).2 60000000 1 _ hsecond (by decide)⟩

/-! ## A server that falls silent -/

section
variable [Dbuf]

/-- A call and its result; the transport is as before if the call does not return. -/
def expiryCall (deadline : Nat → Nat) (t : TimedUdp) (w : ExpiryWorld) : Except TransportError Unit × TimedUdp :=
  match t.handleTimerExpiry deadline w with
  | some (r, _, t') => (r, t')
  | none => (.ok (), t)

/-- Nothing waits for an acknowledgement or has to be acknowledged. -/
def Quiet (t : TimedUdp) : Prop := t.relStore.localUnacked = [] ∧ t.relStore.remoteUnacked = []

/-- The socket refuses no keepalive. -/
def ExpiryWorld.Takes (w : ExpiryWorld) : Prop := ∀ e, w.keepalive 0 ≠ .failed e

/-- The worker sleeps from `s` until the timer has expired, and handles it at most `late` afterwards, again and again;
nothing else happens. -/
def Sleeps (deadline : Nat → Nat) (late : Nat) : Nat → TimedUdp → List ExpiryWorld → Prop
  | _, _, [] => True
  | s, t, w :: ws =>
    udpSchedule.untilKeepalive w.now t.keepalive = 0 ∧ w.now ≤ s + udpSchedule.untilKeepalive s t.keepalive + late ∧
      w.Takes ∧ Sleeps deadline late w.now (expiryCall deadline t w).2 ws

theorem sendKeepalive_takes (t : TimedUdp) {w : SendWorld} (hw : ∀ e, w.link 0 ≠ .failed e) (stamp : UInt64) :
    ∃ out t', t.sendKeepalive w stamp = some (.ok (), out, t') ∧ t'.relStore = t.relStore ∧
      t'.keepalive = t.keepalive.onSend w.now (.keepalive ⟨stamp⟩) := by
  unfold sendKeepalive UdpTransport.sendControl
  dsimp only
  split
  · next hnone => cases hnone
  · cases hl : w.link 0 with
    | failed e => exact absurd hl (hw e)
    | _ => exact ⟨_, _, rfl, rfl, rfl⟩

/-- A quiet transport only sends a keepalive, as a stream transport does. -/
theorem expiryCall_quiet (deadline : Nat → Nat) {t : TimedUdp} (hquiet : t.Quiet) {w : ExpiryWorld} (hw : w.Takes)
    (hdue : udpSchedule.untilKeepalive w.now t.keepalive = 0) :
    (expiryCall deadline t w).1 = (t.keepalive.streamTimer w.now (.ok ())).1 ∧
      (expiryCall deadline t w).2.keepalive = (t.keepalive.streamTimer w.now (.ok ())).2 ∧
      (expiryCall deadline t w).2.Quiet := by
  obtain ⟨hlocal, hremote⟩ := hquiet
  unfold expiryCall handleTimerExpiry KeepaliveState.streamTimer
  cases hbase : t.keepalive.handleTimerExpiry with
  | error e => exact ⟨rfl, rfl, hlocal, hremote⟩
  | ok _ =>
    have hnone : ∀ w : Nat → SendWorld, retransmitAll deadline w (10 * t.relStore.localUnacked.length + 1) 0 t =
        some (.ok (), [], t) := by
      intro w
      unfold retransmitAll ReliableStore.maybeRetransmit
      rw [hlocal]
      dsimp only [ReliableStore.retransmitScan]
      rw [← hlocal]
    have hcalm : ∀ w : SendWorld, t.sendUrgentAcks w = some (.ok (), [], t) := by
      intro w
      unfold sendUrgentAcks ReliableStore.hasUrgentOutgoingAcks
      rw [hremote]
      rfl
    dsimp only
    rw [hnone]
    unfold SendOutcome.andThen
    dsimp only
    rw [hcalm]
    dsimp only
    rw [if_pos hdue]
    obtain ⟨out, t', hsend, hstore, hkeepalive⟩ := t.sendKeepalive_takes (w := ⟨w.now, w.keepalive, w.random⟩) hw w.stamp
    rw [hsend]
    refine ⟨rfl, hkeepalive, ?_, ?_⟩
    · rw [← hlocal, ← hstore]
      rfl
    · rw [← hremote, ← hstore]
      rfl

/-- A run of a quiet transport is one of its keepalives. -/
theorem Sleeps.keepalive {deadline : Nat → Nat} {late s : Nat} {t : TimedUdp} {ws : List ExpiryWorld}
    (h : Sleeps deadline late s t ws) (hquiet : t.Quiet) :
    Qunet.Sleeps udpSchedule late s t.keepalive (ws.map fun w => (w.now, .ok ())) ∧
      (runMachine (expiryCall deadline) t ws).1 =
        (runMachine streamCall t.keepalive (timerCalls (ws.map fun w => (w.now, .ok ())))).1 := by
  induction ws generalizing s t with
  | nil => exact ⟨trivial, rfl⟩
  | cons w ws ih =>
    obtain ⟨hdue, htime, hw, hrest⟩ := h
    obtain ⟨hres, hkeepalive, hquiet'⟩ := expiryCall_quiet deadline hquiet hw hdue
    obtain ⟨hsleeps, hruns⟩ := ih hrest hquiet'
    rw [hkeepalive] at hsleeps hruns
    refine ⟨⟨htime, hsleeps⟩, ?_⟩
    rw [runMachine_cons, hruns, hres]
    rfl

/-- **A silent server is detected** by a UDP transport on which nothing else happens: the timer gives up at the call at
which six keepalives are unanswered, not before, and at most 42 seconds after the last event, plus what the worker was
late. -/
theorem silent_server_detected_udp (deadline : Nat → Nat) (late s : Nat) (t : TimedUdp) (hquiet : t.Quiet)
    (ws : List ExpiryWorld) (h : Sleeps deadline late s t ws) (hlen : ws.length = 7) :
    ∃ (i : Nat) (w : ExpiryWorld), i = 6 - t.unackedKeepalives ∧ ws[i]? = some w ∧
      (runMachine (expiryCall deadline) t ws).1[i]? = some (.error (.custom .timedOut)) ∧
      (∀ j < i, (runMachine (expiryCall deadline) t ws).1[j]? = some (.ok ())) ∧
      w.now ≤ s + fromSecs 42 + 7 * late := by
  obtain ⟨hsleeps, hruns⟩ := h.keepalive hquiet
  have hw : udpSchedule.Within (fromSecs 30) := ⟨by decide, by decide, by decide⟩
  have hwait := KeepaliveSchedule.untilKeepalive_le hw s t.keepalive
  have hcall : ∀ i (hi : i < ws.length),
      (ws.map fun w => (w.now, (Except.ok () : Except TransportError Unit)))[i]? = some (ws[i].now, .ok ()) := by
    intro i hi
    rw [List.getElem?_map, List.getElem?_eq_getElem hi]
    rfl
  have hlt : 6 - t.unackedKeepalives < ws.length := by omega
  obtain ⟨htime, hmany, -⟩ := hsleeps.calls hwait (hcall _ hlt)
  have hunacked : t.keepalive.unackedKeepalives = t.unackedKeepalives := rfl
  rw [hruns]
  refine ⟨6 - t.unackedKeepalives, ws[6 - t.unackedKeepalives], rfl, List.getElem?_eq_getElem hlt,
    hmany (by omega), fun j hj => ?_, ?_⟩
  · obtain ⟨-, -, hfew⟩ := hsleeps.calls hwait (hcall j (by omega))
    exact hfew (by omega)
  · have hmul : (6 - t.unackedKeepalives) * (udpSchedule.unacked + late) ≤ 6 * (udpSchedule.unacked + late) :=
      Nat.mul_le_mul_right _ (Nat.sub_le _ _)
    have hunit : udpSchedule.unacked = fromSecs 2 := rfl
    rw [hunit] at hmul htime
    unfold fromSecs at *
    omega

end

/-- A call after `s` seconds on a link that loses every datagram. -/
def lostExpiry (s : Nat) : ExpiryWorld :=
  ⟨fun _ => fromSecs s, fromSecs s, fromSecs s, fun _ _ => .lost, fun _ => .lost, fun _ => .lost, 0, fun _ => 0⟩

theorem silent_server_detected_udp_fresh :
    let ws := (List.range 7).map fun i => lostExpiry (2 * i)
    ∃ (i : Nat) (w : ExpiryWorld), i = 6 - 0 ∧ ws[i]? = some w ∧
      (runMachine (@expiryCall Dbuf.little fun _ => 1) {} ws).1[i]? = some (.error (.custom .timedOut)) ∧
      (∀ j < i, (runMachine (@expiryCall Dbuf.little fun _ => 1) {} ws).1[j]? = some (.ok ())) ∧
      w.now ≤ 0 + fromSecs 42 + 7 * 0 := by
  have htakes : ∀ s, (lostExpiry s).Takes := fun s e h => by cases h
  refine @silent_server_detected_udp Dbuf.little (fun _ => 1) 0 0 {} ⟨rfl, rfl⟩ _ ?_ rfl
  exact ⟨rfl, by decide, htakes _, rfl, by decide, htakes _, rfl, by decide, htakes _, rfl, by decide, htakes _, rfl,
    by decide, htakes _, rfl, by decide, htakes _, rfl, by decide, htakes _, trivial⟩

end TimedUdp

end Qunet
