import Qunet.Connection.State
import Qunet.Udp.Sending

/-!
# The pinger (`Pinger.cpp`)

* `pingMessage`, `thrParsePingResponse` : what is sent, and what is read from an answer;
* `Pinger` : the pings without an answer, and the cache;
* `thrDoPing`, `thrDispatchResult`, `thrRemoveTimedOutPings` : what becomes of a request, of an answer, and of pings
  without one;
* `PingerEvent`, `pingerStep` : a round of `workerLoop`, or a cache entry that vanishes;
* `removeTimedOut_invariant`, `thrRemoveTimedOutPings_outgoing`, `thrRemoveTimedOutPings_called` : the loop that erases
  while it iterates.
-/

namespace Qunet
open Lib

/-! ## Addresses -/

structure SocketAddressV6 where
  address : Vector UInt8 16
  port : UInt16
  deriving DecidableEq

/-- `::ffff:a.b.c.d`. -/
def fromIpv4Mapped (bits : UInt32) : Vector UInt8 16 :=
  #v[0, 0, 0, 0, 0, 0, 0, 0, 0, 0, 0xff, 0xff, (bits >>> 24).toUInt8, (bits >>> 16).toUInt8, (bits >>> 8).toUInt8,
    bits.toUInt8]

/-- IPv6 mapped addresses are stored in the cache, since that is what `recvFrom` may return. -/
def toV6 (addr : SocketAddress) : SocketAddressV6 :=
  match addr.ip with
  | .v4 bits => ⟨fromIpv4Mapped bits, addr.port⟩
  | .v6 octets => ⟨octets, addr.port⟩

/-! ## Messages -/

/-- `PingResult` with the fields that a connection does not look at. -/
structure PingerResult extends PingResult where
  pingId : UInt32
  extraData : Bytes := []
  deriving DecidableEq

inductive PongError where
  | invalidCode (code : UInt8)
  | invalidData
  deriving DecidableEq

section
variable [Dbuf]

/-- A ping; the flag says that the protocols are known. -/
def pingMessage (pingId : UInt32) (cached : Bool) : Bytes :=
  msgPing :: Dbuf.u32.write pingId ++ [if cached then 1 else 0]

def readProtocols : Nat → DecodeReader (List SupportedProtocol)
  | 0 => return []
  | n + 1 => do
    let protocolId ← readU8
    let port ← readU16
    return ⟨protocolId, port⟩ :: (← readProtocols n)

def readPong : DecodeReader PingerResult := do
  let pingId ← readU32
  let protocolCount ← readU8
  let protocols ← readProtocols protocolCount.toNat
  let extraDataSize ← readU16
  let extraData ← if 0 < extraDataSize then readBytes extraDataSize.toNat else pure []
  return { responseTime := 0, protocols, pingId, extraData }

/-- Whatever follows the extra data is not looked at. -/
def thrParsePingResponse (data : Bytes) : Except PongError PingerResult :=
  let code := data.headD 0
  if code ≠ msgPong then .error (.invalidCode code)
  else match readPong data.tail with
    | .error _ => .error .invalidData
    | .ok (result, _) => .ok result

end

/-! ## The state -/

/-- 1500 ms. -/
def pingTimeout : Nat := 1500000000

structure OutgoingPing where
  sentAt : Nat
  /-- the number of the request whose callback this is -/
  callback : Nat
  pingId : UInt32
  deriving DecidableEq

structure CachedPing where
  responseTime : Nat
  protocols : List SupportedProtocol
  deriving DecidableEq

structure Pinger where
  /-- `m_socket` has a value. -/
  socket : Bool := false
  outgoingPings : List OutgoingPing := []
  nextPingId : UInt32 := 0
  cache : SocketAddressV6 → Option CachedPing := fun _ => none
  /-- how many requests have been taken from the channel -/
  taken : Nat := 0
  /-- the callbacks that have been invoked, newest first -/
  called : List (Nat × PingerResult) := []
  /-- the datagrams that were passed to `sendTo`, newest first -/
  sent : List (SocketAddress × Bytes) := []

namespace Pinger

/-- `callback(result)`. -/
def invoke (callback : Nat) (result : PingerResult) (p : Pinger) : Pinger :=
  { p with called := (callback, result) :: p.called }

def getCached (address : SocketAddress) (p : Pinger) : Option PingResult :=
  (p.cache (toV6 address)).map fun entry => { responseTime := entry.responseTime, protocols := entry.protocols }

def isCached (address : SocketAddress) (p : Pinger) : Bool := (p.getCached address).isSome

section
variable [Dbuf]

/-- The next request; `sendTo` takes the datagram or refuses it. -/
def thrDoPing (address : SocketAddress) (random : Nat → UInt8) (accepted : Bool) (now : Nat) (p : Pinger) : Pinger :=
  let callback := p.taken
  let pingId := p.nextPingId + 1
  let written := padMessageToMinimum ⟨now, fun _ => .sent, random⟩ (pingMessage pingId (p.isCached address))
  let p := { p with nextPingId := pingId, taken := p.taken + 1, sent := (address, written) :: p.sent }
  if accepted then { p with outgoingPings := p.outgoingPings ++ [⟨now, callback, pingId⟩] }
  else p.invoke callback { responseTime := 0, protocols := [], errored := true, pingId }

end

/-- The protocols of a pong, or else the cached ones. -/
def resultProtocols (protocols : List SupportedProtocol) (cacheEntry : Option CachedPing) : List SupportedProtocol :=
  if protocols.isEmpty then cacheEntry.elim protocols (·.protocols) else protocols

def thrDispatchResult (result : PingerResult) (address : SocketAddress) (now : Nat) (p : Pinger) : Pinger :=
  match p.outgoingPings.find? (·.pingId == result.pingId) with
  | none => p
  | some ping =>
    let responseTime := now - ping.sentAt
    let v6 := toV6 address
    let protocols := resultProtocols result.protocols (p.cache v6)
    -- an entry is created or updated
    let cache := Function.update p.cache v6 (some ⟨responseTime, protocols⟩)
    let p := { p with cache }.invoke ping.callback { result with responseTime, protocols }
    { p with outgoingPings := p.outgoingPings.eraseP (·.pingId == result.pingId) }

/-- The `i`-th ping, which is `ping`, has timed out. -/
def timeOut (i : Nat) (ping : OutgoingPing) (p : Pinger) : Pinger :=
  let p := p.invoke ping.callback { responseTime := 0, protocols := [], timedOut := true, pingId := ping.pingId }
  { p with outgoingPings := p.outgoingPings.eraseIdx i }

def timedOut (now : Nat) (ping : OutgoingPing) : Bool := pingTimeout < now - ping.sentAt

/-- The loop of `thrRemoveTimedOutPings`, from the index `i` on. -/
def removeTimedOut (now i : Nat) (p : Pinger) : Pinger :=
  if h : i < p.outgoingPings.length then
    let ping := p.outgoingPings[i]
    if timedOut now ping then removeTimedOut now i (p.timeOut i ping) else removeTimedOut now (i + 1) p
  else p
termination_by p.outgoingPings.length - i
decreasing_by
  · simp [timeOut, invoke, List.length_eraseIdx, h]
    omega
  · omega

def thrRemoveTimedOutPings (now : Nat) (p : Pinger) : Pinger := p.removeTimedOut now 0

/-- The earliest time at which a ping times out; without pings there is none. -/
def nextTimeout (p : Pinger) : Option Nat := (p.outgoingPings.map (·.sentAt + pingTimeout)).min?

end Pinger

/-! ## Rounds of the loop -/

inductive RecvError where
  | connectionReset | other

/-- What a round of `workerLoop` does, and what happens to the cache in between. -/
inductive PingerEvent where
  /-- `bindAny` in `recreateSocket` -/
  | bindAny (bound : Bool)
  | requested (address : SocketAddress) (random : Nat → UInt8) (accepted : Bool) (now : Nat)
  /-- The channel is closed. -/
  | closed
  /-- `recvFrom`, into 256 bytes -/
  | received (r : Except RecvError (Bytes × SocketAddress)) (now : Nat)
  | sleptUntil (now : Nat)
  /-- An entry expires, or makes way for another one. -/
  | evicted (address : SocketAddressV6)

/-- The handler of a pong. -/
def Pinger.onReceived [Dbuf] (data : Bytes) (src : SocketAddress) (now : Nat) (p : Pinger) : Pinger :=
  match thrParsePingResponse data with
  | .error _ => p
  | .ok result => p.thrDispatchResult result src now

namespace Pinger

/-- Without a socket the worker makes one, and with one it waits for one of the others. -/
def ready (p : Pinger) : PingerEvent → Bool
  | .bindAny _ => !p.socket
  | .received (.ok (data, _)) _ => p.socket && data.length ≤ 256
  | .sleptUntil now => p.socket && p.nextTimeout.any (· ≤ now)
  | .evicted _ => true
  | _ => p.socket

def round [Dbuf] (p : Pinger) : PingerEvent → Pinger
  | .bindAny bound => { p with socket := bound }
  | .requested address random accepted now => p.thrDoPing address random accepted now
  | .closed => p
  -- Windows reports a failed `sendTo` this way
  | .received (.error .connectionReset) _ => p
  | .received (.error .other) _ => { p with socket := false }
  | .received (.ok (data, src)) now => p.onReceived data src now
  | .sleptUntil now => p.thrRemoveTimedOutPings now
  | .evicted address => { p with cache := Function.update p.cache address none }

end Pinger

def pingerStep [Dbuf] (p : Pinger) (e : PingerEvent) : Option Pinger := if p.ready e then some (p.round e) else none

theorem pingerStep_eq_some [Dbuf] {p p' : Pinger} {e : PingerEvent} (h : pingerStep p e = some p') : p' = p.round e :=
  (Option.some.inj (Option.ite_none_right_eq_some.mp h).2).symm

/-! ## The loop over the pings -/

section
variable {now : Nat}

/-- What each call of the loop keeps, the loop keeps. -/
theorem removeTimedOut_invariant (Inv : Pinger → Prop)
    (hstep : ∀ p i ping, p.outgoingPings[i]? = some ping → Inv p → Inv (p.timeOut i ping)) {i : Nat} {p : Pinger}
    (h : Inv p) : Inv (p.removeTimedOut now i) := by
  fun_induction Pinger.removeTimedOut now i p with
  | case1 i p hi ping hlate ih => exact ih (hstep p i ping (List.getElem?_eq_getElem hi) h)
  | case2 i p hi ping hlate ih => exact ih h
  | case3 => exact h

theorem removeTimedOut_outgoing (i : Nat) (p : Pinger) :
    (p.removeTimedOut now i).outgoingPings =
      p.outgoingPings.take i ++ (p.outgoingPings.drop i).filter fun ping => !Pinger.timedOut now ping := by
  fun_induction Pinger.removeTimedOut now i p with
  | case1 i p hi ping hlate ih =>
    have hdrop : p.outgoingPings.drop i = ping :: p.outgoingPings.drop (i + 1) := List.drop_eq_getElem_cons hi
    have herase : (p.timeOut i ping).outgoingPings = p.outgoingPings.take i ++ p.outgoingPings.drop (i + 1) :=
      List.eraseIdx_eq_take_drop_succ p.outgoingPings i
    have hlength : (p.outgoingPings.take i).length = i := List.length_take_of_le hi.le
    rw [ih, herase, List.take_left' hlength, List.drop_left' hlength, hdrop,
      List.filter_cons_of_neg (by simpa using hlate)]
  | case2 i p hi ping hlate ih =>
    have hdrop : p.outgoingPings.drop i = ping :: p.outgoingPings.drop (i + 1) := List.drop_eq_getElem_cons hi
    have htake : p.outgoingPings.take (i + 1) = p.outgoingPings.take i ++ [ping] := (List.take_concat_get' _ i hi).symm
    rw [ih, hdrop, htake, List.filter_cons_of_pos (by simpa using hlate), List.append_assoc]
    rfl
  | case3 i p hi =>
    have hle : p.outgoingPings.length ≤ i := not_lt.mp hi
    rw [List.take_of_length_le hle, List.drop_eq_nil_of_le hle, List.filter_nil, List.append_nil]

/-- The pings that are left are those that have not timed out, in the same order. -/
theorem thrRemoveTimedOutPings_outgoing (p : Pinger) :
    (p.thrRemoveTimedOutPings now).outgoingPings = p.outgoingPings.filter fun ping => !Pinger.timedOut now ping := by
  unfold Pinger.thrRemoveTimedOutPings
  rw [removeTimedOut_outgoing, List.take_zero, List.drop_zero, List.nil_append]

theorem removeTimedOut_called (i : Nat) (p : Pinger) :
    (p.removeTimedOut now i).called = (((p.outgoingPings.drop i).filter (Pinger.timedOut now)).map fun ping =>
      (ping.callback, { responseTime := 0, protocols := [], timedOut := true, pingId := ping.pingId })).reverse ++
        p.called := by
  fun_induction Pinger.removeTimedOut now i p with
  | case1 i p hi ping hlate ih =>
    have hdrop : p.outgoingPings.drop i = ping :: p.outgoingPings.drop (i + 1) := List.drop_eq_getElem_cons hi
    have herase : (p.timeOut i ping).outgoingPings = p.outgoingPings.take i ++ p.outgoingPings.drop (i + 1) :=
      List.eraseIdx_eq_take_drop_succ p.outgoingPings i
    have hlength : (p.outgoingPings.take i).length = i := List.length_take_of_le hi.le
    rw [ih, herase, List.drop_left' hlength, hdrop, List.filter_cons_of_pos hlate, List.map_cons, List.reverse_cons,
      List.append_assoc]
    rfl
  | case2 i p hi ping hlate ih =>
    have hdrop : p.outgoingPings.drop i = ping :: p.outgoingPings.drop (i + 1) := List.drop_eq_getElem_cons hi
    rw [ih, hdrop, List.filter_cons_of_neg hlate]
  | case3 i p hi => rw [List.drop_eq_nil_of_le (not_lt.mp hi), List.filter_nil, List.map_nil, List.reverse_nil,
      List.nil_append]

/-- Those that have timed out are called back, each once, in their order. -/
theorem thrRemoveTimedOutPings_called (p : Pinger) :
    (p.thrRemoveTimedOutPings now).called = ((p.outgoingPings.filter (Pinger.timedOut now)).map fun ping =>
      (ping.callback, { responseTime := 0, protocols := [], timedOut := true, pingId := ping.pingId })).reverse ++
        p.called := by
  unfold Pinger.thrRemoveTimedOutPings
  rw [removeTimedOut_called, List.drop_zero]

end

def pingedAddress : SocketAddress := ⟨.v4 1, 4340⟩

end Qunet
