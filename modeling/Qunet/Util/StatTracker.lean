import Qunet.Udp.ReliableStore
import Mathlib.Data.List.AList

/-!
# Statistics (`util/StatTracker.cpp`)

The recorded packets and messages, and `countRelStats`, which matches the acknowledgements of incoming messages with
the outgoing reliable messages. Instants are numbers of nanoseconds.
-/

namespace Qunet
open Lib

structure StatPacket where
  timestamp : Nat
  bytes : Nat
  up : Bool
  deriving DecidableEq

structure StatMessage where
  timestamp : Nat
  bytes : Nat
  up : Bool
  compressedBytes : Option Nat := none
  relHeader : Option ReliabilityHeader := none
  deriving DecidableEq

structure StatTracker where
  packets : List StatPacket := []
  messages : List StatMessage := []
  enabled : Bool := true
  deriving DecidableEq

/-- What `countRelStats` fills in of a snapshot. -/
structure RelStats where
  upRetransmissions : Nat := 0
  upUnacked : Nat := 0
  downUnknownAcks : Nat := 0
  minAckDelay : Nat := 0
  maxAckDelay : Nat := 0
  avgAckDelay : Nat := 0
  deriving DecidableEq

/-- The ids sent so far, and for each id when it was sent and when it was acknowledged. -/
structure AckTimes where
  outIds : List UInt16 := []
  acks : AList fun _ : UInt16 => Option Nat × Option Nat := ∅
  upRetransmissions : Nat := 0

namespace AckTimes

/-- `acks[id]`, which is a pair of nothings when it is new. -/
def timesOf (t : AckTimes) (id : UInt16) : Option Nat × Option Nat := (t.acks.lookup id).getD (none, none)

/-- An outgoing reliable message. -/
def sent (timestamp : Nat) (id : UInt16) (t : AckTimes) : AckTimes :=
  if id ∈ t.outIds then { t with upRetransmissions := t.upRetransmissions + 1 }
  else { t with outIds := id :: t.outIds, acks := t.acks.insert id (some timestamp, (t.timesOf id).2) }

/-- An acknowledgement of one of our messages. -/
def acked (timestamp : Nat) (t : AckTimes) (id : UInt16) : AckTimes :=
  { t with acks := t.acks.insert id ((t.timesOf id).1, (t.timesOf id).2.or (some timestamp)) }

end AckTimes

namespace StatTracker

def onPacket (up : Bool) (now bytes : Nat) (t : StatTracker) : StatTracker :=
  if !t.enabled then t else { t with packets := t.packets ++ [⟨now, bytes, up⟩] }

def onUpPacket (now bytes : Nat) (t : StatTracker) : StatTracker := t.onPacket true now bytes

def onDownPacket (now bytes : Nat) (t : StatTracker) : StatTracker := t.onPacket false now bytes

def onMessage (up : Bool) (now bytes : Nat) (compressedBytes : Option Nat) (relHeader : Option ReliabilityHeader)
    (t : StatTracker) : StatTracker :=
  if !t.enabled then t else { t with messages := t.messages ++ [⟨now, bytes, up, compressedBytes, relHeader⟩] }

def onDownMessage (now bytes : Nat) (compressedBytes : Option Nat) (relHeader : Option ReliabilityHeader)
    (t : StatTracker) : StatTracker := t.onMessage false now bytes compressedBytes relHeader

/-- The indices of `hdr.acks` that `countRelStats` visits in one message. -/
def ackIndicesOf (msg : StatMessage) : List Nat :=
  match msg.up, msg.relHeader with
  | false, some hdr => hdr.ackIndices
  | _, _ => []

/-- The first loop of `countRelStats`, on one message. -/
def countMessage (past : Nat → UInt16) (t : AckTimes) (msg : StatMessage) : AckTimes :=
  match msg.relHeader with
  | none => t
  | some hdr =>
    let t := if msg.up ∧ hdr.messageId ≠ 0 then t.sent msg.timestamp hdr.messageId else t
    (ackIndicesOf msg).foldl (fun t i => t.acked msg.timestamp (hdr.ackAt past i)) t

/-- The time between sending and acknowledgement, when both are known. -/
def ackDelay (p : Option Nat × Option Nat) : Option Nat :=
  match p with
  | (some msgAt, some ackAt) => some (ackAt - msgAt)
  | _ => none

def countRelStats (past : Nat → UInt16) (messages : List StatMessage) : RelStats :=
  let t := messages.foldl (countMessage past) {}
  let times := t.acks.entries.map (·.2)
  let delays := times.filterMap ackDelay
  { upRetransmissions := t.upRetransmissions
    upUnacked := times.countP fun p => p.1.isSome && p.2.isNone
    downUnknownAcks := times.countP fun p => p.1.isNone
    minAckDelay := delays.min?.getD 0
    maxAckDelay := delays.max?.getD 0
    avgAckDelay := delays.sum / delays.length }

/-- Every index of an ack array that a snapshot visits. -/
def ackAccesses (t : StatTracker) : List Nat := t.messages.flatMap ackIndicesOf

end StatTracker

end Qunet
