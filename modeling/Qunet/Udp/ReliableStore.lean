import Qunet.Transport.Error
import Mathlib.Data.List.Basic
import Mathlib.Tactic.Common

/-!
# The reliable store (`transport/udp/ReliableStore.cpp`)

The state of one side of a reliable channel and its operations, under the source's names. Instants are numbers of
nanoseconds, and the clock is read once for each call. The retransmission deadlines are floating-point numbers in the
source and a parameter here.
-/

namespace Qunet
open Lib

structure UnackedRemoteMessage where
  messageId : UInt16
  receivedAt : Nat
  deriving DecidableEq

/-- A data message with its reliability header: what `pushLocalUnacked` asserts. -/
structure ReliableData extends DataMessage where
  header : ReliabilityHeader
  has_header : relHeader = some header
  deriving DecidableEq

structure UnackedLocalMessage where
  messageId : UInt16
  msg : ReliableData
  sentAt : Nat
  retransmitAttempts : Nat := 0
  deriving DecidableEq

structure StoredOutOfOrderMessage where
  message : ReliableMeta
  receivedAt : Nat
  deriving DecidableEq

structure ReliableStore where
  remoteUnacked : List UnackedRemoteMessage := []
  remoteOutOfOrder : List StoredOutOfOrderMessage := []
  remoteDelayedQueue : List ReliableMeta := []
  nextRemoteId : UInt16 := 1
  nextLocalId : UInt16 := 1
  localUnacked : List UnackedLocalMessage := []
  avgRttMicros : UInt64 := 0
  deriving DecidableEq

/-- The id of a reliable message. -/
abbrev messageIdOf (m : ReliableMeta) : UInt16 := m.header.messageId

abbrev StoredOutOfOrderMessage.id (e : StoredOutOfOrderMessage) : UInt16 := messageIdOf e.message

/-- `id++`, skipping 0 at the wraparound. -/
def succId (id : UInt16) : UInt16 := if id + 1 = 0 then 1 else id + 1

/-! ## Acknowledgements from the other side -/

/-- The indices of `acks` that `processAcks` and `countRelStats` visit: `i < header.ackCount`. -/
def ReliabilityHeader.ackIndices (h : ReliabilityHeader) : List Nat := List.range h.ackCount

/-- `header.acks[i]`; behind the array lies whatever memory holds there. -/
def ReliabilityHeader.ackAt (past : Nat → UInt16) (h : ReliabilityHeader) (i : Nat) : UInt16 :=
  if hi : i < 8 then h.acks[i] else past i

namespace ReliableStore

def ackLocal (s : ReliableStore) (messageId : UInt16) : ReliableStore :=
  { s with localUnacked := s.localUnacked.eraseP fun m => m.messageId = messageId }

def processAcks (past : Nat → UInt16) (s : ReliableStore) (h : ReliabilityHeader) : ReliableStore :=
  h.ackIndices.foldl (fun s i => s.ackLocal (h.ackAt past i)) s

/-! ## Messages from the other side -/

/-- `restore` is the call of `maybeRestoreRemote` at the end. -/
def pushRemoteUnackedWithId (restore : ReliableStore → ReliableStore) (now : Nat) (s : ReliableStore)
    (messageId : UInt16) (dupe : Bool) : ReliableStore :=
  if dupe ∧ ∃ msg ∈ s.remoteUnacked, msg.messageId = messageId then s
  else restore { s with remoteUnacked := s.remoteUnacked ++ [⟨messageId, now⟩] }

def pushRemoteUnackedThen (restore : ReliableStore → ReliableStore) (now : Nat) (s : ReliableStore) : ReliableStore :=
  pushRemoteUnackedWithId restore now { s with nextRemoteId := succId s.nextRemoteId } s.nextRemoteId false

/-- The mutual recursion `maybeRestoreRemote` → `pushRemoteUnacked` → `maybeRestoreRemote`. Every round takes one
message out of the out-of-order list, so its length bounds the rounds. -/
def maybeRestoreRemote (now : Nat) : Nat → ReliableStore → ReliableStore
  | 0, s => s
  | rounds + 1, s =>
    match s.remoteOutOfOrder.find? fun e => e.id = s.nextRemoteId with
    | none => s
    | some e =>
      pushRemoteUnackedThen (maybeRestoreRemote now rounds) now
        { s with remoteDelayedQueue := s.remoteDelayedQueue ++ [e.message]
                 remoteOutOfOrder := s.remoteOutOfOrder.eraseP fun e => e.id = s.nextRemoteId }

/-- `pushRemoteUnacked` and everything it restores. -/
def pushRemoteUnacked (now : Nat) (s : ReliableStore) : ReliableStore :=
  pushRemoteUnackedThen (maybeRestoreRemote now s.remoteOutOfOrder.length) now s

def pushRemoteDuplicate (now : Nat) (s : ReliableStore) (messageId : UInt16) : ReliableStore :=
  pushRemoteUnackedWithId (maybeRestoreRemote now s.remoteOutOfOrder.length) now s messageId true

def storeRemoteOutOfOrder (now : Nat) (s : ReliableStore) (m : ReliableMeta) :
    Except TransportError Unit × ReliableStore :=
  if s.remoteOutOfOrder.length ≥ 32 then (.error (.custom .tooUnreliable), s)
  else if ∃ e ∈ s.remoteOutOfOrder, e.id = messageIdOf m then (.ok (), s)
  else (.ok (), { s with remoteOutOfOrder := s.remoteOutOfOrder ++ [⟨m, now⟩] })

/-- A message is a duplicate if its id is less than the next expected one and the distance is small enough. -/
def isDuplicate (s : ReliableStore) (id : UInt16) : Prop :=
  id < s.nextRemoteId ∧ s.nextRemoteId.toNat - id.toNat < 16384

instance (s : ReliableStore) (id : UInt16) : Decidable (s.isDuplicate id) := inferInstanceAs (Decidable (_ ∧ _))

def handleIncoming (past : Nat → UInt16) (now : Nat) (s : ReliableStore) (m : ReliableMeta) :
    Except TransportError Bool × ReliableStore :=
  let s := s.processAcks past m.header
  let id := m.header.messageId
  if id = 0 then (.ok true, s)
  else if s.isDuplicate id then (.ok false, s.pushRemoteDuplicate now id)
  else if id ≠ s.nextRemoteId then
    match s.storeRemoteOutOfOrder now m with
    | (.error e, s) => (.error e, s)
    | (.ok (), s) => (.ok false, s)
  else (.ok true, s.pushRemoteUnacked now)

def popDelayedMessage (s : ReliableStore) : Option ReliableMeta × ReliableStore :=
  match s.remoteDelayedQueue with
  | [] => (none, s)
  | m :: rest => (some m, { s with remoteDelayedQueue := rest })

/-! ## Outgoing messages -/

def nextMessageId (s : ReliableStore) : UInt16 × ReliableStore :=
  (s.nextLocalId, { s with nextLocalId := succId s.nextLocalId })

/-- The loop `for (i = 0; i < 8; i++)` of `setOutgoingAcks`, from the given indices on. -/
def setOutgoingAcksLoop : List Nat → ReliabilityHeader → ReliableStore → ReliabilityHeader × ReliableStore
  | [], h, s => (h, s)
  | i :: is, h, s =>
    match s.remoteUnacked with
    | [] => (h, s)
    | msg :: rest =>
      setOutgoingAcksLoop is { h with acks := h.acks.setIfInBounds i msg.messageId, ackCount := h.ackCount + 1 }
        { s with remoteUnacked := rest }

def setOutgoingAcks (s : ReliableStore) (h : ReliabilityHeader) : ReliabilityHeader × ReliableStore :=
  setOutgoingAcksLoop (List.range 8) { h with ackCount := 0 } s

def pushLocalUnacked (now : Nat) (s : ReliableStore) (msg : ReliableData) :
    Except TransportError Unit × ReliableStore :=
  if s.localUnacked.length ≥ 64 then (.error (.custom .tooUnreliable), s)
  else (.ok (), { s with localUnacked := s.localUnacked ++ [⟨msg.header.messageId, msg, now, 0⟩] })

/-- The scan of `maybeRetransmit`; `deadline n` is `calcRetransmissionDeadline(n)`, a floating-point computation. -/
def retransmitScan (deadline : Nat → Nat) (now : Nat) :
    List UnackedLocalMessage → Except TransportError (Option ReliableData) × List UnackedLocalMessage
  | [] => (.ok none, [])
  | msg :: rest =>
    if now - msg.sentAt ≥ deadline msg.retransmitAttempts then
      let msg' := { msg with sentAt := now, retransmitAttempts := msg.retransmitAttempts + 1 }
      if msg.retransmitAttempts ≥ 10 then (.error (.custom .tooUnreliable), msg' :: rest)
      else (.ok (some msg.msg), msg' :: rest)
    else ((retransmitScan deadline now rest).1, msg :: (retransmitScan deadline now rest).2)

def maybeRetransmit (deadline : Nat → Nat) (now : Nat) (s : ReliableStore) :
    Except TransportError (Option ReliableData) × ReliableStore :=
  let r := retransmitScan deadline now s.localUnacked
  (r.1, { s with localUnacked := r.2 })

/-- 50 milliseconds. -/
def calcAckDeadline : Nat := 50 * 1000000

def hasUrgentOutgoingAcks (now : Nat) (s : ReliableStore) : Bool :=
  s.remoteUnacked.any fun msg => now - msg.receivedAt ≥ calcAckDeadline

def updateRtt (s : ReliableStore) (rttMicros : UInt64) : ReliableStore := { s with avgRttMicros := rttMicros }

end ReliableStore

end Qunet
