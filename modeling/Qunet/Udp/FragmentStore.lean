import Qunet.Transport.Error
import Qunet.Lib.Pieces
import Mathlib.Data.List.AList

/-!
# The fragment store (`transport/udp/FragmentStore.cpp`)

The partial messages are an association list with distinct keys. The source keeps them in an `unordered_map`, whose
iteration order is unspecified: each call of `processFragment` takes a `Traversal` of the entries. Instants are numbers
of nanoseconds, and the clock is read once for each call.
-/

namespace Qunet
open Lib

structure Fragment where
  index : UInt16
  data : Bytes
  deriving DecidableEq

/-- A message of which some fragments have arrived; `totalFragmentCount` is `size_t(-1)` while it is unknown. -/
structure PartialMessage where
  messageId : UInt16 := 0
  receivedAt : Nat := 0
  totalFragmentCount : Nat := sizeMax
  fragments : List Fragment := []
  compressionHeader : Option DecodedCompression := none
  reliabilityHeader : Option ReliabilityHeader := none
  deriving DecidableEq

abbrev PartialMessages := AList fun _ : UInt16 => PartialMessage

structure FragmentStore where
  messages : PartialMessages := ∅
  nextId : UInt16 := 1

/-- The order in which an iteration over the map visits its entries. -/
structure Traversal where
  visit : List (Sigma fun _ : UInt16 => PartialMessage) → List (Sigma fun _ : UInt16 => PartialMessage)
  perm : ∀ l, (visit l).Perm l

/-- The entries as they are listed. -/
def Traversal.listed : Traversal := ⟨id, fun _ => .refl _⟩

/-- 10 seconds. -/
def fragmentExpiry : Nat := 10 * 1000000000

/-- The check for skipped indices: `fragment.index != expectedIndex` fails. -/
def contiguousFrom : Nat → List Fragment → Bool
  | _, [] => true
  | expectedIndex, f :: rest => if f.index.toNat ≠ expectedIndex then false else contiguousFrom (expectedIndex + 1) rest

/-- The fragments have distinct indices, so that any sorting algorithm gives the same list. -/
def PartialMessage.sorted (msg : PartialMessage) : List Fragment := inOrder (·.index.toNat) msg.fragments

/-- The fields of the result that the source does not name are zero: `QunetMessageMeta out{}`. -/
def PartialMessage.reassemble (msg : PartialMessage) : Except TransportError QunetMessageMeta :=
  if contiguousFrom 0 msg.sorted then
    .ok { type := 0, compressionHeader := msg.compressionHeader, reliabilityHeader := msg.reliabilityHeader,
          fragmentationHeader := none, data := msg.sorted.flatMap (·.data), dataOffset := 0 }
  else .error (.custom .defragmentationError)

/-- All fragments have arrived. -/
def PartialMessage.Complete (msg : PartialMessage) : Prop := msg.totalFragmentCount = msg.fragments.length

instance (msg : PartialMessage) : Decidable msg.Complete := inferInstanceAs (Decidable (_ = _))

/-- A new fragment and the headers it carries. -/
def PartialMessage.add (fmsg : PartialMessage) (m : FragmentMeta) : PartialMessage :=
  { fmsg with
    totalFragmentCount := if m.header.lastFragment then m.header.fragmentIndex.toNat + 1 else fmsg.totalFragmentCount
    fragments := fmsg.fragments ++ [⟨m.header.fragmentIndex, m.data⟩]
    compressionHeader := m.compressionHeader.or fmsg.compressionHeader
    reliabilityHeader := m.reliabilityHeader.or fmsg.reliabilityHeader }

/-- The loop of `processStored`: the first complete message, and the entries that stay. -/
def scanStored (now : Nat) : List (Sigma fun _ : UInt16 => PartialMessage) →
    Option PartialMessage × List (Sigma fun _ : UInt16 => PartialMessage)
  | [] => (none, [])
  | ⟨id, msg⟩ :: rest =>
    if msg.Complete then (some msg, rest)
    else if now - msg.receivedAt > fragmentExpiry then scanStored now rest
    else ((scanStored now rest).1, ⟨id, msg⟩ :: (scanStored now rest).2)

theorem scanStored_sublist (now : Nat) (l : List (Sigma fun _ : UInt16 => PartialMessage)) :
    (scanStored now l).2.Sublist l := by
  induction l with
  | nil => exact List.Sublist.refl _
  | cons e l ih =>
    unfold scanStored
    split
    · exact List.sublist_cons_self e l
    · split
      · exact ih.trans (List.sublist_cons_self e l)
      · exact ih.cons_cons _

namespace FragmentStore

/-- The entries left by a scan. -/
def scanned (order : Traversal) (now : Nat) (messages : PartialMessages) : PartialMessages :=
  ⟨(scanStored now (order.visit messages.entries)).2,
    ((List.perm_nodupKeys (order.perm messages.entries)).mpr messages.nodupKeys).sublist (scanStored_sublist _ _)⟩

def processStored (order : Traversal) (now : Nat) (s : FragmentStore) :
    Except TransportError (Option QunetMessageMeta) × FragmentStore :=
  let r := (scanStored now (order.visit s.messages.entries)).1
  let s := { s with messages := scanned order now s.messages }
  match r with
  | none => (.ok none, s)
  | some msg => (some <$> msg.reassemble, s)

/-- `m_messages[id]`, with the values that a first fragment sets. -/
def entryFor (now : Nat) (s : FragmentStore) (id : UInt16) : PartialMessage :=
  let fmsg := (s.messages.lookup id).getD {}
  if fmsg.fragments.isEmpty then { fmsg with receivedAt := now, messageId := id } else fmsg

def processFragment (order : Traversal) (now : Nat) (s : FragmentStore) (m : FragmentMeta) :
    Except TransportError (Option QunetMessageMeta) × FragmentStore :=
  let fmsg := s.entryFor now m.header.messageId
  if ∃ f ∈ fmsg.fragments, f.index = m.header.fragmentIndex then
    (.ok none, { s with messages := s.messages.insert m.header.messageId fmsg })
  else processStored order now { s with messages := s.messages.insert m.header.messageId (fmsg.add m) }

def nextMessageId (s : FragmentStore) : UInt16 × FragmentStore := (s.nextId, { s with nextId := s.nextId + 1 })

end FragmentStore

end Qunet
