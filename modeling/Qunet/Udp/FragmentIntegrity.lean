import Qunet.Udp.Reassembly
import Qunet.Udp.HandshakeChunks

/-!
# The fragment store under arbitrary fragments

* `reassembleAsserting`, `processFragmentAsserting` : the functions of the source with the copies and assertions of
  `reassemble`; `none` is a failed assertion;
* `PartialMessage.Stored` : what holds of every stored entry;
* **`fragments_integrity`** : what holds of every call, whatever the fragments before it were.
-/

namespace Qunet
open Lib

/-! ## The copies of `reassemble` -/

/-- The loop of copies: the buffer and the position behind the last copy. -/
def copyFragments : Bytes → Nat → List Fragment → Option (Bytes × Nat)
  | out, curdata, [] => some (out, curdata)
  | out, curdata, f :: rest =>
    if curdata + f.data.length ≤ out.length then
      copyFragments (copyInto out curdata f.data) (curdata + f.data.length) rest
    else none

def PartialMessage.totalSize (msg : PartialMessage) : Nat := (msg.sorted.map (·.data.length)).sum

def PartialMessage.reassembleAsserting (msg : PartialMessage) : Option (Except TransportError QunetMessageMeta) :=
  if contiguousFrom 0 msg.sorted then
    (copyFragments (List.replicate msg.totalSize 0) 0 msg.sorted).bind fun r =>
      if r.2 = r.1.length then
        some (.ok { type := 0, compressionHeader := msg.compressionHeader, reliabilityHeader := msg.reliabilityHeader,
                    fragmentationHeader := none, data := r.1, dataOffset := 0 })
      else none
  else some (.error (.custom .defragmentationError))

/-- A copy behind what was copied before. -/
theorem copyInto_behind (done data : Bytes) (k : Nat) :
    copyInto (done ++ List.replicate (data.length + k) 0) done.length data = (done ++ data) ++ List.replicate k 0 := by
  unfold copyInto
  rw [List.take_left]
  simp [List.drop_append]

theorem copyFragments_eq (done : Bytes) (l : List Fragment) :
    copyFragments (done ++ List.replicate (l.map (·.data.length)).sum 0) done.length l =
      some (done ++ l.flatMap (·.data), (done ++ l.flatMap (·.data)).length) := by
  induction l generalizing done with
  | nil => simp [copyFragments]
  | cons f l ih =>
    rw [List.map_cons, List.sum_cons, copyFragments, if_pos (by simp), copyInto_behind, ← List.length_append, ih]
    simp

/-- The assertions hold, and the copies make the concatenation. -/
theorem PartialMessage.reassembleAsserting_eq (msg : PartialMessage) :
    msg.reassembleAsserting = some msg.reassemble := by
  have hcopy := copyFragments_eq [] msg.sorted
  rw [List.nil_append, List.nil_append, List.length_nil] at hcopy
  unfold reassembleAsserting reassemble
  split
  · rw [totalSize, hcopy]
    simp
  · rfl

namespace FragmentStore

def processStoredAsserting (order : Traversal) (now : Nat) (s : FragmentStore) :
    Option (Except TransportError (Option QunetMessageMeta) × FragmentStore) :=
  let r := (scanStored now (order.visit s.messages.entries)).1
  let s := { s with messages := scanned order now s.messages }
  match r with
  | none => some (.ok none, s)
  | some msg => msg.reassembleAsserting.map fun res => (some <$> res, s)

def processFragmentAsserting (order : Traversal) (now : Nat) (s : FragmentStore) (m : FragmentMeta) :
    Option (Except TransportError (Option QunetMessageMeta) × FragmentStore) :=
  let fmsg := s.entryFor now m.header.messageId
  if ∃ f ∈ fmsg.fragments, f.index = m.header.fragmentIndex then
    some (.ok none, { s with messages := s.messages.insert m.header.messageId fmsg })
  else processStoredAsserting order now { s with messages := s.messages.insert m.header.messageId (fmsg.add m) }

theorem processStoredAsserting_eq (order : Traversal) (now : Nat) (s : FragmentStore) :
    processStoredAsserting order now s = some (processStored order now s) := by
  unfold processStoredAsserting processStored
  dsimp only
  cases (scanStored now (order.visit s.messages.entries)).1 with
  | none => rfl
  | some msg =>
    dsimp only
    rw [msg.reassembleAsserting_eq]
    rfl

/-- **No assertion fails.** -/
theorem processFragmentAsserting_eq (order : Traversal) (now : Nat) (s : FragmentStore) (m : FragmentMeta) :
    processFragmentAsserting order now s m = some (s.processFragment order now m) := by
  unfold processFragmentAsserting processFragment
  dsimp only
  split
  · rfl
  · exact processStoredAsserting_eq order now _

end FragmentStore

/-! ## The stored entries -/

/-- A stored entry has fragments, with distinct indices, and is not complete. -/
structure PartialMessage.Stored (msg : PartialMessage) : Prop where
  nonempty : msg.fragments ≠ []
  distinct : (msg.fragments.map (·.index)).Nodup
  incomplete : ¬ msg.Complete

namespace FragmentStore

def EntriesStored (s : FragmentStore) : Prop := ∀ e ∈ s.messages.entries, e.2.Stored

theorem EntriesStored.noneComplete {s : FragmentStore} (h : s.EntriesStored) : NoneComplete s.messages :=
  fun e he => (h e he).incomplete

/-- The entry a fragment is added to: a new one, or a stored one. -/
theorem entryFor_cases (now : Nat) (s : FragmentStore) (id : UInt16) :
    (s.entryFor now id).fragments = [] ∨ s.messages.lookup id = some (s.entryFor now id) := by
  cases hf : (s.entryFor now id).fragments with
  | nil => exact .inl rfl
  | cons f _ => exact .inr (lookup_of_mem_entryFor (f := f) (by rw [hf]; exact List.mem_cons_self))

theorem entryFor_distinct {s : FragmentStore} (h : s.EntriesStored) (now : Nat) (id : UInt16) :
    ((s.entryFor now id).fragments.map (·.index)).Nodup := by
  rcases entryFor_cases now s id with hnil | hl
  · rw [hnil]
    exact List.nodup_nil
  · exact (h _ (mem_entries.mp hl)).distinct

/-- A fragment with a new index keeps the indices distinct. -/
theorem add_distinct {fmsg : PartialMessage} {m : FragmentMeta} (h : (fmsg.fragments.map (·.index)).Nodup)
    (hnew : ¬ ∃ f ∈ fmsg.fragments, f.index = m.header.fragmentIndex) :
    ((fmsg.add m).fragments.map (·.index)).Nodup := by
  unfold PartialMessage.add
  rw [List.map_append, List.map_singleton, List.nodup_append]
  refine ⟨h, by simp, fun i hi j hj heq => ?_⟩
  obtain ⟨f, hf, rfl⟩ := List.mem_map.mp hi
  exact hnew ⟨f, hf, heq.trans (List.mem_singleton.mp hj)⟩

/-- The entry of a call with its fragment added. -/
def touched (s : FragmentStore) (c : Call) : PartialMessage := (s.entryFor c.now c.id).add c.message

/-- The fragment is already there. -/
def Repeats (s : FragmentStore) (c : Call) : Prop :=
  ∃ f ∈ (s.entryFor c.now c.id).fragments, f.index = c.message.header.fragmentIndex

instance (s : FragmentStore) (c : Call) : Decidable (s.Repeats c) := inferInstanceAs (Decidable (∃ f ∈ _, _))

/-- What a call can do. -/
inductive CallStep (s : FragmentStore) (c : Call) :
    Except TransportError (Option QunetMessageMeta) → FragmentStore → Prop where
  | duplicate (hd : s.Repeats c) :
      CallStep s c (.ok none) { s with messages := s.messages.insert c.id (s.entryFor c.now c.id) }
  | added (hd : ¬ s.Repeats c)
      (hc : ¬ (s.touched c).Complete) :
      CallStep s c (.ok none) { s with messages := scanned c.order c.now (s.messages.insert c.id (s.touched c)) }
  | completed (hd : ¬ s.Repeats c)
      (hc : (s.touched c).Complete) :
      CallStep s c (some <$> (s.touched c).reassemble)
        { s with messages := scanned c.order c.now (s.messages.insert c.id (s.touched c)) }

/-- **One call of `processFragment`**: a call completes at most the message it brings a fragment of. -/
theorem step_cases {s : FragmentStore} (h : NoneComplete s.messages) (c : Call) :
    CallStep s c (s.step c).1 (s.step c).2 := by
  unfold step processFragment
  dsimp only
  split
  · next hd => exact .duplicate hd
  · next hd =>
    have honly : OnlyComplete c.id (s.messages.insert c.id (s.touched c)) := h.insert c.id _
    have hlookup : (s.messages.insert c.id (s.touched c)).lookup c.id = some (s.touched c) := AList.lookup_insert _
    unfold processStored
    dsimp only
    by_cases hc : (s.touched c).Complete
    · have hscan := (scan_complete c.order c.now honly hlookup hc).1
      unfold touched at hscan
      rw [hscan]
      exact .completed hd hc
    · have hnone : NoneComplete (s.messages.insert c.id (s.touched c)) := by
        intro e he hce
        obtain ⟨id, msg⟩ := e
        obtain rfl : id = c.id := honly _ he hce
        rw [← mem_entries, hlookup] at he
        cases he
        exact hc hce
      have hscan := scan_none c.order c.now hnone
      unfold touched at hscan
      rw [hscan]
      exact .added hd hc

theorem EntriesStored.step {s : FragmentStore} (h : s.EntriesStored) (c : Call) : (s.step c).2.EntriesStored := by
  have hnone := h.noneComplete.step c
  have hcases := step_cases h.noneComplete c
  have hscanned : ∀ e ∈ (scanned c.order c.now (s.messages.insert c.id (s.touched c))).entries,
      ¬ s.Repeats c → ¬ e.2.Complete → e.2.Stored := by
    intro e he hd hinc
    rcases mem_insert (mem_scanned he) with rfl | ⟨-, he⟩
    · exact ⟨by simp [touched, PartialMessage.add], add_distinct (entryFor_distinct h c.now c.id) hd, hinc⟩
    · exact h e he
  generalize s.step c = r at hcases hnone
  obtain ⟨res, t⟩ := r
  dsimp only at hcases hnone ⊢
  cases hcases with
  | duplicate hd =>
    obtain ⟨f, hf, -⟩ := hd
    intro e he
    rcases mem_insert he with rfl | ⟨-, he⟩
    · exact h _ (mem_entries.mp (lookup_of_mem_entryFor hf))
    · exact h e he
  | added hd _ => exact fun e he => hscanned e he hd (hnone e he)
  | completed hd _ => exact fun e he => hscanned e he hd (hnone e he)

theorem EntriesStored.run (calls : List Call) : (runMachine FragmentStore.step {} calls).2.EntriesStored := by
  have hstep : ∀ (s : FragmentStore) (c : Call), c ∈ calls → s.EntriesStored → (s.step c).2.EntriesStored :=
    fun s c _ hs => hs.step c
  have hinit : ({} : FragmentStore).EntriesStored := by
    intro e he
    cases he
  exact runMachine_invariant hstep hinit

/-! ## The returned messages -/

/-- `m` is made of the fragments of `msg`, which have the indices `0, …, n - 1`. -/
def MadeOf (msg : PartialMessage) (m : QunetMessageMeta) : Prop :=
  ∃ fragments : List Fragment, fragments.Perm msg.fragments ∧
    fragments.map (·.index.toNat) = List.range fragments.length ∧ m.data = fragments.flatMap (·.data)

theorem reassemble_cases (msg : PartialMessage) :
    msg.reassemble = .error (.custom .defragmentationError) ∨ ∃ m, msg.reassemble = .ok m ∧ MadeOf msg m := by
  unfold PartialMessage.reassemble
  split
  · next hcont =>
    rw [contiguousFrom_iff, ← List.range_eq_range'] at hcont
    exact .inr ⟨_, rfl, msg.sorted, inOrder_perm _, hcont, rfl⟩
  · exact .inl rfl

/-- What holds of a call in the state `s`. -/
structure Sound (s : FragmentStore) (c : Call) : Prop where
  entries : (s.step c).2.EntriesStored
  asserts : processFragmentAsserting c.order c.now s c.message = some (s.step c)
  result : (s.step c).1 = .ok none ∨ (s.step c).1 = .error (.custom .defragmentationError) ∨
    ∃ m, (s.step c).1 = .ok (some m) ∧ MadeOf (s.touched c) m

/-- **Arbitrary fragments**: after any calls, one more call leaves entries that are stored as they should be, fails no
assertion, and returns nothing, `DefragmentationError` or a message made of all its fragments in their order. -/
theorem fragments_integrity (calls : List Call) (c : Call) : Sound (runMachine FragmentStore.step {} calls).2 c := by
  have h := EntriesStored.run calls
  generalize (runMachine FragmentStore.step {} calls).2 = s at h
  refine ⟨h.step c, processFragmentAsserting_eq c.order c.now s c.message, ?_⟩
  have hcases := step_cases h.noneComplete c
  generalize s.step c = r at hcases
  obtain ⟨res, t⟩ := r
  cases hcases with
  | duplicate _ => exact .inl rfl
  | added _ _ => exact .inl rfl
  | completed _ _ =>
    rcases reassemble_cases (s.touched c) with herr | ⟨m, hm, hmade⟩
    · exact .inr (.inl (by dsimp only; rw [herr]))
    · exact .inr (.inr ⟨m, by dsimp only; rw [hm], hmade⟩)

end FragmentStore

end Qunet
