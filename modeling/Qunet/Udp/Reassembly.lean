import Qunet.Udp.FragmentStore
import Qunet.Lib.Machine

/-!
# Reassembling fragments

* `scanStored_*` : what one scan of the entries returns, removes and keeps, in any order of iteration;
* `NoneComplete` : between two calls no entry is complete, so a call can only complete the message it touches;
* `Whole`, `IsFragmentOf` : a message cut into chunks, and the fragments it is sent as;
* `Collected` : an entry that holds some of the fragments; `Collected.add` : and one more;
* `Tracks` : what the store knows of a message after some calls; `Tracks.step_*` : one more call;
* **`reassembly`** : the message is returned by the call that brings its last missing fragment, and by no other.
-/

namespace Qunet
open Lib

namespace FragmentStore

/-- One call of `processFragment`. -/
structure Call where
  order : Traversal
  now : Nat
  message : FragmentMeta

/-- The message a call brings a fragment of. -/
abbrev Call.id (c : Call) : UInt16 := c.message.header.messageId

def step (s : FragmentStore) (c : Call) : Except TransportError (Option QunetMessageMeta) × FragmentStore :=
  s.processFragment c.order c.now c.message

/-! ## Scanning the entries -/

section Scan
variable {now : Nat} {l : List (Sigma fun _ : UInt16 => PartialMessage)}

theorem scanStored_none (h : ∀ e ∈ l, ¬ e.2.Complete) : (scanStored now l).1 = none := by
  induction l with
  | nil => rfl
  | cons e l ih =>
    have hl := ih fun e' he' => h e' (List.mem_cons_of_mem e he')
    unfold scanStored
    rw [if_neg (h e List.mem_cons_self)]
    split
    · exact hl
    · exact hl

/-- The only complete entry is returned and removed. -/
theorem scanStored_complete (hnodup : l.Nodup) {e : Sigma fun _ : UInt16 => PartialMessage} (he : e ∈ l)
    (hc : e.2.Complete) (honly : ∀ e' ∈ l, e'.2.Complete → e' = e) :
    (scanStored now l).1 = some e.2 ∧ e ∉ (scanStored now l).2 := by
  induction l with
  | nil => cases he
  | cons e' l ih =>
    obtain ⟨hnot, hnodup⟩ := List.nodup_cons.mp hnodup
    unfold scanStored
    by_cases hc' : e'.2.Complete
    · obtain rfl := honly e' List.mem_cons_self hc'
      rw [if_pos hc']
      exact ⟨rfl, hnot⟩
    · have hne : e ≠ e' := by
        rintro rfl
        exact hc' hc
      obtain ⟨h1, h2⟩ := ih hnodup ((List.mem_cons.mp he).resolve_left hne)
        fun e'' he'' => honly e'' (List.mem_cons_of_mem e' he'')
      rw [if_neg hc']
      split
      · exact ⟨h1, h2⟩
      · refine ⟨h1, fun hmem => ?_⟩
        rcases List.mem_cons.mp hmem with rfl | hmem
        · exact hne rfl
        · exact h2 hmem

/-- An entry that is neither complete nor stale stays. -/
theorem scanStored_keeps {e : Sigma fun _ : UInt16 => PartialMessage} (he : e ∈ l) (hc : ¬ e.2.Complete)
    (hfresh : now ≤ e.2.receivedAt + fragmentExpiry) : e ∈ (scanStored now l).2 := by
  induction l with
  | nil => cases he
  | cons e' l ih =>
    unfold scanStored
    rcases List.mem_cons.mp he with rfl | he
    · rw [if_neg hc, if_neg (by omega)]
      exact List.mem_cons_self
    · split
      · exact he
      · split
        · exact ih he
        · exact List.mem_cons_of_mem _ (ih he)

end Scan

/-! ## Between two calls no entry is complete -/

def NoneComplete (messages : PartialMessages) : Prop := ∀ e ∈ messages.entries, ¬ e.2.Complete

/-- Only the entry `id` may be complete. -/
def OnlyComplete (id : UInt16) (messages : PartialMessages) : Prop := ∀ e ∈ messages.entries, e.2.Complete → e.1 = id

theorem mem_entries {messages : PartialMessages} {id : UInt16} {msg : PartialMessage} :
    messages.lookup id = some msg ↔ ⟨id, msg⟩ ∈ messages.entries := AList.mem_lookup_iff

theorem mem_scanned {order : Traversal} {now : Nat} {messages : PartialMessages}
    {e : Sigma fun _ : UInt16 => PartialMessage} (h : e ∈ (scanned order now messages).entries) :
    e ∈ messages.entries :=
  (order.perm messages.entries).mem_iff.mp ((scanStored_sublist now _).subset h)

theorem mem_insert {messages : PartialMessages} {id : UInt16} {msg : PartialMessage}
    {e : Sigma fun _ : UInt16 => PartialMessage} (h : e ∈ (messages.insert id msg).entries) :
    e = ⟨id, msg⟩ ∨ (e.1 ≠ id ∧ e ∈ messages.entries) := by
  obtain ⟨id', msg'⟩ := e
  rw [← mem_entries] at h
  by_cases hid : id' = id
  · subst hid
    rw [AList.lookup_insert] at h
    cases h
    exact .inl rfl
  · rw [AList.lookup_insert_ne hid] at h
    exact .inr ⟨hid, mem_entries.mp h⟩

/-- Touching one entry leaves the others incomplete. -/
theorem NoneComplete.insert {messages : PartialMessages} (h : NoneComplete messages) (id : UInt16)
    (msg : PartialMessage) : OnlyComplete id (messages.insert id msg) := by
  intro e he hc
  rcases mem_insert he with rfl | ⟨-, he⟩
  · rfl
  · exact absurd hc (h e he)

section Scanned
variable {messages : PartialMessages} {id : UInt16} {msg : PartialMessage} (order : Traversal) (now : Nat)

/-- Scanning when the touched entry is complete: it is returned and removed. -/
theorem scan_complete (h : OnlyComplete id messages) (hm : messages.lookup id = some msg) (hc : msg.Complete) :
    (scanStored now (order.visit messages.entries)).1 = some msg ∧ (scanned order now messages).lookup id = none := by
  have hmem := (order.perm messages.entries).mem_iff.mpr (mem_entries.mp hm)
  have hnodup := ((List.perm_nodupKeys (order.perm messages.entries)).mpr messages.nodupKeys).nodup
  have honly : ∀ e ∈ order.visit messages.entries, e.2.Complete → e = ⟨id, msg⟩ := by
    rintro ⟨id', msg'⟩ he hc'
    have he' := (order.perm messages.entries).mem_iff.mp he
    obtain rfl : id' = id := h _ he' hc'
    rw [← mem_entries, hm] at he'
    cases he'
    rfl
  obtain ⟨h1, h2⟩ := @scanStored_complete now _ hnodup _ hmem hc honly
  refine ⟨h1, ?_⟩
  by_contra hsome
  obtain ⟨msg', hmsg'⟩ := Option.ne_none_iff_exists'.mp hsome
  have hback := mem_scanned (mem_entries.mp hmsg')
  rw [← mem_entries, hm] at hback
  cases hback
  exact h2 (mem_entries.mp hmsg')

/-- Scanning when no entry is complete returns nothing. -/
theorem scan_none (h : NoneComplete messages) : (scanStored now (order.visit messages.entries)).1 = none :=
  scanStored_none fun e he => h e ((order.perm messages.entries).mem_iff.mp he)

theorem scan_keeps (hm : messages.lookup id = some msg) (hc : ¬ msg.Complete)
    (hfresh : now ≤ msg.receivedAt + fragmentExpiry) : (scanned order now messages).lookup id = some msg :=
  mem_entries.mpr (scanStored_keeps ((order.perm messages.entries).mem_iff.mpr (mem_entries.mp hm)) hc hfresh)

theorem scan_absent (hm : messages.lookup id = none) : (scanned order now messages).lookup id = none := by
  by_contra hsome
  obtain ⟨msg', hmsg'⟩ := Option.ne_none_iff_exists'.mp hsome
  rw [mem_entries.mpr (mem_scanned (mem_entries.mp hmsg'))] at hm
  cases hm

/-- A scan leaves no complete entry. -/
theorem OnlyComplete.scanned (h : OnlyComplete id messages) : NoneComplete (scanned order now messages) := by
  rintro ⟨id', msg'⟩ he hc
  have hmem := mem_scanned he
  obtain rfl : id' = id := h _ hmem hc
  have hnone := (scan_complete order now h (mem_entries.mpr hmem) hc).2
  rw [mem_entries.mpr he] at hnone
  cases hnone

end Scanned

/-- The entry of a message that has a fragment is the stored one. -/
theorem lookup_of_mem_entryFor {now : Nat} {s : FragmentStore} {id : UInt16} {f : Fragment}
    (hf : f ∈ (s.entryFor now id).fragments) : s.messages.lookup id = some (s.entryFor now id) := by
  unfold entryFor at hf ⊢
  dsimp only at hf ⊢
  cases hl : s.messages.lookup id with
  | none =>
    rw [hl] at hf
    cases hf
  | some msg =>
    rw [hl] at hf
    rw [Option.getD_some] at hf ⊢
    by_cases he : msg.fragments.isEmpty
    · rw [if_pos he] at hf
      rw [List.isEmpty_iff.mp he] at hf
      cases hf
    · rw [if_neg he]

/-- **Every call** leaves no complete entry. -/
theorem NoneComplete.step {s : FragmentStore} (h : NoneComplete s.messages) (c : Call) :
    NoneComplete (s.step c).2.messages := by
  unfold FragmentStore.step processFragment
  dsimp only
  split
  · next hdup =>
    obtain ⟨f, hf, -⟩ := hdup
    have hl := lookup_of_mem_entryFor hf
    intro e he
    rcases mem_insert he with rfl | ⟨-, he⟩
    · exact h _ (mem_entries.mp hl)
    · exact h e he
  · have hscan := (h.insert c.id ((s.entryFor c.now c.id).add c.message)).scanned c.order c.now
    unfold processStored
    dsimp only
    split
    · exact hscan
    · exact hscan

theorem NoneComplete.run (calls : List Call) : NoneComplete (runMachine FragmentStore.step {} calls).2.messages := by
  have hstep : ∀ (s : FragmentStore) (c : Call), c ∈ calls → NoneComplete s.messages →
      NoneComplete (s.step c).2.messages := fun s c _ hs => hs.step c
  have hinit : NoneComplete ({} : FragmentStore).messages := by
    intro e he
    cases he
  exact @runMachine_invariant _ _ _ FragmentStore.step (fun s => NoneComplete s.messages) calls hstep {} hinit

/-! ## The fragments of one message -/

/-- A message as it is cut into fragments: the index has 15 bits. -/
structure Whole where
  chunks : List Bytes
  compressionHeader : Option DecodedCompression
  reliabilityHeader : Option ReliabilityHeader
  pos : 1 ≤ chunks.length
  le : chunks.length ≤ 32768

/-- What the fragments of `w` are put together to. -/
def Whole.assembled (w : Whole) : QunetMessageMeta where
  type := 0
  compressionHeader := w.compressionHeader
  reliabilityHeader := w.reliabilityHeader
  fragmentationHeader := none
  data := w.chunks.flatten
  dataOffset := 0

/-- `m` is a fragment of `w`: one chunk, the last flag on the last one, the headers on the first one. -/
structure IsFragmentOf (w : Whole) (m : FragmentMeta) : Prop where
  data : w.chunks[m.header.fragmentIndex.toNat]? = some m.data
  last : m.header.lastFragment = true ↔ m.header.fragmentIndex.toNat + 1 = w.chunks.length
  compressionHeader : m.compressionHeader = if m.header.fragmentIndex = 0 then w.compressionHeader else none
  reliabilityHeader : m.reliabilityHeader = if m.header.fragmentIndex = 0 then w.reliabilityHeader else none

/-- The fragment with index `i` of message `k` has been delivered. -/
def Delivered (k : UInt16) (calls : List Call) (i : UInt16) : Prop :=
  ∃ c ∈ calls, c.id = k ∧ c.message.header.fragmentIndex = i

/-- Every fragment of `w`, sent as message `k`, has been delivered. -/
def AllDelivered (w : Whole) (k : UInt16) (calls : List Call) : Prop :=
  ∀ i < w.chunks.length, ∃ j : UInt16, j.toNat = i ∧ Delivered k calls j

/-- The entry `msg` holds the fragments of `w` with the indices in `got`. -/
structure Collected (w : Whole) (got : UInt16 → Prop) (msg : PartialMessage) : Prop where
  pieces : Pieces (·.index.toNat) w.chunks.length msg.fragments
  data : ∀ f ∈ msg.fragments, w.chunks[f.index.toNat]? = some f.data
  holds : ∀ i, got i ↔ ∃ f ∈ msg.fragments, f.index = i
  total : ∀ i, i.toNat + 1 = w.chunks.length → got i → msg.totalFragmentCount = w.chunks.length
  unknown : (∀ i, i.toNat + 1 = w.chunks.length → ¬ got i) → msg.totalFragmentCount = sizeMax
  headers : got 0 → msg.compressionHeader = w.compressionHeader ∧ msg.reliabilityHeader = w.reliabilityHeader
  noHeaders : ¬ got 0 → msg.compressionHeader = none ∧ msg.reliabilityHeader = none

theorem contiguousFrom_iff (l : List Fragment) (n : Nat) :
    contiguousFrom n l = true ↔ l.map (·.index.toNat) = List.range' n l.length := by
  induction l generalizing n with
  | nil => simp [contiguousFrom]
  | cons f l ih =>
    unfold contiguousFrom
    rw [List.map_cons, List.length_cons, List.range'_succ, List.cons.injEq, ← ih]
    by_cases hf : f.index.toNat = n
    · simp [hf]
    · simp [hf]

namespace Collected
variable {w : Whole} {got : UInt16 → Prop} {msg : PartialMessage}

theorem covers_iff (h : Collected w got msg) :
    msg.fragments.length = w.chunks.length ↔ ∀ i < w.chunks.length, ∃ j : UInt16, j.toNat = i ∧ got j := by
  rw [h.pieces.length_eq_iff_covers]
  constructor
  · intro hall i hi
    obtain ⟨f, hf, rfl⟩ := hall i hi
    exact ⟨f.index, rfl, (h.holds _).mpr ⟨f, hf, rfl⟩⟩
  · intro hall i hi
    obtain ⟨j, rfl, hj⟩ := hall i hi
    obtain ⟨f, hf, rfl⟩ := (h.holds j).mp hj
    exact ⟨f, hf, rfl⟩

/-- The count is right as soon as it is known, and an unknown count matches no list. -/
theorem complete_iff (h : Collected w got msg) :
    msg.Complete ↔ ∀ i < w.chunks.length, ∃ j : UInt16, j.toNat = i ∧ got j := by
  have hpos := w.pos
  have hle := w.le
  rw [← h.covers_iff, PartialMessage.Complete]
  constructor
  · intro hc
    by_cases hlast : ∃ i : UInt16, i.toNat + 1 = w.chunks.length ∧ got i
    · obtain ⟨i, hi, hgot⟩ := hlast
      rw [← hc, h.total i hi hgot]
    · have hmax := h.unknown fun i hi hgot => hlast ⟨i, hi, hgot⟩
      have hlen := h.pieces.length_le
      rw [hmax, sizeMax] at hc
      omega
  · intro hlen
    obtain ⟨j, hj, hgot⟩ := h.covers_iff.mp hlen (w.chunks.length - 1) (by omega)
    rw [hlen, h.total j (by omega) hgot]

/-- A complete entry is put together to the message. -/
theorem reassemble (h : Collected w got msg) (hc : msg.Complete) : msg.reassemble = .ok w.assembled := by
  have hall := h.complete_iff.mp hc
  have hlen := h.covers_iff.mpr hall
  have hindex := h.pieces.map_index_inOrder hlen
  have hvalue := h.pieces.map_inOrder hlen h.data
  have hgot0 : got 0 := by
    obtain ⟨j, hj, hgot⟩ := hall 0 w.pos
    rwa [show j = 0 from UInt16.toNat_inj.mp hj] at hgot
  have hcont : contiguousFrom 0 msg.sorted = true := by
    rw [contiguousFrom_iff, PartialMessage.sorted, hindex, (inOrder_perm _).length_eq, hlen, List.range_eq_range']
  unfold PartialMessage.reassemble
  rw [if_pos hcont, (h.headers hgot0).1, (h.headers hgot0).2, List.flatMap_def, PartialMessage.sorted,
    hvalue]
  rfl

theorem empty (w : Whole) (k : UInt16) (now : Nat) :
    Collected w (fun _ => False) { receivedAt := now, messageId := k } where
  pieces := ⟨by simp, by simp⟩
  data := by simp
  holds := by simp
  total := fun _ _ h => h.elim
  unknown := fun _ => rfl
  headers := fun h => h.elim
  noHeaders := fun _ => ⟨rfl, rfl⟩

theorem congr (h : Collected w got msg) {got' : UInt16 → Prop} (hg : ∀ i, got' i ↔ got i) : Collected w got' msg := by
  have heq : got' = got := by
    funext i
    exact propext (hg i)
  rwa [heq]

/-- One more fragment. -/
theorem add (h : Collected w got msg) {m : FragmentMeta} (hm : IsFragmentOf w m)
    (hnew : ¬ ∃ f ∈ msg.fragments, f.index = m.header.fragmentIndex) :
    Collected w (fun i => got i ∨ i = m.header.fragmentIndex) (msg.add m) where
  pieces := by
    refine ⟨?_, fun f hf => ?_⟩
    · show ((msg.fragments ++ [_]).map _).Nodup
      rw [List.map_append, List.map_singleton]
      refine List.nodup_append.mpr ⟨h.pieces.nodup, List.nodup_singleton _, ?_⟩
      intro i hi j hj
      obtain ⟨f, hf, rfl⟩ := List.mem_map.mp hi
      rw [List.mem_singleton] at hj
      subst hj
      exact fun heq => hnew ⟨f, hf, UInt16.toNat_inj.mp heq⟩
    · rcases List.mem_append.mp hf with hf | hf
      · exact h.pieces.lt f hf
      · rw [List.mem_singleton.mp hf]
        exact (List.getElem?_eq_some_iff.mp hm.data).1
  data := by
    intro f hf
    rcases List.mem_append.mp hf with hf | hf
    · exact h.data f hf
    · rw [List.mem_singleton.mp hf]
      exact hm.data
  holds := by
    intro i
    show _ ↔ ∃ f ∈ msg.fragments ++ [_], _
    simp only [List.mem_append, List.mem_singleton, or_and_right, exists_or, exists_eq_left, h.holds]
    rw [eq_comm (a := i)]
  total := by
    intro i hi hgot
    show (if m.header.lastFragment then _ else _) = _
    by_cases hlast : m.header.lastFragment = true
    · rw [if_pos hlast, hm.last.mp hlast]
    · rw [if_neg hlast]
      rcases hgot with hgot | rfl
      · exact h.total i hi hgot
      · exact absurd (hm.last.mpr hi) hlast
  unknown := by
    intro hnone
    show (if m.header.lastFragment then _ else _) = _
    have hlast : ¬ m.header.lastFragment = true := fun hl =>
      hnone m.header.fragmentIndex (hm.last.mp hl) (.inr rfl)
    rw [if_neg hlast]
    exact h.unknown fun i hi hgot => hnone i hi (.inl hgot)
  headers := by
    intro hgot
    show m.compressionHeader.or msg.compressionHeader = _ ∧ m.reliabilityHeader.or msg.reliabilityHeader = _
    rw [hm.compressionHeader, hm.reliabilityHeader]
    by_cases h0 : m.header.fragmentIndex = 0
    · have hnot : ¬ got 0 := fun hg => hnew (by rw [h0]; exact (h.holds 0).mp hg)
      rw [if_pos h0, if_pos h0, (h.noHeaders hnot).1, (h.noHeaders hnot).2, Option.or_none, Option.or_none]
      exact ⟨rfl, rfl⟩
    · rw [if_neg h0, if_neg h0, Option.none_or, Option.none_or]
      exact h.headers (hgot.resolve_right fun heq => h0 heq.symm)
  noHeaders := by
    intro hnot
    show m.compressionHeader.or msg.compressionHeader = _ ∧ m.reliabilityHeader.or msg.reliabilityHeader = _
    have h0 : m.header.fragmentIndex ≠ 0 := fun h0 => hnot (.inr h0.symm)
    rw [hm.compressionHeader, hm.reliabilityHeader, if_neg h0, if_neg h0, Option.none_or, Option.none_or]
    exact h.noHeaders fun hg => hnot (.inl hg)

end Collected

/-! ## One message in the store -/

theorem delivered_concat {k : UInt16} {calls : List Call} {c : Call} {i : UInt16} :
    Delivered k (calls ++ [c]) i ↔ Delivered k calls i ∨ (c.id = k ∧ c.message.header.fragmentIndex = i) := by
  simp [Delivered, or_and_right, exists_or]

/-- After `calls`, the store knows of message `k` what they delivered, since a time at which they delivered it. -/
structure Tracks (w : Whole) (k : UInt16) (calls : List Call) (s : FragmentStore) : Prop where
  noneComplete : NoneComplete s.messages
  absent : s.messages.lookup k = none → ∀ c ∈ calls, c.id ≠ k
  present : ∀ msg, s.messages.lookup k = some msg →
    Collected w (Delivered k calls) msg ∧ ∃ c ∈ calls, c.id = k ∧ msg.receivedAt = c.now

/-- No fragment of message `k` comes too late. -/
def InTime (k : UInt16) (calls : List Call) (now : Nat) : Prop :=
  ∀ c ∈ calls, c.id = k → now ≤ c.now + fragmentExpiry

namespace Tracks
variable {w : Whole} {k : UInt16} {calls : List Call} {s : FragmentStore} {c : Call}

theorem incomplete (h : Tracks w k calls s) (hmissing : ¬ AllDelivered w k calls) {msg : PartialMessage}
    (hm : s.messages.lookup k = some msg) : ¬ msg.Complete := fun hc =>
  hmissing ((h.present msg hm).1.complete_iff.mp hc)

/-- A call for another message leaves the entry alone. -/
theorem lookup_other (h : Tracks w k calls s) (hc : c.id ≠ k) (hmissing : ¬ AllDelivered w k calls)
    (htime : InTime k calls c.now) : (s.step c).2.messages.lookup k = s.messages.lookup k := by
  unfold FragmentStore.step processFragment
  dsimp only
  split
  · exact AList.lookup_insert_ne (Ne.symm hc)
  · generalize (s.entryFor c.now c.message.header.messageId).add c.message = msg'
    have hins : (s.messages.insert c.id msg').lookup k = s.messages.lookup k := AList.lookup_insert_ne (Ne.symm hc)
    have hscan : (scanned c.order c.now (s.messages.insert c.id msg')).lookup k = s.messages.lookup k := by
      cases hl : s.messages.lookup k with
      | none => exact scan_absent c.order c.now (hins.trans hl)
      | some msg =>
        obtain ⟨c', hc', hid, htm⟩ := (h.present msg hl).2
        refine scan_keeps c.order c.now (hins.trans hl) (h.incomplete hmissing hl) ?_
        rw [htm]
        exact htime c' hc' hid
    unfold processStored
    dsimp only
    split
    · exact hscan
    · exact hscan

theorem step_other (h : Tracks w k calls s) (hc : c.id ≠ k) (hmissing : ¬ AllDelivered w k calls)
    (htime : InTime k calls c.now) : Tracks w k (calls ++ [c]) (s.step c).2 := by
  have hl := h.lookup_other hc hmissing htime
  have hdel : ∀ i, Delivered k (calls ++ [c]) i ↔ Delivered k calls i := by
    intro i
    rw [delivered_concat]
    exact or_iff_left fun hcid => hc hcid.1
  refine ⟨h.noneComplete.step c, fun hnone c' hc' => ?_, fun msg hmsg => ?_⟩
  · rw [hl] at hnone
    rcases List.mem_append.mp hc' with hc' | hc'
    · exact h.absent hnone c' hc'
    · rw [List.mem_singleton.mp hc']
      exact hc
  · rw [hl] at hmsg
    obtain ⟨hcol, c', hc', hid, htm⟩ := h.present msg hmsg
    exact ⟨hcol.congr hdel, c', List.mem_append_left _ hc', hid, htm⟩

/-- What a call for message `k` finds: the entry, or a new one. -/
theorem entryFor_collected (h : Tracks w k calls s) (hc : c.id = k) :
    Collected w (Delivered k calls) (s.entryFor c.now k) ∧
      ∃ c' ∈ calls ++ [c], c'.id = k ∧ (s.entryFor c.now k).receivedAt = c'.now := by
  have hself : ∃ c' ∈ calls ++ [c], c'.id = k ∧ c.now = c'.now :=
    ⟨c, List.mem_append_right _ (List.mem_singleton_self c), hc, rfl⟩
  unfold entryFor
  cases hl : s.messages.lookup k with
  | none =>
    have hnone : ∀ i, Delivered k calls i ↔ False := by
      intro i
      refine iff_of_false ?_ id
      rintro ⟨c', hc', hid, -⟩
      exact h.absent hl c' hc' hid
    exact ⟨(Collected.empty w k c.now).congr hnone, hself⟩
  | some msg =>
    obtain ⟨hcol, c', hc', hid, htm⟩ := h.present msg hl
    have hne : ¬ msg.fragments.isEmpty = true := by
      intro he
      obtain ⟨f, hf, -⟩ := (hcol.holds _).mp ⟨c', hc', hid, rfl⟩
      rw [List.isEmpty_iff.mp he] at hf
      cases hf
    dsimp only [Option.getD_some]
    rw [if_neg hne]
    exact ⟨hcol, c', List.mem_append_left _ hc', hid, htm⟩

/-- An entry in the store after a call for message `k` that did not complete it. -/
theorem of_lookup {s' : FragmentStore} {msg : PartialMessage} (hnone : NoneComplete s'.messages)
    (hl : s'.messages.lookup k = some msg) (hcol : Collected w (Delivered k (calls ++ [c])) msg)
    (htm : ∃ c' ∈ calls ++ [c], c'.id = k ∧ msg.receivedAt = c'.now) : Tracks w k (calls ++ [c]) s' := by
  refine ⟨hnone, fun hn => ?_, fun msg' hmsg' => ?_⟩
  · rw [hl] at hn
    cases hn
  · rw [hl] at hmsg'
    cases hmsg'
    exact ⟨hcol, htm⟩

/-- **A call for message `k`** returns nothing while a fragment is missing, and the message when none is. -/
theorem step_own (h : Tracks w k calls s) (hc : c.id = k) (hm : IsFragmentOf w c.message)
    (hmissing : ¬ AllDelivered w k calls) (htime : InTime k (calls ++ [c]) c.now) :
    (¬ AllDelivered w k (calls ++ [c]) → (s.step c).1 = .ok none ∧ Tracks w k (calls ++ [c]) (s.step c).2) ∧
      (AllDelivered w k (calls ++ [c]) →
        (s.step c).1 = .ok (some w.assembled) ∧ (s.step c).2.messages.lookup k = none) := by
  obtain ⟨hcol, htm⟩ := h.entryFor_collected hc
  have hstep := h.noneComplete.step c
  unfold FragmentStore.step processFragment at hstep ⊢
  rw [show c.message.header.messageId = k from hc] at hstep ⊢
  dsimp only at hstep ⊢
  by_cases hdup : ∃ f ∈ (s.entryFor c.now k).fragments, f.index = c.message.header.fragmentIndex
  · have hsame : ∀ i, Delivered k (calls ++ [c]) i ↔ Delivered k calls i := by
      intro i
      rw [delivered_concat]
      refine or_iff_left_of_imp ?_
      rintro ⟨-, rfl⟩
      exact (hcol.holds _).mpr hdup
    rw [if_pos hdup] at hstep ⊢
    refine ⟨fun _ => ⟨rfl, ?_⟩, fun hall => ?_⟩
    · exact of_lookup hstep (AList.lookup_insert _) (hcol.congr hsame) htm
    · exact absurd (fun i hi => (hall i hi).imp fun j hj => ⟨hj.1, (hsame j).mp hj.2⟩) hmissing
  · have hadd : Collected w (Delivered k (calls ++ [c])) ((s.entryFor c.now k).add c.message) := by
      refine (hcol.add hm hdup).congr fun i => ?_
      rw [delivered_concat, eq_comm (a := i)]
      exact or_congr_right (and_iff_right hc)
    have honly := h.noneComplete.insert k ((s.entryFor c.now k).add c.message)
    have hlook : (s.messages.insert k ((s.entryFor c.now k).add c.message)).lookup k =
        some ((s.entryFor c.now k).add c.message) := AList.lookup_insert _
    rw [if_neg hdup] at hstep ⊢
    unfold processStored at hstep ⊢
    dsimp only at hstep ⊢
    refine ⟨fun hnot => ?_, fun hall => ?_⟩
    · have hnc : ¬ ((s.entryFor c.now k).add c.message).Complete := fun hcm => hnot (hadd.complete_iff.mp hcm)
      have hnone : NoneComplete (s.messages.insert k ((s.entryFor c.now k).add c.message)) := by
        rintro ⟨id, msg⟩ he hcm
        obtain rfl : id = k := honly _ he hcm
        rw [← mem_entries, hlook] at he
        cases he
        exact hnc hcm
      rw [scan_none c.order c.now hnone] at hstep ⊢
      refine ⟨rfl, of_lookup hstep (scan_keeps c.order c.now hlook hnc ?_) hadd htm⟩
      obtain ⟨c', hc', hid, heq⟩ := htm
      show c.now ≤ (s.entryFor c.now k).receivedAt + _
      rw [heq]
      exact htime c' hc' hid
    · have hcm := hadd.complete_iff.mpr hall
      obtain ⟨hres, hgone⟩ := scan_complete c.order c.now honly hlook hcm
      rw [hres]
      refine ⟨?_, hgone⟩
      dsimp only
      rw [hadd.reassemble hcm]
      rfl

end Tracks

/-! ## The whole run -/

theorem AllDelivered.mono {w : Whole} {k : UInt16} {pre calls : List Call} (h : AllDelivered w k pre)
    (hsub : pre ⊆ calls) : AllDelivered w k calls := by
  intro i hi
  obtain ⟨j, hj, c, hc, hid⟩ := h i hi
  exact ⟨j, hj, c, hsub hc, hid⟩

/-- A store that tracks a message keeps tracking it, while a fragment is missing. -/
theorem Tracks.run {w : Whole} {k : UInt16} {s : FragmentStore} {calls : List Call} (h : Tracks w k [] s)
    (hfrag : ∀ c ∈ calls, c.id = k → IsFragmentOf w c.message)
    (htime : ∀ c ∈ calls, InTime k calls c.now) (hmissing : ¬ AllDelivered w k calls) :
    Tracks w k calls (runMachine FragmentStore.step s calls).2 := by
  induction calls using List.reverseRecOn with
  | nil => exact h
  | append_singleton calls c ih =>
    have hsub : calls ⊆ calls ++ [c] := List.subset_append_left _ _
    have hmem : c ∈ calls ++ [c] := List.mem_append_right _ (List.mem_singleton_self c)
    have hprev := ih (fun c' hc' => hfrag c' (hsub hc')) (fun c' hc' d hd => htime c' (hsub hc') d (hsub hd))
      fun hall => hmissing (hall.mono hsub)
    have hmissing' : ¬ AllDelivered w k calls := fun hall => hmissing (hall.mono hsub)
    rw [runMachine_concat]
    by_cases hid : c.id = k
    · exact ((hprev.step_own hid (hfrag c hmem hid) hmissing' (htime c hmem)).1 hmissing).2
    · exact hprev.step_other hid hmissing' fun d hd => htime c hmem d (hsub hd)

/-- **Reassembly.** From any reachable store without an entry for `k`, the fragments of a message of up to 32768 chunks
are delivered in any order, with repetitions, among any fragments of other messages, within ten seconds. Then the calls
for `k` return nothing until the last missing fragment is there, which returns the chunks in their order with the
headers of fragment 0 and leaves no entry; no other call touches the entry. -/
theorem reassembly (earlier : List Call) (w : Whole) (k : UInt16) (calls : List Call) (last : Call)
    (hfresh : (runMachine FragmentStore.step {} earlier).2.messages.lookup k = none)
    (hfrag : ∀ c ∈ calls ++ [last], c.id = k → IsFragmentOf w c.message)
    (hclock : (calls ++ [last]).Pairwise fun c c' => c.now ≤ c'.now)
    (hwindow : ∀ c ∈ calls ++ [last], c.id = k → last.now ≤ c.now + fragmentExpiry) (hlast : last.id = k)
    (hmissing : ¬ AllDelivered w k calls) (hall : AllDelivered w k (calls ++ [last])) :
    let s := (runMachine FragmentStore.step {} earlier).2
    let before := fun pre => (runMachine FragmentStore.step s pre).2
    (∀ pre c post, calls = pre ++ c :: post →
        (c.id = k → ((before pre).step c).1 = .ok none) ∧
          (c.id ≠ k → ((before pre).step c).2.messages.lookup k = (before pre).messages.lookup k)) ∧
      ((before calls).step last).1 = .ok (some w.assembled) ∧
      ((before calls).step last).2.messages.lookup k = none := by
  dsimp only
  have hmem : ∀ {c}, c ∈ calls → c ∈ calls ++ [last] := fun hc => List.mem_append_left _ hc
  have hle : ∀ c ∈ calls ++ [last], c.now ≤ last.now := by
    intro c hc
    rcases List.mem_append.mp hc with hc | hc
    · exact (List.pairwise_append.mp hclock).2.2 c hc last (List.mem_singleton_self last)
    · rw [List.mem_singleton.mp hc]
  have htime : ∀ c ∈ calls ++ [last], InTime k (calls ++ [last]) c.now := by
    intro c hc d hd hid
    exact (hle c hc).trans (hwindow d hd hid)
  have hinit : Tracks w k [] (runMachine FragmentStore.step {} earlier).2 := by
    refine ⟨NoneComplete.run earlier, fun _ c hc => absurd hc List.not_mem_nil, fun msg hmsg => ?_⟩
    rw [hfresh] at hmsg
    cases hmsg
  have htracks : ∀ pre, pre <+: calls → Tracks w k pre (runMachine FragmentStore.step
      (runMachine FragmentStore.step {} earlier).2 pre).2 := by
    intro pre hpre
    have hsub := hpre.subset
    refine hinit.run (fun c hc => hfrag c (hmem (hsub hc))) (fun c hc d hd => ?_) fun h => hmissing (h.mono hsub)
    exact htime c (hmem (hsub hc)) d (hmem (hsub hd))
  refine ⟨fun pre c post heq => ?_, ?_⟩
  · subst heq
    have hc : c ∈ pre ++ c :: post := List.mem_append_right _ List.mem_cons_self
    have hsub : pre ++ [c] ⊆ pre ++ c :: post := by
      rw [List.append_cons pre c post]
      exact List.subset_append_left _ _
    have hpre := htracks pre (List.prefix_append pre _)
    have hmissing' : ¬ AllDelivered w k pre := fun h => hmissing (h.mono (List.subset_append_left _ _))
    refine ⟨fun hid => ?_, fun hid => ?_⟩
    · refine ((hpre.step_own hid (hfrag c (hmem hc) hid) hmissing' fun d hd => ?_).1 fun h =>
        hmissing (h.mono hsub)).1
      exact htime c (hmem hc) d (hmem (hsub hd))
    · refine hpre.lookup_other hid hmissing' fun d hd => ?_
      exact htime c (hmem hc) d (hmem (List.mem_append_left _ hd))
  · have hl : last ∈ calls ++ [last] := List.mem_append_right _ (List.mem_singleton_self last)
    exact ((htracks calls (List.prefix_refl calls)).step_own hlast (hfrag last hl hlast) hmissing
      (htime last hl)).2 hall

/-- A fragment without headers. -/
def bareFragment (h : FragmentationHeader) (data : Bytes) : FragmentMeta where
  type := msgData
  compressionHeader := none
  reliabilityHeader := none
  fragmentationHeader := some h
  data := data
  dataOffset := 5
  header := h
  has_header := rfl

/-- The second fragment of message 7 overtakes the first. -/
theorem reassembly_overtaking :
    let secondHalf : Call := ⟨.listed, 5, bareFragment ⟨7, 1, true⟩ [3]⟩
    let firstHalf : Call := ⟨.listed, 6, bareFragment ⟨7, 0, false⟩ [1, 2]⟩
    (((({} : FragmentStore).step secondHalf).2).step firstHalf).1 =
      .ok (some { type := 0, compressionHeader := none, reliabilityHeader := none, fragmentationHeader := none,
                  data := [1, 2, 3], dataOffset := 0 }) := by
  intro secondHalf firstHalf
  have hfrag : ∀ c ∈ [secondHalf] ++ [firstHalf], c.id = 7 →
      IsFragmentOf ⟨[[1, 2], [3]], none, none, by decide, by decide⟩ c.message := by
    intro c hc _
    rcases List.mem_cons.mp hc with rfl | hc
    · exact ⟨by decide, by decide, by decide, by decide⟩
    · rw [List.mem_singleton.mp hc]
      exact ⟨by decide, by decide, by decide, by decide⟩
  refine (reassembly [] _ 7 [secondHalf] firstHalf rfl hfrag (by decide) (by decide) rfl ?_ ?_).2.1
  · intro hall
    obtain ⟨j, hj, c, hc, -, hidx⟩ := hall 0 (by decide)
    rw [List.mem_singleton.mp hc] at hidx
    rw [← hidx] at hj
    exact absurd hj (by decide)
  · intro i hi
    have hcases : i = 0 ∨ i = 1 := by
      have : i < 2 := hi
      omega
    rcases hcases with rfl | rfl
    · exact ⟨0, rfl, firstHalf, by simp, rfl, rfl⟩
    · exact ⟨1, rfl, secondHalf, by simp, rfl, rfl⟩

end FragmentStore

end Qunet
