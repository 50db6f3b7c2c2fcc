import Qunet.Udp.FragmentIntegrity

/-!
# Stale fragments

* `Timed` : a store with the calls whose fragments each entry holds, and the clock;
* `TimedInv` : an entry is made of its recorded calls, in their order;
* `FreshResult`, `CompletesStale` : a returned message holds no stale fragment, and the calls that make one;
* **`fresh_iff`** : the messages of a run are fresh exactly if none of its calls completes a stale entry.
-/

namespace Qunet
open Lib

namespace FragmentStore

/-- A store, the calls whose fragments are in the entry of each message id, and the last instant of the run. -/
structure Timed where
  store : FragmentStore := {}
  parts : UInt16 → List Call := fun _ => []
  clock : Nat := 0

namespace Timed

/-- The calls in the entry that `c` brings a fragment for, and `c`. -/
def partsWith (t : Timed) (c : Call) : List Call :=
  (if (t.store.entryFor c.now c.id).fragments = [] then [] else t.parts c.id) ++ [c]

/-- The clock does not go back. -/
def step (t : Timed) (c : Call) : Option Timed :=
  if t.clock ≤ c.now then
    some { store := (t.store.step c).2
           parts := if t.store.Repeats c then t.parts else Function.update t.parts c.id (t.partsWith c)
           clock := c.now }
  else none

end Timed

/-- The entry that the calls make, the first of which creates it. -/
def merged : List Call → PartialMessage
  | [] => {}
  | c :: rest => (c :: rest).foldl (fun msg c => msg.add c.message) { receivedAt := c.now, messageId := c.id }

/-- Each call comes within the expiry of the first one. -/
def Fresh (parts : List Call) : Prop := ∀ first ∈ parts.head?, ∀ c ∈ parts, c.now ≤ first.now + fragmentExpiry

/-- If the call returns a message, then that is made of recorded calls, all within the expiry of the first one. -/
def FreshResult (t : Timed) (c : Call) : Prop :=
  ∀ m, (t.store.step c).1 = .ok (some m) → (merged (t.partsWith c)).reassemble = .ok m ∧ Fresh (t.partsWith c)

/-- The call brings the last missing fragment of an entry that is older than the expiry. -/
structure CompletesStale (s : FragmentStore) (c : Call) : Prop where
  new : ¬ s.Repeats c
  complete : (s.touched c).Complete
  contiguous : contiguousFrom 0 (s.touched c).sorted = true
  stale : (s.entryFor c.now c.id).receivedAt + fragmentExpiry < c.now

/-- An entry and the calls in it. -/
structure Recorded (id : UInt16) (clock : Nat) (parts : List Call) (msg : PartialMessage) : Prop where
  merged : msg = merged parts
  ids : ∀ c ∈ parts, c.id = id
  past : ∀ c ∈ parts, c.now ≤ clock
  ordered : ∀ first ∈ parts.head?, ∀ c ∈ parts, first.now ≤ c.now

structure TimedInv (t : Timed) : Prop where
  stored : t.store.EntriesStored
  recorded : ∀ e ∈ t.store.messages.entries, Recorded e.1 t.clock (t.parts e.1) e.2

theorem foldl_receivedAt (parts : List Call) (msg : PartialMessage) :
    (parts.foldl (fun msg c => msg.add c.message) msg).receivedAt = msg.receivedAt := by
  induction parts generalizing msg with
  | nil => rfl
  | cons c parts ih =>
    rw [List.foldl_cons, ih]
    rfl

theorem merged_concat {parts : List Call} (hne : parts ≠ []) (c : Call) :
    merged (parts ++ [c]) = (merged parts).add c.message := by
  cases parts with
  | nil => exact absurd rfl hne
  | cons first rest => simp [merged]

/-- A stored entry was made by some call. -/
theorem Recorded.parts_ne_nil {id : UInt16} {clock : Nat} {parts : List Call} {msg : PartialMessage}
    (h : Recorded id clock parts msg) (hs : msg.Stored) : parts ≠ [] := by
  rintro rfl
  exact hs.nonempty (by rw [h.merged]; rfl)

theorem Recorded.later {id : UInt16} {clock clock' : Nat} {parts : List Call} {msg : PartialMessage}
    (h : Recorded id clock parts msg) (hclock : clock ≤ clock') : Recorded id clock' parts msg :=
  ⟨h.merged, h.ids, fun c hc => (h.past c hc).trans hclock, h.ordered⟩

/-- A new entry is made by one call. -/
theorem Recorded.single (c : Call) :
    Recorded c.id c.now [c] (PartialMessage.add { receivedAt := c.now, messageId := c.id } c.message) :=
  ⟨rfl, by simp, by simp, by simp⟩

theorem Recorded.concat {clock : Nat} {parts : List Call} {msg : PartialMessage} {c : Call}
    (h : Recorded c.id clock parts msg) (hs : msg.Stored) (hclock : clock ≤ c.now) :
    Recorded c.id c.now (parts ++ [c]) (msg.add c.message) := by
  have hne := h.parts_ne_nil hs
  refine ⟨by rw [merged_concat hne, ← h.merged], fun c' hc' => ?_, fun c' hc' => ?_, fun first hf c' hc' => ?_⟩
  · rcases List.mem_append.mp hc' with hc' | hc'
    · exact h.ids c' hc'
    · rw [List.mem_singleton.mp hc']
  · rcases List.mem_append.mp hc' with hc' | hc'
    · exact (h.past c' hc').trans hclock
    · rw [List.mem_singleton.mp hc']
  · rw [List.head?_append_of_ne_nil _ hne] at hf
    rcases List.mem_append.mp hc' with hc' | hc'
    · exact h.ordered first hf c' hc'
    · rw [List.mem_singleton.mp hc']
      exact (h.past first (List.mem_of_mem_head? hf)).trans hclock

/-- The entry of a call is a stored one, or the one that the call makes. -/
theorem entryFor_stored {s : FragmentStore} (h : s.EntriesStored) (now : Nat) (id : UInt16) :
    ((s.entryFor now id).fragments = [] ∧ s.entryFor now id = { receivedAt := now, messageId := id }) ∨
      ((s.entryFor now id).fragments ≠ [] ∧ s.messages.lookup id = some (s.entryFor now id)) := by
  unfold entryFor
  cases hl : s.messages.lookup id with
  | none => exact .inl ⟨rfl, rfl⟩
  | some msg =>
    have hs : msg.Stored := h _ (mem_entries.mp hl)
    have hempty : ¬ msg.fragments.isEmpty := fun he => hs.nonempty (List.isEmpty_iff.mp he)
    rw [Option.getD_some, if_neg hempty]
    exact .inr ⟨hs.nonempty, rfl⟩

/-- The entry with the fragment of the call, and what made it. -/
theorem TimedInv.touched {t : Timed} (h : TimedInv t) {c : Call} (hclock : t.clock ≤ c.now) :
    Recorded c.id c.now (t.partsWith c) (t.store.touched c) := by
  unfold Timed.partsWith FragmentStore.touched
  rcases entryFor_stored h.stored c.now c.id with ⟨hnil, hnew⟩ | ⟨hne, hl⟩
  · rw [if_pos hnil, hnew]
    exact .single c
  · have hmem := mem_entries.mp hl
    rw [if_neg hne]
    exact (h.recorded _ hmem).concat (h.stored _ hmem) hclock

theorem TimedInv.step {t t' : Timed} {c : Call} (hst : t.step c = some t') (h : TimedInv t) : TimedInv t' := by
  unfold Timed.step at hst
  split at hst
  · next hclock =>
    cases hst
    refine ⟨h.stored.step c, ?_⟩
    have hkept : ∀ e ∈ t.store.messages.entries, Recorded e.1 c.now (t.parts e.1) e.2 :=
      fun e he => (h.recorded e he).later hclock
    have htouched := h.touched hclock
    have hscanned : ∀ e ∈ (t.store.messages.insert c.id (t.store.touched c)).entries,
        Recorded e.1 c.now (Function.update t.parts c.id (t.partsWith c) e.1) e.2 := by
      intro e he
      rcases mem_insert he with rfl | ⟨hne, he⟩
      · rw [Function.update_self]
        exact htouched
      · rw [Function.update_of_ne hne]
        exact hkept e he
    have hcases := step_cases h.stored.noneComplete c
    generalize t.store.step c = r at hcases
    obtain ⟨res, s⟩ := r
    dsimp only at hcases ⊢
    cases hcases with
    | duplicate hd =>
      rw [if_pos hd]
      obtain ⟨f, hf, -⟩ := hd
      intro e he
      rcases mem_insert he with rfl | ⟨-, he⟩
      · exact hkept _ (mem_entries.mp (lookup_of_mem_entryFor hf))
      · exact hkept e he
    | added hd _ =>
      rw [if_neg hd]
      exact fun e he => hscanned e (mem_scanned he)
    | completed hd _ =>
      rw [if_neg hd]
      exact fun e he => hscanned e (mem_scanned he)
  · cases hst

/-- The last call of an entry is its latest. -/
theorem Recorded.parts_fresh_iff {t : Timed} {c : Call} (h : Recorded c.id c.now (t.partsWith c) (t.store.touched c)) :
    Fresh (t.partsWith c) ↔ c.now ≤ (t.store.entryFor c.now c.id).receivedAt + fragmentExpiry := by
  have hne : t.partsWith c ≠ [] := by simp [Timed.partsWith]
  obtain ⟨first, rest, hparts⟩ := List.exists_cons_of_ne_nil hne
  have hreceived : (t.store.entryFor c.now c.id).receivedAt = first.now := by
    have hadd : (t.store.touched c).receivedAt = (t.store.entryFor c.now c.id).receivedAt := rfl
    rw [← hadd, h.merged, hparts]
    exact foldl_receivedAt (first :: rest) _
  have hlast : c ∈ t.partsWith c := by simp [Timed.partsWith]
  rw [hreceived]
  constructor
  · intro hfresh
    exact hfresh first (by rw [hparts]; rfl) c hlast
  · intro hle first' hf c' hc'
    rw [hparts] at hf
    cases hf
    exact (h.past c' hc').trans hle

theorem freshResult_iff {t t' : Timed} {c : Call} (hst : t.step c = some t') (h : TimedInv t) :
    FreshResult t c ↔ ¬ CompletesStale t.store c := by
  have hclock : t.clock ≤ c.now := by
    by_contra hlt
    rw [Timed.step, if_neg hlt] at hst
    cases hst
  have htouched := h.touched hclock
  have hiff := htouched.parts_fresh_iff
  unfold FreshResult
  have hcases := step_cases h.stored.noneComplete c
  generalize t.store.step c = r at hcases
  obtain ⟨res, s⟩ := r
  dsimp only at hcases ⊢
  cases hcases with
  | duplicate hd => exact iff_of_true (fun m hm => by cases hm) fun hs => hs.new hd
  | added _ hc => exact iff_of_true (fun m hm => by cases hm) fun hs => hc hs.complete
  | completed hd hc =>
    by_cases hcont : contiguousFrom 0 (t.store.touched c).sorted = true
    · obtain ⟨m, hm⟩ : ∃ m, (t.store.touched c).reassemble = .ok m := by
        unfold PartialMessage.reassemble
        rw [if_pos hcont]
        exact ⟨_, rfl⟩
      rw [hm, ← htouched.merged, hm, hiff]
      constructor
      · intro hfresh hs
        have hle := (hfresh m rfl).2
        have hlt := hs.stale
        omega
      · intro hs m' hm'
        cases hm'
        exact ⟨rfl, Nat.not_lt.mp fun hlt => hs ⟨hd, hc, hcont, hlt⟩⟩
    · refine iff_of_true (fun m hm => ?_) fun hs => hcont hs.contiguous
      unfold PartialMessage.reassemble at hm
      rw [if_neg hcont] at hm
      cases hm

/-- **Expiry.** At times that do not go back, the messages that a run returns hold no fragment received later than ten
seconds after the first one of their entry, exactly if no call of the run completes an entry that old: completion is
looked at before age, and age only after the new fragment was merged. -/
theorem fresh_iff (calls : List Call) :
    EveryStep Timed.step FreshResult {} calls ↔
      EveryStep Timed.step (fun t c => ¬ CompletesStale t.store c) {} calls := by
  have hinit : TimedInv {} := ⟨(fun e he => by cases he), (fun e he => by cases he)⟩
  have hstep : ∀ t c t', Timed.step t c = some t' → TimedInv t → TimedInv t' := fun t c t' hst h => h.step hst
  exact everyStep_congr hstep (fun t c t' hst h => freshResult_iff hst h) hinit calls

/-- The first fragment of a message arrives and its second one is lost. Eleven seconds later the id is used again, and
the second fragment of the later message arrives first. -/
def reusedId : List Call :=
  [⟨.listed, 0, bareFragment ⟨7, 0, false⟩ [1]⟩, ⟨.listed, 11000000000, bareFragment ⟨7, 1, true⟩ [2]⟩]

/-- What the second call returns: a part of each message. -/
def mixedMessage : QunetMessageMeta where
  type := 0
  compressionHeader := none
  reliabilityHeader := none
  fragmentationHeader := none
  data := [1, 2]
  dataOffset := 0

theorem reusedId_not_fresh : ¬ EveryStep Timed.step FreshResult {} reusedId := by
  intro h
  have hresult := ((h _ rfl).2 _ rfl).1
  have hfresh := (hresult mixedMessage rfl).2
  exact absurd (hfresh _ rfl _ (List.mem_cons_of_mem _ List.mem_cons_self)) (by decide)

end FragmentStore

end Qunet
