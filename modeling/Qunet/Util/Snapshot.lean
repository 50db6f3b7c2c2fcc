import Qunet.Util.StatTracker
import Mathlib.Data.List.Pairwise
import Mathlib.Algebra.Order.BigOperators.Group.List
import Mathlib.Order.Lattice.Nat

/-!
# Snapshots of the statistics (`StatTracker::snapshot`)

* `walkBack` : the two loops that find the first packet, or message, of the period;
* `snapshot` : what is counted over them, by direction;
* `drop_walkBack` : behind a monotone clock the walk finds exactly what is not too old;
* `direction_foldl` : the packet counters of a direction depend on its packets alone;
* `minPacketSize_foldl`, `maxPacketSize_foldl_eq_iff` : the extrema that the loop arrives at;
* `Aggregable` : the sizes whose aggregates are true.
-/

namespace Qunet
open Lib

/-- The fields of `StatSnapshot` that exist for both directions, the ratios apart. -/
structure DirectionStats where
  bytes : Nat := 0
  messages : Nat := 0
  packets : Nat := 0
  minPacketSize : Nat := 0
  maxPacketSize : Nat := 0
  compressed : Nat := 0
  compSavedBytes : Nat := 0
  reliable : Nat := 0
  deriving DecidableEq

structure StatSnapshot where
  up : DirectionStats := {}
  down : DirectionStats := {}
  rel : RelStats := {}
  deriving DecidableEq

namespace DirectionStats

def avgPacketSize (d : DirectionStats) : Nat := d.bytes / d.packets

def countMessage (msg : StatMessage) (d : DirectionStats) : DirectionStats :=
  let d := { d with messages := d.messages + 1 }
  let d := match msg.compressedBytes with
    | some compressedBytes =>
      if 0 < msg.bytes then
        { d with
          compressed := d.compressed + 1
          compSavedBytes := (d.compSavedBytes + (msg.bytes + (2 ^ 64 - compressedBytes))) % 2 ^ 64 }
      else d
    | none => d
  if msg.relHeader.isSome then { d with reliable := d.reliable + 1 } else d

def countPacket (bytes : Nat) (d : DirectionStats) : DirectionStats :=
  let d := { d with packets := d.packets + 1, bytes := (d.bytes + bytes) % 2 ^ 64 }
  if bytes < d.minPacketSize then { d with minPacketSize := bytes }
  else if d.maxPacketSize < bytes then { d with maxPacketSize := bytes }
  else d

/-- `SMAX` (`sizeMax`) stands for no minimum. -/
def closeMin (d : DirectionStats) : DirectionStats :=
  if d.minPacketSize = sizeMax then { d with minPacketSize := 0 } else d

end DirectionStats

namespace StatSnapshot

/-- Count something of one direction. -/
def count (up : Bool) (f : DirectionStats → DirectionStats) (snap : StatSnapshot) : StatSnapshot :=
  if up then { snap with up := f snap.up } else { snap with down := f snap.down }

def direction (up : Bool) (snap : StatSnapshot) : DirectionStats := if up then snap.up else snap.down

end StatSnapshot

/-- `while (pstart != begin) { pstart = prev; if (too old) { pstart = next; break; } }`. -/
def walkBack {α : Type} (tooOld : α → Bool) (xs : List α) : Nat → Nat
  | 0 => 0
  | pstart + 1 => if xs[pstart]?.any tooOld then pstart + 1 else walkBack tooOld xs pstart

/-- `span(pstart, pend)`. -/
def windowOf {α : Type} (timestamp : α → Nat) (now period : Nat) (xs : List α) : List α :=
  if period = 0 then xs
  else xs.drop (walkBack (fun x => decide (period < now - timestamp x)) xs xs.length)

def StatTracker.snapshot (past : Nat → UInt16) (now period : Nat) (t : StatTracker) : StatSnapshot :=
  let packets := windowOf StatPacket.timestamp now period t.packets
  let messages := windowOf StatMessage.timestamp now period t.messages
  let snap : StatSnapshot := { up := { minPacketSize := sizeMax }, down := { minPacketSize := sizeMax } }
  let snap := messages.foldl (fun snap msg => snap.count msg.up (DirectionStats.countMessage msg)) snap
  let snap := { snap with rel := StatTracker.countRelStats past messages }
  let snap := packets.foldl (fun snap p => snap.count p.up (DirectionStats.countPacket p.bytes)) snap
  { snap with down := snap.down.closeMin, up := snap.up.closeMin }

/-! ## The window -/

section Window
variable {α : Type}

/-- The walk does not look behind its start. -/
theorem walkBack_append (tooOld : α → Bool) (xs ys : List α) {n : Nat} (h : n ≤ xs.length) :
    walkBack tooOld (xs ++ ys) n = walkBack tooOld xs n := by
  induction n with
  | zero => rfl
  | succ n ih =>
    unfold walkBack
    rw [List.getElem?_append_left (by omega), ih (by omega)]

theorem walkBack_le (tooOld : α → Bool) (xs : List α) (n : Nat) : walkBack tooOld xs n ≤ n := by
  induction n with
  | zero => exact le_rfl
  | succ n ih =>
    unfold walkBack
    split <;> omega

/-- Where everything before something too old is too old, the walk finds exactly what is not. -/
theorem drop_walkBack (tooOld : α → Bool) (xs : List α)
    (h : xs.Pairwise fun a b => tooOld b = true → tooOld a = true) :
    xs.drop (walkBack tooOld xs xs.length) = xs.filter fun x => !tooOld x := by
  induction xs using List.reverseRecOn with
  | nil => rfl
  | append_singleton xs x ih =>
    obtain ⟨hxs, -, hlast⟩ := List.pairwise_append.mp h
    have hlook : (xs ++ [x])[xs.length]? = some x := by simp
    rw [List.length_append, List.length_singleton]
    unfold walkBack
    rw [hlook, Option.any_some]
    by_cases hold : tooOld x = true
    · have hnone : xs.filter (fun x => !tooOld x) = [] := by
        rw [List.filter_eq_nil_iff]
        intro a ha
        simp [hlast a ha x (List.mem_singleton.mpr rfl) hold]
      rw [if_pos hold, List.drop_eq_nil_of_le (by simp), List.filter_append, hnone]
      simp [hold]
    · rw [if_neg hold, walkBack_append tooOld xs [x] le_rfl,
        List.drop_append_of_le_length (walkBack_le tooOld xs _), ih hxs, List.filter_append]
      simp [hold]

/-- Under a clock that does not go back the window is what is not older than the period. -/
theorem windowOf_eq_filter {timestamp : α → Nat} {xs : List α}
    (h : xs.Pairwise fun a b => timestamp a ≤ timestamp b) (now period : Nat) :
    windowOf timestamp now period xs =
      xs.filter fun x => decide (period = 0 ∨ now - timestamp x ≤ period) := by
  unfold windowOf
  by_cases hzero : period = 0
  · simp [hzero]
  · have hold : xs.Pairwise fun a b =>
        decide (period < now - timestamp b) = true → decide (period < now - timestamp a) = true := by
      refine h.imp fun hab => ?_
      simp only [decide_eq_true_eq]
      omega
    rw [if_neg hzero, drop_walkBack _ _ hold]
    refine List.filter_congr fun x _ => ?_
    rw [Bool.eq_iff_iff]
    simp [hzero]

end Window

/-! ## One direction -/

namespace StatSnapshot

@[simp] theorem direction_count (up dir : Bool) (f : DirectionStats → DirectionStats) (snap : StatSnapshot) :
    (snap.count up f).direction dir = if up = dir then f (snap.direction dir) else snap.direction dir := by
  cases up <;> cases dir <;> rfl

/-- A loop that counts by direction counts the things of each direction by themselves. -/
theorem direction_foldl {α : Type} (up : α → Bool) (f : α → DirectionStats → DirectionStats) (xs : List α)
    (dir : Bool) (snap : StatSnapshot) :
    (xs.foldl (fun snap x => snap.count (up x) (f x)) snap).direction dir =
      (xs.filter fun x => up x == dir).foldl (fun d x => f x d) (snap.direction dir) := by
  induction xs generalizing snap with
  | nil => rfl
  | cons x xs ih =>
    rw [List.foldl_cons, ih, direction_count, List.filter_cons]
    by_cases hx : up x = dir
    · simp [hx]
    · simp [hx]

end StatSnapshot

namespace DirectionStats

/-- Messages are counted beside the packets. -/
theorem countMessage_packets (msg : StatMessage) (d : DirectionStats) :
    (d.countMessage msg).packets = d.packets ∧ (d.countMessage msg).bytes = d.bytes ∧
      (d.countMessage msg).minPacketSize = d.minPacketSize ∧
      (d.countMessage msg).maxPacketSize = d.maxPacketSize := by
  unfold countMessage
  dsimp only
  split <;> split <;> (try split) <;> exact ⟨rfl, rfl, rfl, rfl⟩

/-! ### The loop over the packet sizes -/

@[simp] theorem packets_countPacket (bytes : Nat) (d : DirectionStats) :
    (d.countPacket bytes).packets = d.packets + 1 := by
  unfold countPacket
  dsimp only
  split
  · rfl
  · split <;> rfl

@[simp] theorem bytes_countPacket (bytes : Nat) (d : DirectionStats) :
    (d.countPacket bytes).bytes = (d.bytes + bytes) % 2 ^ 64 := by
  unfold countPacket
  dsimp only
  split
  · rfl
  · split <;> rfl

theorem packets_foldl (sizes : List Nat) (d : DirectionStats) :
    (sizes.foldl (fun d bytes => d.countPacket bytes) d).packets = d.packets + sizes.length := by
  induction sizes generalizing d with
  | nil => rfl
  | cons bytes sizes ih =>
    rw [List.foldl_cons, ih, packets_countPacket, List.length_cons]
    omega

theorem bytes_foldl (sizes : List Nat) (d : DirectionStats) :
    (sizes.foldl (fun d bytes => d.countPacket bytes) d).bytes % 2 ^ 64 = (d.bytes + sizes.sum) % 2 ^ 64 := by
  induction sizes generalizing d with
  | nil => rfl
  | cons bytes sizes ih =>
    rw [List.foldl_cons, ih, bytes_countPacket, List.sum_cons]
    omega

theorem bytes_foldl_lt (sizes : List Nat) {d : DirectionStats} (h : d.bytes < 2 ^ 64) :
    (sizes.foldl (fun d bytes => d.countPacket bytes) d).bytes < 2 ^ 64 := by
  induction sizes generalizing d with
  | nil => exact h
  | cons bytes sizes ih =>
    refine ih ?_
    rw [bytes_countPacket]
    exact Nat.mod_lt _ (by decide)

theorem minPacketSize_countPacket (bytes : Nat) (d : DirectionStats) :
    (d.countPacket bytes).minPacketSize = min d.minPacketSize bytes := by
  unfold countPacket
  dsimp only
  split
  · rename_i hsmall
    exact (min_eq_right hsmall.le).symm
  · rename_i hlarge
    rw [min_eq_left (Nat.le_of_not_lt hlarge)]
    split <;> rfl

theorem minPacketSize_foldl (sizes : List Nat) (d : DirectionStats) :
    (sizes.foldl (fun d bytes => d.countPacket bytes) d).minPacketSize = sizes.foldl min d.minPacketSize := by
  induction sizes generalizing d with
  | nil => rfl
  | cons bytes sizes ih => rw [List.foldl_cons, ih, minPacketSize_countPacket, List.foldl_cons]

/-- A packet that sets the minimum does not count for the maximum. -/
theorem maxPacketSize_countPacket (bytes : Nat) (d : DirectionStats) :
    (d.countPacket bytes).maxPacketSize =
      if bytes < d.minPacketSize then d.maxPacketSize else max d.maxPacketSize bytes := by
  unfold countPacket
  dsimp only
  split
  · rfl
  · split
    · rename_i hlarger
      exact (max_eq_right hlarger.le).symm
    · rename_i hsmaller
      exact (max_eq_left (Nat.le_of_not_lt hsmaller)).symm

theorem maxPacketSize_foldl_le (sizes : List Nat) (d : DirectionStats) :
    d.maxPacketSize ≤ (sizes.foldl (fun d bytes => d.countPacket bytes) d).maxPacketSize := by
  induction sizes generalizing d with
  | nil => exact le_rfl
  | cons bytes sizes ih =>
    refine le_trans ?_ (ih (d.countPacket bytes))
    rw [maxPacketSize_countPacket]
    split
    · exact le_rfl
    · exact le_max_left _ _

/-- What is not below the minimum at the start counts for the maximum. -/
theorem le_maxPacketSize_foldl {sizes : List Nat} {d : DirectionStats} {bytes : Nat} (h : bytes ∈ sizes)
    (hmin : d.minPacketSize ≤ bytes) :
    bytes ≤ (sizes.foldl (fun d bytes => d.countPacket bytes) d).maxPacketSize := by
  induction sizes generalizing d with
  | nil => cases h
  | cons first sizes ih =>
    rw [List.foldl_cons]
    rcases List.mem_cons.mp h with rfl | hrest
    · refine le_trans ?_ (maxPacketSize_foldl_le sizes _)
      rw [maxPacketSize_countPacket, if_neg (by omega)]
      exact le_max_right _ _
    · refine ih hrest ?_
      rw [minPacketSize_countPacket]
      exact (min_le_left _ _).trans hmin

/-- The maximum is the one at the start or a size of the list. -/
theorem maxPacketSize_foldl_mem (sizes : List Nat) (d : DirectionStats) :
    (sizes.foldl (fun d bytes => d.countPacket bytes) d).maxPacketSize = d.maxPacketSize ∨
      (sizes.foldl (fun d bytes => d.countPacket bytes) d).maxPacketSize ∈ sizes := by
  induction sizes generalizing d with
  | nil => exact Or.inl rfl
  | cons bytes sizes ih =>
    rw [List.foldl_cons]
    rcases ih (d.countPacket bytes) with h | h
    · rw [h, maxPacketSize_countPacket]
      split
      · exact Or.inl rfl
      · rcases max_choice d.maxPacketSize bytes with hmax | hmax
        · exact Or.inl hmax
        · exact Or.inr (by rw [hmax]; exact List.mem_cons_self)
    · exact Or.inr (List.mem_cons_of_mem _ h)

/-- Where nothing is greater than `top`, the maximum gets there from the start or with a size of the list. -/
theorem maxPacketSize_foldl_eq_iff {sizes : List Nat} {d : DirectionStats} {top : Nat}
    (hle : ∀ bytes ∈ sizes, bytes ≤ top) (hmin : d.minPacketSize ≤ top) (hmax : d.maxPacketSize ≤ top) :
    (sizes.foldl (fun d bytes => d.countPacket bytes) d).maxPacketSize = top ↔ d.maxPacketSize = top ∨ top ∈ sizes := by
  have hbound : (sizes.foldl (fun d bytes => d.countPacket bytes) d).maxPacketSize ≤ top := by
    rcases maxPacketSize_foldl_mem sizes d with hstart | hsize
    · rwa [hstart]
    · exact hle _ hsize
  constructor
  · intro h
    rw [← h]
    exact (maxPacketSize_foldl_mem sizes d).imp Eq.symm id
  · rintro (hstart | hsize)
    · exact le_antisymm hbound (hstart.symm.trans_le (maxPacketSize_foldl_le sizes d))
    · exact le_antisymm hbound (le_maxPacketSize_foldl hsize hmin)

/-! ### The line behind the loop -/

section
variable (d : DirectionStats)

@[simp] theorem closeMin_packets : d.closeMin.packets = d.packets := by
  unfold closeMin
  split <;> rfl

@[simp] theorem closeMin_bytes : d.closeMin.bytes = d.bytes := by
  unfold closeMin
  split <;> rfl

@[simp] theorem closeMin_maxPacketSize : d.closeMin.maxPacketSize = d.maxPacketSize := by
  unfold closeMin
  split <;> rfl

theorem closeMin_minPacketSize :
    d.closeMin.minPacketSize = if d.minPacketSize = sizeMax then 0 else d.minPacketSize := by
  unfold closeMin
  split <;> rfl

end

/-! ### When the aggregates are true -/

/-- The count, the sum, the extrema and with them the average of so many packets. -/
def TrueOf (sizes : List Nat) (d : DirectionStats) : Prop :=
  d.packets = sizes.length ∧ d.bytes = sizes.sum ∧ d.minPacketSize = sizes.min?.getD 0 ∧
    d.maxPacketSize = sizes.max?.getD 0 ∧
    (0 < d.packets → d.minPacketSize ≤ d.avgPacketSize ∧ d.avgPacketSize ≤ d.maxPacketSize)

/-- The sizes whose aggregates come out true: the sum is a `size_t`, they are not all the greatest one, and the first
packet, which sets the minimum, is not the only greatest one. -/
def Aggregable : List Nat → Prop
  | [] => True
  | first :: rest =>
    (first :: rest).sum < 2 ^ 64 ∧ (∃ bytes ∈ first :: rest, bytes < sizeMax) ∧
      (first = 0 ∨ first = sizeMax ∨ ∃ bytes ∈ rest, first ≤ bytes)

/-- An average lies between the extrema. -/
theorem min_le_avg_le_max {sizes : List Nat} (h : sizes ≠ []) :
    sizes.min?.getD 0 ≤ sizes.sum / sizes.length ∧ sizes.sum / sizes.length ≤ sizes.max?.getD 0 := by
  have hpos : 0 < sizes.length := List.length_pos_iff.mpr h
  obtain ⟨least, hleast⟩ := Option.isSome_iff_exists.mp (List.isSome_min?_iff.mpr h)
  obtain ⟨greatest, hgreatest⟩ := Option.isSome_iff_exists.mp (List.isSome_max?_iff.mpr h)
  rw [hleast, hgreatest, Option.getD_some, Option.getD_some]
  constructor
  · rw [Nat.le_div_iff_mul_le hpos, mul_comm]
    exact List.card_nsmul_le_sum sizes least fun x hx => (List.min?_eq_some_iff.mp hleast).2 x hx
  · refine Nat.div_le_of_le_mul ?_
    exact List.sum_le_card_nsmul sizes greatest fun x hx => (List.max?_eq_some_iff.mp hgreatest).2 x hx

/-- No packet was counted. -/
def NoPackets (d : DirectionStats) : Prop :=
  d.packets = 0 ∧ d.bytes = 0 ∧ d.minPacketSize = sizeMax ∧ d.maxPacketSize = 0

section
variable {d : DirectionStats} {first : Nat} {rest : List Nat}

theorem bytes_true_iff (hd : d.NoPackets) (sizes : List Nat) :
    (sizes.foldl (fun d bytes => d.countPacket bytes) d).bytes = sizes.sum ↔ sizes.sum < 2 ^ 64 := by
  obtain ⟨-, hbytes, -, -⟩ := hd
  have hlt := bytes_foldl_lt sizes (d := d) (by omega)
  have hmod := bytes_foldl sizes d
  rw [hbytes, Nat.zero_add, Nat.mod_eq_of_lt hlt] at hmod
  rw [hmod]
  constructor
  · intro h
    rw [← h]
    exact Nat.mod_lt _ (by decide)
  · exact Nat.mod_eq_of_lt

/-- The minimum is lost where it is the greatest size of all. -/
theorem minPacketSize_true_iff (hd : d.NoPackets) (hlt : first ≤ sizeMax) :
    ((first :: rest).foldl (fun d bytes => d.countPacket bytes) d).closeMin.minPacketSize =
        (first :: rest).min?.getD 0 ↔ ∃ bytes ∈ first :: rest, bytes < sizeMax := by
  obtain ⟨-, -, hmin, -⟩ := hd
  have hfold : ((first :: rest).foldl (fun d bytes => d.countPacket bytes) d).minPacketSize = rest.foldl min first := by
    rw [minPacketSize_foldl, hmin, List.foldl_cons, min_eq_right hlt]
  have hleast : (first :: rest).min? = some (rest.foldl min first) := List.min?_cons'
  obtain ⟨hmem, hle⟩ := List.min?_eq_some_iff.mp hleast
  have hmax : rest.foldl min first ≤ sizeMax := (hle first List.mem_cons_self).trans hlt
  rw [closeMin_minPacketSize, hfold, hleast, Option.getD_some]
  by_cases hall : rest.foldl min first = sizeMax
  · rw [if_pos hall, hall]
    refine iff_of_false (by decide) ?_
    rintro ⟨bytes, hbytes, hsmall⟩
    have hge := hle bytes hbytes
    omega
  · rw [if_neg hall]
    exact iff_of_true rfl ⟨_, hmem, by omega⟩

/-- The maximum is lost where the first packet is the only greatest one. -/
theorem maxPacketSize_true_iff (hd : d.NoPackets) (hlt : ∀ bytes ∈ first :: rest, bytes ≤ sizeMax) :
    ((first :: rest).foldl (fun d bytes => d.countPacket bytes) d).closeMin.maxPacketSize =
        (first :: rest).max?.getD 0 ↔ first = 0 ∨ first = sizeMax ∨ ∃ bytes ∈ rest, first ≤ bytes := by
  obtain ⟨-, -, hmin, hzero⟩ := hd
  obtain ⟨greatest, hgreatest⟩ := Option.isSome_iff_exists.mp
    (List.isSome_max?_iff.mpr (List.cons_ne_nil first rest))
  obtain ⟨hmem, hle⟩ := List.max?_eq_some_iff.mp hgreatest
  have hfirst := hlt first List.mem_cons_self
  have hbound := hlt greatest hmem
  have hlarge := hle first List.mem_cons_self
  -- nothing is smaller than the sentinel, so only a first packet of that size counts for the maximum
  have hheadMin : (d.countPacket first).minPacketSize = first := by
    rw [minPacketSize_countPacket, hmin, min_eq_right hfirst]
  have hheadMax : (d.countPacket first).maxPacketSize = if first < sizeMax then 0 else first := by
    rw [maxPacketSize_countPacket, hmin, hzero, max_eq_right (Nat.zero_le first)]
  have hfold := maxPacketSize_foldl_eq_iff (d := d.countPacket first)
    (fun bytes hbytes => hle bytes (List.mem_cons_of_mem _ hbytes)) (by omega) (by rw [hheadMax]; split <;> omega)
  rw [closeMin_maxPacketSize, hgreatest, Option.getD_some, List.foldl_cons, hfold, hheadMax]
  constructor
  · rintro (hhead | htail)
    · split at hhead
      · exact Or.inl (by omega)
      · exact Or.inr (Or.inl (by omega))
    · exact Or.inr (Or.inr ⟨greatest, htail, hlarge⟩)
  · intro h
    rcases List.mem_cons.mp hmem with hhead | htail
    · -- the first packet is a greatest one
      rcases h with hnone | hsentinel | ⟨bytes, hbytes, hfirstLe⟩
      · exact Or.inl (by split <;> omega)
      · exact Or.inl (by rw [if_neg (by omega), hhead])
      · have hsame : bytes = greatest := by
          have hbytesLe := hle bytes (List.mem_cons_of_mem _ hbytes)
          omega
        exact Or.inr (hsame ▸ hbytes)
    · exact Or.inr htail

end

/-- What the loop and the line behind it make of some sizes is true exactly if they are aggregable. -/
theorem trueOf_iff {d : DirectionStats} (hd : d.NoPackets) {sizes : List Nat} (hlt : ∀ bytes ∈ sizes, bytes ≤ sizeMax) :
    TrueOf sizes (sizes.foldl (fun d bytes => d.countPacket bytes) d).closeMin ↔ Aggregable sizes := by
  have hbytes := bytes_true_iff hd sizes
  have hpackets : (sizes.foldl (fun d bytes => d.countPacket bytes) d).packets = sizes.length := by
    rw [packets_foldl, hd.1, Nat.zero_add]
  unfold TrueOf
  rw [closeMin_packets, closeMin_bytes, hpackets, hbytes]
  cases sizes with
  | nil =>
    refine iff_of_true ⟨rfl, by simp, ?_, ?_, by simp⟩ trivial
    · rw [closeMin_minPacketSize, List.foldl_nil, if_pos hd.2.2.1]
      rfl
    · rw [closeMin_maxPacketSize, List.foldl_nil]
      exact hd.2.2.2
  | cons first rest =>
    rw [minPacketSize_true_iff hd (hlt first List.mem_cons_self), maxPacketSize_true_iff hd hlt]
    constructor
    · rintro ⟨-, hsum, hmin, hmax, -⟩
      exact ⟨hsum, hmin, hmax⟩
    · rintro ⟨hsum, hmin, hmax⟩
      refine ⟨rfl, hsum, hmin, hmax, fun _ => ?_⟩
      have havg : ((first :: rest).foldl (fun d bytes => d.countPacket bytes) d).closeMin.avgPacketSize =
          (first :: rest).sum / (first :: rest).length := by
        unfold avgPacketSize
        rw [closeMin_packets, closeMin_bytes, hpackets, hbytes.mpr hsum]
      rw [havg, (minPacketSize_true_iff hd (hlt first List.mem_cons_self)).mpr hmin,
        (maxPacketSize_true_iff hd hlt).mpr hmax]
      exact min_le_avg_le_max (List.cons_ne_nil _ _)

end DirectionStats

/-! ## Snapshots of recorded packets -/

/-- A call of `onUpPacket` or `onDownPacket`, with the instant it happens at. -/
structure PacketCall where
  up : Bool
  now : Nat
  bytes : UInt64

namespace PacketCall

def record (t : StatTracker) (call : PacketCall) : StatTracker :=
  if call.up then t.onUpPacket call.now call.bytes.toNat else t.onDownPacket call.now call.bytes.toNat

/-- An enabled tracker after the calls, whatever messages it has recorded. -/
def recorded (messages : List StatMessage) (calls : List PacketCall) : StatTracker :=
  calls.foldl record { messages := messages }

/-- The sizes of one direction that are not older than the period; for period zero all of them. -/
def sizesIn (up : Bool) (now period : Nat) (calls : List PacketCall) : List Nat :=
  (calls.filter fun call => call.up == up && decide (period = 0 ∨ now - call.now ≤ period)).map (·.bytes.toNat)

theorem packets_record {t : StatTracker} (h : t.enabled = true) (calls : List PacketCall) :
    (calls.foldl record t).packets = t.packets ++ calls.map fun call => ⟨call.now, call.bytes.toNat, call.up⟩ := by
  induction calls generalizing t with
  | nil => exact (List.append_nil _).symm
  | cons call calls ih =>
    have hrecord : record t call =
        { t with packets := t.packets ++ [⟨call.now, call.bytes.toNat, call.up⟩] } := by
      unfold record StatTracker.onUpPacket StatTracker.onDownPacket StatTracker.onPacket
      rw [h]
      cases hup : call.up <;> simp
    rw [List.foldl_cons, hrecord, ih (by exact h), List.map_cons, List.append_assoc]
    rfl

/-- The window of one direction in the packets that the calls recorded. -/
theorem sizes_window {messages : List StatMessage} {calls : List PacketCall}
    (hclock : calls.Pairwise fun a b => a.now ≤ b.now) (up : Bool) (now period : Nat) :
    ((windowOf StatPacket.timestamp now period (recorded messages calls).packets).filter fun p => p.up == up).map
      StatPacket.bytes = sizesIn up now period calls := by
  have hpackets := packets_record (t := { messages := messages }) rfl calls
  have hsorted : (recorded messages calls).packets.Pairwise fun a b => a.timestamp ≤ b.timestamp := by
    unfold recorded
    rw [hpackets, List.nil_append, List.pairwise_map]
    exact hclock
  rw [windowOf_eq_filter hsorted, List.filter_filter]
  unfold recorded
  rw [hpackets, List.nil_append, List.filter_map, List.map_map]
  rfl

end PacketCall

namespace StatSnapshot

/-- The counters of one direction: the messages are counted first, then the packets of the window. -/
theorem direction_snapshot (past : Nat → UInt16) (now period : Nat) (t : StatTracker) (up : Bool) :
    ∃ d : DirectionStats, d.NoPackets ∧ (t.snapshot past now period).direction up =
      ((((windowOf StatPacket.timestamp now period t.packets).filter fun p => p.up == up).map
        StatPacket.bytes).foldl (fun d bytes => d.countPacket bytes) d).closeMin := by
  have hmessages (messages : List StatMessage) {d : DirectionStats} (hd : d.NoPackets) :
      (messages.foldl (fun d msg => d.countMessage msg) d).NoPackets := by
    induction messages generalizing d with
    | nil => exact hd
    | cons msg messages ih =>
      obtain ⟨hpackets, hbytes, hmin, hmax⟩ := d.countMessage_packets msg
      refine ih ?_
      unfold DirectionStats.NoPackets
      rw [hpackets, hbytes, hmin, hmax]
      exact hd
  have hclosed (snap : StatSnapshot) (rel : RelStats) :
      ({ snap with down := snap.down.closeMin, up := snap.up.closeMin } : StatSnapshot).direction up =
        (snap.direction up).closeMin ∧ ({ snap with rel := rel } : StatSnapshot).direction up = snap.direction up := by
    cases up <;> exact ⟨rfl, rfl⟩
  refine ⟨_, hmessages ((windowOf StatMessage.timestamp now period t.messages).filter fun msg => msg.up == up)
    (d := { minPacketSize := sizeMax }) ⟨rfl, rfl, rfl, rfl⟩, ?_⟩
  unfold StatTracker.snapshot
  dsimp only
  rw [(hclosed _ {}).1, direction_foldl StatPacket.up (fun p d => d.countPacket p.bytes), (hclosed _ _).2,
    direction_foldl StatMessage.up (fun msg d => d.countMessage msg), List.foldl_map]
  cases up <;> rfl

/-- A snapshot is true of the packets of a direction in its period exactly if their sizes are aggregable. -/
theorem snapshot_true_iff (past : Nat → UInt16) (messages : List StatMessage) {calls : List PacketCall}
    (hclock : calls.Pairwise fun a b => a.now ≤ b.now) (now period : Nat) (up : Bool) :
    DirectionStats.TrueOf (PacketCall.sizesIn up now period calls)
        (((PacketCall.recorded messages calls).snapshot past now period).direction up) ↔
      DirectionStats.Aggregable (PacketCall.sizesIn up now period calls) := by
  obtain ⟨d, hd, hsnapshot⟩ := direction_snapshot past now period (PacketCall.recorded messages calls) up
  rw [hsnapshot, PacketCall.sizes_window hclock]
  refine DirectionStats.trueOf_iff hd fun bytes hbytes => ?_
  obtain ⟨call, -, rfl⟩ := List.mem_map.mp hbytes
  exact Nat.le_sub_one_of_lt call.bytes.toNat_lt

theorem snapshot_true_two_packets :
    [(⟨true, 0, 60⟩ : PacketCall), ⟨true, 5, 70⟩].Pairwise (fun a b => a.now ≤ b.now) ∧
      (DirectionStats.TrueOf (PacketCall.sizesIn true 9 5 [⟨true, 0, 60⟩, ⟨true, 5, 70⟩])
        (((PacketCall.recorded [] [⟨true, 0, 60⟩, ⟨true, 5, 70⟩]).snapshot (fun _ => 0) 9 5).direction true) ↔
        DirectionStats.Aggregable (PacketCall.sizesIn true 9 5 [⟨true, 0, 60⟩, ⟨true, 5, 70⟩])) :=
  ⟨by simp, snapshot_true_iff _ _ (by simp) _ _ _⟩

/-- After a single packet of 100 bytes the maximum is still 0. -/
theorem snapshot_single_packet :
    ¬ ∀ (past : Nat → UInt16) (messages : List StatMessage) (calls : List PacketCall),
      calls.Pairwise (fun a b => a.now ≤ b.now) → ∀ (now period : Nat) (up : Bool),
        DirectionStats.TrueOf (PacketCall.sizesIn up now period calls)
          (((PacketCall.recorded messages calls).snapshot past now period).direction up) := by
  intro h
  obtain ⟨-, -, -, hmax, -⟩ := h (fun _ => 0) [] [⟨true, 0, 100⟩] (by simp) 0 0 true
  exact absurd hmax (by decide)

end StatSnapshot

end Qunet
