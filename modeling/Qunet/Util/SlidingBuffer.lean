import Qunet.Lib.Reader

/-!
# The sliding buffer (`util/SlidingBuffer.hpp`)

* `SlidingBuffer.write`, `SlidingBuffer.read` : the buffer with its two positions, sizes being 64-bit `size_t`;
* `doubled` : the growing loop of `resizeToFit`, which ends within `loopFuel` rounds or never (`doubled_stuck`);
* `write_full`, `write_fits`, `write_beyond` : what a write does where the bytes fit, where a doubled size holds them,
  and where not;
* `Room` : the writes for which the growing loop finds the right answer (`write_keeps_iff`);
* `Honours` : the capacity contract along a sequence of calls.
-/

namespace Qunet
open Lib

/-- What is not a return of a call. -/
inductive BufferFault where
  /-- The doubling loop runs for ever. -/
  | endless
  /-- `memcpy` behind the end of the vector. -/
  | overrun
  deriving DecidableEq

/-- `m_data` with the positions in it. -/
@[ext] structure SlidingBuffer where
  data : Bytes
  maxSize : Nat
  writePos : Nat := 0
  readPos : Nat := 0
  readPos_le : readPos ≤ writePos
  writePos_le : writePos ≤ data.length

/-- A block of memory, whose length is a `size_t`. -/
structure Block where
  bytes : Bytes
  size_lt : bytes.length < 2 ^ 64

/-- What `read` returns and what it copied to its pointer. -/
structure ReadReply where
  toRead : Nat
  copied : Bytes
  deriving DecidableEq

/-- `(1 << 31)`, an `int`, as the `size_t` it is compared as. -/
def sizeGuard : Nat := 2 ^ 64 - 2 ^ 31

/-- `while (current < needed) current *= 2;`, for so many rounds at most. -/
def doubled : Nat → Nat → Nat → Option Nat
  | 0, _, _ => none
  | fuel + 1, current, needed => if current < needed then doubled fuel (current * 2 % 2 ^ 64) needed else some current

/-- After 64 doublings every `size_t` is 0. -/
def loopFuel : Nat := 65

namespace SlidingBuffer

def new (initialSize maxSize : Nat) : SlidingBuffer where
  data := List.replicate initialSize 0
  maxSize := maxSize
  readPos_le := le_rfl
  writePos_le := Nat.zero_le _

def size (b : SlidingBuffer) : Nat := b.data.length

def canRead (b : SlidingBuffer) : Nat := b.writePos - b.readPos

def canWrite (b : SlidingBuffer) : Nat := b.size - b.writePos

def canWriteMax (b : SlidingBuffer) : Nat := b.maxSize - b.writePos

/-- The bytes written and not yet read. -/
def contents (b : SlidingBuffer) : Bytes := (b.data.drop b.readPos).take b.canRead

/-- `m_data.resize(current)`, for a size that is not below the present one. -/
def resized (current : Nat) (b : SlidingBuffer) : SlidingBuffer where
  data := b.data.rightpad current 0
  maxSize := b.maxSize
  writePos := b.writePos
  readPos := b.readPos
  readPos_le := b.readPos_le
  writePos_le := b.writePos_le.trans (by simp)

def resizeToFit (needed : Nat) (b : SlidingBuffer) : Except BufferFault (Bool × SlidingBuffer) :=
  if sizeGuard ≤ needed then .ok (false, b)
  else
    match doubled loopFuel b.size needed with
    | none => .error .endless
    | some current => if b.maxSize < current then .ok (false, b) else .ok (true, b.resized current)

/-- The `memcpy` at the writing position, which moves behind the bytes. -/
def copyIn (bytes : Bytes) (b : SlidingBuffer) : Except BufferFault SlidingBuffer :=
  if h : b.writePos + bytes.length ≤ b.size then
    .ok {
      data := b.data.take b.writePos ++ bytes ++ b.data.drop (b.writePos + bytes.length)
      maxSize := b.maxSize
      writePos := b.writePos + bytes.length
      readPos := b.readPos
      readPos_le := Nat.le_add_right_of_le b.readPos_le
      writePos_le := by
        have hsize : b.data.length = b.size := rfl
        simp only [List.length_append, List.length_take, List.length_drop]
        omega }
  else .error .overrun

def write (data : Block) (b : SlidingBuffer) : Except BufferFault (Bool × SlidingBuffer) := do
  if data.bytes.length = 0 then
    return (true, b)
  let (fits, b) ←
    if b.canWrite < data.bytes.length then b.resizeToFit ((b.writePos + data.bytes.length) % 2 ^ 64)
    else pure (true, b)
  if !fits then
    return (false, b)
  let b ← b.copyIn data.bytes
  return (true, b)

theorem readPos_add_le (b : SlidingBuffer) (len : Nat) : b.readPos + min len b.canRead ≤ b.writePos := by
  have hread := b.readPos_le
  unfold canRead
  omega

/-- `buffer` says whether the pointer is not null. -/
def read (buffer : Bool) (len : Nat) (b : SlidingBuffer) : ReadReply × SlidingBuffer :=
  let toRead := min len b.canRead
  if toRead = 0 then (⟨0, []⟩, b)
  else
    (⟨toRead, if buffer then (b.data.drop b.readPos).take toRead else []⟩,
      if b.readPos + toRead = b.writePos then
        -- everything was read
        ⟨b.data, b.maxSize, 0, 0, le_rfl, Nat.zero_le _⟩
      else ⟨b.data, b.maxSize, b.writePos, b.readPos + toRead, b.readPos_add_le len, b.writePos_le⟩)

end SlidingBuffer

/-! ## The growing loop -/

/-- A doubling first, then the others. -/
theorem double_mod (current i : Nat) : current * 2 % 2 ^ 64 * 2 ^ i % 2 ^ 64 = current * 2 ^ (i + 1) % 2 ^ 64 := by
  rw [Nat.mod_mul_mod, pow_succ' 2 i, mul_assoc]

theorem doubled_eq_none {fuel current needed : Nat} (hlt : current < 2 ^ 64) :
    doubled fuel current needed = none ↔ ∀ j < fuel, current * 2 ^ j % 2 ^ 64 < needed := by
  induction fuel generalizing current with
  | zero => simp [doubled]
  | succ fuel ih =>
    have h0 : current * 2 ^ 0 % 2 ^ 64 = current := by rw [pow_zero, mul_one, Nat.mod_eq_of_lt hlt]
    unfold doubled
    split
    · rename_i hsmall
      rw [ih (Nat.mod_lt _ (by decide))]
      simp only [double_mod]
      constructor
      · rintro h (_ | j) hj
        · rwa [h0]
        · exact h j (by omega)
      · intro h j hj
        exact h (j + 1) (by omega)
    · rename_i hlarge
      refine iff_of_false (by simp) fun h => hlarge ?_
      have hfirst := h 0 (by omega)
      rwa [h0] at hfirst

/-- What has not ended after `loopFuel` rounds never ends. -/
theorem doubled_stuck {current needed : Nat} (hlt : current < 2 ^ 64) (h : doubled loopFuel current needed = none)
    (j : Nat) : current * 2 ^ j % 2 ^ 64 < needed := by
  rw [doubled_eq_none hlt] at h
  by_cases hj : j < loopFuel
  · exact h j hj
  · have hpos := h 64 (by decide)
    have hdvd : 2 ^ 64 ∣ current * 2 ^ j :=
      Dvd.dvd.mul_left (pow_dvd_pow 2 (by unfold loopFuel at hj; omega)) current
    rw [Nat.mod_eq_zero_of_dvd hdvd]
    omega

/-- So many rounds decide about every number of rounds. -/
theorem doubled_none_of_loopFuel {current needed : Nat} (hlt : current < 2 ^ 64)
    (h : doubled loopFuel current needed = none) (fuel : Nat) : doubled fuel current needed = none :=
  (doubled_eq_none hlt).mpr fun j _ => doubled_stuck hlt h j

theorem le_doubled {fuel current needed p : Nat} (h : doubled fuel current needed = some p) : needed ≤ p := by
  induction fuel generalizing current with
  | zero => cases h
  | succ fuel ih =>
    unfold doubled at h
    split at h
    · exact ih h
    · cases h
      omega

/-- Without an overflow the loop finds the first of the doubled sizes that is large enough. -/
theorem doubled_first {fuel current needed p : Nat} (h : doubled fuel current needed = some p)
    (hneeded : needed ≤ 2 ^ 63) : ∃ k, p = current * 2 ^ k ∧ ∀ j < k, current * 2 ^ j < needed := by
  induction fuel generalizing current with
  | zero => cases h
  | succ fuel ih =>
    unfold doubled at h
    split at h
    · rename_i hsmall
      rw [Nat.mod_eq_of_lt (by omega)] at h
      obtain ⟨k, rfl, hbelow⟩ := ih h
      refine ⟨k + 1, by rw [pow_succ', mul_assoc], ?_⟩
      rintro (_ | j) hj
      · simpa using hsmall
      · rw [pow_succ', ← mul_assoc]
        exact hbelow j (by omega)
    · cases h
      exact ⟨0, by simp, by simp⟩

/-! ## One call -/

namespace SlidingBuffer

@[simp] theorem size_new (initialSize maxSize : Nat) : (new initialSize maxSize).size = initialSize :=
  List.length_replicate

@[simp] theorem contents_new (initialSize maxSize : Nat) : (new initialSize maxSize).contents = [] := by
  simp [contents, new, canRead]

theorem length_contents (b : SlidingBuffer) : b.contents.length = b.canRead := by
  have hle := b.writePos_le
  unfold contents canRead
  rw [List.length_take, List.length_drop]
  omega

/-! ### Growing and copying -/

@[simp] theorem size_resized (current : Nat) (b : SlidingBuffer) : (b.resized current).size = max current b.size := by
  unfold size resized List.rightpad
  dsimp only
  rw [List.length_append, List.length_replicate]
  omega

@[simp] theorem contents_resized (current : Nat) (b : SlidingBuffer) :
    (b.resized current).contents = b.contents := by
  have hread := b.readPos_le
  have hwrite := b.writePos_le
  unfold contents canRead resized List.rightpad
  dsimp only
  rw [List.drop_append_of_le_length (by omega), List.take_append_of_le_length (by rw [List.length_drop]; omega)]

/-- The bytes are queued behind the others. -/
theorem copyIn_fits {b : SlidingBuffer} {bytes : Bytes} (h : b.writePos + bytes.length ≤ b.size) :
    ∃ b', b.copyIn bytes = .ok b' ∧ b'.contents = b.contents ++ bytes ∧ b'.size = b.size ∧
      b'.maxSize = b.maxSize := by
  have hread := b.readPos_le
  have hwrite := b.writePos_le
  have hsize : b.data.length = b.size := rfl
  unfold copyIn
  rw [dif_pos h]
  refine ⟨_, rfl, ?_, ?_, rfl⟩
  · have hcount : b.writePos + bytes.length - b.readPos = b.canRead + bytes.length := by
      unfold canRead
      omega
    have htail : (b.data.take b.writePos).drop b.readPos = b.contents := by
      rw [List.drop_take]
      rfl
    unfold contents canRead
    dsimp only
    rw [hcount, List.append_assoc, List.drop_append_of_le_length (by rw [List.length_take]; omega), htail,
      ← List.append_assoc, List.take_left' (by rw [List.length_append, length_contents])]
    rfl
  · unfold size
    simp only [List.length_append, List.length_take, List.length_drop]
    omega

/-- What `resizeToFit` is asked for when the sum of the two sizes is none of `size_t`. -/
theorem resizeToFit_le {b : SlidingBuffer} {needed : Nat} (h : needed ≤ b.size) (hsize : b.size ≤ b.maxSize)
    (hmax : b.maxSize < 2 ^ 31) : b.resizeToFit needed = .ok (true, b.resized b.size) := by
  have hguard : ¬ sizeGuard ≤ needed := by
    unfold sizeGuard
    omega
  have hloop : doubled loopFuel b.size needed = some b.size := by
    unfold loopFuel doubled
    rw [if_neg (by omega)]
  unfold resizeToFit
  rw [if_neg hguard, hloop]
  exact if_neg (by omega)

/-! ### Writing -/

/-- A write that needs no growth. -/
theorem write_full {b : SlidingBuffer} {data : Block} (h : b.writePos + data.bytes.length ≤ b.size) :
    ∃ b', b.write data = .ok (true, b') ∧ b'.contents = b.contents ++ data.bytes ∧ b'.size = b.size ∧
      b'.maxSize = b.maxSize := by
  unfold write
  by_cases hlen : data.bytes.length = 0
  · rw [if_pos hlen]
    exact ⟨b, rfl, by simp [List.length_eq_zero_iff.mp hlen], rfl, rfl⟩
  · obtain ⟨b', hcopy, hb'⟩ := copyIn_fits h
    have hroom : ¬ b.canWrite < data.bytes.length := by
      unfold canWrite
      omega
    refine ⟨b', ?_, hb'⟩
    rw [if_neg hlen, if_neg hroom]
    show (do let b ← b.copyIn data.bytes; return (true, b)) = _
    rw [hcopy]
    rfl

/-- A write behind the end of the vector is what `resizeToFit` makes of it. -/
theorem write_growing {b : SlidingBuffer} {data : Block} (h : b.size < b.writePos + data.bytes.length) :
    b.write data = (b.resizeToFit ((b.writePos + data.bytes.length) % 2 ^ 64)).bind fun r =>
      if r.1 then (r.2.copyIn data.bytes).map fun b => (true, b) else .ok (false, r.2) := by
  have hwrite : b.writePos ≤ b.size := b.writePos_le
  have hroom : b.canWrite < data.bytes.length := by
    unfold canWrite
    omega
  unfold write
  rw [if_neg (by omega), if_pos hroom]
  refine congrArg (Except.bind _) (funext fun r => ?_)
  rcases r with ⟨_ | _, b⟩
  · rfl
  · show (do let b ← b.copyIn data.bytes; return (true, b)) = _
    cases b.copyIn data.bytes <;> rfl

/-- Where the loop finds a size within the limit, the bytes are written. -/
theorem write_fits {b : SlidingBuffer} {data : Block} {current : Nat}
    (h : b.size < b.writePos + data.bytes.length) (hlt : b.writePos + data.bytes.length < sizeGuard)
    (hloop : doubled loopFuel b.size (b.writePos + data.bytes.length) = some current)
    (hcurrent : current ≤ b.maxSize) :
    ∃ b', b.write data = .ok (true, b') ∧ b'.contents = b.contents ++ data.bytes ∧ b'.size = current ∧
      b'.maxSize = b.maxSize := by
  have hneeded := le_doubled hloop
  have hfits : (b.resized current).writePos + data.bytes.length ≤ (b.resized current).size := by
    rw [size_resized]
    exact hneeded.trans (le_max_left _ _)
  obtain ⟨b', hcopy, hcontents, hsize, hmax⟩ := copyIn_fits hfits
  refine ⟨b', ?_, by rw [hcontents, contents_resized], by rw [hsize, size_resized]; omega, hmax⟩
  rw [write_growing h, Nat.mod_eq_of_lt (by unfold sizeGuard at hlt; omega)]
  unfold resizeToFit
  rw [if_neg (by omega), hloop]
  dsimp only
  rw [if_neg (by omega)]
  show ((b.resized current).copyIn data.bytes).map (fun b => (true, b)) = _
  rw [hcopy]
  rfl

/-- Where the loop finds a size beyond the limit, or is not entered at all, nothing happens. -/
theorem write_beyond {b : SlidingBuffer} {data : Block} (h : b.size < b.writePos + data.bytes.length)
    (hlt : b.writePos + data.bytes.length < 2 ^ 64)
    (hloop : sizeGuard ≤ b.writePos + data.bytes.length ∨
      ∃ current, doubled loopFuel b.size (b.writePos + data.bytes.length) = some current ∧ b.maxSize < current) :
    b.write data = .ok (false, b) := by
  rw [write_growing h, Nat.mod_eq_of_lt hlt]
  unfold resizeToFit
  by_cases hguard : sizeGuard ≤ b.writePos + data.bytes.length
  · rw [if_pos hguard]
    rfl
  · obtain ⟨current, hdoubled, hmax⟩ := hloop.resolve_left hguard
    rw [if_neg hguard, hdoubled]
    dsimp only
    rw [if_pos hmax]
    rfl

/-- Where the loop does not end, the call does not. -/
theorem write_endless {b : SlidingBuffer} {data : Block} (h : b.size < b.writePos + data.bytes.length)
    (hlt : b.writePos + data.bytes.length < sizeGuard)
    (hloop : doubled loopFuel b.size (b.writePos + data.bytes.length) = none) :
    b.write data = .error .endless := by
  rw [write_growing h, Nat.mod_eq_of_lt (by unfold sizeGuard at hlt; omega)]
  unfold resizeToFit
  rw [if_neg (by omega), hloop]
  rfl

/-- A sum past `size_t` looks small: the vector is not enlarged and `memcpy` leaves it. -/
theorem write_overrun {b : SlidingBuffer} {data : Block} (h : 2 ^ 64 ≤ b.writePos + data.bytes.length)
    (hsize : b.size ≤ b.maxSize) (hmax : b.maxSize < 2 ^ 31) : b.write data = .error .overrun := by
  have hlen := data.size_lt
  have hwrite : b.writePos ≤ b.size := b.writePos_le
  have hmod : (b.writePos + data.bytes.length) % 2 ^ 64 = b.writePos + data.bytes.length - 2 ^ 64 := by omega
  have hout : ¬ (b.resized b.size).writePos + data.bytes.length ≤ (b.resized b.size).size := by
    rw [size_resized, max_self]
    show ¬ b.writePos + data.bytes.length ≤ b.size
    omega
  rw [write_growing (by omega), hmod, resizeToFit_le (by omega) hsize hmax]
  show ((b.resized b.size).copyIn data.bytes).map (fun b => (true, b)) = _
  unfold copyIn
  rw [dif_neg hout]
  rfl

/-! ### When a write is answered by its capacity -/

/-- A write of `len` bytes for which the doubling finds the right answer: the bytes fit as it is; or a doubled size
holds them within the limit; or they are beyond the limit and the loop ends, the sum being a `size_t`. -/
def Room (b : SlidingBuffer) (len : Nat) : Prop :=
  b.writePos + len ≤ b.size ∨
  (∃ k, b.writePos + len ≤ b.size * 2 ^ k ∧ b.size * 2 ^ k ≤ b.maxSize) ∨
  (b.maxSize < b.writePos + len ∧ b.writePos + len < 2 ^ 64 ∧
    (sizeGuard ≤ b.writePos + len ∨ ∃ k, b.writePos + len ≤ b.size * 2 ^ k % 2 ^ 64))

/-- The size stays within the limit, which is below 2 GiB. -/
def Bounded (b : SlidingBuffer) : Prop := b.size ≤ b.maxSize ∧ b.maxSize < 2 ^ 31

/-- The call returns, true exactly if the bytes are not more than `canWriteMax`, and leaves the buffer as it was if it
returns false. -/
def WriteKept (b : SlidingBuffer) (data : Block) : Prop :=
  ∃ fits b', b.write data = .ok (fits, b') ∧ (fits = true ↔ data.bytes.length ≤ b.canWriteMax) ∧
    (fits = false → b' = b)

/-- Within the limit: the doubled size has to be within it too. -/
theorem writeKept_iff_below {b : SlidingBuffer} {data : Block} (hb : b.Bounded)
    (h : b.size < b.writePos + data.bytes.length) (hle : b.writePos + data.bytes.length ≤ b.maxSize) :
    b.WriteKept data ↔
      ∃ k, b.writePos + data.bytes.length ≤ b.size * 2 ^ k ∧ b.size * 2 ^ k ≤ b.maxSize := by
  obtain ⟨hsize, hmax⟩ := hb
  have hguard : b.writePos + data.bytes.length < sizeGuard := by
    unfold sizeGuard
    omega
  have hcapacity : data.bytes.length ≤ b.canWriteMax := by
    unfold canWriteMax
    omega
  cases hloop : doubled loopFuel b.size (b.writePos + data.bytes.length) with
  | none =>
    refine iff_of_false ?_ ?_
    · rintro ⟨fits, b', hwrite, -⟩
      rw [write_endless h hguard hloop] at hwrite
      cases hwrite
    · rintro ⟨k, hk, hlimit⟩
      have hstuck := doubled_stuck (by omega) hloop k
      rw [Nat.mod_eq_of_lt (by omega)] at hstuck
      omega
  | some current =>
    obtain ⟨k, hcurrent, hbelow⟩ := doubled_first hloop (by omega)
    have hneeded := le_doubled hloop
    by_cases hlimit : current ≤ b.maxSize
    · obtain ⟨b', hwrite, -⟩ := write_fits h hguard hloop hlimit
      exact iff_of_true ⟨true, b', hwrite, iff_of_true rfl hcapacity, by simp⟩
        ⟨k, hcurrent ▸ hneeded, hcurrent ▸ hlimit⟩
    · refine iff_of_false ?_ ?_
      · rintro ⟨fits, b', hwrite, hfits, -⟩
        rw [write_beyond h (by unfold sizeGuard at hguard; omega) (Or.inr ⟨current, hloop, by omega⟩)] at hwrite
        cases hwrite
        exact absurd (hfits.mpr hcapacity) (by simp)
      · rintro ⟨i, hi, hsmall⟩
        have hki : k ≤ i := by
          by_contra hlt
          have hi' := hbelow i (by omega)
          omega
        have hpow : b.size * 2 ^ k ≤ b.size * 2 ^ i := Nat.mul_le_mul_left _ (Nat.pow_le_pow_right (by omega) hki)
        omega

/-- Beyond the limit: the loop has to end. -/
theorem writeKept_iff_beyond {b : SlidingBuffer} {data : Block} (hb : b.Bounded)
    (h : b.maxSize < b.writePos + data.bytes.length) (hlt : b.writePos + data.bytes.length < 2 ^ 64) :
    b.WriteKept data ↔ sizeGuard ≤ b.writePos + data.bytes.length ∨
      ∃ k, b.writePos + data.bytes.length ≤ b.size * 2 ^ k % 2 ^ 64 := by
  obtain ⟨hsize, hmax⟩ := hb
  have hwrite : b.writePos ≤ b.size := b.writePos_le
  have hcapacity : ¬ data.bytes.length ≤ b.canWriteMax := by
    unfold canWriteMax
    omega
  have hrefused (hwrite : b.write data = .ok (false, b)) : b.WriteKept data :=
    ⟨false, b, hwrite, iff_of_false (by simp) hcapacity, fun _ => rfl⟩
  by_cases hguard : sizeGuard ≤ b.writePos + data.bytes.length
  · exact iff_of_true (hrefused (write_beyond (by omega) hlt (Or.inl hguard))) (Or.inl hguard)
  · cases hloop : doubled loopFuel b.size (b.writePos + data.bytes.length) with
    | none =>
      refine iff_of_false ?_ ?_
      · rintro ⟨fits, b', hwrite, -⟩
        rw [write_endless (by omega) (by omega) hloop] at hwrite
        cases hwrite
      · rintro (hguard' | ⟨k, hk⟩)
        · exact hguard hguard'
        · have hstuck := doubled_stuck (by omega) hloop k
          omega
    | some current =>
      have hneeded := le_doubled hloop
      refine iff_of_true (hrefused (write_beyond (by omega) hlt (Or.inr ⟨current, hloop, by omega⟩))) (Or.inr ?_)
      by_contra hnone
      have hall : doubled loopFuel b.size (b.writePos + data.bytes.length) = none := by
        rw [doubled_eq_none (by omega)]
        intro j _
        by_contra hj
        exact hnone ⟨j, by omega⟩
      rw [hloop] at hall
      cases hall

/-- A write keeps to the capacity exactly where there is room for the doubling. -/
theorem writeKept_iff {b : SlidingBuffer} {data : Block} (hb : b.Bounded) :
    b.WriteKept data ↔ b.Room data.bytes.length := by
  have hbounds := hb
  obtain ⟨hsize, hmax⟩ := hbounds
  have hwrite : b.writePos ≤ b.size := b.writePos_le
  unfold Room
  by_cases hfull : b.writePos + data.bytes.length ≤ b.size
  · obtain ⟨b', hok, -⟩ := write_full hfull
    refine iff_of_true ⟨true, b', hok, iff_of_true rfl ?_, by simp⟩ (Or.inl hfull)
    unfold canWriteMax
    omega
  · by_cases hbelow : b.writePos + data.bytes.length ≤ b.maxSize
    · rw [writeKept_iff_below hb (by omega) hbelow]
      constructor
      · exact fun h => Or.inr (Or.inl h)
      · rintro (h | h | ⟨h, -⟩)
        · exact absurd h hfull
        · exact h
        · exact absurd hbelow (by omega)
    · by_cases hsum : b.writePos + data.bytes.length < 2 ^ 64
      · rw [writeKept_iff_beyond hb (by omega) hsum]
        constructor
        · exact fun h => Or.inr (Or.inr ⟨by omega, hsum, h⟩)
        · rintro (h | ⟨k, hk, hlimit⟩ | ⟨-, -, h⟩)
          · exact absurd h hfull
          · exact absurd (hk.trans hlimit) hbelow
          · exact h
      · refine iff_of_false ?_ ?_
        · rintro ⟨fits, b', hok, -⟩
          rw [write_overrun (by omega) hsize hmax] at hok
          cases hok
        · rintro (h | ⟨k, hk, hlimit⟩ | ⟨-, h, -⟩)
          · exact absurd h hfull
          · exact absurd (hk.trans hlimit) hbelow
          · exact hsum h

/-- What a write leaves that returned: the bytes are queued if it returned true, and the size is within the limit. -/
theorem write_returned {b b' : SlidingBuffer} {data : Block} {fits : Bool} (hb : b.Bounded)
    (h : b.write data = .ok (fits, b')) :
    b'.Bounded ∧ b'.contents = if fits then b.contents ++ data.bytes else b.contents := by
  obtain ⟨hsize, hmax⟩ := hb
  have hkept {b₁ : SlidingBuffer} {n : Nat} (hwrite : b.write data = .ok (true, b₁))
      (hb₁ : b₁.contents = b.contents ++ data.bytes ∧ b₁.size = n ∧ b₁.maxSize = b.maxSize) (hn : n ≤ b.maxSize) :
      b'.Bounded ∧ b'.contents = if fits then b.contents ++ data.bytes else b.contents := by
    rw [hwrite] at h
    cases h
    obtain ⟨hcontents, hn', hmax'⟩ := hb₁
    exact ⟨⟨by omega, by omega⟩, hcontents⟩
  have hrefused (hwrite : b.write data = .ok (false, b)) :
      b'.Bounded ∧ b'.contents = if fits then b.contents ++ data.bytes else b.contents := by
    rw [hwrite] at h
    cases h
    exact ⟨⟨hsize, hmax⟩, rfl⟩
  by_cases hfull : b.writePos + data.bytes.length ≤ b.size
  · obtain ⟨b₁, hwrite, hb₁⟩ := write_full hfull
    exact hkept hwrite hb₁ hsize
  · by_cases hsum : b.writePos + data.bytes.length < 2 ^ 64
    · by_cases hguard : sizeGuard ≤ b.writePos + data.bytes.length
      · exact hrefused (write_beyond (by omega) hsum (Or.inl hguard))
      · cases hloop : doubled loopFuel b.size (b.writePos + data.bytes.length) with
        | none =>
          rw [write_endless (by omega) (by omega) hloop] at h
          cases h
        | some current =>
          by_cases hlimit : current ≤ b.maxSize
          · obtain ⟨b₁, hwrite, hb₁⟩ := write_fits (by omega) (by omega) hloop hlimit
            exact hkept hwrite hb₁ hlimit
          · exact hrefused (write_beyond (by omega) hsum (Or.inr ⟨current, hloop, by omega⟩))
    · rw [write_overrun (by omega) hsize hmax] at h
      cases h

/-! ### Reading -/

/-- A read takes the first bytes of the queue; the positions may start again at 0. -/
theorem read_spec (b : SlidingBuffer) (buffer : Bool) (len : Nat) :
    (b.read buffer len).1.toRead = min len b.contents.length ∧
      (buffer = true → (b.read buffer len).1.copied = b.contents.take len) ∧
      (b.read buffer len).2.contents = b.contents.drop len ∧
      (b.read buffer len).2.size = b.size ∧ (b.read buffer len).2.maxSize = b.maxSize := by
  have hread := b.readPos_le
  have hlength := b.length_contents
  have hcanRead : b.canRead = b.writePos - b.readPos := rfl
  have hcopied : (b.data.drop b.readPos).take (min len b.canRead) = b.contents.take len := by
    unfold contents
    rw [List.take_take]
  unfold read
  dsimp only
  by_cases hzero : min len b.canRead = 0
  · rw [if_pos hzero]
    refine ⟨by rw [hlength]; exact hzero.symm, fun _ => ?_, ?_, rfl, rfl⟩
    · rw [← hcopied, hzero]
      rfl
    · rcases Nat.min_eq_zero_iff.mp hzero with hlen | hnone
      · rw [hlen, List.drop_zero]
      · rw [List.length_eq_zero_iff.mp (hlength.trans hnone), List.drop_nil]
  · rw [if_neg hzero, hlength]
    by_cases hall : b.readPos + min len b.canRead = b.writePos
    · have hnil : b.contents.drop len = [] := List.drop_eq_nil_of_le (by rw [hlength]; omega)
      rw [if_pos hall, hnil]
      refine ⟨rfl, fun hbuffer => ?_, by simp [contents, canRead], rfl, rfl⟩
      rw [if_pos hbuffer]
      exact hcopied
    · rw [if_neg hall]
      refine ⟨rfl, fun hbuffer => ?_, ?_, rfl, rfl⟩
      · rw [if_pos hbuffer]
        exact hcopied
      · have hmin : min len (b.writePos - b.readPos) = len := by omega
        unfold contents canRead
        dsimp only
        rw [List.drop_take, List.drop_drop, hmin, Nat.sub_add_eq]

theorem read_bounded {b : SlidingBuffer} (hb : b.Bounded) (buffer : Bool) (len : Nat) :
    (b.read buffer len).2.Bounded := by
  obtain ⟨-, -, -, hsize, hmax⟩ := b.read_spec buffer len
  unfold Bounded
  rw [hsize, hmax]
  exact hb

end SlidingBuffer

/-! ## Sequences of calls -/

inductive BufferCall where
  | write (data : Block)
  | read (buffer : Bool) (len : Nat)

namespace SlidingBuffer

/-- The capacity contract along the calls, `unread` being the bytes of the successful writes that were not read yet:
every call returns, a write is kept, and a read gets the first of the unread bytes. -/
def Honours : SlidingBuffer → Bytes → List BufferCall → Prop
  | _, _, [] => True
  | b, unread, .write data :: calls =>
    ∃ fits b', b.write data = .ok (fits, b') ∧ (fits = true ↔ data.bytes.length ≤ b.canWriteMax) ∧
      (fits = false → b' = b) ∧ Honours b' (if fits then unread ++ data.bytes else unread) calls
  | b, unread, .read buffer len :: calls =>
    (b.read buffer len).1.toRead = min len unread.length ∧
      (buffer = true → (b.read buffer len).1.copied = unread.take len) ∧
      Honours (b.read buffer len).2 (unread.drop len) calls

/-- Every write of the calls finds room for its doubling. -/
def RoomForAll : SlidingBuffer → List BufferCall → Prop
  | _, [] => True
  | b, .write data :: calls =>
    b.Room data.bytes.length ∧ ∀ fits b', b.write data = .ok (fits, b') → RoomForAll b' calls
  | b, .read buffer len :: calls => RoomForAll (b.read buffer len).2 calls

theorem honours_iff {b : SlidingBuffer} {unread : Bytes} (hb : b.Bounded) (hunread : b.contents = unread)
    (calls : List BufferCall) : b.Honours unread calls ↔ b.RoomForAll calls := by
  induction calls generalizing b unread with
  | nil => exact Iff.rfl
  | cons call calls ih =>
    cases call with
    | write data =>
      constructor
      · rintro ⟨fits, b', hwrite, hfits, hsame, hrest⟩
        refine ⟨(writeKept_iff hb).mp ⟨fits, b', hwrite, hfits, hsame⟩, fun fits₁ b₁ hwrite₁ => ?_⟩
        rw [hwrite] at hwrite₁
        cases hwrite₁
        obtain ⟨hb', hcontents⟩ := write_returned hb hwrite
        exact (ih hb' (by rw [hcontents, hunread])).mp hrest
      · rintro ⟨hroom, hrest⟩
        obtain ⟨fits, b', hwrite, hfits, hsame⟩ := (writeKept_iff hb).mpr hroom
        obtain ⟨hb', hcontents⟩ := write_returned hb hwrite
        exact ⟨fits, b', hwrite, hfits, hsame,
          (ih hb' (by rw [hcontents, hunread])).mpr (hrest fits b' hwrite)⟩
    | read buffer len =>
      obtain ⟨hcount, hcopied, hcontents, -⟩ := b.read_spec buffer len
      rw [hunread] at hcount hcopied hcontents
      have hrest := ih (read_bounded hb buffer len) hcontents
      constructor
      · exact fun h => hrest.mp h.2.2
      · exact fun h => ⟨hcount, hcopied, hrest.mpr h⟩

/-- A buffer keeps its capacity contract along a sequence of calls exactly if every write finds room for its
doubling. -/
theorem capacity_contract_iff {initialSize maxSize : Nat} (hsize : initialSize ≤ maxSize) (hmax : maxSize < 2 ^ 31)
    (calls : List BufferCall) :
    (new initialSize maxSize).Honours [] calls ↔ (new initialSize maxSize).RoomForAll calls :=
  honours_iff ⟨by rw [size_new]; exact hsize, hmax⟩ (contents_new _ _) calls

theorem capacity_contract_one_byte :
    (1 ≤ 4 ∧ 4 < 2 ^ 31) ∧ ((new 1 4).Honours [] [.write ⟨[7], by decide⟩, .read true 1] ↔
      (new 1 4).RoomForAll [.write ⟨[7], by decide⟩, .read true 1]) :=
  ⟨by decide, capacity_contract_iff (by decide) (by decide) _⟩

/-- Three bytes do not get into an empty buffer of 2 bytes that may have 3. -/
theorem capacity_contract_three_bytes :
    ¬ ∀ (initialSize maxSize : Nat), initialSize ≤ maxSize → maxSize < 2 ^ 31 →
      ∀ calls, (new initialSize maxSize).Honours [] calls := by
  intro h
  obtain ⟨fits, b', hwrite, hfits, -⟩ := h 2 3 (by decide) (by decide) [.write ⟨[1, 2, 3], by decide⟩]
  have hfalse : (new 2 3).write ⟨[1, 2, 3], by decide⟩ = .ok (false, new 2 3) :=
    write_beyond (by decide) (by decide) (Or.inr ⟨4, by decide, by decide⟩)
  rw [hfalse] at hwrite
  cases hwrite
  exact absurd (hfits.mpr (by decide)) (by simp)

end SlidingBuffer

end Qunet
