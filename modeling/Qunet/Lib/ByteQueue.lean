import Qunet.Lib.Reader

/-!
# Byte queues

* `ByteQueue β` : a first-in first-out queue of bytes, which is written through a window behind its contents and read
  through two spans; `size`, `front`;
* `Ring` : a circular buffer, whose contents may wrap around its end.
-/

namespace Qunet.Lib

/-- A queue of bytes with the contents `contents`. -/
class ByteQueue (β : Type) where
  contents : β → Bytes
  capacity : β → Nat
  /-- The number of bytes that fit in one piece behind the contents. -/
  writeWindow : β → Nat
  /-- Make room for so many bytes. -/
  reserve : Nat → β → β
  /-- Bytes were written into the window. -/
  advanceWrite : Bytes → β → β
  /-- The first bytes, as two consecutive spans. -/
  peek : Nat → β → Bytes × Bytes
  skip : Nat → β → β
  contents_reserve : ∀ n b, contents (reserve n b) = contents b
  writeWindow_reserve : ∀ n b, 0 < n → 0 < writeWindow (reserve n b)
  contents_advanceWrite : ∀ bs b, bs.length ≤ writeWindow b → contents (advanceWrite bs b) = contents b ++ bs
  peek_append : ∀ n b, n ≤ (contents b).length → (peek n b).1 ++ (peek n b).2 = (contents b).take n
  contents_skip : ∀ n b, n ≤ (contents b).length → contents (skip n b) = (contents b).drop n

namespace ByteQueue

attribute [simp] contents_reserve

variable {β : Type} [ByteQueue β]

def size (b : β) : Nat := (contents b).length

/-- The first `n` bytes. -/
def front (n : Nat) (b : β) : Bytes := (peek n b).1 ++ (peek n b).2

theorem front_eq {n : Nat} {b : β} (h : n ≤ size b) : front n b = (contents b).take n := peek_append n b h

theorem size_skip {n : Nat} {b : β} (h : n ≤ size b) : size (skip n b) = size b - n := by
  unfold size
  rw [contents_skip n b h, List.length_drop]

end ByteQueue

/-! ## A circular buffer -/

/-- A buffer of `capacity` bytes: the contents begin at `start`, and go on at 0 when they reach the end. -/
structure Ring where
  capacity : Nat
  start : Nat
  contents : Bytes
  start_le : start ≤ capacity
  fits : contents.length ≤ capacity

namespace Ring

def empty (capacity : Nat) : Ring := ⟨capacity, 0, [], Nat.zero_le _, Nat.zero_le _⟩

/-- The free bytes up to the end, or up to the contents if these have wrapped around. -/
def writeWindow (b : Ring) : Nat :=
  if b.start + b.contents.length < b.capacity then b.capacity - (b.start + b.contents.length)
  else b.capacity - b.contents.length

/-- The contents are moved to the front of a buffer that is large enough. -/
def reserve (n : Nat) (b : Ring) : Ring where
  capacity := max b.capacity (b.contents.length + n)
  start := 0
  contents := b.contents
  start_le := Nat.zero_le _
  fits := by omega

/-- What does not fit in the buffer is not written. -/
def advanceWrite (bs : Bytes) (b : Ring) : Ring where
  capacity := b.capacity
  start := b.start
  contents := b.contents ++ bs.take (b.capacity - b.contents.length)
  start_le := b.start_le
  fits := by
    have hfits := b.fits
    rw [List.length_append, List.length_take]
    omega

def peek (n : Nat) (b : Ring) : Bytes × Bytes :=
  ((b.contents.take n).take (b.capacity - b.start), (b.contents.take n).drop (b.capacity - b.start))

def skip (n : Nat) (b : Ring) : Ring where
  capacity := b.capacity
  start := if b.start + n ≤ b.capacity then b.start + n else min (b.start + n - b.capacity) b.capacity
  contents := b.contents.drop n
  start_le := by
    split <;> omega
  fits := by
    have hfits := b.fits
    rw [List.length_drop]
    omega

theorem writeWindow_le (b : Ring) : b.writeWindow ≤ b.capacity - b.contents.length := by
  unfold writeWindow
  split <;> omega

instance : ByteQueue Ring where
  contents := Ring.contents
  capacity := Ring.capacity
  writeWindow := Ring.writeWindow
  reserve := Ring.reserve
  advanceWrite := Ring.advanceWrite
  peek := Ring.peek
  skip := Ring.skip
  contents_reserve _ _ := rfl
  writeWindow_reserve n b hn := by
    unfold writeWindow reserve
    dsimp only
    split <;> omega
  contents_advanceWrite bs b h := by
    have hle := b.writeWindow_le
    unfold advanceWrite
    dsimp only
    rw [List.take_of_length_le (by omega)]
  peek_append n b _ := List.take_append_drop _ _
  contents_skip _ _ _ := rfl

end Ring

end Qunet.Lib
