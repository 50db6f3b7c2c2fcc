import Mathlib.Data.List.Basic
import Mathlib.Tactic.Ring

/-!
# Byte readers and fixed-width codes

* `Reader ε α` : a cursor over a list of bytes that may fail with an `ε`; `Reader.take`, `Reader.toEnd`;
* `Reads r bs a` : on `bs` followed by anything, `r` consumes exactly `bs` and returns `a` (`Reads.bind`, `Reads.map`);
* `Consumes r P` : whenever `r` returns, its result and the number of bytes it took satisfy `P` (`Consumes.bind`);
* `FixedCode α n` : a code of the values of `α` in `n` bytes that reads back what it writes;
* `FixedCode.little*` : the little-endian codes of the machine integers.
-/

namespace Qunet.Lib

abbrev Bytes := List UInt8

/-- A cursor over bytes: the state is what is still unread. -/
abbrev Reader (ε α : Type) := StateT Bytes (Except ε) α

variable {ε α β : Type}

namespace Reader

/-- The next `n` bytes; fails with `short` when fewer are left. -/
def take (short : ε) (n : Nat) : Reader ε Bytes := fun bs =>
  if bs.length < n then .error short else .ok (bs.take n, bs.drop n)

/-- Everything that is left. -/
def toEnd : Reader ε Bytes := fun bs => .ok (bs, [])

theorem run_bind (r : Reader ε α) (f : α → Reader ε β) (bs : Bytes) :
    (r >>= f) bs = match r bs with
      | .error e => .error e
      | .ok (a, rest) => f a rest := by
  show Except.bind (r bs) _ = _
  unfold Except.bind
  split <;> simp_all

theorem run_pure (a : α) (bs : Bytes) : (pure a : Reader ε α) bs = .ok (a, bs) := rfl

theorem run_map (g : α → β) (r : Reader ε α) (bs : Bytes) :
    (g <$> r) bs = match r bs with
      | .error e => .error e
      | .ok (a, rest) => .ok (g a, rest) := by
  show Except.bind (r bs) _ = _
  unfold Except.bind
  split <;> simp_all [pure, Except.pure]

/-- A successful bind went through both parts. -/
theorem bind_ok {r : Reader ε α} {f : α → Reader ε β} {bs rest : Bytes} {b : β}
    (h : (r >>= f) bs = .ok (b, rest)) : ∃ a mid, r bs = .ok (a, mid) ∧ f a mid = .ok (b, rest) := by
  rw [run_bind] at h
  cases hr : r bs with
  | error e => rw [hr] at h; cases h
  | ok p =>
    rw [hr] at h
    exact ⟨p.1, p.2, rfl, h⟩

end Reader

/-! ## Exact reads -/

/-- On `bs` followed by anything, `r` consumes exactly `bs` and returns `a`. -/
def Reads (r : Reader ε α) (bs : Bytes) (a : α) : Prop := ∀ rest, r (bs ++ rest) = .ok (a, rest)

theorem Reads.pure (a : α) : Reads (Pure.pure a : Reader ε α) [] a := fun _ => rfl

theorem Reads.bind {r : Reader ε α} {f : α → Reader ε β} {bs cs : Bytes} {a : α} {b : β}
    (hr : Reads r bs a) (hf : Reads (f a) cs b) : Reads (r >>= f) (bs ++ cs) b := by
  intro rest
  rw [List.append_assoc, Reader.run_bind, hr]
  exact hf rest

theorem Reads.map {r : Reader ε α} {bs : Bytes} {a : α} (g : α → β) (hr : Reads r bs a) :
    Reads (g <$> r) bs (g a) := by
  intro rest
  rw [Reader.run_map, hr]

/-- A read whose result is only rearranged. -/
theorem Reads.bind_pure {r : Reader ε α} {bs : Bytes} {a : α} (g : α → β) (hr : Reads r bs a) :
    Reads (r >>= fun x => Pure.pure (g x)) bs (g a) := by
  intro rest
  rw [Reader.run_bind, hr]
  rfl

/-- Nothing follows. -/
theorem Reads.run {r : Reader ε α} {bs : Bytes} {a : α} (h : Reads r bs a) : r bs = .ok (a, []) := by
  have hrun := h []
  rwa [List.append_nil] at hrun

theorem Reads.take (short : ε) (bs : Bytes) : Reads (Reader.take short bs.length) bs bs := by
  intro rest
  simp [Reader.take]

/-! ## Consumption -/

/-- Whenever `r` returns, it has taken some bytes from the front, and `P` relates its result to their number. -/
def Consumes (r : Reader ε α) (P : α → Nat → Prop) : Prop :=
  ∀ bs a rest, r bs = .ok (a, rest) → ∃ code, bs = code ++ rest ∧ P a code.length

theorem Consumes.pure {a : α} {P : α → Nat → Prop} (h : P a 0) : Consumes (Pure.pure a : Reader ε α) P := by
  intro bs b rest hr
  cases hr
  exact ⟨[], rfl, h⟩

theorem Consumes.bind {r : Reader ε α} {f : α → Reader ε β} {P : α → Nat → Prop} {Q : β → Nat → Prop}
    (hr : Consumes r P) (hf : ∀ a n, P a n → Consumes (f a) fun b k => Q b (n + k)) : Consumes (r >>= f) Q := by
  intro bs b rest h
  obtain ⟨a, mid, ha, hb⟩ := Reader.bind_ok h
  obtain ⟨code, rfl, hP⟩ := hr bs a mid ha
  obtain ⟨code', rfl, hQ⟩ := hf a _ hP mid b rest hb
  refine ⟨code ++ code', (List.append_assoc _ _ _).symm, ?_⟩
  rwa [List.length_append]

theorem Consumes.map {r : Reader ε α} {P : β → Nat → Prop} (g : α → β) (hr : Consumes r fun a n => P (g a) n) :
    Consumes (g <$> r) P := by
  intro bs b rest h
  rw [Reader.run_map] at h
  cases ha : r bs with
  | error e => rw [ha] at h; cases h
  | ok p =>
    rw [ha] at h
    cases h
    exact hr bs p.1 p.2 ha

theorem Consumes.take (short : ε) (n : Nat) : Consumes (Reader.take short n) fun _ k => k = n := by
  intro bs a rest h
  unfold Reader.take at h
  split at h
  · cases h
  · next hlen =>
    cases h
    refine ⟨bs.take n, (List.take_append_drop n bs).symm, ?_⟩
    rw [List.length_take]
    omega

theorem Reader.take_ok {short : ε} {n : Nat} {bs a rest : Bytes} (h : Reader.take short n bs = .ok (a, rest)) :
    bs = a ++ rest ∧ a.length = n := by
  unfold Reader.take at h
  split at h
  · cases h
  · next hlen =>
    cases h
    refine ⟨(List.take_append_drop n bs).symm, ?_⟩
    rw [List.length_take]
    omega

theorem Reader.take_short {short : ε} {n : Nat} {bs : Bytes} (h : bs.length < n) :
    Reader.take short n bs = .error short := if_pos h

/-! ## Fixed-width codes -/

/-- A code of the values of `α` in exactly `n` bytes. -/
structure FixedCode (α : Type) (n : Nat) where
  write : α → Bytes
  read : Bytes → α
  write_length : ∀ a, (write a).length = n
  read_write : ∀ a, read (write a) = a

attribute [simp] FixedCode.write_length FixedCode.read_write

/-- Read one value of a fixed-width code. -/
def FixedCode.reader {n : Nat} (c : FixedCode α n) (short : ε) : Reader ε α := c.read <$> Reader.take short n

/-- Any `n` bytes read as some value. -/
theorem FixedCode.reads_code {n : Nat} (c : FixedCode α n) (short : ε) {code : Bytes} (h : code.length = n) :
    Reads (c.reader short) code (c.read code) := by
  subst h
  exact (Reads.take short code).map c.read

theorem FixedCode.consumes {n : Nat} (c : FixedCode α n) (short : ε) : Consumes (c.reader short) fun _ k => k = n :=
  (Consumes.take short n).map c.read

theorem FixedCode.reader_ok {n : Nat} {c : FixedCode α n} {short : ε} {bs rest : Bytes} {a : α}
    (h : c.reader short bs = .ok (a, rest)) : ∃ code, bs = code ++ rest ∧ code.length = n ∧ a = c.read code := by
  unfold FixedCode.reader at h
  rw [Reader.run_map] at h
  split at h
  · cases h
  · next code rest' htake =>
    cases h
    obtain ⟨hbs, hlen⟩ := Reader.take_ok htake
    exact ⟨code, hbs, hlen, rfl⟩

theorem FixedCode.reader_short {n : Nat} (c : FixedCode α n) (short : ε) {bs : Bytes} (h : bs.length < n) :
    c.reader short bs = .error short := by
  rw [FixedCode.reader, Reader.run_map, Reader.take_short h]

theorem FixedCode.reads {n : Nat} (c : FixedCode α n) (short : ε) (a : α) : Reads (c.reader short) (c.write a) a := by
  have h := c.reads_code short (c.write_length a)
  rwa [c.read_write] at h

/-! ## Little-endian numbers -/

/-- The `n` little-endian bytes of `x`. -/
def leBytes : Nat → Nat → Bytes
  | 0, _ => []
  | n + 1, x => UInt8.ofNat x :: leBytes n (x / 256)

/-- The number a little-endian byte string stands for. -/
def leNat : Bytes → Nat
  | [] => 0
  | b :: bs => b.toNat + 256 * leNat bs

@[simp] theorem leBytes_length (n x : Nat) : (leBytes n x).length = n := by
  induction n generalizing x with
  | zero => rfl
  | succ n ih => simp [leBytes, ih]

theorem leNat_leBytes (n x : Nat) : leNat (leBytes n x) = x % 256 ^ n := by
  induction n generalizing x with
  | zero => simp [leBytes, leNat, Nat.mod_one]
  | succ n ih =>
    rw [leBytes, leNat, ih, UInt8.toNat_ofNat', pow_succ' 256 n, Nat.mod_mul, show (2 : Nat) ^ 8 = 256 from rfl]

/-- The two little-endian bytes of a 16-bit integer. -/
def FixedCode.little16 : FixedCode UInt16 2 where
  write a := leBytes 2 a.toNat
  read bs := UInt16.ofNat (leNat bs)
  write_length _ := leBytes_length _ _
  read_write a := by
    apply UInt16.toNat_inj.mp
    have h := a.toNat_lt
    rw [leNat_leBytes, UInt16.toNat_ofNat']
    omega

/-- The four little-endian bytes of a 32-bit integer. -/
def FixedCode.little32 : FixedCode UInt32 4 where
  write a := leBytes 4 a.toNat
  read bs := UInt32.ofNat (leNat bs)
  write_length _ := leBytes_length _ _
  read_write a := by
    apply UInt32.toNat_inj.mp
    have h := a.toNat_lt
    rw [leNat_leBytes, UInt32.toNat_ofNat']
    omega

/-- The eight little-endian bytes of a 64-bit integer. -/
def FixedCode.little64 : FixedCode UInt64 8 where
  write a := leBytes 8 a.toNat
  read bs := UInt64.ofNat (leNat bs)
  write_length _ := leBytes_length _ _
  read_write a := by
    apply UInt64.toNat_inj.mp
    have h := a.toNat_lt
    rw [leNat_leBytes, UInt64.toNat_ofNat']
    omega

end Qunet.Lib
