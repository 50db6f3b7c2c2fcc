import Qunet.Lib.Traced
import Qunet.Message.QunetMessage

/-!
# The database of the server (`QunetDatabase.cpp`)

* `SectionHeader`, `roundUpTo16`, `readSections` : the section table;
* `reserve`, `decodeSections`, `QunetDatabase.decode` : the offsets are 32-bit numbers of the server, from which the
  size of the header is subtracted in 64 bits. Every number computed is recorded beside its value over the integers;
* `SoundOffsets` : every section lies behind the header, with an end that fits in 32 bits;
* **`decode_safe_iff`** : no number wraps around and every slice is inside the buffer exactly if the offsets are sound.
-/

namespace Qunet
open Lib Traced

inductive DatabaseDecodeError where
  | unsupportedVersion | invalidHeader | sectionSizeInvalid | zstdDictTooLarge
  /-- The text of a dbuf error. -/
  | reader
  deriving DecidableEq

structure SectionHeader where
  type : UInt16
  options : UInt16
  offset : UInt32
  size : UInt32
  deriving DecidableEq

structure QunetDatabase where
  zstdDict : Option Bytes := none
  zstdLevel : Int32 := 0
  hash : Vector UInt8 16
  deriving DecidableEq

def qunetDatabaseVersion : UInt16 := 1

/-- The first four bytes of a database. -/
def magic : Bytes := [0xa3, 0xdb, 0xdb, 0x11]

def roundUpTo16 (value : UInt64) : UInt64 := (value + 15) &&& ~~~15

section
variable [Dbuf]

/-! ## The section table -/

abbrev DatabaseReader (α : Type) := Reader DatabaseDecodeError α

def SectionHeader.decode : DatabaseReader SectionHeader := do
  let type ← Dbuf.u16.reader .reader
  let options ← Dbuf.u16.reader .reader
  let offset ← Dbuf.u32.reader .reader
  let size ← Dbuf.u32.reader .reader
  if size = 0 ∨ offset = 0 then throw .sectionSizeInvalid
  pure { type, options, offset, size }

def readHeaders : Nat → DatabaseReader (List SectionHeader)
  | 0 => pure []
  | n + 1 => do
    let header ← SectionHeader.decode
    return header :: (← readHeaders n)

/-- The headers and `sectionsBegin`, the size of everything in front of the sections. -/
def readSections : DatabaseReader (List SectionHeader × UInt64) := do
  let found ← Reader.take .reader magic.length
  if found ≠ magic then throw .invalidHeader
  let version ← Dbuf.u16.reader .reader
  if version ≠ qunetDatabaseVersion then throw .unsupportedVersion
  let sectionCount ← Dbuf.u16.reader .reader
  let headers ← readHeaders sectionCount.toNat
  let headerSize := 4 + 2 + 2 + sectionCount.toUInt64 * 12
  let padding := roundUpTo16 headerSize - headerSize
  let _ ← Reader.take .reader padding.toNat
  pure (headers, headerSize + padding)

/-! ## The sections -/

/-- What a run records. -/
inductive Computation where
  /-- A 64-bit number, and what it is over the integers. -/
  | number (value : UInt64) (exact : Int)
  /-- The range `[first, last)` of a buffer. -/
  | slice (first last : UInt64) (size : Nat)
  deriving DecidableEq

/-- The number has not wrapped around; the range is one of the buffer. -/
def Computation.Sound : Computation → Prop
  | .number value exact => (value.toNat : Int) = exact
  | .slice first last size => first ≤ last ∧ last.toNat ≤ size

/-- What ends `decode` other than its `Result`. -/
inductive DecodeFault where
  /-- `std::length_error` of `std::vector::resize`. -/
  | lengthError
  /-- `std::span::subspan` out of range: undefined behaviour. -/
  | outOfRange
  deriving DecidableEq

abbrev DecodeRun (α : Type) := Traced Computation DecodeFault DatabaseDecodeError α

/-- `std::vector<uint8_t>::max_size()`. -/
def maxVectorSize : Nat := 2 ^ 63 - 1

/-- The size of the buffer that fits all sections. The sum of the offset and the size is one of 32-bit numbers. -/
def reserve (sectionsBegin : UInt64) : List SectionHeader → UInt64 → DecodeRun UInt64
  | [], size => pure size
  | header :: headers, size => do
    let sectionEnd := (header.offset + header.size).toUInt64 - sectionsBegin
    record (.number sectionEnd (header.offset.toNat + header.size.toNat - sectionsBegin.toNat))
    if sectionEnd > size then
      if sectionEnd.toNat > maxVectorSize then abort .lengthError
      else reserve sectionsBegin headers sectionEnd
    else reserve sectionsBegin headers size

def decodeZstdDictSection (db : QunetDatabase) (size : Nat) : DatabaseReader QunetDatabase := do
  if size > 1024 * 1024 then throw .zstdDictTooLarge
  let zstdLevel := (← Dbuf.u32.reader .reader).toInt32
  let zstdDict ← Reader.toEnd
  pure { db with zstdLevel, zstdDict := some zstdDict }

def decodeSection (db : QunetDatabase) (type : UInt16) (size : Nat) : DatabaseReader QunetDatabase :=
  if type = 3 then decodeZstdDictSection db size else pure db

/-- `std::span::subspan`. -/
def subspan (buffer : Bytes) (offset count : UInt64) : DecodeRun Bytes :=
  if offset.toNat ≤ buffer.length ∧ count.toNat ≤ buffer.length - offset.toNat then
    pure ((buffer.drop offset.toNat).take count.toNat)
  else abort .outOfRange

def decodeSections (sectionsBegin : UInt64) (dataBuffer : Bytes) :
    List SectionHeader → QunetDatabase → DecodeRun QunetDatabase
  | [], db => pure db
  | header :: headers, db => do
    let first := header.offset.toUInt64 - sectionsBegin
    record (.number first (header.offset.toNat - sectionsBegin.toNat))
    let last := first + header.size.toUInt64
    record (.number last (header.offset.toNat - sectionsBegin.toNat + header.size.toNat))
    record (.slice first last dataBuffer.length)
    let sectionData ← subspan dataBuffer first (last - first)
    let (db, _) ← ofExcept (decodeSection db header.type header.size.toNat sectionData)
    decodeSections sectionsBegin dataBuffer headers db

/-- `hash` is the `qn::blake3Hash` of the data, of which the database keeps the first 16 bytes. -/
def QunetDatabase.decode (hash : Bytes → Vector UInt8 32) (data : Bytes) : DecodeRun QunetDatabase := do
  let ((headers, sectionsBegin), rest) ← ofExcept (readSections data)
  let size ← reserve sectionsBegin headers 0
  let (dataBuffer, _) ← ofExcept ((Reader.take .reader size.toNat : DatabaseReader Bytes) rest)
  let db ← decodeSections sectionsBegin dataBuffer headers { hash := Vector.replicate 16 0 }
  pure { db with hash := (hash data).take 16 }

/-! ## The buffer -/

/-- The section ends behind the header, and its end fits in 32 bits. -/
def SectionHeader.Fits (sectionsBegin : UInt64) (header : SectionHeader) : Prop :=
  header.offset.toNat + header.size.toNat < 2 ^ 32 ∧ sectionsBegin.toNat ≤ header.offset.toNat + header.size.toNat

/-- The largest end of a section. -/
def bufferSize (sectionsBegin : UInt64) (headers : List SectionHeader) : Nat :=
  headers.foldr (fun header size => max (header.offset.toNat + header.size.toNat - sectionsBegin.toNat) size) 0

omit [Dbuf] in
/-- `sectionEnd` has its value over the integers exactly if the section fits. -/
theorem sectionEnd_sound_iff (sectionsBegin : UInt64) (header : SectionHeader) :
    (Computation.number ((header.offset + header.size).toUInt64 - sectionsBegin)
      (header.offset.toNat + header.size.toNat - sectionsBegin.toNat)).Sound ↔ header.Fits sectionsBegin := by
  have hoffset := header.offset.toNat_lt
  have hsize := header.size.toNat_lt
  have hbegin := sectionsBegin.toNat_lt
  simp only [Computation.Sound, SectionHeader.Fits, UInt64.toNat_sub, UInt32.toNat_toUInt64, UInt32.toNat_add]
  omega

omit [Dbuf] in
theorem sectionEnd_toNat {sectionsBegin : UInt64} {header : SectionHeader} (h : header.Fits sectionsBegin) :
    ((header.offset + header.size).toUInt64 - sectionsBegin).toNat =
      header.offset.toNat + header.size.toNat - sectionsBegin.toNat := by
  have hsound := (sectionEnd_sound_iff sectionsBegin header).mpr h
  have hend := h.2
  simp only [Computation.Sound] at hsound
  omega

omit [Dbuf] in
/-- The sections that fit are reserved, up to the largest end. -/
theorem reserve_returns {sectionsBegin : UInt64} {headers : List SectionHeader}
    (h : ∀ header ∈ headers, header.Fits sectionsBegin) (size : UInt64) :
    (reserve sectionsBegin headers size).Safe Computation.Sound ∧
      ∃ size', (reserve sectionsBegin headers size).ending = .returned size' ∧
        size'.toNat = max size.toNat (bufferSize sectionsBegin headers) := by
  induction headers generalizing size with
  | nil => exact ⟨safe_pure size, size, rfl, (Nat.max_zero _).symm⟩
  | cons header headers ih =>
    have hfits := h header List.mem_cons_self
    have hrest : ∀ next ∈ headers, next.Fits sectionsBegin := fun next hnext => h next (List.mem_cons_of_mem _ hnext)
    have hend := sectionEnd_toNat hfits
    have hbound : ¬ ((header.offset + header.size).toUInt64 - sectionsBegin).toNat > maxVectorSize := by
      have hlt := hfits.1
      rw [hend, maxVectorSize]
      omega
    rw [reserve, safe_record_bind_iff, sectionEnd_sound_iff, bind_ending (record_ending _)]
    rw [if_neg hbound]
    split
    · next hgt =>
      obtain ⟨hsafe, size', hreturned, hsize⟩ := ih hrest ((header.offset + header.size).toUInt64 - sectionsBegin)
      refine ⟨⟨hfits, hsafe⟩, size', hreturned, ?_⟩
      have hgt' := UInt64.lt_iff_toNat_lt.mp hgt
      simp only [bufferSize, List.foldr_cons] at hsize ⊢
      omega
    · next hle =>
      obtain ⟨hsafe, size', hreturned, hsize⟩ := ih hrest size
      refine ⟨⟨hfits, hsafe⟩, size', hreturned, ?_⟩
      have hle' := UInt64.le_iff_toNat_le.mp (UInt64.not_lt.mp hle)
      simp only [bufferSize, List.foldr_cons] at hsize ⊢
      omega

omit [Dbuf] in
theorem reserve_safe_iff (sectionsBegin : UInt64) (headers : List SectionHeader) (size : UInt64) :
    (reserve sectionsBegin headers size).Safe Computation.Sound ↔ ∀ header ∈ headers, header.Fits sectionsBegin := by
  refine ⟨fun hsafe => ?_, fun h => (reserve_returns h size).1⟩
  induction headers generalizing size with
  | nil => exact fun header hmem => absurd hmem List.not_mem_nil
  | cons header headers ih =>
    rw [reserve, safe_record_bind_iff, sectionEnd_sound_iff] at hsafe
    obtain ⟨hfits, hsafe⟩ := hsafe
    split_ifs at hsafe
    · exact absurd hsafe (not_safe_abort _)
    · exact List.forall_mem_cons.mpr ⟨hfits, ih _ hsafe⟩
    · exact List.forall_mem_cons.mpr ⟨hfits, ih _ hsafe⟩

/-! ## The slices -/

/-- `decodeSection` returns an error on the section: a dictionary that is too large or has no level. -/
def SectionHeader.Rejected (header : SectionHeader) : Prop :=
  header.type = 3 ∧ (header.size.toNat > 1024 * 1024 ∨ header.size.toNat < 4)

/-- Every section up to the first one that is rejected lies behind the header. -/
def Behind (sectionsBegin : UInt64) : List SectionHeader → Prop
  | [] => True
  | header :: headers => sectionsBegin.toNat ≤ header.offset.toNat ∧ (header.Rejected ∨ Behind sectionsBegin headers)

theorem decodeSection_rejects_iff (db : QunetDatabase) {header : SectionHeader} {data : Bytes}
    (h : data.length = header.size.toNat) :
    (∃ e, decodeSection db header.type header.size.toNat data = .error e) ↔ header.Rejected := by
  unfold decodeSection SectionHeader.Rejected
  by_cases htype : header.type = 3
  · rw [if_pos htype, ← h, decodeZstdDictSection]
    by_cases hlarge : data.length > 1024 * 1024
    · rw [if_pos hlarge]
      exact ⟨fun _ => ⟨htype, .inl hlarge⟩, fun _ => ⟨.zstdDictTooLarge, rfl⟩⟩
    · rw [if_neg hlarge]
      dsimp only
      rw [Reader.run_bind]
      by_cases hshort : data.length < 4
      · rw [FixedCode.reader_short _ _ hshort]
        exact ⟨fun _ => ⟨htype, .inr hshort⟩, fun _ => ⟨.reader, rfl⟩⟩
      · have hlevel := Dbuf.u32.reads_code DatabaseDecodeError.reader
          (show (data.take 4).length = 4 by rw [List.length_take]; omega) (data.drop 4)
        rw [List.take_append_drop] at hlevel
        rw [hlevel]
        constructor
        · rintro ⟨e, ⟨⟩⟩
        · rintro ⟨-, hsize⟩
          omega
  · rw [if_neg htype]
    constructor
    · rintro ⟨e, ⟨⟩⟩
    · rintro ⟨h3, -⟩
      exact absurd h3 htype

omit [Dbuf] in
/-- A section that lies behind the header is sliced out of the buffer. -/
theorem section_sliced {sectionsBegin : UInt64} {dataBuffer : Bytes} {header : SectionHeader}
    (hfits : header.Fits sectionsBegin)
    (hbuffer : header.offset.toNat + header.size.toNat - sectionsBegin.toNat ≤ dataBuffer.length)
    (hbehind : sectionsBegin.toNat ≤ header.offset.toNat) :
    let first := header.offset.toUInt64 - sectionsBegin
    let last := first + header.size.toUInt64
    (Computation.number last (header.offset.toNat - sectionsBegin.toNat + header.size.toNat)).Sound ∧
      (Computation.slice first last dataBuffer.length).Sound ∧
      ∃ data, subspan dataBuffer first (last - first) = pure data ∧ data.length = header.size.toNat ∧
        data = (dataBuffer.drop (header.offset.toNat - sectionsBegin.toNat)).take header.size.toNat := by
  intro first last
  have hoffset := header.offset.toNat_lt
  have hsize := header.size.toNat_lt
  have hend := hfits.1
  have hfirst : first.toNat = header.offset.toNat - sectionsBegin.toNat := by
    rw [UInt64.toNat_sub, UInt32.toNat_toUInt64]
    omega
  have hlast : last.toNat = first.toNat + header.size.toNat := by
    rw [UInt64.toNat_add, UInt32.toNat_toUInt64]
    omega
  have hle : first ≤ last := UInt64.le_iff_toNat_le.mpr (by omega)
  have hcount : (last - first).toNat = header.size.toNat := by
    rw [UInt64.toNat_sub_of_le _ _ hle]
    omega
  refine ⟨?_, ⟨hle, by omega⟩, (dataBuffer.drop first.toNat).take (last - first).toNat, if_pos (by omega), ?_, ?_⟩
  · simp only [Computation.Sound]
    omega
  · rw [List.length_take, List.length_drop]
    omega
  · rw [hcount, hfirst]

omit [Dbuf] in
/-- `begin` has its value over the integers exactly if the section lies behind the header. -/
theorem begin_sound_iff (sectionsBegin : UInt64) (header : SectionHeader) :
    (Computation.number (header.offset.toUInt64 - sectionsBegin)
      (header.offset.toNat - sectionsBegin.toNat)).Sound ↔ sectionsBegin.toNat ≤ header.offset.toNat := by
  have hoffset := header.offset.toNat_lt
  have hbegin := sectionsBegin.toNat_lt
  simp only [Computation.Sound, UInt64.toNat_sub, UInt32.toNat_toUInt64]
  omega

theorem decodeSections_safe_iff {sectionsBegin : UInt64} {dataBuffer : Bytes} {headers : List SectionHeader}
    (hfits : ∀ header ∈ headers, header.Fits sectionsBegin)
    (hbuffer : bufferSize sectionsBegin headers ≤ dataBuffer.length) (db : QunetDatabase) :
    (decodeSections sectionsBegin dataBuffer headers db).Safe Computation.Sound ↔ Behind sectionsBegin headers := by
  induction headers generalizing db with
  | nil => exact iff_of_true (safe_pure db) trivial
  | cons header headers ih =>
    have hhead : header.offset.toNat + header.size.toNat - sectionsBegin.toNat ≤ dataBuffer.length :=
      le_trans (le_max_left _ _) hbuffer
    have hrest := ih (fun next hnext => hfits next (List.mem_cons_of_mem _ hnext)) (le_trans (le_max_right _ _) hbuffer)
    rw [decodeSections, safe_record_bind_iff, begin_sound_iff, Behind]
    refine and_congr_right fun hbehind => ?_
    obtain ⟨hlast, hslice, data, hdata, hlen, -⟩ := section_sliced (hfits header List.mem_cons_self) hhead hbehind
    rw [safe_record_bind_iff, safe_record_bind_iff, and_iff_right hlast, and_iff_right hslice, hdata, safe_bind_iff,
      and_iff_right (safe_pure data)]
    simp only [pure_ending, Ending.returned.injEq, forall_eq', safe_ofExcept_bind_iff]
    rw [← decodeSection_rejects_iff db hlen]
    cases decodeSection db header.type header.size.toNat data with
    | error e => exact iff_of_true (fun _ h => nomatch h) (.inl ⟨e, rfl⟩)
    | ok result =>
      constructor
      · intro h
        exact .inr ((hrest _).mp (h result rfl))
      · rintro (⟨e, ⟨⟩⟩ | hbehind) result' ⟨⟩
        exact (hrest _).mpr hbehind

/-! ## The offsets -/

/-- Every section ends behind the header, with an end that fits in 32 bits; and if all of them have arrived, every
section up to the first one that is rejected begins behind the header. -/
def SoundOffsets (data : Bytes) : Prop :=
  ∀ headers sectionsBegin rest, readSections data = .ok ((headers, sectionsBegin), rest) →
    (∀ header ∈ headers, header.Fits sectionsBegin) ∧
      (bufferSize sectionsBegin headers ≤ rest.length → Behind sectionsBegin headers)

/-- **Offsets of the server.** `decode` returns a `Result`, with no number wrapped around and every slice inside the
buffer, exactly if the offsets are sound. -/
theorem decode_safe_iff (hash : Bytes → Vector UInt8 32) (data : Bytes) :
    (QunetDatabase.decode hash data).Safe Computation.Sound ↔ SoundOffsets data := by
  unfold QunetDatabase.decode SoundOffsets
  rw [safe_ofExcept_bind_iff]
  simp only [Prod.forall]
  refine forall_congr' fun headers => forall_congr' fun sectionsBegin => forall_congr' fun rest =>
    imp_congr_right fun _ => ?_
  rw [safe_bind_iff, reserve_safe_iff]
  refine and_congr_right fun hfits => ?_
  obtain ⟨-, size, hreturned, hsize⟩ := reserve_returns hfits 0
  rw [UInt64.toNat_zero, Nat.zero_max] at hsize
  simp only [hreturned, Ending.returned.injEq, forall_eq', safe_ofExcept_bind_iff, Prod.forall, hsize]
  by_cases harrived : rest.length < bufferSize sectionsBegin headers
  · rw [Reader.take_short harrived]
    exact iff_of_true (fun _ _ h => nomatch h) fun h => absurd h (not_le.mpr harrived)
  · have hle := not_lt.mp harrived
    have htake : (Reader.take .reader (bufferSize sectionsBegin headers) : DatabaseReader Bytes) rest =
        .ok (rest.take (bufferSize sectionsBegin headers), rest.drop (bufferSize sectionsBegin headers)) :=
      if_neg harrived
    have hbuffer : bufferSize sectionsBegin headers ≤ (rest.take (bufferSize sectionsBegin headers)).length := by
      rw [List.length_take]
      omega
    have hsections := decodeSections_safe_iff hfits hbuffer { hash := Vector.replicate 16 0 }
    rw [htake]
    constructor
    · intro h _
      exact hsections.mp (safe_bind_iff.mp (h _ _ rfl)).1
    · rintro h dataBuffer left ⟨⟩
      exact safe_bind_iff.mpr ⟨hsections.mpr (h hle), fun db _ => safe_pure _⟩

end

/-- One section of one byte, at the offset 1, which is inside the header: the size of the buffer wraps around. -/
theorem decode_wraps :
    ¬ (@QunetDatabase.decode Dbuf.little (fun _ => Vector.replicate 32 0)
      [0xa3, 0xdb, 0xdb, 0x11, 1, 0, 1, 0, 0, 0, 0, 0, 1, 0, 0, 0, 1, 0, 0, 0, 0, 0, 0, 0, 0, 0, 0, 0, 0, 0, 0, 0]).Safe
      Computation.Sound := by
  intro h
  exact h.2 .lengthError (by decide)

end Qunet
