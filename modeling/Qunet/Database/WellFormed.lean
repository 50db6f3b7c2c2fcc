import Qunet.Database.QunetDatabase
import Mathlib.Data.List.Induction

/-!
# Well-formed databases

* `DatabaseSection` : a section and where it is placed; `DatabaseFile` : a file with a table of sections and their
  payloads at their offsets, in any order and with any bytes in between;
* `readSections_eq` : the table is read back;
* `decodeSections_returns` : the sections are handled one after another;
* **`decode_file`** : the database holds the dictionary of the last section of type 3.
-/

namespace Qunet
open Lib Traced

/-- What a section holds: a level and a dictionary, or something that `decodeSection` skips. -/
inductive SectionContent where
  | zstdDict (level : Int32) (dict : Bytes) (small : 4 + dict.length ≤ 1024 * 1024)
  | unknown (type : UInt16) (payload : Bytes) (skipped : type ≠ 3) (nonempty : payload ≠ [])

/-- The size of the table of `count` sections, rounded up to 16. -/
def tableSize (count : Nat) : Nat := (8 + 12 * count + 15) / 16 * 16

section
variable [Dbuf]

namespace SectionContent

def type : SectionContent → UInt16
  | zstdDict _ _ _ => 3
  | unknown type _ _ _ => type

def payload : SectionContent → Bytes
  | zstdDict level dict _ => Dbuf.u32.write level.toUInt32 ++ dict
  | unknown _ payload _ _ => payload

def dictionary : SectionContent → Option (Int32 × Bytes)
  | zstdDict level dict _ => some (level, dict)
  | unknown _ _ _ _ => none

end SectionContent

/-- A section at a 32-bit offset, with an end that fits in 32 bits. -/
structure DatabaseSection where
  content : SectionContent
  options : UInt16
  offset : UInt32
  fits : offset.toNat + content.payload.length < 2 ^ 32

namespace DatabaseSection

def header (s : DatabaseSection) : SectionHeader where
  type := s.content.type
  options := s.options
  offset := s.offset
  size := UInt32.ofNat s.content.payload.length

def encodeHeader (s : DatabaseSection) : Bytes :=
  Dbuf.u16.write s.header.type ++ (Dbuf.u16.write s.header.options ++
    (Dbuf.u32.write s.header.offset ++ Dbuf.u32.write s.header.size))

end DatabaseSection

def encodeTable (sections : List DatabaseSection) : Bytes :=
  magic ++ (Dbuf.u16.write qunetDatabaseVersion ++ (Dbuf.u16.write (UInt16.ofNat sections.length) ++
    sections.flatMap (·.encodeHeader)))

/-- The file begins with the table, padded to 16 bytes, and the payload of each section lies at its offset behind it. -/
structure DatabaseFile (sections : List DatabaseSection) (file : Bytes) : Prop where
  count : sections.length < 2 ^ 16
  table : ∃ padding content, file = encodeTable sections ++ padding ++ content ∧
    (encodeTable sections ++ padding).length = tableSize sections.length
  placed : ∀ s ∈ sections, tableSize sections.length ≤ s.offset.toNat ∧
    ∃ before after, file = before ++ s.content.payload ++ after ∧ before.length = s.offset.toNat

/-- The dictionary of the last section that holds one, with its level. -/
def lastDictionary (sections : List DatabaseSection) : Option (Int32 × Bytes) :=
  (sections.filterMap (·.content.dictionary)).getLast?

/-! ## The table -/

omit [Dbuf] in
theorem roundUpTo16_toNat {value : UInt64} (h : value.toNat < 2 ^ 32) :
    (roundUpTo16 value).toNat = (value.toNat + 15) / 16 * 16 := by
  have hadd : (value + 15).toNat = value.toNat + 15 := by
    rw [UInt64.toNat_add]
    exact Nat.mod_eq_of_lt (by simp; omega)
  have hmask : (~~~15 : UInt64).toNat = (2 ^ 60 - 1) <<< 4 := by decide
  have hshift : (value.toNat + 15) / 16 * 16 = ((value.toNat + 15) >>> 4) <<< 4 := by
    rw [Nat.shiftRight_eq_div_pow, Nat.shiftLeft_eq]
  rw [roundUpTo16, UInt64.toNat_and, hadd, hmask, hshift]
  apply Nat.eq_of_testBit_eq
  intro i
  rw [Nat.testBit_and, Nat.testBit_shiftLeft, Nat.testBit_shiftLeft, Nat.testBit_shiftRight,
    Nat.testBit_two_pow_sub_one]
  by_cases hi : 4 ≤ i
  · by_cases h60 : i - 4 < 60
    · simp [hi, h60]
    · have hzero : (value.toNat + 15).testBit i = false := Nat.testBit_lt_two_pow (by
        have hpow : 2 ^ 33 ≤ 2 ^ i := Nat.pow_le_pow_right (by decide) (by omega)
        omega)
      simp [hi, hzero]
  · simp [hi]

theorem payload_pos (c : SectionContent) : 0 < c.payload.length := by
  cases c with
  | zstdDict level dict small => simp [SectionContent.payload]
  | unknown type payload skipped nonempty => exact List.length_pos_iff.mpr nonempty

theorem header_size (s : DatabaseSection) : s.header.size.toNat = s.content.payload.length := by
  have hfits := s.fits
  exact UInt32.toNat_ofNat_of_lt' (show s.content.payload.length < 2 ^ 32 by omega)

theorem header_reads {s : DatabaseSection} (hoffset : s.offset ≠ 0) :
    Reads SectionHeader.decode s.encodeHeader s.header := by
  have hsize : s.header.size ≠ 0 := by
    intro hzero
    have hpos := payload_pos s.content
    rw [← header_size, hzero] at hpos
    exact absurd hpos (by decide)
  refine (Dbuf.u16.reads _ _).bind ((Dbuf.u16.reads _ _).bind ((Dbuf.u32.reads _ _).bind ?_))
  intro rest
  rw [Reader.run_bind, Dbuf.u32.reads _ _ rest]
  dsimp only
  rw [if_neg (not_or.mpr ⟨hsize, show s.header.offset ≠ 0 from hoffset⟩)]
  rfl

theorem readHeaders_reads {sections : List DatabaseSection} (h : ∀ s ∈ sections, s.offset ≠ 0) :
    Reads (readHeaders sections.length) (sections.flatMap (·.encodeHeader)) (sections.map (·.header)) := by
  induction sections with
  | nil => exact Reads.pure []
  | cons s sections ih =>
    rw [List.flatMap_cons]
    refine (header_reads (h s List.mem_cons_self)).bind ?_
    exact (ih fun s' hs' => h s' (List.mem_cons_of_mem s hs')).bind_pure fun headers => s.header :: headers

theorem encodeTable_length (sections : List DatabaseSection) :
    (encodeTable sections).length = 8 + 12 * sections.length := by
  have hheaders : ∀ l : List DatabaseSection, (l.flatMap (·.encodeHeader)).length = 12 * l.length := by
    intro l
    induction l with
    | nil => rfl
    | cons s l ih =>
      rw [List.flatMap_cons, List.length_append, ih, List.length_cons]
      simp [DatabaseSection.encodeHeader]
      omega
  simp [encodeTable, hheaders, magic]
  omega

namespace DatabaseFile
variable {sections : List DatabaseSection} {file : Bytes}

theorem offset_ne_zero (h : DatabaseFile sections file) : ∀ s ∈ sections, s.offset ≠ 0 := by
  intro s hs hzero
  have hle := (h.placed s hs).1
  have hsize : 16 ≤ tableSize sections.length := by
    unfold tableSize
    omega
  rw [hzero, UInt32.toNat_zero] at hle
  omega

/-- The table is read back, and what is left is everything behind it. -/
theorem readSections_eq (h : DatabaseFile sections file) :
    ∃ sectionsBegin : UInt64, sectionsBegin.toNat = tableSize sections.length ∧
      readSections file = .ok ((sections.map (·.header), sectionsBegin), file.drop (tableSize sections.length)) := by
  obtain ⟨padding, content, hfile, hlen⟩ := h.table
  have hcount := h.count
  have hn : (UInt16.ofNat sections.length).toNat = sections.length := UInt16.toNat_ofNat_of_lt' hcount
  let headerSize : UInt64 := 4 + 2 + 2 + (UInt16.ofNat sections.length).toUInt64 * 12
  have hheader : headerSize.toNat = 8 + 12 * sections.length := by
    simp only [headerSize, UInt64.toNat_add, UInt64.toNat_mul, UInt16.toNat_toUInt64, hn]
    simp
    omega
  have hround : (roundUpTo16 headerSize).toNat = tableSize sections.length := by
    rw [roundUpTo16_toNat (by omega), hheader, tableSize]
  have hpadding : (roundUpTo16 headerSize - headerSize).toNat = padding.length := by
    rw [List.length_append, encodeTable_length] at hlen
    rw [UInt64.toNat_sub_of_le _ _ (UInt64.le_iff_toNat_le.mpr (by omega)), hround, hheader]
    omega
  have hsum : headerSize + (roundUpTo16 headerSize - headerSize) = roundUpTo16 headerSize := by
    rw [UInt64.add_comm, UInt64.sub_add_cancel]
  have hreads : Reads readSections (encodeTable sections ++ padding)
      (sections.map (·.header), headerSize + (roundUpTo16 headerSize - headerSize)) := by
    unfold readSections encodeTable
    rw [List.append_assoc, List.append_assoc, List.append_assoc]
    refine (Reads.take _ magic).bind ?_
    rw [if_neg (not_not.mpr rfl)]
    refine (Dbuf.u16.reads _ _).bind ?_
    rw [if_neg (not_not.mpr rfl)]
    refine (Dbuf.u16.reads _ _).bind ?_
    rw [hn]
    refine (readHeaders_reads h.offset_ne_zero).bind ?_
    have htake := Reads.take DatabaseDecodeError.reader padding
    rw [← hpadding] at htake
    exact htake.bind_pure fun _ => (sections.map (·.header), headerSize + (roundUpTo16 headerSize - headerSize))
  refine ⟨headerSize + (roundUpTo16 headerSize - headerSize), by rw [hsum, hround], ?_⟩
  rw [hfile, hreads content, ← hlen, List.drop_left]

end DatabaseFile

/-! ## The sections -/

/-- What a section does to the database. -/
def QunetDatabase.withSection (db : QunetDatabase) (s : DatabaseSection) : QunetDatabase :=
  match s.content with
  | .zstdDict level dict _ => { db with zstdLevel := level, zstdDict := some dict }
  | .unknown _ _ _ _ => db

theorem decodeSection_payload (db : QunetDatabase) (s : DatabaseSection) :
    ∃ rest, decodeSection db s.header.type s.header.size.toNat s.content.payload = .ok (db.withSection s, rest) := by
  rw [header_size, show s.header.type = s.content.type from rfl]
  unfold decodeSection QunetDatabase.withSection
  cases s.content with
  | zstdDict level dict small =>
    have hsmall : ¬ (SectionContent.zstdDict level dict small).payload.length > 1024 * 1024 := by
      simp only [SectionContent.payload, List.length_append, FixedCode.write_length]
      omega
    refine ⟨[], ?_⟩
    rw [if_pos (show (SectionContent.zstdDict level dict small).type = 3 from rfl), decodeZstdDictSection,
      if_neg hsmall]
    show (Dbuf.u32.reader _ >>= _) (Dbuf.u32.write level.toUInt32 ++ dict) = _
    rw [Reader.run_bind, Dbuf.u32.reads]
    rfl
  | unknown type payload skipped nonempty =>
    refine ⟨payload, ?_⟩
    rw [if_neg (show (SectionContent.unknown type payload skipped nonempty).type ≠ 3 from skipped)]
    rfl

/-- The payload of a section in a buffer whose first byte has the absolute offset `start`. -/
structure Inside (start : Nat) (buffer : Bytes) (s : DatabaseSection) : Prop where
  behind : start ≤ s.offset.toNat
  fits : s.offset.toNat + s.content.payload.length - start ≤ buffer.length
  payload : (buffer.drop (s.offset.toNat - start)).take s.content.payload.length = s.content.payload

/-- What is behind the table holds the payloads. -/
theorem DatabaseFile.inside {sections : List DatabaseSection} {file : Bytes} (h : DatabaseFile sections file) :
    ∀ s ∈ sections, Inside (tableSize sections.length) (file.drop (tableSize sections.length)) s := by
  intro s hs
  obtain ⟨hle, before, after, hfile, hbefore⟩ := h.placed s hs
  have hoffset : tableSize sections.length + (s.offset.toNat - tableSize sections.length) = before.length := by omega
  refine ⟨hle, ?_, ?_⟩
  · rw [List.length_drop, hfile, List.length_append, List.length_append, hbefore]
    omega
  · rw [List.drop_drop, hoffset, hfile, List.append_assoc, List.drop_left, List.take_left]

/-- What is left of the buffer holds the payloads that end in it. -/
theorem Inside.take {start size : Nat} {buffer : Bytes} {s : DatabaseSection} (h : Inside start buffer s)
    (hsize : s.offset.toNat + s.content.payload.length - start ≤ size) : Inside start (buffer.take size) s := by
  have hle := h.behind
  have hfits := h.fits
  refine ⟨hle, ?_, ?_⟩
  · rw [List.length_take]
    omega
  · rw [List.drop_take, List.take_take, Nat.min_eq_left (by omega), h.payload]

omit [Dbuf] in
theorem bufferSize_le {sectionsBegin : UInt64} {headers : List SectionHeader} {n : Nat}
    (h : ∀ header ∈ headers, header.offset.toNat + header.size.toNat - sectionsBegin.toNat ≤ n) :
    bufferSize sectionsBegin headers ≤ n := by
  induction headers with
  | nil => exact Nat.zero_le n
  | cons header headers ih =>
    exact max_le (h header List.mem_cons_self) (ih fun next hnext => h next (List.mem_cons_of_mem header hnext))

omit [Dbuf] in
theorem le_bufferSize {sectionsBegin : UInt64} {headers : List SectionHeader} {header : SectionHeader}
    (h : header ∈ headers) :
    header.offset.toNat + header.size.toNat - sectionsBegin.toNat ≤ bufferSize sectionsBegin headers := by
  induction headers with
  | nil => cases h
  | cons next headers ih =>
    rcases List.mem_cons.mp h with rfl | h
    · exact le_max_left _ _
    · exact (ih h).trans (le_max_right _ _)

/-- The sections of a buffer that holds their payloads are handled one after another. -/
theorem decodeSections_returns {sectionsBegin : UInt64} {dataBuffer : Bytes} {sections : List DatabaseSection}
    (hinside : ∀ s ∈ sections, Inside sectionsBegin.toNat dataBuffer s) (db : QunetDatabase) :
    (decodeSections sectionsBegin dataBuffer (sections.map (·.header)) db).ending =
      .returned (sections.foldl QunetDatabase.withSection db) := by
  induction sections generalizing db with
  | nil => rfl
  | cons s sections ih =>
    have hsize := header_size s
    have hs := hinside s List.mem_cons_self
    have hfits : s.header.Fits sectionsBegin := by
      have hlt := s.fits
      exact ⟨by rw [hsize]; exact hlt, by rw [hsize]; exact hs.behind.trans (Nat.le_add_right _ _)⟩
    have hbuffer : s.header.offset.toNat + s.header.size.toNat - sectionsBegin.toNat ≤ dataBuffer.length := by
      rw [hsize]
      exact hs.fits
    obtain ⟨hlast, hrange, data, hslice, hlen, heq⟩ := section_sliced hfits hbuffer hs.behind
    rw [hsize, show s.header.offset = s.offset from rfl, hs.payload] at heq
    obtain ⟨rest, hsection⟩ := decodeSection_payload db s
    rw [List.map_cons, decodeSections, bind_ending (record_ending _), bind_ending (record_ending _),
      bind_ending (record_ending _), hslice, bind_ending (pure_ending data), heq, hsection]
    exact ih (fun next hnext => hinside next (List.mem_cons_of_mem s hnext)) _

theorem lastDictionary_concat (sections : List DatabaseSection) (s : DatabaseSection) :
    lastDictionary (sections ++ [s]) = s.content.dictionary.or (lastDictionary sections) := by
  unfold lastDictionary
  rw [List.filterMap_append, List.getLast?_append]
  congr 1
  cases hd : s.content.dictionary <;> simp [hd]

/-- The last dictionary wins. -/
theorem foldl_withSection (sections : List DatabaseSection) {db : QunetDatabase} (hdict : db.zstdDict = none)
    (hlevel : db.zstdLevel = 0) :
    (sections.foldl QunetDatabase.withSection db).zstdDict = (lastDictionary sections).map (·.2) ∧
      (sections.foldl QunetDatabase.withSection db).zstdLevel = ((lastDictionary sections).map (·.1)).getD 0 := by
  induction sections using List.reverseRecOn with
  | nil => exact ⟨hdict, hlevel⟩
  | append_singleton sections s ih =>
    rw [List.foldl_append, List.foldl_cons, List.foldl_nil, lastDictionary_concat]
    generalize sections.foldl QunetDatabase.withSection db = db at ih
    unfold QunetDatabase.withSection
    cases hc : s.content with
    | zstdDict level dict small => exact ⟨rfl, rfl⟩
    | unknown type payload skipped nonempty => exact ih

/-- **Well-formed files.** Wherever the sections are placed behind the table, `decode` returns a database with the level
and the dictionary of the last section that holds one, and with no dictionary if there is none. -/
theorem decode_file (hash : Bytes → Vector UInt8 32) (sections : List DatabaseSection) (file : Bytes)
    (h : DatabaseFile sections file) :
    ∃ db, (QunetDatabase.decode hash file).ending = .returned db ∧
      db.zstdDict = (lastDictionary sections).map (·.2) ∧
      db.zstdLevel = ((lastDictionary sections).map (·.1)).getD 0 := by
  obtain ⟨sectionsBegin, hbegin, hread⟩ := h.readSections_eq
  have hinside := h.inside
  rw [← hbegin] at hread hinside
  generalize file.drop sectionsBegin.toNat = content at hread hinside
  have hfits : ∀ header ∈ sections.map (·.header), header.Fits sectionsBegin := by
    intro header hmem
    obtain ⟨s, hs, rfl⟩ := List.mem_map.mp hmem
    exact ⟨by rw [header_size]; exact s.fits, (hinside s hs).behind.trans (Nat.le_add_right _ _)⟩
  have hbuffer : bufferSize sectionsBegin (sections.map (·.header)) ≤ content.length := by
    refine bufferSize_le fun header hmem => ?_
    obtain ⟨s, hs, rfl⟩ := List.mem_map.mp hmem
    rw [header_size]
    exact (hinside s hs).fits
  obtain ⟨-, size, hreserved, hsize⟩ := reserve_returns hfits 0
  rw [UInt64.toNat_zero, Nat.zero_max] at hsize
  have htake : (Reader.take .reader size.toNat : DatabaseReader Bytes) content =
      .ok (content.take size.toNat, content.drop size.toNat) := if_neg (by omega)
  have htaken : ∀ s ∈ sections, Inside sectionsBegin.toNat (content.take size.toNat) s := by
    intro s hs
    have hle := @le_bufferSize sectionsBegin _ _ (List.mem_map_of_mem hs : s.header ∈ sections.map (·.header))
    rw [header_size, ← hsize] at hle
    exact (hinside s hs).take hle
  have hsections := decodeSections_returns htaken { hash := Vector.replicate 16 0 }
  obtain ⟨hdict, hlevel⟩ := @foldl_withSection _ sections { hash := Vector.replicate 16 0 } rfl rfl
  have hstart : (ofExcept (readSections file) : DecodeRun _).ending =
      .returned ((sections.map (·.header), sectionsBegin), content) := by
    rw [hread]
    rfl
  have hrest : (ofExcept ((Reader.take .reader size.toNat : DatabaseReader Bytes) content) : DecodeRun _).ending =
      .returned (content.take size.toNat, content.drop size.toNat) := by
    rw [htake]
    rfl
  refine ⟨{ sections.foldl QunetDatabase.withSection { hash := Vector.replicate 16 0 } with
    hash := (hash file).take 16 }, ?_, hdict, hlevel⟩
  rw [QunetDatabase.decode, bind_ending hstart, bind_ending hreserved, bind_ending hrest, bind_ending hsections]
  rfl

end

/-- A dictionary of one byte for the level 3 at the end of the file. -/
def lastPlaced : @DatabaseSection Dbuf.little :=
  @DatabaseSection.mk Dbuf.little (.zstdDict 3 [9] (by decide)) 0 60 (by decide)

/-- A section of a type that is not known, at an odd offset. -/
def unknownPlaced : @DatabaseSection Dbuf.little :=
  @DatabaseSection.mk Dbuf.little (.unknown 7 [1, 2] (by decide) (by decide)) 0 49 (by decide)

/-- A dictionary of two bytes for the level 5 between them. -/
def middlePlaced : @DatabaseSection Dbuf.little :=
  @DatabaseSection.mk Dbuf.little (.zstdDict 5 [7, 8] (by decide)) 0 52 (by decide)

/-- The table with its padding, and the three sections in another order, with gaps. -/
def shuffledFile : Bytes :=
  [0xa3, 0xdb, 0xdb, 0x11, 1, 0, 3, 0, 3, 0, 0, 0, 60, 0, 0, 0, 5, 0, 0, 0, 7, 0, 0, 0, 49, 0, 0, 0, 2, 0, 0, 0,
    3, 0, 0, 0, 52, 0, 0, 0, 6, 0, 0, 0, 0, 0, 0, 0, 0, 1, 2, 0, 5, 0, 0, 0, 7, 8, 0, 0, 3, 0, 0, 0, 9]

/-- The dictionary of the table's last section counts. -/
theorem decode_shuffledFile :
    ∃ db, (@QunetDatabase.decode Dbuf.little (fun _ => Vector.replicate 32 0) shuffledFile).ending = .returned db ∧
      db.zstdDict = some [7, 8] ∧ db.zstdLevel = 5 := by
  refine @decode_file Dbuf.little (fun _ => Vector.replicate 32 0) [lastPlaced, unknownPlaced, middlePlaced] shuffledFile
    (@DatabaseFile.mk Dbuf.little _ _ (by decide) ?_ ?_)
  · exact ⟨List.replicate 4 0, shuffledFile.drop 48, by decide, by decide⟩
  · simp only [List.forall_mem_cons]
    refine ⟨⟨by decide, shuffledFile.take 60, [], by decide, by decide⟩, ?_, ?_, nofun⟩
    · exact ⟨by decide, shuffledFile.take 49, shuffledFile.drop 51, by decide, by decide⟩
    · exact ⟨by decide, shuffledFile.take 52, shuffledFile.drop 58, by decide, by decide⟩

end Qunet
