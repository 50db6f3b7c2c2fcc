import Qunet.Message.RoundTrip

/-!
# The lengths of messages and their decoders

`lengthForNonDataMessage` repeats by hand the layout that the `decode` of each message reads.

* `decoderOf` : the `decode` that `decodeWithMeta` runs on a message of the given type;
* `keepaliveResponse_measures`, `errorBody_measures`, … : what a length covers is what the `decode` reads;
* `handshakeFinish_overflows` : the length of a chunk of 4 GiB wraps around, and cuts the chunk size off;
* **`decodeMeta_agrees_iff`** : any other message that `decodeMeta` accepts is read by its `decode`, to its last byte.
-/

namespace Qunet
open Lib

section
variable [Dbuf]

/-! ## The decoders -/

/-- The `decode` of the messages of this type; padding is what is left of the datagram. -/
def decoderOf (type : UInt8) : Option (DecodeReader QunetMessage) :=
  if type = msgKeepalive then some (.keepalive <$> KeepaliveMessage.decode)
  else if type = msgKeepaliveResponse then some (.keepaliveResponse <$> KeepaliveResponseMessage.decode)
  else if type = msgHandshakeFinish then some (.handshakeFinish <$> HandshakeFinishMessage.decode)
  else if type = msgHandshakeFailure then some (.handshakeFailure <$> HandshakeFailureMessage.decode)
  else if type = msgServerClose then some (.serverClose <$> ServerCloseMessage.decode)
  else if type = msgConnectionError then some (.connectionError <$> ConnectionErrorMessage.decode)
  else if type = msgReconnectSuccess then some (pure .reconnectSuccess)
  else if type = msgReconnectFailure then some (pure .reconnectFailure)
  else if type = msgConnectionControl then some (.connectionControl <$> ConnectionControlMessage.decode)
  else if type = msgPadding then some ((fun _ => .padding) <$> readToEnd)
  else none

omit [Dbuf] in
theorem decodeAs_map {α : Type} (r : DecodeReader α) (wrap : α → QunetMessage) (data : Bytes) :
    decodeAs r wrap data = ((wrap <$> r) data).map Prod.fst := by
  rw [Reader.run_map, decodeAs]
  cases r data <;> rfl

/-- The types with a `decode`, one by one. -/
theorem decoderOf_cases {type : UInt8} {r : DecodeReader QunetMessage} (h : decoderOf type = some r)
    {motive : UInt8 → DecodeReader QunetMessage → Prop}
    (keepalive : motive msgKeepalive (.keepalive <$> KeepaliveMessage.decode))
    (keepaliveResponse : motive msgKeepaliveResponse (.keepaliveResponse <$> KeepaliveResponseMessage.decode))
    (handshakeFinish : motive msgHandshakeFinish (.handshakeFinish <$> HandshakeFinishMessage.decode))
    (handshakeFailure : motive msgHandshakeFailure (.handshakeFailure <$> HandshakeFailureMessage.decode))
    (serverClose : motive msgServerClose (.serverClose <$> ServerCloseMessage.decode))
    (connectionError : motive msgConnectionError (.connectionError <$> ConnectionErrorMessage.decode))
    (reconnectSuccess : motive msgReconnectSuccess (pure .reconnectSuccess))
    (reconnectFailure : motive msgReconnectFailure (pure .reconnectFailure))
    (connectionControl : motive msgConnectionControl (.connectionControl <$> ConnectionControlMessage.decode))
    (padding : motive msgPadding ((fun _ => .padding) <$> readToEnd)) : motive type r := by
  unfold decoderOf at h
  obtain ⟨rfl, hr⟩ | ⟨-, h⟩ := ite_eq_iff.mp h
  · cases hr
    exact keepalive
  obtain ⟨rfl, hr⟩ | ⟨-, h⟩ := ite_eq_iff.mp h
  · cases hr
    exact keepaliveResponse
  obtain ⟨rfl, hr⟩ | ⟨-, h⟩ := ite_eq_iff.mp h
  · cases hr
    exact handshakeFinish
  obtain ⟨rfl, hr⟩ | ⟨-, h⟩ := ite_eq_iff.mp h
  · cases hr
    exact handshakeFailure
  obtain ⟨rfl, hr⟩ | ⟨-, h⟩ := ite_eq_iff.mp h
  · cases hr
    exact serverClose
  obtain ⟨rfl, hr⟩ | ⟨-, h⟩ := ite_eq_iff.mp h
  · cases hr
    exact connectionError
  obtain ⟨rfl, hr⟩ | ⟨-, h⟩ := ite_eq_iff.mp h
  · cases hr
    exact reconnectSuccess
  obtain ⟨rfl, hr⟩ | ⟨-, h⟩ := ite_eq_iff.mp h
  · cases hr
    exact reconnectFailure
  obtain ⟨rfl, hr⟩ | ⟨-, h⟩ := ite_eq_iff.mp h
  · cases hr
    exact connectionControl
  obtain ⟨rfl, hr⟩ | ⟨-, h⟩ := ite_eq_iff.mp h
  · cases hr
    exact padding
  cases h

/-- `decodeWithMeta` runs the `decode` of the type. -/
theorem decodeWithMeta_eq {m : QunetMessageMeta} {r : DecodeReader QunetMessage} (h : decoderOf m.type = some r) :
    decodeWithMeta m = (r m.data).map Prod.fst := by
  obtain ⟨type, comp, rel, frag, data, offset⟩ := m
  apply decoderOf_cases h (motive := fun type r => decodeWithMeta ⟨type, comp, rel, frag, data, offset⟩ =
    (r data).map Prod.fst)
  all_goals
    unfold decodeWithMeta
    dsimp only
    repeat rw [if_neg (by decide)]
    rw [if_pos rfl]
  · exact decodeAs_map KeepaliveMessage.decode .keepalive data
  · exact decodeAs_map KeepaliveResponseMessage.decode .keepaliveResponse data
  · exact decodeAs_map HandshakeFinishMessage.decode .handshakeFinish data
  · exact decodeAs_map HandshakeFailureMessage.decode .handshakeFailure data
  · exact decodeAs_map ServerCloseMessage.decode .serverClose data
  · exact decodeAs_map ConnectionErrorMessage.decode .connectionError data
  · rfl
  · rfl
  · exact decodeAs_map ConnectionControlMessage.decode .connectionControl data
  · rfl

/-! ## What the lengths cover -/

omit [Dbuf] in
theorem skip_ok {n : Nat} {bs rest : Bytes} {u : Unit} (h : skip n bs = .ok (u, rest)) :
    ∃ code, bs = code ++ rest ∧ code.length = n := by
  unfold skip at h
  rw [Reader.run_map] at h
  split at h
  · cases h
  · next code rest' htake =>
    cases h
    exact ⟨code, Reader.take_ok htake⟩

theorem readU16_ok {bs rest : Bytes} {a : UInt16} (h : readU16 bs = .ok (a, rest)) :
    ∃ code, bs = code ++ rest ∧ code.length = 2 ∧ a = Dbuf.u16.read code := FixedCode.reader_ok h

theorem readU32_ok {bs rest : Bytes} {a : UInt32} (h : readU32 bs = .ok (a, rest)) :
    ∃ code, bs = code ++ rest ∧ code.length = 4 ∧ a = Dbuf.u32.read code := FixedCode.reader_ok h

theorem readU16_reads {code : Bytes} (h : code.length = 2) : Reads readU16 code (Dbuf.u16.read code) :=
  Dbuf.u16.reads_code _ h

theorem readU32_reads {code : Bytes} (h : code.length = 4) : Reads readU32 code (Dbuf.u32.read code) :=
  Dbuf.u32.reads_code _ h

theorem readU64_reads {code : Bytes} (h : code.length = 8) : Reads readU64 code (Dbuf.u64.read code) :=
  Dbuf.u64.reads_code _ h

theorem readBool_reads {byte : UInt8} {b : Bool} (h : Dbuf.bool byte = some b) : Reads readBool [byte] b := by
  intro rest
  unfold readBool
  rw [Reader.run_bind]
  simp only [List.cons_append, List.nil_append, readU8]
  rw [h]
  rfl

theorem readBool_ok {bs rest : Bytes} {b : Bool} (h : readBool bs = .ok (b, rest)) :
    ∃ byte, bs = byte :: rest ∧ Dbuf.bool byte = some b := by
  cases bs with
  | nil => cases h
  | cons byte bs =>
    refine ⟨byte, ?_⟩
    cases hbool : Dbuf.bool byte with
    | none =>
      have hinvalid : readBool (byte :: bs) = .error .invalidData := by
        unfold readBool
        rw [Reader.run_bind]
        simp only [readU8]
        rw [hbool]
        rfl
      rw [hinvalid] at h
      cases h
    | some b' =>
      have hread : readBool (byte :: bs) = .ok (b', bs) := readBool_reads hbool bs
      rw [hread] at h
      cases h
      exact ⟨rfl, rfl⟩

omit [Dbuf] in
theorem readBytes_reads {n : Nat} {code : Bytes} (h : code.length = n) : Reads (readBytes n) code code := by
  subst h
  exact Reads.take _ code

omit [Dbuf] in
/-- The bytes behind their number, which some `decode`s read only if there are any. -/
theorem readData_reads {p : Prop} [Decidable p] {n : Nat} {code : Bytes} (h : code.length = n) (hp : ¬ p → n = 0) :
    Reads (if p then readBytes n else pure []) code code := by
  split
  · exact readBytes_reads h
  · next hnot =>
    have hnil : code = [] := List.length_eq_zero_iff.mp (h.trans (hp hnot))
    rw [hnil]
    exact Reads.pure []

omit [Dbuf] in
theorem exists_append_of_length {α : Type} {l : List α} {m n : Nat} (h : l.length = m + n) :
    ∃ a b, l = a ++ b ∧ a.length = m ∧ b.length = n := by
  refine ⟨l.take m, l.drop m, (List.take_append_drop m l).symm, ?_, ?_⟩
  · rw [List.length_take]
    omega
  · rw [List.length_drop]
    omega

omit [Dbuf] in
/-- A length that ends with the last byte read cuts off these bytes. -/
theorem take_code {bs : Bytes} {n : Nat} (code rest : Bytes) (hbs : bs = code ++ rest) (h : code.length = n) :
    bs.take n = code := by
  subst hbs h
  exact List.take_left

/-- The `decode` reads all of what the length covers. -/
def Measures {α : Type} (type : UInt8) (r : DecodeReader α) : Prop :=
  ∀ body n rest, lengthForNonDataMessage type body = .ok (n, rest) → n ≤ body.length → ∃ a, Reads r (body.take n) a

theorem keepalive_measures : Measures msgKeepalive KeepaliveMessage.decode := by
  intro body n rest h hn
  have hlength : lengthForNonDataMessage msgKeepalive body = .ok (9, body) := rfl
  rw [hlength] at h
  cases h
  obtain ⟨c₁, c₂, hcode, h₁, h₂⟩ := exists_append_of_length (m := 8) (n := 1)
    (show (body.take 9).length = 8 + 1 by rw [List.length_take]; omega)
  obtain ⟨flags, rfl⟩ := List.length_eq_one_iff.mp h₂
  have hflags : Reads readU8 [flags] flags := fun rest => rfl
  rw [hcode]
  exact ⟨_, (readU64_reads h₁).bind (hflags.bind_pure fun _ => KeepaliveMessage.mk _)⟩

theorem connectionError_measures : Measures msgConnectionError ConnectionErrorMessage.decode := by
  intro body n rest h hn
  have hlength : lengthForNonDataMessage msgConnectionError body = .ok (4, body) := rfl
  rw [hlength] at h
  cases h
  have hcode : (body.take 4).length = 4 := by
    rw [List.length_take]
    omega
  exact ⟨_, (readU32_reads hcode).bind_pure ConnectionErrorMessage.mk⟩

theorem keepaliveResponse_measures : Measures msgKeepaliveResponse KeepaliveResponseMessage.decode := by
  intro body n rest h hn
  have hlength : lengthForNonDataMessage msgKeepaliveResponse = (do
      skip 8
      let dataLen := (← readU16).toNat
      skip dataLen
      pure (8 + (2 + dataLen))) := rfl
  rw [hlength] at h
  obtain ⟨_, mid₁, h₁, h⟩ := Reader.bind_ok h
  obtain ⟨size, mid₂, h₂, h⟩ := Reader.bind_ok h
  obtain ⟨_, mid₃, h₃, h⟩ := Reader.bind_ok h
  cases h
  obtain ⟨c₁, rfl, hc₁⟩ := skip_ok h₁
  obtain ⟨c₂, rfl, hc₂, rfl⟩ := readU16_ok h₂
  obtain ⟨c₃, rfl, hc₃⟩ := skip_ok h₃
  rw [take_code (c₁ ++ (c₂ ++ c₃)) rest (by simp only [List.append_assoc])
      (by simp [hc₁, hc₂, hc₃])]
  have hdata : Reads (if Dbuf.u16.read c₂ > 0 then readBytes (Dbuf.u16.read c₂).toNat else pure []) c₃ c₃ := by
    apply readData_reads hc₃
    intro hzero
    have hsize : Dbuf.u16.read c₂ = 0 := by simpa [UInt16.pos_iff_ne_zero] using hzero
    rw [hsize]
    rfl
  exact ⟨_, (readU64_reads hc₁).bind ((readU16_reads hc₂).bind (hdata.bind_pure (KeepaliveResponseMessage.mk _)))⟩

/-- Handshake failures and server closes. -/
theorem errorBody_measures {type : UInt8} (h : type = msgHandshakeFailure ∨ type = msgServerClose) :
    Measures type decodeErrorBody := by
  intro body n rest hok hn
  have hlength : lengthForNonDataMessage type = (do
      let code ← readU32
      if code = 0 then
        let len := (← readU16).toNat
        skip len
        pure (4 + (2 + len))
      else pure 4) := by
    obtain rfl | rfl := h <;> rfl
  rw [hlength] at hok
  obtain ⟨code, mid₁, h₁, hok⟩ := Reader.bind_ok hok
  obtain ⟨c₁, rfl, hc₁, rfl⟩ := readU32_ok h₁
  split at hok
  · next hzero =>
    obtain ⟨size, mid₂, h₂, hok⟩ := Reader.bind_ok hok
    obtain ⟨_, mid₃, h₃, hok⟩ := Reader.bind_ok hok
    cases hok
    obtain ⟨c₂, rfl, hc₂, rfl⟩ := readU16_ok h₂
    obtain ⟨c₃, rfl, hc₃⟩ := skip_ok h₃
    rw [take_code (c₁ ++ (c₂ ++ c₃)) rest (by simp only [List.append_assoc])
      (by simp [hc₁, hc₂, hc₃])]
    have hmessage : Reads (if Dbuf.u32.read c₁ = 0 then readString else pure []) (c₂ ++ c₃) c₃ := by
      rw [if_pos hzero]
      exact (readU16_reads hc₂).bind (readBytes_reads hc₃)
    exact ⟨_, (readU32_reads hc₁).bind (hmessage.bind_pure (Prod.mk _))⟩
  · next hcode =>
    cases hok
    rw [take_code c₁ _ rfl hc₁]
    have hmessage : Reads (if Dbuf.u32.read c₁ = 0 then readString else pure []) [] [] := by
      rw [if_neg hcode]
      exact Reads.pure []
    have hreads : Reads decodeErrorBody (c₁ ++ []) (Dbuf.u32.read c₁, []) :=
      (readU32_reads hc₁).bind (hmessage.bind_pure (Prod.mk _))
    rw [List.append_nil] at hreads
    exact ⟨_, hreads⟩

/-- The two sub-codes fit in the byte of the code that the `decode` looks at. -/
theorem connectionControl_measures : Measures msgConnectionControl ConnectionControlMessage.decode := by
  intro body n rest h hn
  have hlength : lengthForNonDataMessage msgConnectionControl = (do
      let code ← readU16
      if code = qunetConnctlSetMtu then
        skip 2
        pure (2 + 2)
      else if code = qunetConnctlPmtudProbe then
        let len := (← readU16).toNat
        skip len
        pure (2 + (2 + len))
      else throw .invalidConnCtlCode) := rfl
  rw [hlength] at h
  obtain ⟨code, mid₁, h₁, h⟩ := Reader.bind_ok h
  obtain ⟨c₁, rfl, hc₁, rfl⟩ := readU16_ok h₁
  split_ifs at h with hmtu hprobe
  · obtain ⟨_, mid₂, h₂, h⟩ := Reader.bind_ok h
    cases h
    obtain ⟨c₂, rfl, hc₂⟩ := skip_ok h₂
    rw [take_code (c₁ ++ c₂) rest (by simp only [List.append_assoc])
      (by simp [hc₁, hc₂])]
    refine ⟨.setMtu (Dbuf.u16.read c₂), (readU16_reads hc₁).bind ?_⟩
    rw [hmtu]
    exact (readU16_reads hc₂).bind_pure ConnectionControlMessage.setMtu
  · obtain ⟨size, mid₂, h₂, h⟩ := Reader.bind_ok h
    obtain ⟨_, mid₃, h₃, h⟩ := Reader.bind_ok h
    cases h
    obtain ⟨c₂, rfl, hc₂, rfl⟩ := readU16_ok h₂
    obtain ⟨c₃, rfl, hc₃⟩ := skip_ok h₃
    rw [take_code (c₁ ++ (c₂ ++ c₃)) rest (by simp only [List.append_assoc])
      (by simp [hc₁, hc₂, hc₃])]
    refine ⟨.pmtudProbe c₃, (readU16_reads hc₁).bind ?_⟩
    rw [hprobe]
    exact (readU16_reads hc₂).bind ((readBytes_reads hc₃).bind_pure ConnectionControlMessage.pmtudProbe)
  · cases h

/-! ## The chunk of the qunet database -/

/-- The chunk size that a handshake finish announces, if it has one. -/
def readChunkSize : DecodeReader UInt32 := do
  skip 8
  if ← readBool then
    skip 12
    readU32
  else pure 0

def announcedChunk (body : Bytes) : Nat :=
  match readChunkSize body with
  | .error _ => 0
  | .ok (len, _) => len.toNat

/-- The length of a handshake finish with a chunk is a sum in 32 bits. -/
theorem handshakeFinish_chunk {c₁ c₂ c₃ chunk : Bytes} {byte : UInt8} (hc₁ : c₁.length = 8)
    (hbyte : Dbuf.bool byte = some true) (hc₂ : c₂.length = 12) (hc₃ : c₃.length = 4)
    (hchunk : chunk.length = (Dbuf.u32.read c₃).toNat) (rest : Bytes) :
    lengthForNonDataMessage msgHandshakeFinish (c₁ ++ ([byte] ++ (c₂ ++ (c₃ ++ (chunk ++ rest))))) =
        .ok (21 + (4 + Dbuf.u32.read c₃).toNat, rest) ∧
      announcedChunk (c₁ ++ ([byte] ++ (c₂ ++ (c₃ ++ (chunk ++ rest))))) = chunk.length := by
  have hskip₁ : Reads (skip 8) c₁ () := (readBytes_reads hc₁).map fun _ => ()
  have hskip₂ : Reads (skip 12) c₂ () := (readBytes_reads hc₂).map fun _ => ()
  have hskip₃ : Reads (skip (Dbuf.u32.read c₃).toNat) chunk () := (readBytes_reads hchunk).map fun _ => ()
  have hread : Reads readChunkSize (c₁ ++ ([byte] ++ (c₂ ++ c₃))) (Dbuf.u32.read c₃) :=
    hskip₁.bind ((readBool_reads hbyte).bind (hskip₂.bind (readU32_reads hc₃)))
  have hlength : Reads (lengthForNonDataMessage msgHandshakeFinish) (c₁ ++ ([byte] ++ (c₂ ++ (c₃ ++ chunk))))
      (21 + (4 + Dbuf.u32.read c₃).toNat) :=
    hskip₁.bind ((readBool_reads hbyte).bind (hskip₂.bind ((readU32_reads hc₃).bind
      (hskip₃.bind_pure fun _ => 21 + (4 + Dbuf.u32.read c₃).toNat))))
  constructor
  · simpa using hlength rest
  · have hrun := hread (chunk ++ rest)
    simp only [List.append_assoc] at hrun
    rw [announcedChunk, hrun, hchunk]

/-- What `lengthForNonDataMessage` reads of a handshake finish, and its length. -/
theorem handshakeFinish_length {body rest : Bytes} {n : Nat}
    (h : lengthForNonDataMessage msgHandshakeFinish body = .ok (n, rest)) :
    (∃ c₁ byte, body = c₁ ++ [byte] ++ rest ∧ c₁.length = 8 ∧ Dbuf.bool byte = some false ∧
      announcedChunk body = 0 ∧ n = 9) ∨
    ∃ c₁ byte c₂ c₃ chunk, body = c₁ ++ ([byte] ++ (c₂ ++ (c₃ ++ (chunk ++ rest)))) ∧ c₁.length = 8 ∧
      Dbuf.bool byte = some true ∧ c₂.length = 12 ∧ c₃.length = 4 ∧ chunk.length = (Dbuf.u32.read c₃).toNat ∧
      announcedChunk body = chunk.length ∧ n = 21 + (4 + Dbuf.u32.read c₃).toNat := by
  have hlength : lengthForNonDataMessage msgHandshakeFinish = (do
      skip 8
      if ← readBool then
        skip 12
        let len ← readU32
        skip len.toNat
        pure (8 + 1 + 12 + (4 + len).toNat)
      else pure (8 + 1)) := rfl
  rw [hlength] at h
  obtain ⟨_, mid₁, h₁, h⟩ := Reader.bind_ok h
  obtain ⟨present, mid₂, h₂, h⟩ := Reader.bind_ok h
  obtain ⟨c₁, rfl, hc₁⟩ := skip_ok h₁
  obtain ⟨byte, rfl, hbyte⟩ := readBool_ok h₂
  cases present with
  | false =>
    cases h
    refine .inl ⟨c₁, byte, (List.append_assoc c₁ [byte] rest).symm, hc₁, hbyte, ?_, rfl⟩
    have hread : readChunkSize (c₁ ++ byte :: rest) = .ok (0, rest) := by
      unfold readChunkSize
      rw [Reader.run_bind, h₁]
      dsimp only
      rw [Reader.run_bind, h₂]
      rfl
    rw [announcedChunk, hread]
    rfl
  | true =>
    obtain ⟨_, mid₃, h₃, h⟩ := Reader.bind_ok h
    obtain ⟨len, mid₄, h₄, h⟩ := Reader.bind_ok h
    obtain ⟨_, mid₅, h₅, h⟩ := Reader.bind_ok h
    cases h
    obtain ⟨c₂, rfl, hc₂⟩ := skip_ok h₃
    obtain ⟨c₃, rfl, hc₃, rfl⟩ := readU32_ok h₄
    obtain ⟨chunk, rfl, hchunk⟩ := skip_ok h₅
    have hannounced := (handshakeFinish_chunk hc₁ hbyte hc₂ hc₃ hchunk rest).2
    exact .inr ⟨c₁, byte, c₂, c₃, chunk, rfl, hc₁, hbyte, hc₂, hc₃, hchunk, hannounced, rfl⟩

theorem qdbData_reads {c₂ c₃ chunk : Bytes} (hc₂ : c₂.length = 12) (hc₃ : c₃.length = 4)
    (hchunk : chunk.length = (Dbuf.u32.read c₃).toNat) : ∃ a, Reads QdbData.decode (c₂ ++ (c₃ ++ chunk)) a := by
  obtain ⟨d₁, d₂₃, rfl, hd₁, hd₂₃⟩ := exists_append_of_length (m := 4) (n := 8) hc₂
  obtain ⟨d₂, d₃, rfl, hd₂, hd₃⟩ := exists_append_of_length (m := 4) (n := 4) hd₂₃
  have hdata : Reads (if Dbuf.u32.read c₃ > 0 then readBytes (Dbuf.u32.read c₃).toNat else pure []) chunk chunk := by
    apply readData_reads hchunk
    intro hzero
    have hsize : Dbuf.u32.read c₃ = 0 := by simpa [UInt32.pos_iff_ne_zero] using hzero
    rw [hsize]
    rfl
  rw [show (d₁ ++ (d₂ ++ d₃)) ++ (c₃ ++ chunk) = d₁ ++ (d₂ ++ (d₃ ++ (c₃ ++ chunk))) by simp]
  exact ⟨_, (readU32_reads hd₁).bind ((readU32_reads hd₂).bind ((readU32_reads hd₃).bind
    ((readU32_reads hc₃).bind (hdata.bind_pure (QdbData.mk _ _ _ _)))))⟩

/-- A chunk of the qunet database whose size is cut off. -/
theorem qdbData_short {c₂ short : Bytes} (hc₂ : c₂.length = 12) (hshort : short.length < 4) :
    QdbData.decode (c₂ ++ short) = .error .invalidData := by
  obtain ⟨d₁, d₂₃, rfl, hd₁, hd₂₃⟩ := exists_append_of_length (m := 4) (n := 8) hc₂
  obtain ⟨d₂, d₃, rfl, hd₂, hd₃⟩ := exists_append_of_length (m := 4) (n := 4) hd₂₃
  unfold QdbData.decode
  rw [List.append_assoc, List.append_assoc]
  rw [Reader.run_bind, readU32_reads hd₁]
  dsimp only
  rw [Reader.run_bind, readU32_reads hd₂]
  dsimp only
  rw [Reader.run_bind, readU32_reads hd₃]
  dsimp only
  rw [Reader.run_bind, readU32, Dbuf.u32.reader_short _ hshort]

/-- The `decode` reads all of a handshake finish, unless the chunk is so large that its length wraps around. -/
theorem handshakeFinish_measures {body rest : Bytes} {n : Nat}
    (h : lengthForNonDataMessage msgHandshakeFinish body = .ok (n, rest)) (hsize : announcedChunk body + 4 < 2 ^ 32) :
    ∃ a, Reads HandshakeFinishMessage.decode (body.take n) a := by
  obtain hplain | hchunked := handshakeFinish_length h
  · obtain ⟨c₁, byte, rfl, hc₁, hbyte, -, rfl⟩ := hplain
    rw [take_code (c₁ ++ [byte]) rest rfl (by simp [hc₁])]
    have hnone : Reads (readOptional false QdbData.decode) [] none := Reads.pure none
    exact ⟨_, (readU64_reads hc₁).bind ((readBool_reads hbyte).bind
      (hnone.bind_pure (HandshakeFinishMessage.mk _)))⟩
  · obtain ⟨c₁, byte, c₂, c₃, chunk, rfl, hc₁, hbyte, hc₂, hc₃, hchunk, hannounced, rfl⟩ := hchunked
    rw [hannounced] at hsize
    have hlen : (4 + Dbuf.u32.read c₃).toNat = 4 + chunk.length := by
      rw [UInt32.toNat_add, ← hchunk]
      apply Nat.mod_eq_of_lt
      rw [Nat.add_comm]
      exact hsize
    rw [take_code (c₁ ++ ([byte] ++ (c₂ ++ (c₃ ++ chunk)))) rest (by simp only [List.append_assoc])
      (by simp [hc₁, hc₂, hc₃, hlen]; omega)]
    obtain ⟨qdb, hqdb⟩ := qdbData_reads hc₂ hc₃ hchunk
    exact ⟨_, (readU64_reads hc₁).bind ((readBool_reads hbyte).bind
      ((hqdb.map some).bind_pure (HandshakeFinishMessage.mk _)))⟩

/-- The length that has wrapped around ends within the chunk size. -/
theorem handshakeFinish_overflows {body rest : Bytes} {n : Nat}
    (h : lengthForNonDataMessage msgHandshakeFinish body = .ok (n, rest)) (hsize : 2 ^ 32 ≤ announcedChunk body + 4) :
    HandshakeFinishMessage.decode (body.take n) = .error .invalidData := by
  obtain hplain | hchunked := handshakeFinish_length h
  · obtain ⟨c₁, byte, -, -, -, hnone, -⟩ := hplain
    rw [hnone] at hsize
    omega
  · obtain ⟨c₁, byte, c₂, c₃, chunk, rfl, hc₁, hbyte, hc₂, hc₃, hchunk, hannounced, rfl⟩ := hchunked
    rw [hannounced, hchunk] at hsize
    have hlt := (Dbuf.u32.read c₃).toNat_lt
    have hlen : (4 + Dbuf.u32.read c₃).toNat < 4 := by
      rw [UInt32.toNat_add, show (4 : UInt32).toNat = 4 from rfl]
      omega
    obtain ⟨short, cut, hcut, hshort, -⟩ := exists_append_of_length (m := (4 + Dbuf.u32.read c₃).toNat)
      (n := 4 - (4 + Dbuf.u32.read c₃).toNat) (show c₃.length = _ by omega)
    rw [take_code (c₁ ++ ([byte] ++ (c₂ ++ short))) (cut ++ (chunk ++ rest))
      (by rw [hcut]; simp only [List.append_assoc]) (by simp [hc₁, hc₂, hshort]; omega)]
    unfold HandshakeFinishMessage.decode
    rw [Reader.run_bind, readU64_reads hc₁]
    dsimp only
    rw [Reader.run_bind, readBool_reads hbyte]
    dsimp only
    rw [Reader.run_bind, readOptional, if_pos rfl, Reader.run_map, qdbData_short hc₂ (by omega)]

/-! ## The agreement -/

/-- What follows the header byte and the connection id. -/
def messageBody (msgType : UInt8) (rest : Bytes) (udpConnId : Bool) : Bytes :=
  (msgType :: rest).drop (dataStart udpConnId)

/-- `decodeWithMeta` returns what the `decode` makes of the data of the message, and nothing of it is left over. -/
def Agrees (m : QunetMessageMeta) (r : DecodeReader QunetMessage) : Prop :=
  ∃ msg, decodeWithMeta m = .ok msg ∧ r m.data = .ok (msg, [])

/-- A message with a `decode` keeps the header byte as its type, and its data is what the length covers. -/
theorem decodeMeta_measured {msgType : UInt8} {rest : Bytes} {udpConnId : Bool} {m : QunetMessageMeta}
    (h : decodeMeta msgType rest udpConnId = .ok m) {r : DecodeReader QunetMessage} (hr : decoderOf m.type = some r) :
    m.type = msgType ∧ ∃ n left, lengthForNonDataMessage msgType (messageBody msgType rest udpConnId) = .ok (n, left) ∧
      n ≤ (messageBody msgType rest udpConnId).length ∧ m.data = (messageBody msgType rest udpConnId).take n := by
  obtain ⟨-, ⟨-, hcontrol⟩ | ⟨-, hdata⟩⟩ := decodeMeta_ok h
  · obtain ⟨n, left, hlength, hn, htype, hdata, -⟩ := decodeControlMeta_ok hcontrol
    exact ⟨htype, n, left, hlength, hn, hdata⟩
  · obtain ⟨m₀, _, _, _, hread, rfl⟩ := decodeDataMeta_ok hdata
    rw [(readDataMeta_ok hread).1] at hr
    cases hr

/-- The `decode` returns a message and leaves nothing, or it is that of a handshake finish with too large a chunk. -/
theorem decoder_run {type : UInt8} {r : DecodeReader QunetMessage} (hr : decoderOf type = some r) {body rest : Bytes}
    {n : Nat} (h : lengthForNonDataMessage type body = .ok (n, rest)) (hn : n ≤ body.length)
    (hsize : type = msgHandshakeFinish → announcedChunk body + 4 < 2 ^ 32) :
    ∃ msg, r (body.take n) = .ok (msg, []) := by
  revert h hsize
  have hrun {α : Type} {d : DecodeReader α} (wrap : α → QunetMessage) (hd : ∃ a, Reads d (body.take n) a) :
      ∃ msg, (wrap <$> d) (body.take n) = .ok (msg, []) := by
    obtain ⟨a, ha⟩ := hd
    exact ⟨wrap a, (ha.map wrap).run⟩
  apply decoderOf_cases hr (motive := fun type r => lengthForNonDataMessage type body = .ok (n, rest) →
    (type = msgHandshakeFinish → announcedChunk body + 4 < 2 ^ 32) → ∃ msg, r (body.take n) = .ok (msg, []))
  all_goals intro h hsize
  · exact hrun .keepalive (keepalive_measures body n rest h hn)
  · exact hrun .keepaliveResponse (keepaliveResponse_measures body n rest h hn)
  · exact hrun .handshakeFinish (handshakeFinish_measures h (hsize rfl))
  · exact hrun .handshakeFailure ((errorBody_measures (.inl rfl) body n rest h hn).imp' _ fun _ ha => ha.map _)
  · exact hrun .serverClose ((errorBody_measures (.inr rfl) body n rest h hn).imp' _ fun _ ha => ha.map _)
  · exact hrun .connectionError (connectionError_measures body n rest h hn)
  · cases h
    exact ⟨.reconnectSuccess, rfl⟩
  · cases h
    exact ⟨.reconnectFailure, rfl⟩
  · exact hrun .connectionControl (connectionControl_measures body n rest h hn)
  · exact ⟨.padding, rfl⟩

/-- **Lengths and decoders agree**, up to the sum in 32 bits: the one message that `decodeMeta` accepts and its `decode`
does not read to the last byte is a handshake finish whose chunk has `2 ^ 32 - 4` bytes or more. -/
theorem decodeMeta_agrees_iff {msgType : UInt8} {rest : Bytes} {udpConnId : Bool} {m : QunetMessageMeta}
    (h : decodeMeta msgType rest udpConnId = .ok m) {r : DecodeReader QunetMessage} (hr : decoderOf m.type = some r) :
    (Agrees m r ∧ (m.type = msgPadding → m.data = messageBody msgType rest udpConnId)) ↔
      (m.type = msgHandshakeFinish → announcedChunk (messageBody msgType rest udpConnId) + 4 < 2 ^ 32) := by
  obtain ⟨htype, n, left, hlength, hn, hdata⟩ := decodeMeta_measured h hr
  generalize messageBody msgType rest udpConnId = body at *
  constructor
  · rintro ⟨⟨msg, -, hread⟩, -⟩ hfinish
    by_contra hsize
    rw [← htype, hfinish] at hlength
    have hoverflow := handshakeFinish_overflows hlength (not_lt.mp hsize)
    have hdecoder : r = .handshakeFinish <$> HandshakeFinishMessage.decode := by
      rw [hfinish] at hr
      exact (Option.some.inj hr).symm
    rw [hdecoder, Reader.run_map, hdata, hoverflow] at hread
    cases hread
  · intro hsize
    rw [htype] at hr hsize
    obtain ⟨msg, hread⟩ := decoder_run hr hlength hn hsize
    rw [← hdata] at hread
    refine ⟨⟨msg, ?_, hread⟩, fun hpadding => ?_⟩
    · rw [decodeWithMeta_eq (htype ▸ hr), hread]
      rfl
    · rw [← htype, hpadding] at hlength
      have hrest : n = body.length := by
        cases hlength
        rfl
      rw [hdata, hrest, List.take_length]

/-- A handshake finish with too large a chunk. -/
theorem decodeMeta_disagrees {body rest : Bytes} {n : Nat}
    (h : lengthForNonDataMessage msgHandshakeFinish body = .ok (n, rest)) (hn : n ≤ body.length)
    (hsize : 2 ^ 32 ≤ announcedChunk body + 4) :
    ∃ m r, decodeMeta msgHandshakeFinish body false = .ok m ∧ decoderOf m.type = some r ∧ ¬ Agrees m r := by
  let m : QunetMessageMeta :=
    { type := msgHandshakeFinish, compressionHeader := none, reliabilityHeader := none, fragmentationHeader := none,
      data := body.take n, dataOffset := 1 }
  have hm : decodeMeta msgHandshakeFinish body false = .ok m := by
    have hlen : ¬ (msgHandshakeFinish :: body).length < dataStart false := by
      rw [List.length_cons, show dataStart false = 1 from rfl]
      omega
    unfold decodeMeta
    rw [if_neg hlen, if_pos (by decide)]
    unfold decodeControlMeta
    rw [show (msgHandshakeFinish :: body).drop (dataStart false) = body from rfl, h]
    exact if_neg (not_lt.mpr hn)
  refine ⟨m, .handshakeFinish <$> HandshakeFinishMessage.decode, hm, rfl, ?_⟩
  rintro ⟨msg, -, hread⟩
  have hoverflow : HandshakeFinishMessage.decode m.data = .error .invalidData := handshakeFinish_overflows h hsize
  rw [Reader.run_map, hoverflow] at hread
  cases hread

end

/-- A keepalive with the timestamp 1 and no flags. -/
theorem keepalive_agrees :
    letI := Dbuf.little
    ∃ m r, decodeMeta msgKeepalive [1, 0, 0, 0, 0, 0, 0, 0, 0] false = .ok m ∧ decoderOf m.type = some r ∧
      Agrees m r := by
  let : Dbuf := .little
  let m : QunetMessageMeta :=
    { type := msgKeepalive, compressionHeader := none, reliabilityHeader := none, fragmentationHeader := none,
      data := [1, 0, 0, 0, 0, 0, 0, 0, 0], dataOffset := 1 }
  have h : decodeMeta msgKeepalive [1, 0, 0, 0, 0, 0, 0, 0, 0] false = .ok m := rfl
  have hr : decoderOf m.type = some (.keepalive <$> KeepaliveMessage.decode) := rfl
  exact ⟨m, _, h, hr, ((decodeMeta_agrees_iff h hr).mpr fun hfinish => absurd hfinish (by decide)).1⟩

/-- A chunk of `2 ^ 32 - 4` bytes: `decodeMeta` returns the 21 bytes in front of the chunk size. -/
theorem handshakeFinish_disagrees :
    letI := Dbuf.little
    ∃ m r, decodeMeta msgHandshakeFinish (List.replicate 8 0 ++ ([1] ++ (List.replicate 12 0 ++
        (Dbuf.u32.write 0xFFFFFFFC ++ (List.replicate 0xFFFFFFFC 0 ++ []))))) false = .ok m ∧
      decoderOf m.type = some r ∧ ¬ Agrees m r := by
  let : Dbuf := .little
  have hchunk : (List.replicate 0xFFFFFFFC (0 : UInt8)).length = (Dbuf.u32.read (Dbuf.u32.write 0xFFFFFFFC)).toNat := by
    rw [List.length_replicate, FixedCode.read_write]
    rfl
  obtain ⟨hlength, hannounced⟩ := handshakeFinish_chunk (show (List.replicate 8 (0 : UInt8)).length = 8 from rfl)
    (show Dbuf.bool 1 = some true from rfl) (show (List.replicate 12 (0 : UInt8)).length = 12 from rfl)
    (FixedCode.write_length _ _) hchunk []
  apply decodeMeta_disagrees hlength
  · rw [FixedCode.read_write, show 21 + (4 + 0xFFFFFFFC : UInt32).toNat = 21 by rfl]
    simp only [List.length_append, List.length_replicate]
    omega
  · rw [hannounced, List.length_replicate]
    decide

end Qunet
