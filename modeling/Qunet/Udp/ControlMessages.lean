import Qunet.Udp.Sending

/-!
# Control messages on a UDP transport

* the `encode` of each message (`messages.hpp`), `headerByte` and `encodeControlMsg` (`QunetMessage.cpp`);
* `fixedLength` : the encoding is as long as `lengthForNonDataMessage` says, connection control apart;
* `datagramItems_padded` : a control message of that length is read back, and behind it the padding;
* `decode_encode` : the messages of fixed length that have a `decode`;
* `connectionControl_misread` : no connection control message is what its `decode` makes of its encoding;
* **`control_roundTrips_iff`** : every control message but connection control is read back.
-/

namespace Qunet
open Lib

section
variable [Dbuf]

/-! ## Encoding -/

def KeepaliveMessage.encode (m : KeepaliveMessage) : Bytes := Dbuf.u64.write m.timestamp ++ [0]

def ClientCloseMessage.encode : Bytes := [0]

def ClientReconnectMessage.encode (m : ClientReconnectMessage) : Bytes := Dbuf.u64.write m.connectionId

def ConnectionErrorMessage.encode (m : ConnectionErrorMessage) : Bytes := Dbuf.u32.write m.errorCode

/-- The code is written as one byte; the readers take it for two. -/
def ConnectionControlMessage.encode : ConnectionControlMessage → Bytes
  | .setMtu mtu => qunetConnctlSetMtu.toUInt8 :: Dbuf.u16.write mtu
  | .pmtudProbe data => qunetConnctlPmtudProbe.toUInt8 :: (Dbuf.u16.write (UInt16.ofNat data.length) ++ data)

/-- `none` for the messages that cannot be encoded (`QN_NO_ENCODE`). -/
def QunetMessage.encode : QunetMessage → Option Bytes
  | .keepalive m => some m.encode
  | .handshakeStart m => some m.encode
  | .clientClose => some ClientCloseMessage.encode
  | .clientReconnect m => some m.encode
  | .connectionError m => some m.encode
  | .connectionControl m => some m.encode
  | .data m => some m.data
  | .keepaliveResponse _ | .handshakeFinish _ | .handshakeFailure _ | .serverClose _ | .reconnectSuccess
  | .reconnectFailure | .padding => none

omit [Dbuf] in
/-- `none` for the messages without a header byte. -/
def QunetMessage.headerByte : QunetMessage → Option UInt8
  | .data _ => some msgData
  | .keepalive _ => some msgKeepalive
  | .keepaliveResponse _ => some msgKeepaliveResponse
  | .handshakeStart _ => some msgHandshakeStart
  | .handshakeFinish _ => some msgHandshakeFinish
  | .handshakeFailure _ => some msgHandshakeFailure
  | .clientClose => some msgClientClose
  | .serverClose _ => some msgServerClose
  | .clientReconnect _ => some msgClientReconnect
  | .connectionError _ => some msgConnectionError
  | .reconnectSuccess => some msgReconnectSuccess
  | .reconnectFailure => some msgReconnectFailure
  | .connectionControl _ => some msgConnectionControl
  | .padding => none

def QunetMessage.encodeControlMsg (m : QunetMessage) (connectionId : UInt64) : Option Bytes := do
  return encodeControlHeader (← m.headerByte) connectionId ++ (← m.encode)

/-- The control messages: all but the data messages. -/
def QunetMessage.isControl : QunetMessage → Bool
  | .data _ => false
  | _ => true

def QunetMessage.isConnectionControl : QunetMessage → Bool
  | .connectionControl _ => true
  | _ => false

/-- The messages that can be encoded and have a `decode`. -/
def QunetMessage.decodable : QunetMessage → Bool
  | .keepalive _ | .connectionError _ | .connectionControl _ => true
  | _ => false

/-! ## The lengths -/

/-- Behind the connection id, the message is as long as `lengthForNonDataMessage` says without looking at it. -/
structure FixedLength (headerByte : UInt8) (payload : Bytes) : Prop where
  control : headerByte &&& msgDataMask = 0
  length : ∀ body, lengthForNonDataMessage headerByte body = .ok (payload.length, body)

theorem fixedLength {m : QunetMessage} {headerByte : UInt8} {payload : Bytes} (hbyte : m.headerByte = some headerByte)
    (hencode : m.encode = some payload) (hcontrol : m.isControl = true) (hconn : m.isConnectionControl = false) :
    FixedLength headerByte payload := by
  cases m <;> simp only [QunetMessage.headerByte, QunetMessage.encode, QunetMessage.isControl,
    QunetMessage.isConnectionControl, Option.some.injEq, reduceCtorEq] at hbyte hencode hcontrol hconn
  case keepalive m =>
    subst hbyte hencode
    refine ⟨by decide, fun body => ?_⟩
    simp [KeepaliveMessage.encode]
    rfl
  case handshakeStart m =>
    subst hbyte hencode
    refine ⟨by decide, fun body => ?_⟩
    simp [HandshakeStartMessage.encode]
    rfl
  case clientClose =>
    subst hbyte hencode
    exact ⟨by decide, fun body => rfl⟩
  case clientReconnect m =>
    subst hbyte hencode
    refine ⟨by decide, fun body => ?_⟩
    simp [ClientReconnectMessage.encode]
    rfl
  case connectionError m =>
    subst hbyte hencode
    refine ⟨by decide, fun body => ?_⟩
    simp [ConnectionErrorMessage.encode]
    rfl

/-! ## Reading -/

/-- The meta of a control message. -/
def controlMeta (headerByte : UInt8) (payload : Bytes) (dataOffset : Nat) : QunetMessageMeta :=
  { type := headerByte, compressionHeader := none, reliabilityHeader := none, fragmentationHeader := none,
    data := payload, dataOffset }

theorem writeConnectionId_length (connectionId : UInt64) :
    (writeConnectionId connectionId).length + 1 = dataStart (connectionId != 0) := by
  unfold writeConnectionId dataStart
  by_cases h : connectionId = 0
  · simp [h]
  · simp [h]

theorem decodeMeta_control {headerByte : UInt8} {payload : Bytes} (h : FixedLength headerByte payload)
    (connectionId : UInt64) (behind : Bytes) :
    decodeMeta headerByte (writeConnectionId connectionId ++ (payload ++ behind)) (connectionId != 0) =
      .ok (controlMeta headerByte payload (dataStart (connectionId != 0))) := by
  have hstart := writeConnectionId_length connectionId
  have hbody : (headerByte :: (writeConnectionId connectionId ++ (payload ++ behind))).drop
      (dataStart (connectionId != 0)) = payload ++ behind := by
    rw [← hstart, List.drop_succ_cons, List.drop_left]
  unfold decodeMeta
  dsimp only
  rw [hbody, if_neg (by simp; omega), if_pos h.control]
  unfold decodeControlMeta
  rw [h.length]
  dsimp only
  rw [if_neg (by simp), List.take_left]
  rfl

theorem decodeMeta_padding (rest : Bytes) :
    decodeMeta msgPadding rest false = .ok (controlMeta msgPadding rest 1) := by
  unfold decodeMeta
  rw [if_neg (by simp [dataStart]), if_pos (by decide)]
  have hlen : lengthForNonDataMessage msgPadding rest = .ok (rest.length, rest) := rfl
  simp [decodeControlMeta, dataStart, hlen, controlMeta]

/-- The item of a padding message, if there is one. -/
def paddingItems : Bytes → List (Except MessageDecodeError QunetMessageMeta)
  | [] => []
  | _ :: rest => [.ok (controlMeta msgPadding rest 1)]

omit [Dbuf] in
/-- What `padMessageToMinimum` writes behind a message. -/
theorem padMessageToMinimum_eq (w : SendWorld) (written : Bytes) :
    ∃ pad, padMessageToMinimum w written = written ++ pad ∧ (pad = [] ∨ ∃ rest, pad = msgPadding :: rest) := by
  unfold padMessageToMinimum
  split
  · exact ⟨_, rfl, .inr ⟨_, rfl⟩⟩
  · exact ⟨[], (List.append_nil _).symm, .inl rfl⟩

/-- **A padded control message.** The iterator finds the message and the padding, and nothing else. -/
theorem datagramItems_padded {headerByte : UInt8} {payload : Bytes} (h : FixedLength headerByte payload)
    (connectionId : UInt64) {pad : Bytes} (hpad : pad = [] ∨ ∃ rest, pad = msgPadding :: rest) :
    datagramItems (headerByte :: (writeConnectionId connectionId ++ (payload ++ pad))) (connectionId != 0) =
      .ok (controlMeta headerByte payload (dataStart (connectionId != 0))) :: paddingItems pad := by
  have hstart := writeConnectionId_length connectionId
  generalize hd : headerByte :: (writeConnectionId connectionId ++ (payload ++ pad)) = datagram
  have hlen : datagram.length = dataStart (connectionId != 0) + payload.length + pad.length := by
    rw [← hd, ← hstart]
    simp only [List.length_cons, List.length_append]
    omega
  have hfirst : QunetUdpMessageIter.next { data := datagram, server := connectionId != 0 } =
      (some (.ok (controlMeta headerByte payload (dataStart (connectionId != 0)))),
        { data := datagram, server := connectionId != 0, pos := dataStart (connectionId != 0) + payload.length }) := by
    unfold QunetUdpMessageIter.next
    rw [if_neg (by simp)]
    simp only [List.drop_zero, decide_true, Bool.true_and]
    rw [← hd]
    simp only [decodeMeta_control h connectionId pad, Nat.zero_add]
    rfl
  have hrest : datagram.drop (dataStart (connectionId != 0) + payload.length) = pad := by
    rw [← hd, ← hstart, ← List.append_assoc, Nat.add_right_comm, List.drop_succ_cons]
    exact List.drop_left' (List.length_append)
  have hpos : dataStart (connectionId != 0) + payload.length ≠ 0 := by omega
  have hlast : QunetUdpMessageIter.itemsFrom datagram.length
      { data := datagram, server := connectionId != 0, pos := dataStart (connectionId != 0) + payload.length } =
        paddingItems pad := by
    rw [show datagram.length = (datagram.length - 1) + 1 by omega]
    unfold QunetUdpMessageIter.itemsFrom QunetUdpMessageIter.next
    rw [if_neg (by simp)]
    dsimp only
    rw [hrest]
    rcases hpad with rfl | ⟨rest, rfl⟩
    · rfl
    · simp only [hpos, decide_false, Bool.false_and, decodeMeta_padding]
      rw [show datagram.length - 1 = (datagram.length - 2) + 1 by simp at hlen; omega]
      unfold QunetUdpMessageIter.itemsFrom QunetUdpMessageIter.next
      have hend : dataStart (connectionId != 0) + payload.length +
          ((controlMeta msgPadding rest 1).dataOffset + (controlMeta msgPadding rest 1).data.length) =
            datagram.length := by
        simp [controlMeta, hlen]
        omega
      rw [if_neg (by simp)]
      dsimp only
      rw [hend, List.drop_length]
      rfl
  unfold datagramItems QunetUdpMessageIter.itemsFrom
  rw [hfirst]
  dsimp only
  rw [hlast]

/-! ## Decoding -/

theorem decode_encode {m : QunetMessage} {headerByte : UInt8} {payload : Bytes} {offset : Nat}
    (hbyte : m.headerByte = some headerByte) (hencode : m.encode = some payload) (hdec : m.decodable = true)
    (hconn : m.isConnectionControl = false) : decodeWithMeta (controlMeta headerByte payload offset) = .ok m := by
  cases m <;> simp only [QunetMessage.headerByte, QunetMessage.encode, QunetMessage.decodable,
    QunetMessage.isConnectionControl, Option.some.injEq, reduceCtorEq] at hbyte hencode hdec hconn
  case keepalive m =>
    subst hbyte hencode
    have hread : Reads KeepaliveMessage.decode m.encode m := by
      refine (Dbuf.u64.reads _ m.timestamp).bind ?_
      intro rest
      rfl
    have h := hread []
    rw [List.append_nil] at h
    have hbit : (3 : UInt8) &&& 128 = 0 := by decide
    simp [decodeWithMeta, controlMeta, msgKeepalive, msgDataMask, msgData, hbit, decodeAs, h]
  case connectionError m =>
    subst hbyte hencode
    have hread : Reads ConnectionErrorMessage.decode m.encode m :=
      (Dbuf.u32.reads _ m.errorCode).bind_pure fun code => (⟨code⟩ : ConnectionErrorMessage)
    have h := hread []
    rw [List.append_nil] at h
    have hbit : (11 : UInt8) &&& 128 = 0 := by decide
    simp [decodeWithMeta, controlMeta, msgConnectionError, msgDataMask, msgData, msgKeepalive, msgKeepaliveResponse,
      msgHandshakeFinish, msgHandshakeFailure, msgServerClose, hbit, decodeAs, h]

/-- A decoded probe is shorter than what it was decoded from, by its code and its size; a decoded mtu has four bytes. -/
theorem ConnectionControlMessage.decode_length {payload rest : Bytes} {m : ConnectionControlMessage}
    (h : ConnectionControlMessage.decode payload = .ok (m, rest)) :
    (∀ mtu, m = .setMtu mtu → 4 ≤ payload.length) ∧ ∀ data, m = .pmtudProbe data → data.length + 4 ≤ payload.length := by
  have h16 : Consumes readU16 fun _ k => k = 2 := Dbuf.u16.consumes _
  unfold ConnectionControlMessage.decode at h
  obtain ⟨code, mid, hcode, hbody⟩ := Reader.bind_ok h
  obtain ⟨c₁, hc₁, h₁⟩ := h16 _ _ _ hcode
  dsimp only at hbody
  split at hbody
  · obtain ⟨mtu, mid', hmtu, hpure⟩ := Reader.bind_ok hbody
    obtain ⟨c₂, hc₂, h₂⟩ := h16 _ _ _ hmtu
    cases hpure
    refine ⟨fun _ _ => ?_, fun _ h => nomatch h⟩
    rw [hc₁, hc₂, List.length_append, List.length_append]
    omega
  · split at hbody
    · obtain ⟨size, mid', hsize, hprobe⟩ := Reader.bind_ok hbody
      obtain ⟨c₂, hc₂, h₂⟩ := h16 _ _ _ hsize
      obtain ⟨data, mid'', hdata, hpure⟩ := Reader.bind_ok hprobe
      cases hpure
      refine ⟨fun _ h => (nomatch h), fun data' hd => ?_⟩
      cases hd
      unfold readBytes Reader.take at hdata
      split at hdata
      · cases hdata
      · cases hdata
        rw [hc₁, hc₂, List.length_append, List.length_append, List.length_take]
        omega
    · cases hbody

/-- The encoding has one byte too few for `decode`. -/
theorem connectionControl_misread (m : ConnectionControlMessage) (offset : Nat) :
    decodeWithMeta (controlMeta msgConnectionControl m.encode offset) ≠ .ok (.connectionControl m) := by
  have hdecode : decodeWithMeta (controlMeta msgConnectionControl m.encode offset) =
      decodeAs ConnectionControlMessage.decode .connectionControl m.encode := by
    have hbit : (16 : UInt8) &&& 128 = 0 := by decide
    simp [decodeWithMeta, controlMeta, msgConnectionControl, msgDataMask, msgData, msgKeepalive, msgKeepaliveResponse,
      msgHandshakeFinish, msgHandshakeFailure, msgServerClose, msgConnectionError, msgReconnectSuccess,
      msgReconnectFailure, hbit]
  rw [hdecode]
  unfold decodeAs
  intro h
  split at h
  · cases h
  · next m' rest hread =>
    cases h
    obtain ⟨hmtu, hprobe⟩ := ConnectionControlMessage.decode_length hread
    cases m with
    | setMtu mtu =>
      have hlen := hmtu mtu rfl
      simp [ConnectionControlMessage.encode] at hlen
    | pmtudProbe data =>
      have hlen := hprobe data rfl
      simp [ConnectionControlMessage.encode] at hlen
      omega

/-! ## The round trip -/

/-- The datagram is read, on the server exactly if it has a connection id, as one message of the type and with the
payload of `m` and perhaps a padding message; the message decodes to `m` if it has a `decode`. -/
def ControlRoundTrips (m : QunetMessage) (connectionId : UInt64) (datagram : Bytes) : Prop :=
  ∃ first padding, datagramItems datagram (connectionId != 0) = .ok first :: padding ∧
    some first.type = m.headerByte ∧ some first.data = m.encode ∧
    (padding = [] ∨ ∃ p : QunetMessageMeta, padding = [.ok p] ∧ p.type = msgPadding) ∧
    (m.decodable = true → decodeWithMeta first = .ok m)

omit [Dbuf] in
theorem paddingItems_eq (pad : Bytes) :
    paddingItems pad = [] ∨ ∃ p : QunetMessageMeta, paddingItems pad = [.ok p] ∧ p.type = msgPadding := by
  cases pad with
  | nil => exact .inl rfl
  | cons b rest => exact .inr ⟨_, rfl, rfl⟩

theorem control_roundTrips_of {m : QunetMessage} {connectionId : UInt64} {encoded : Bytes} (w : SendWorld)
    (hencoded : m.encodeControlMsg connectionId = some encoded) (hcontrol : m.isControl = true)
    (hconn : m.isConnectionControl = false) :
    ControlRoundTrips m connectionId (padMessageToMinimum w encoded) := by
  unfold QunetMessage.encodeControlMsg at hencoded
  obtain ⟨headerByte, hbyte, hencoded⟩ := Option.bind_eq_some_iff.mp hencoded
  obtain ⟨payload, hencode, hencoded⟩ := Option.bind_eq_some_iff.mp hencoded
  cases hencoded
  obtain ⟨pad, hpad, hkind⟩ := padMessageToMinimum_eq w (encodeControlHeader headerByte connectionId ++ payload)
  refine ⟨controlMeta headerByte payload (dataStart (connectionId != 0)), paddingItems pad, ?_, hbyte.symm,
    hencode.symm, paddingItems_eq pad, fun hdec => decode_encode hbyte hencode hdec hconn⟩
  rw [hpad, encodeControlHeader, List.cons_append, List.cons_append, List.append_assoc]
  exact datagramItems_padded (fixedLength hbyte hencode hcontrol hconn) connectionId hkind

theorem connectionControl_not_roundTrips (m : ConnectionControlMessage) (connectionId : UInt64) (datagram : Bytes) :
    ¬ ControlRoundTrips (.connectionControl m) connectionId datagram := by
  rintro ⟨first, padding, -, htype, hdata, -, hdec⟩
  have hfirst : decodeWithMeta first = decodeWithMeta (controlMeta msgConnectionControl m.encode 0) := by
    unfold decodeWithMeta controlMeta
    rw [Option.some.inj htype, Option.some.inj hdata]
  exact connectionControl_misread m 0 (hfirst ▸ hdec rfl)

/-- **The round trip of control messages.** The datagram that `sendMessage` gives to the socket for a control message is
read back exactly if the message is not a connection control message. -/
theorem control_roundTrips_iff (t : UdpTransport) (w : SendWorld) (m : QunetMessage) {encoded : Bytes}
    (hcontrol : m.isControl = true) (hencoded : m.encodeControlMsg t.connectionId = some encoded) :
    ∃ datagram, (t.sendControl w encoded).2.1 = (w.link 0).emitted datagram ∧
      (ControlRoundTrips m t.connectionId datagram ↔ m.isConnectionControl = false) := by
  refine ⟨padMessageToMinimum w encoded, ?_, fun h => ?_, control_roundTrips_of w hencoded hcontrol⟩
  · unfold UdpTransport.sendControl
    cases w.link 0 <;> rfl
  · cases m with
    | connectionControl m => exact absurd h (connectionControl_not_roundTrips m _ _)
    | _ => rfl

end

/-- A keepalive on the connection 5 is padded by a padding message of four bytes. -/
theorem keepalive_roundTrips :
    ∃ datagram,
      (UdpTransport.sendControl UdpTransport.openLink { connectionId := 5 }
        [3, 5, 0, 0, 0, 0, 0, 0, 0, 7, 0, 0, 0, 0, 0, 0, 0, 0]).2.1 = [datagram] ∧
        @ControlRoundTrips Dbuf.little (.keepalive ⟨7⟩) 5 datagram := by
  obtain ⟨datagram, hsend, hiff⟩ := @control_roundTrips_iff Dbuf.little { connectionId := 5 } UdpTransport.openLink
    (.keepalive ⟨7⟩) _ rfl rfl
  exact ⟨datagram, hsend, hiff.mpr rfl⟩

/-- The code of an mtu message is written as `01`, and read as `01 78` with the first byte of the mtu. -/
theorem setMtu_misread :
    @QunetMessage.encodeControlMsg Dbuf.little (.connectionControl (.setMtu 1400)) 0 = some [0x10, 0x01, 0x78, 0x05] ∧
      @datagramItems Dbuf.little (padMessageToMinimum UdpTransport.openLink [0x10, 0x01, 0x78, 0x05]) false =
        [.error .invalidConnCtlCode] ∧
      ¬ @ControlRoundTrips Dbuf.little (.connectionControl (.setMtu 1400)) 0
        (padMessageToMinimum UdpTransport.openLink [0x10, 0x01, 0x78, 0x05]) :=
  ⟨rfl, rfl, @connectionControl_not_roundTrips Dbuf.little _ _ _⟩

end Qunet
