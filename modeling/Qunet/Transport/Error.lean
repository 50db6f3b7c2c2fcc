import Qunet.Message.QunetMessage

/-!
# Transport errors (`transport/Error.hpp`, `compression/Error.hpp`)
-/

namespace Qunet

inductive CompressorError where
  | notInitialized | alreadyInitialized | invalidDictionary | compressionFailed
  deriving DecidableEq

inductive DecompressorError where
  | notInitialized | alreadyInitialized | invalidDictionary | decompressionFailed | sizeMismatch
  deriving DecidableEq

/-- `TransportError::CustomCode`. -/
inductive CustomCode where
  | connectionTimedOut | handshakeTimedOut | notImplemented | unexpectedMessage | messageTooLong | zeroLengthMessage
  | noBufferSpace | congestionLimited | defragmentationError | tooUnreliable | invalidQunetDatabase
  | invalidArgument | reconnectFailed | timedOut | closed | cancelled | other
  deriving DecidableEq

/-- The variant `TransportError::m_kind`; a `qsox::Error` is its code. -/
inductive TransportError where
  | socket (code : Int)
  | quic (code : Int)
  | tls (message : String)
  | ws (message : String)
  | text (message : String)
  | handshakeFailure (reason : String)
  | decode (e : MessageDecodeError)
  | compressor (e : CompressorError)
  | decompressor (e : DecompressorError)
  | custom (code : CustomCode)
  deriving DecidableEq

end Qunet
