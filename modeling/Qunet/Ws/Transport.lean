import Qunet.Stream.Transport

/-!
# WebSocket transports (`transport/WsTransport.cpp`)

* `WsMessage` : what the WebSocket client returns;
* `WsTransport.receiveMessage`.
-/

namespace Qunet
open Lib

/-- A message of `wsx`, as far as `receiveMessage` tells them apart. -/
inductive WsMessage where
  | close (code : UInt16) (reason : String)
  | binary (data : Bytes)
  | other
  deriving DecidableEq

namespace WsTransport
variable [Dbuf]

/-- `received` is what `m_ws.recv` returns, an error with its text. Nothing is returned for an empty message, which
fails an assertion. -/
def receiveMessage (w : World) (t : BaseTransport) (received : Except String WsMessage) :
    Option (Except TransportError QunetMessage × BaseTransport) :=
  match received with
  | .error e => some (.error (.ws e), t)
  | .ok (.close code reason) =>
    some (.error (.ws ("WebSocket closed by peer: " ++ reason ++ " (code " ++ toString code ++ ")")), t)
  | .ok .other => some (.error (.custom .unexpectedMessage), t)
  -- as in `streamcommon`, with the data in one piece
  | .ok (.binary data) => decodeBody w t (data, []) data.length

end WsTransport

end Qunet
