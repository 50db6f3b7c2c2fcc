import Qunet.Connection.Connecting

/-!
# The worker (`Connection::workerThreadLoop`) and the public functions

* `disconnectWaiter`, `awaitWake` : what a pass waits for;
* `disconnectedPass`, `connectedPass`, `reconnectingPass`, `closingPass` : the branches of `workerThreadLoop`;
* `Call`, `userStep` : the functions that others call, in two steps each;
* `Running`, `runConnection` : the runs of a connection, any interleaving of both.
-/

namespace Qunet
open Lib

/-! ## Waiting -/

/-- `m_disconnectNotify.notified()`. -/
def disconnectWaiter : Waiter Connection Answer where
  register c := { c with disconnectNotify := some (c.disconnectNotify.getD false) }
  notified c := c.disconnectNotify = some true
  drop c := { c with disconnectNotify := none }
  pending
    | .pending => true
    | _ => false
  interrupts
    | .disconnect => true
    | _ => false

/-- What ends the `select` of a connected worker. -/
inductive Wake where
  | message (m : OutgoingMessage)
  | expiry
  | disconnect
  | incoming (r : Except TransportError QunetMessage)
  | woken

def wakeReady : Answer → Connection → Option (Wake × Connection)
  | .message, c => c.msgChan.recv.map fun p => (.message p.1, { c with msgChan := p.2 }.log (.received p.1))
  | .expiry, c => some (.expiry, c)
  | .disconnect, c => if disconnectWaiter.notified c then some (.disconnect, c) else none
  | .incoming r, c => some (.incoming r, c)
  | .woken, c => if c.taskWakeNotify then some (.woken, { c with taskWakeNotify := false }) else none
  | _, _ => none

/-- The channel and the timer come before the notification, which is registered only if neither is ready at first. -/
def awaitWake : Worker Wake :=
  .step false (fun r c =>
    match r with
    | .pending => some (none, disconnectWaiter.register c)
    | .message | .expiry => (wakeReady r c).map fun p => (some p.1, p.2.log .selected)
    | _ => none) fun
    | some wake => .ret wake
    | none => .step true (fun r c => (wakeReady r c).map fun p => (p.1, (disconnectWaiter.drop p.2).log .selected)) .ret

/-- `m_disconnectReq.load`. -/
def loadDisconnectReq : Worker Bool := .update fun c => (c.disconnectReq, c.log (.loaded c.disconnectReq))

/-! ## The states -/

def recvRequest : Worker Text :=
  .step true (fun r c =>
    match r with
    | .ready => c.connectChan.recv.map fun p => (p.1, { c with connectChan := p.2 }.log (.dequeued p.1))
    | _ => none) .ret

/-- What follows the `select` around `threadConnect`. -/
def finishConnect : Option (ConnectionResult Unit) → Worker Unit
  | some (.ok ()) => do
    setState .connected
    setLastError (.other .success)
    drainMessages
  | some (.error e) => do
    onFatalError e
    drainMessages
  | none => threadCancelConnection

def disconnectedPass [Host] : Worker Unit := do
  let url ← recvRequest
  finishConnect (← (threadConnect url).race disconnectWaiter false)
  note .processed

def onResult (r : Except TransportError Unit) : Worker Unit :=
  match r with
  | .error e => onConnectionError (.transport e)
  | .ok () => return ()

def threadHandleIncomingMessage (m : QunetMessage) : Worker Unit :=
  match m with
  | .data m =>
    -- 0 byte messages are used for internal purposes
    if m.data.isEmpty then return () else note (.dataCallback m.data)
  | .serverClose m => onFatalError (.serverClosed ⟨m.message⟩)
  | _ => return ()

def onWake : Wake → Worker Unit
  | .message m => do
    let _ ← derefSocket
    note (.handed m)
    onResult (← .await Answer.result?)
  | .expiry => do
    let _ ← derefSocket
    onResult (← .await Answer.result?)
  | .disconnect => setState .closing
  | .incoming (.error e) => onConnectionError (.transport e)
  | .incoming (.ok m) => threadHandleIncomingMessage m
  | .woken => return ()

def connectedPass : Worker Unit := do
  if ← loadDisconnectReq then
    setState .closing
  else
    -- untilTimerExpiry
    let _ ← derefSocket
    -- receiveMessage
    let _ ← derefSocket
    onWake (← awaitWake)

def threadTryReconnect (stateless : Bool) : Worker (ConnectionResult Unit) := do
  .act fun c => c.log (.tryReconnect stateless c.socket)
  let data ← .read (·.data)
  match data.address with
  | none => .abort .noStoredAddress
  | some address =>
    .assert (data.connType ≠ .unknown) .noStoredAddress
    match ← threadConnectSocket address data.connType (!stateless) with
    | .error e => return .error e
    | .ok () =>
      -- success! notify the user in case this was a stateless reconnect
      .whenever stateless (note .stateReset)
      return .ok ()

/-- `err == TransportError::ReconnectFailed`. -/
def isReconnectFailed : ConnectionError → Bool
  | .transport e => e = .custom .reconnectFailed
  | _ => false

def reconnectFut (stateless : Bool) : Worker Unit := do
  match ← threadTryReconnect stateless with
  | .ok () => setState .connected
  | .error e =>
    note (.reconnectFailed stateless e)
    if isReconnectFailed e && !stateless then
      .act fun c => { c with data := { c.data with tryStatelessReconnect := true } }
    else
      -- failed, sleep for a bit and try again
      .await Answer.ready?

/-- `++data->m_reconnectAttempt`. -/
def nextAttempt : Worker (UInt16 × Bool) :=
  .update fun c =>
    ((c.data.reconnectAttempt + 1, c.data.tryStatelessReconnect),
      { c with data := { c.data with reconnectAttempt := c.data.reconnectAttempt + 1 } })

/-- On the first attempt, wait a little before trying. -/
def debounce : Worker Unit := do
  let _ ← (Task.await Answer.ready? : Worker Unit).race disconnectWaiter false
  note .debounced

/-- What follows a `select` that a disconnect request ends. -/
def cancelIfNone : Option Unit → Worker Unit
  | none => threadCancelConnection
  | some () => return ()

def reconnectingPass : Worker Unit := do
  if ← loadDisconnectReq then
    threadCancelConnection
  else
    let (attempt, tryStateless) ← nextAttempt
    if 7 ≤ attempt then
      threadCancelConnection
    else
      .whenever (attempt = 0) debounce
      .act disconnectWaiter.register
      cancelIfNone (← (reconnectFut tryStateless).race disconnectWaiter true)
      note .selected

def closingPass : Worker Unit := do
  if (← .read (·.socket)).isNone then return ()
  -- send close message
  let _ ← derefSocket
  let _ ← .await Answer.result?
  -- artificial delay to let the message fully send
  .await Answer.ready?
  let _ ← derefSocket
  match ← .await Answer.result? with
  | .error e => onFatalError (.transport e)
  | .ok () =>
    -- wait for the socket to close
    let _ ← derefSocket
    .await Answer.ready?
    resetConnectionState
    setState .disconnected

def workerThreadLoop [Host] : Worker Unit := do
  match ← .read (·.connState) with
  | .disconnected => disconnectedPass
  | .dnsResolving | .pinging | .connecting => setState .disconnected
  | .connected => connectedPass
  | .reconnecting => reconnectingPass
  | .closing => closingPass

/-! ## The public functions -/

/-- The first step of a public function; nothing is left to do when it fails. -/
def Call.enter (call : Call) (c : Connection) : Connection :=
  match call with
  | .connect _ => if c.connState = .disconnected then { c with calls := c.calls ++ [call] } else c
  | .sendMsgToThread _ => if c.connState = .connected then { c with calls := c.calls ++ [call] } else c
  | .disconnect => { c with disconnectReq := true, calls := c.calls ++ [call] }

/-- The second step. -/
def Call.finish (call : Call) (c : Connection) : Connection :=
  match call with
  | .connect destination =>
    match c.connectChan.trySend destination with
    | some chan => { c with connectChan := chan }.log (.connectOk destination)
    | none => c
  | .sendMsgToThread m =>
    match c.msgChan.trySend m with
    | some chan => { c with msgChan := chan }.log (.accepted m)
    | none => c
  | .disconnect => { c with disconnectNotify := c.disconnectNotify.map fun _ => true }.log .disconnectReturned

/-- `simulateConnectionDrop`, while the worker does not run. -/
def simulateConnectionDrop : Worker Unit := do
  onFatalError (.other .internalError)
  .act fun c => { c with taskWakeNotify := true }

inductive UserEvent where
  | enter (call : Call)
  | finish (i : Nat)
  | settings (settings : ConnectionSettings)
  | simulateConnectionDrop (shouldReconnect : Bool)

def userStep : UserEvent → Connection → Option Connection
  | .enter call, c => some (call.enter c)
  | .finish i, c => c.calls[i]?.map fun call => call.finish { c with calls := c.calls.eraseIdx i }
  | .settings settings, c => some { c with settings }
  | .simulateConnectionDrop b, c => (simulateConnectionDrop.complete (.flag b) c).map (·.2)

abbrev ConnectionConfig := Config Connection Answer Abort

abbrev ConnectionEvent := TaskEvent Answer UserEvent

/-- The configurations of the runs of a new connection whose steps all meet `cond`. -/
def Running [Host] (cond : ConnectionConfig → ConnectionEvent → Prop) : ConnectionConfig → Prop :=
  Config.Runs workerThreadLoop userStep cond {}

/-- A run of a new connection, if every event can happen. -/
def runConnection [Host] (events : List ConnectionEvent) : Option ConnectionConfig :=
  Config.run workerThreadLoop userStep events ⟨{}, .ret ()⟩

theorem Running.of_run [Host] {cond : ConnectionConfig → ConnectionEvent → Prop} {events : List ConnectionEvent}
    {c : ConnectionConfig} (hcond : ∀ e ∈ events, ∀ c, cond c e) (h : runConnection events = some c) : Running cond c :=
  Config.Runs.run (Reachable.start rfl) hcond h

/-- A run of a new connection, if every event can happen and passes the test. -/
def runConnectionIf [Host] (test : ConnectionConfig → ConnectionEvent → Bool) (events : List ConnectionEvent) :
    Option ConnectionConfig :=
  Config.runIf workerThreadLoop userStep test events ⟨{}, .ret ()⟩

theorem Running.of_runIf [Host] {cond : ConnectionConfig → ConnectionEvent → Prop} {events : List ConnectionEvent}
    {test : ConnectionConfig → ConnectionEvent → Bool} {c : ConnectionConfig}
    (htest : ∀ c e, test c e = true → cond c e) (h : runConnectionIf test events = some c) : Running cond c :=
  Config.Runs.runIf (Reachable.start rfl) htest h

theorem runConnection_of_runIf [Host] {events : List ConnectionEvent}
    {test : ConnectionConfig → ConnectionEvent → Bool} {c : ConnectionConfig}
    (h : runConnectionIf test events = some c) : runConnection events = some c :=
  Config.run_of_runIf h

def sendData (data : Bytes) (reliable : Bool) (uncompressed : Bool) (tag : Text) : Call :=
  .sendMsgToThread { message := .data { data }, reliable, uncompressed, tag }

def sendKeepalive : Call := .sendMsgToThread { message := .keepalive ⟨0⟩, reliable := true }

/-! ## A run that connects -/

/-- A build with TCP and UDP, and a network where every host is the IPv4 address 1. -/
@[reducible] def plainHost : Host where
  parseIpAddress _ := some (.v4 1)
  parseIpv6Address _ := none
  quicSupport := false
  wsSupport := false
  tlsSupport := false

def tcpUrl : Text := ['t', 'c', 'p', ':', '/', '/', 'h']

/-- What a public function does, when nothing else runs. -/
def callEvents (call : Call) : List ConnectionEvent := [.other (.enter call), .other (.finish 0)]

/-- The worker takes the request `tcpUrl` and comes to the handshake. -/
def attemptEvents : List ConnectionEvent :=
  List.replicate 18 (.own .ready) ++ [.own (.result (.ok ())), .own (.elapsed 0), .own (.elapsed 0), .own .ready]

/-- The server accepts, and the attempt is over. -/
def acceptEvents : List ConnectionEvent :=
  [.own (.handshake (some (.ok (.handshakeFinish ⟨5, none⟩)))), .own (.result (.ok ()))] ++
    List.replicate 3 (.own .ready)

/-- The rest of the pass, from the exchange of the state on. -/
def connectedEvents : List ConnectionEvent := List.replicate 6 (.own .ready)

end Qunet
