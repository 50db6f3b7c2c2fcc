import Qunet.Connection.Socket

/-!
# Connecting (`Connection::threadConnect` and what it calls)

A destination is resolved, pinged if its protocol is not known, and its addresses are tried one after the other.

* `sortAddresses`, `sortCandidates` : the order in which addresses are tried;
* `threadFinalConnect`, `threadPingCandidates`, `threadConnectDomain`, `threadConnectIp`, `threadConnect`.
-/

namespace Qunet
open Lib

def IpAddress.isV6 : IpAddress → Bool
  | .v4 _ => false
  | .v6 _ => true

namespace Answer

def srv? : Answer → Option (Option (Text × UInt16))
  | srv endpoint => some endpoint
  | _ => none

/-- The addresses of A, or of AAAA, records. -/
def records? (v6 : Bool) : Answer → Option (Option (List IpAddress))
  | records addresses => if (addresses.getD []).all (·.isV6 = v6) then some addresses else none
  | _ => none

def cached? : Answer → Option (Option PingResult)
  | cached r => some r
  | _ => none

end Answer

/-! ## Orders -/

/-- A connection type other than `Unknown`. -/
abbrev KnownType := { t : ConnectionType // t ≠ .unknown }

abbrev Candidate := SocketAddress × KnownType

def ipBefore : IpAddress → IpAddress → Bool
  | .v4 a, .v4 b => a < b
  | .v6 a, .v6 b => a.toList < b.toList
  | _, _ => false

/-- The comparison in `sortAddresses`. -/
def addressBefore (preferIpv6 : Bool) (a b : SocketAddress) : Bool :=
  if a.isV6 && !b.isV6 then preferIpv6
  else if !a.isV6 && b.isV6 then !preferIpv6
  else ipBefore a.ip b.ip

/-- A stable sort by a comparison. -/
def sortBy {α : Type} (before : α → α → Bool) (l : List α) : List α :=
  l.insertionSort fun a b => before b a = false

def sortAddresses (addrs : List SocketAddress) (preferIpv6 : Bool) : List SocketAddress :=
  sortBy (addressBefore preferIpv6) addrs

/-- `toNum`: by default Tcp > Quic > Udp > WebSocket. -/
def typeRank : KnownType → Nat
  | ⟨.tcp, _⟩ => 10
  | ⟨.quic, _⟩ => 20
  | ⟨.udp, _⟩ => 30
  | ⟨.webSocket, _⟩ | ⟨.webSocketTls, _⟩ => 40
  | ⟨.unknown, h⟩ => absurd rfl h

def candidateBefore (preferred : ConnectionType) (a b : Candidate) : Bool :=
  if a.2.val = preferred ∧ b.2.val = preferred then false
  else if a.2.val = preferred then true
  else if b.2.val = preferred then false
  else typeRank a.2 < typeRank b.2

def sortCandidates (preferred : ConnectionType) (addrs : List Candidate) : List Candidate :=
  sortBy (candidateBefore preferred) addrs

/-! ## One address -/

section
variable [Host]

def requiresTls (type : ConnectionType) : Bool := type = .quic || type = .webSocketTls

def isSupported (type : ConnectionType) : Bool :=
  !(type = .quic && !Host.quicSupport) && !(type = .webSocket && !Host.wsSupport)

end

def makeOptions (address : SocketAddress) (type : ConnectionType) (reconnecting : Bool) : Worker TransportOptions := do
  let c ← .read id
  let opts : TransportOptions :=
    { address, type, timeout := c.settings.connTimeout, hostname := c.connectHostname, path := c.connectPath
      reconnecting }
  note (.options opts)
  return opts

def openSocket (opts : TransportOptions) (qdbDir : Option Text) (reconnect : Bool) :
    Worker (Except TransportError Socket) := do
  if reconnect then
    let _ ← derefSocket
    Socket.reconnect opts
  else Socket.connect opts qdbDir

def threadConnectSocket (address : SocketAddress) (type : ConnectionType) (reconnect : Bool) :
    Worker (ConnectionResult Unit) := do
  let opts ← makeOptions address type reconnect
  let qdbDir ← .read (·.settings.qdbFolder)
  match ← openSocket opts qdbDir reconnect with
  | .error e => return .error (.transport e)
  | .ok socket =>
    .act fun c => { c with socket := some socket }
    return .ok ()

section
variable [Host]

/-- Whether there is a TLS context, if this connection needs one. -/
def initTlsContext (type : ConnectionType) : Worker Bool :=
  if Host.tlsSupport && requiresTls type then .ask Answer.flag? else return true

def threadEstablishConn (address : SocketAddress) (type : ConnectionType) : Worker (ConnectionResult Unit) := do
  note (.establish address type)
  if !isSupported type then return .error (.other .connectionTypeDisabled)
  if !(← initTlsContext type) then return .error (.other .tlsInitFailed)
  threadConnectSocket address type false

/-- The addresses, one after the other; the errors of all when none works. -/
def tryCandidates : List Candidate → List (SocketAddress × ConnectionType × ConnectionError) →
    Worker (ConnectionResult Unit)
  | [], errors => return .error (.allAddressesFailed errors)
  | (address, type) :: rest, errors => do
    match ← threadEstablishConn address type with
    | .error e => tryCandidates rest (errors ++ [(address, type.val, e)])
    | .ok () =>
      .act fun c => { c with data := { c.data with address := some address, connType := type } }
      return .ok ()

/-- Every address that fails leaves an error, so that the second assertion follows from the first. -/
def threadFinalConnect (addrs : List Candidate) : Worker (ConnectionResult Unit) := do
  .assert (!addrs.isEmpty) .noCandidates
  setState .connecting
  let preferred ← .read (·.settings.preferredConnType)
  tryCandidates (sortCandidates preferred addrs) []

/-! ## Pings -/

/-- The results that have arrived. -/
structure Pings where
  pingResults : List (SocketAddress × Nat) := []
  protocols : List SupportedProtocol := []
  deriving DecidableEq

def addProtocol (protocols : List SupportedProtocol) (proto : SupportedProtocol) : List SupportedProtocol :=
  if protocols.any (·.protocolId = proto.protocolId) then protocols else protocols ++ [proto]

def Pings.add (p : Pings) (address : SocketAddress) (result : PingResult) : Pings :=
  if result.timedOut || result.errored || result.protocols.isEmpty then p
  else
    { pingResults := p.pingResults ++ [(address, result.responseTime)]
      protocols := result.protocols.foldl addProtocol p.protocols }

/-- Ask the cache, or else the pinger: the cached results, with their addresses. -/
def startPings : List SocketAddress → Worker (List (SocketAddress × PingResult))
  | [] => return []
  | addr :: rest => do
    match ← .ask Answer.cached? with
    | some result => return (addr, result) :: (← startPings rest)
    | none =>
      note (.pinged addr)
      startPings rest

/-- `rx.recv()`, unless the deadline comes first: a cached result that was sent before the loop, or the pinger's. -/
def receivePing (addrs : List SocketAddress) (sent : List (SocketAddress × PingResult)) :
    Answer → Option (Option (SocketAddress × PingResult × List (SocketAddress × PingResult)))
  | .expiry => some none
  | .ready => sent.head?.map fun p => some (p.1, p.2, sent.tail)
  | .ping i result => addrs[i]?.map fun address => some (address, result, sent)
  | _ => none

/-- The loop, which ends with the deadline or with as many results as there are addresses. -/
def awaitPings (addrs : List SocketAddress) : Nat → List (SocketAddress × PingResult) → Pings → Worker Pings
  | 0, _, p => return p
  | n + 1, sent, p => do
    if ← .ask Answer.flag? then return p
    match ← .await (receivePing addrs sent) with
    | none => return p
    | some (address, result, sent) => awaitPings addrs n sent (p.add address result)

def protoTcp : UInt8 := 1
def protoUdp : UInt8 := 2
def protoQuic : UInt8 := 3
def protoWebSocket : UInt8 := 4

def protocolType (protocolId : UInt8) : Option KnownType :=
  if protocolId = protoUdp then some ⟨.udp, by decide⟩
  else if protocolId = protoTcp then some ⟨.tcp, by decide⟩
  else if protocolId = protoQuic then some ⟨.quic, by decide⟩
  else if protocolId = protoWebSocket then some ⟨.webSocket, by decide⟩
  else none

/-- Without results all types are tried for each address; otherwise the protocols that some address supports. -/
def pingedCandidates (addrs : List SocketAddress) (pingResults : List SocketAddress)
    (protocols : List SupportedProtocol) : List Candidate :=
  if pingResults.isEmpty then
    addrs.flatMap fun a => [(a, ⟨.udp, by decide⟩), (a, ⟨.tcp, by decide⟩), (a, ⟨.quic, by decide⟩),
      (a, ⟨.webSocket, by decide⟩)]
  else
    pingResults.flatMap fun a => protocols.filterMap fun ty =>
      (protocolType ty.protocolId).map fun ctype => ({ a with port := ty.port }, ctype)

/-- `absDiff` of two durations. -/
def absDiff (a b : Nat) : Nat := (a - b) + (b - a)

/-- The comparison of two ping results: within 25 ms the preferred family comes first. -/
def pingBefore (preferIpv6 : Bool) (a b : SocketAddress × Nat) : Bool :=
  if 25000000 < absDiff a.2 b.2 || a.1.isV6 == b.1.isV6 then a.2 < b.2
  else if a.1.isV6 && !b.1.isV6 then preferIpv6
  else !preferIpv6

/-- `std::sort`, which may arrange in any order what the comparison does not tell apart. -/
def arrange (preferIpv6 : Bool) (results : List (SocketAddress × Nat)) :
    Answer → Option (List (SocketAddress × Nat))
  | .order indices =>
    let sorted := indices.filterMap (results[·]?)
    if indices.isPerm (List.range results.length) &&
        decide (sorted.Pairwise fun a b => pingBefore preferIpv6 b a = false) then some sorted
    else none
  | _ => none

def threadPingCandidates (addrs : List SocketAddress) : Worker (ConnectionResult Unit) := do
  setState .pinging
  let cached ← startPings addrs
  let pings ← awaitPings addrs addrs.length (cached.take 8) {}
  let preferIpv6 ← .read (·.settings.preferIpv6)
  let sorted ← .ask (arrange preferIpv6 pings.pingResults)
  threadFinalConnect (pingedCandidates addrs (sorted.map (·.1)) pings.protocols)

/-! ## Destinations -/

def threadConnectWithIps (addrs : List SocketAddress) (type : ConnectionType) (preferIpv6 : Bool) :
    Worker (ConnectionResult Unit) :=
  if addrs.isEmpty then return .error (.other .noAddresses)
  else
    let addrs := sortAddresses addrs preferIpv6
    -- if we know the concrete connection type, connect instead of pinging
    if h : type = .unknown then threadPingCandidates addrs
    else threadFinalConnect (addrs.map fun a => (a, ⟨type, h⟩))

def threadConnectIp (address : SocketAddress) (type : ConnectionType) : Worker (ConnectionResult Unit) := do
  let preferIpv6 ← .read (·.settings.preferIpv6)
  .act fun c => { c with connectHostname := [] }
  .act fun c => { c with connectPath := [] }
  threadConnectWithIps [address] type preferIpv6

/-- A query for A or AAAA records; errors are only logged. -/
def queryRecords (hostname : Text) (port : UInt16) (v6 allowed : Bool) : Worker (List SocketAddress) := do
  if !allowed then return []
  note (.query hostname)
  match ← .await (Answer.records? v6) with
  | none => return []
  | some addresses => return addresses.map (⟨·, port⟩)

def fetchIps (hostname : Text) (port : UInt16) (ipv4 ipv6 : Bool) : Worker (List SocketAddress) := do
  let a ← queryRecords hostname port false ipv4
  let aaaa ← queryRecords hostname port true ipv6
  return a ++ aaaa

def getSrvProto : ConnectionType → Text
  | .udp => ['_', 'u', 'd', 'p']
  | .tcp => ['_', 't', 'c', 'p']
  | .quic => ['_', 'q', 'u', 'i', 'c']
  | .webSocket | .webSocketTls => ['_', 'w', 's']
  | .unknown => ['_', 'u', 'd', 'p']

def defaultPort : ConnectionType → UInt16
  | .webSocket => 80
  | .webSocketTls => 443
  | _ => 4340

/-- The addresses of a domain: with a port, the SRV query is skipped. -/
def resolveDomain (hostname : Text) (port : Option UInt16) (type : ConnectionType) (settings : ConnectionSettings) :
    Worker (List SocketAddress) := do
  match port with
  | some port => fetchIps hostname port settings.ipv4Enabled settings.ipv6Enabled
  | none =>
    note (.query (settings.srvPrefix ++ '.' :: getSrvProto type ++ '.' :: hostname))
    match ← .await Answer.srv? with
    | some (target, port) =>
      let port := if port = 0 then defaultPort type else port
      fetchIps target port settings.ipv4Enabled settings.ipv6Enabled
    | none => fetchIps hostname (defaultPort type) settings.ipv4Enabled settings.ipv6Enabled

def threadConnectDomain (hostname : Text) (port : Option UInt16) (type : ConnectionType) :
    Worker (ConnectionResult Unit) := do
  setState .dnsResolving
  let settings ← .read (·.settings)
  let addrs ← resolveDomain hostname port type settings
  if addrs.isEmpty then return .error (.other .domainNotFound)
  .act fun c => { c with connectHostname := hostname }
  threadConnectWithIps addrs type settings.preferIpv6

def UrlParseError.toConnectionError : UrlParseError → ConnectionError
  | .invalidProtocol => .other .invalidProtocol
  | .invalidPort => .other .invalidPort

def threadConnect (url : Text) : Worker (ConnectionResult Unit) := do
  note (.threadConnect url)
  match UrlParser.parse url with
  | none => .abort .urlIndex
  | some (.error e) => return .error e.toConnectionError
  | some (.ok parser) =>
    resetConnectionState
    .act fun c => { c with connectPath := parser.path }
    match parser.value with
    | .ipWithPort address => threadConnectIp address parser.protocol
    | .ip ip => threadConnectIp ⟨ip, defaultPort parser.protocol⟩ parser.protocol
    | .domainWithPort domain port => threadConnectDomain domain (some port) parser.protocol
    | .domain domain => threadConnectDomain domain none parser.protocol

end

end Qunet
