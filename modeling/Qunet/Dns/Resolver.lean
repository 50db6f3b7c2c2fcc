import Mathlib.Logic.Function.Basic
import Qunet.Connection.State

/-!
# The DNS resolver (`ResolverAres.cpp`, `Resolver.cpp`)

* `ResourceRecord`, `parseQuery` : what is read off an answer of c-ares;
* `Queries` : the cache of one record type, the queries that c-ares has and the callbacks that were invoked;
* `Queries.query`, `Queries.queryCallback` : `queryA`, `queryAAAA` and `querySRV`, and what c-ares calls;
* `Resolver` : the three of them, and the servers that c-ares is to ask;
* `wrapSync`, `firstEndpoint` : how `threadConnectDomain` gets to an endpoint.
-/

namespace Qunet

/-- `qsox::resolver::Error`. -/
inductive ResolverError where
  | success | noData | temporaryFailure | unknownHost | outOfMemory | other
  deriving DecidableEq

abbrev ResolverResult (α : Type) := Except ResolverError α

/-- `ares_status_t`. -/
inductive AresStatus where
  | success | enodata | eservfail | enotfound | enomem | etimeout
  /-- any other code -/
  | failure (code : Nat)
  deriving DecidableEq

def errorFromStatus : AresStatus → ResolverError
  | .success => .success
  | .enodata => .noData
  | .eservfail => .temporaryFailure
  | .enotfound => .unknownHost
  | .enomem => .outOfMemory
  | .etimeout => .temporaryFailure
  | .failure _ => .other

/-! ## Records -/

structure DNSRecordA where
  addresses : List UInt32
  deriving DecidableEq

structure DNSRecordAAAA where
  addresses : List (Vector UInt8 16)
  deriving DecidableEq

structure SRVEndpoint where
  target : Text
  port : UInt16 := 0
  priority : UInt16 := 0
  weight : UInt16 := 0
  deriving DecidableEq

structure DNSRecordSRV where
  endpoints : List SRVEndpoint
  deriving DecidableEq

/-- A record in the answer section: its type, and what c-ares returns for its fields. -/
inductive ResourceRecord where
  | a (addr : Option UInt32)
  | aaaa (addr : Option (Vector UInt8 16))
  | srv (target : Option Text) (port priority weight : UInt16)
  | unrelated
  deriving DecidableEq

namespace ResourceRecord

def a? : ResourceRecord → Option UInt32
  | a addr => addr
  | _ => none

def aaaa? : ResourceRecord → Option (Vector UInt8 16)
  | aaaa addr => addr
  | _ => none

def srv? : ResourceRecord → Option SRVEndpoint
  | srv (some target) port priority weight => some { target, port, priority, weight }
  | _ => none

end ResourceRecord

/-- The comparison of two endpoints. -/
def endpointBefore (a b : SRVEndpoint) : Bool :=
  if a.priority ≠ b.priority then a.priority < b.priority else a.weight < b.weight

/-- `std::sort` with a comparison: nothing comes before what stands in front of it. -/
class StdSort {α : Type} (before : α → α → Bool) where
  sort : List α → List α
  perm (l : List α) : (sort l).Perm l
  sorted (l : List α) : (sort l).Pairwise fun a b => before b a = false

/-- The loop over the answer section: records of other types and records without the field are skipped. -/
def readAnswers {α : Type} (field : ResourceRecord → Option α) (result : List ResourceRecord) :
    ResolverResult (List α) :=
  let found := result.filterMap field
  if found.isEmpty then .error .noData else .ok found

/-- A type of records: `parseQuery`, and what `getCached` knows of `localhost`. -/
class DNSRecord (R : Type) where
  parseQuery : List ResourceRecord → ResolverResult R
  localhost : Option R

instance dnsRecordA : DNSRecord DNSRecordA where
  parseQuery result := (readAnswers ResourceRecord.a? result).map DNSRecordA.mk
  localhost := some ⟨[0x7f000001]⟩

instance dnsRecordAAAA : DNSRecord DNSRecordAAAA where
  parseQuery result := (readAnswers ResourceRecord.aaaa? result).map DNSRecordAAAA.mk
  localhost := some ⟨[⟨#[0, 0, 0, 0, 0, 0, 0, 0, 0, 0, 0, 0, 0, 0, 0, 1], rfl⟩]⟩

/-- The endpoints are sorted by priority and weight. -/
instance dnsRecordSRV [StdSort endpointBefore] : DNSRecord DNSRecordSRV where
  parseQuery result := (readAnswers ResourceRecord.srv? result).map fun found => ⟨StdSort.sort endpointBefore found⟩
  localhost := none

/-! ## Queries of one type -/

structure QueryData where
  /-- the number of the call whose callback this is -/
  callback : Nat
  name : Text
  deriving DecidableEq

structure Queries (R : Type) where
  cache : Text → Option R := fun _ => none
  /-- the `QueryData` that c-ares has -/
  pending : List QueryData := []
  /-- how often the function was called -/
  asked : Nat := 0
  /-- the callbacks that have been invoked, newest first -/
  called : List (QueryData × ResolverResult R) := []
  /-- the answers that c-ares had for a name, newest first -/
  responses : List (Text × List ResourceRecord) := []

def localhostName : Text := ['l', 'o', 'c', 'a', 'l', 'h', 'o', 's', 't']

namespace Queries
variable {R : Type}

/-- `callback(result)`. -/
def invoke (data : QueryData) (result : ResolverResult R) (q : Queries R) : Queries R :=
  { q with called := (data, result) :: q.called }

def cacheRecord (name : Text) (record : R) (q : Queries R) : Queries R :=
  { q with cache := Function.update q.cache name (some record) }

variable [DNSRecord R]

def getCached (name : Text) (q : Queries R) : Option R :=
  match if name = localhostName then (DNSRecord.localhost : Option R) else none with
  | some record => some record
  | none => q.cache name

/-- `queryA`, `queryAAAA` or `querySRV`; c-ares takes the `QueryData` and returns the status. When that is a failure,
c-ares may have called the callback nevertheless, or may never do so. -/
def query (name : Text) (status : AresStatus) (q : Queries R) : ResolverResult Unit × Queries R :=
  let data : QueryData := ⟨q.asked, name⟩
  let q := { q with asked := q.asked + 1 }
  match q.getCached name with
  | some record => (.ok (), q.invoke data (.ok record))
  | none =>
    let q := { q with pending := q.pending ++ [data] }
    if status ≠ .success then (.error (errorFromStatus status), q) else (.ok (), q)

/-- `queryCallback`: the result is there only if the status is `ARES_SUCCESS`. -/
def queryCallback (data : QueryData) (status : AresStatus) (result : List ResourceRecord) (q : Queries R) :
    Queries R :=
  match status with
  | .success =>
    let q := { q with responses := (data.name, result) :: q.responses }
    match (DNSRecord.parseQuery result : ResolverResult R) with
    | .ok record => (q.cacheRecord data.name record).invoke data (.ok record)
    | .error e => q.invoke data (.error e)
  | status => q.invoke data (.error (errorFromStatus status))

end Queries

inductive QueryEvent where
  | query (name : Text) (status : AresStatus)
  /-- c-ares calls the callback of its `i`-th query, which is deleted. -/
  | answered (i : Nat) (status : AresStatus) (result : List ResourceRecord)
  /-- An entry of the cache expires, or makes way for another one. -/
  | evicted (name : Text)

def Queries.step {R : Type} [DNSRecord R] (q : Queries R) : QueryEvent → Option (Queries R)
  | .query name status => some (q.query name status).2
  | .answered i status result => q.pending[i]?.map fun data =>
      { q with pending := q.pending.eraseIdx i }.queryCallback data status result
  | .evicted name => some { q with cache := Function.update q.cache name none }

/-! ## The resolver -/

inductive DNSTransport where
  | udp | tcp | tls | https
  deriving DecidableEq

structure Resolver where
  aQueries : Queries DNSRecordA := {}
  aaaaQueries : Queries DNSRecordAAAA := {}
  srvQueries : Queries DNSRecordSRV := {}
  primaryNs : Option IpAddress := none
  secondaryNs : Option IpAddress := none
  transport : DNSTransport := .udp
  systemDnsServers : List SocketAddress
  /-- what `ares_set_servers_csv` was given last -/
  servers : List SocketAddress := []

namespace Resolver

def dnsPort : UInt16 := 53

/-- 1.1.1.1, when there is not a single server. -/
def fallbackServer : SocketAddress := ⟨.v4 0x01010101, dnsPort⟩

/-- The system servers are the last resort. -/
def reloadServers (r : Resolver) : Resolver :=
  let servers := [r.primaryNs, r.secondaryNs].filterMap (·.map (⟨·, dnsPort⟩)) ++ r.systemDnsServers
  { r with servers := if servers.isEmpty then [fallbackServer] else servers }

/-- The constructor; the text of the system servers has been parsed. -/
def create (systemDnsServers : List SocketAddress) : Resolver := ({ systemDnsServers } : Resolver).reloadServers

def setCustomDnsServers (primary secondary : Option IpAddress) (r : Resolver) : Resolver :=
  { r with primaryNs := primary, secondaryNs := secondary }.reloadServers

def setCustomDnsServer (addr : IpAddress) (r : Resolver) : Resolver := r.setCustomDnsServers (some addr) none

/-- HTTPS and TLS are not supported. -/
def setDnsTransport (transport : DNSTransport) (r : Resolver) : Except String Unit × Resolver :=
  if transport = .https ∨ transport = .tls then (.error "DNS over HTTPS/TLS is not supported yet", r)
  else (.ok (), { r with transport }.reloadServers)

end Resolver

inductive ResolverEvent where
  | a (e : QueryEvent)
  | aaaa (e : QueryEvent)
  | srv (e : QueryEvent)
  | setCustomDnsServers (primary secondary : Option IpAddress)
  | setDnsTransport (transport : DNSTransport)

def resolverStep [StdSort endpointBefore] (r : Resolver) : ResolverEvent → Option Resolver
  | .a e => (r.aQueries.step e).map fun q => { r with aQueries := q }
  | .aaaa e => (r.aaaaQueries.step e).map fun q => { r with aaaaQueries := q }
  | .srv e => (r.srvQueries.step e).map fun q => { r with srvQueries := q }
  | .setCustomDnsServers primary secondary => some (r.setCustomDnsServers primary secondary)
  | .setDnsTransport transport => some (r.setDnsTransport transport).2

/-! ## Waiting for an answer -/

/-- `asyncQueryA`, `asyncQueryAAAA` and `asyncQuerySRV`: what the query returned, and what the callback has sent within
10 seconds. -/
def wrapSync {R : Type} (asked : ResolverResult Unit) (received : Option (ResolverResult R)) : ResolverResult R :=
  match asked with
  | .error e => .error e
  | .ok () => received.getD (.error .other)

/-- What `threadConnectDomain` learns: `endpoints[0]`, which is undefined behaviour if there is none. -/
def firstEndpoint : ResolverResult DNSRecordSRV → Option Answer
  | .ok record => record.endpoints[0]?.map fun ep => .srv (some (ep.target, ep.port))
  | .error _ => some (.srv none)

end Qunet
