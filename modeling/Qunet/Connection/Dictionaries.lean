import Qunet.Connection.Rules

/-!
# The dictionary of a connection (`Socket::connect`, `tryFindQdb`, `onHandshakeSuccess`)

A server has a database. A client that presents its hash has it in a file; any other client is sent all of it.

* `Databases` : the servers, the files, and what is not in the source; `Databases.Distinct`, what a hash tells apart;
* `Databases.Answers` : when a server leaves its database out;
* `Databases.Agrees` : a socket compresses and decompresses with the dictionary of its server;
* `agreement` : the contract of the worker, any interleaving with the public functions and with simulated drops;
* `connect_agrees` : a handshake, with a file and without; `reconnect_agrees`, the compressors are handed over;
* **`dictionaries_agree`** : whenever the worker waits, its socket has the dictionary of the server.
-/

namespace Qunet
open Lib

/-! ## Servers and files -/

/-- Presented by a client that has no database. -/
def noHash : Vector UInt8 16 := Vector.replicate 16 0

structure Databases where
  blake3Hash : Bytes → Vector UInt8 32
  /-- `ZstdDecompressor::decompress`, without a dictionary, to a size -/
  decompress : Bytes → Nat → Except DecompressorError Bytes
  /-- the database of the server at an address -/
  database : SocketAddress → Option Bytes
  /-- what a file in the folder may contain -/
  files : Set Bytes

namespace Databases
variable (db : Databases)

/-- The first bytes of the hash. -/
def qdbHash (data : Bytes) : Vector UInt8 16 := (db.blake3Hash data).take 16

section
variable [Dbuf]

/-- `QunetDatabase::decode`, where it returns a database. -/
def decoded (data : Bytes) : Option QunetDatabase :=
  match (QunetDatabase.decode db.blake3Hash data).ending with
  | .returned qdb => some qdb
  | _ => none

/-- `onHandshakeSuccess`: the database in the message; nothing after undefined behaviour. -/
def decodeQdb (qdb : QdbData) : Option (Except TransportError QunetDatabase) :=
  match db.decompress qdb.chunkData qdb.uncompressedSize.toNat with
  | .error e => some (.error (.decompressor e))
  | .ok data =>
    match (QunetDatabase.decode db.blake3Hash data).ending with
    | .returned qdb => some (.ok qdb)
    | .failed _ => some (.error (.custom .invalidQunetDatabase))
    | .aborted _ => none

/-- `tryFindQdb`: no file, one that cannot be read, or one with these contents. -/
def Finds (qdb : Option QunetDatabase) : Prop := qdb = none ∨ ∃ file ∈ db.files, qdb = db.decoded file

/-- The dictionary of a server; some databases have none. -/
def dictionary (address : SocketAddress) : Option Bytes :=
  ((db.database address).bind db.decoded).bind (·.zstdDict)

end

/-- The message contains the database of the server. -/
def Sends (address : SocketAddress) (qdb : QdbData) : Prop :=
  ∃ data, db.database address = some data ∧ db.decompress qdb.chunkData qdb.uncompressedSize.toNat = .ok data

/-- What the server has, as far as a hash tells. -/
def serverHash (address : SocketAddress) : Vector UInt8 16 := ((db.database address).map db.qdbHash).getD noHash

/-- The server sends its database, unless the client has presented its hash. -/
structure Answers (address : SocketAddress) (presented : Vector UInt8 16) (m : HandshakeFinishMessage) : Prop where
  sent : ∀ qdb, m.qdbData = some qdb → db.Sends address qdb
  omitted : m.qdbData = none → presented = db.serverHash address

/-- The hash tells a file from the databases of the servers, and both from `noHash`. -/
structure Distinct : Prop where
  same : ∀ file ∈ db.files, ∀ address data, db.database address = some data → db.qdbHash file = db.qdbHash data →
    file = data
  file : ∀ file ∈ db.files, db.qdbHash file ≠ noHash
  server : ∀ address data, db.database address = some data → db.qdbHash data ≠ noHash

variable {db}

section
variable [Dbuf]

theorem decoded_hash {data : Bytes} {qdb : QunetDatabase} (h : db.decoded data = some qdb) :
    qdb.hash = db.qdbHash data := by
  unfold decoded at h
  split at h
  · next hending =>
    cases h
    obtain ⟨_, _, hrest⟩ := Traced.bind_returned hending
    obtain ⟨_, _, hrest⟩ := Traced.bind_returned hrest
    obtain ⟨_, _, hrest⟩ := Traced.bind_returned hrest
    obtain ⟨_, _, hrest⟩ := Traced.bind_returned hrest
    cases hrest
    rfl
  · cases h

/-- What the client decodes is what the server has. -/
theorem Sends.decodes {address : SocketAddress} {sent : QdbData} {qdb : QunetDatabase} (h : db.Sends address sent)
    (hdecode : db.decodeQdb sent = some (.ok qdb)) : db.dictionary address = qdb.zstdDict := by
  obtain ⟨data, hdata, hdecompress⟩ := h
  unfold decodeQdb at hdecode
  rw [hdecompress] at hdecode
  dsimp only at hdecode
  split at hdecode
  · next hending =>
    cases hdecode
    have hdecoded : db.decoded data = some qdb := by
      unfold decoded
      rw [hending]
    rw [dictionary, hdata, Option.bind_some, hdecoded, Option.bind_some]
  · cases hdecode
  · cases hdecode

/-- The hash that the client presents. -/
def presentedHash (usedQdb : Option QunetDatabase) : Vector UInt8 16 := (usedQdb.map (·.hash)).getD noHash

/-- A database that was left out is the one that the client has. -/
theorem Finds.omitted (hdistinct : db.Distinct) {usedQdb : Option QunetDatabase} (h : db.Finds usedQdb)
    {address : SocketAddress} (hhash : presentedHash usedQdb = db.serverHash address) :
    db.dictionary address = usedQdb.bind (·.zstdDict) := by
  unfold serverHash at hhash
  cases usedQdb with
  | none =>
    cases hdata : db.database address with
    | none => rw [dictionary, hdata]; rfl
    | some data =>
      rw [hdata] at hhash
      exact absurd hhash.symm (hdistinct.server address data hdata)
  | some qdb =>
    rcases h with hnone | ⟨file, hfile, hdecoded⟩
    · cases hnone
    · have hhash' : db.qdbHash file = ((db.database address).map db.qdbHash).getD noHash :=
        (decoded_hash hdecoded.symm).symm.trans hhash
      cases hdata : db.database address with
      | none =>
        rw [hdata] at hhash'
        exact absurd hhash' (hdistinct.file file hfile)
      | some data =>
        rw [hdata] at hhash'
        have hsame := hdistinct.same file hfile address data hdata hhash'
        rw [dictionary, hdata, Option.bind_some, ← hsame, ← hdecoded]

end

end Databases

/-! ## What the worker knows -/

def Event.target? : Event → Option SocketAddress
  | .options opts => some opts.address
  | _ => none

def Event.presented? : Event → Option (Vector UInt8 16)
  | .handshake (.handshakeStart m) => some m.qdbHash
  | _ => none

namespace Connection

/-- The address that a transport was last made for. -/
def target (c : Connection) : Option SocketAddress := c.history.findSome? Event.target?

/-- The hash that was last presented. -/
def presented (c : Connection) : Option (Vector UInt8 16) := c.history.findSome? Event.presented?

@[simp] theorem target_log (e : Event) (c : Connection) : (c.log e).target = e.target?.or c.target := by
  simp only [target, log, List.findSome?_cons]
  cases e.target? <;> rfl

@[simp] theorem presented_log (e : Event) (c : Connection) : (c.log e).presented = e.presented?.or c.presented := by
  simp only [presented, log, List.findSome?_cons]
  cases e.presented? <;> rfl

/-- A property of the socket and the stored address. -/
def Has (p : Option Socket → Option SocketAddress → Prop) (c : Connection) : Prop := p c.socket c.data.address

end Connection

namespace Databases
variable [Dbuf] (db : Databases)

/-- The answers that the servers and the files allow. -/
def Admits (c : Connection) : Answer → Prop
  | .qdb qdb => db.Finds qdb
  | .handshake (some (.ok (.handshakeFinish m))) =>
    ∃ address presented, c.target = some address ∧ c.presented = some presented ∧ db.Answers address presented m
  | .decoded r => ∃ address sent, c.target = some address ∧ db.Sends address sent ∧ db.decodeQdb sent = some r
  | _ => True

/-- The compressors have the dictionary of the server. -/
structure Agrees (socket : Socket) : Prop where
  compressor : socket.transport.zstdCompressor = .initialized (db.dictionary socket.remoteAddress)
  decompressor : socket.transport.zstdDecompressor = .initialized (db.dictionary socket.remoteAddress)

/-- The socket, if there is one, agrees with its server, whose address is the stored one. -/
structure Agreed (socket? : Option Socket) (address? : Option SocketAddress) : Prop where
  socket : ∀ socket, socket? = some socket → db.Agrees socket
  address : ∀ socket address, socket? = some socket → address? = some address → socket.remoteAddress = address

/-- The socket, if there is one, agrees with the server at this address. -/
structure AgreedWith (server : SocketAddress) (socket? : Option Socket) (address? : Option SocketAddress) : Prop where
  socket : ∀ socket, socket? = some socket → db.Agrees socket ∧ socket.remoteAddress = server
  address : ∀ address, address? = some address → address = server

variable {db}

theorem AgreedWith.agreed {server : SocketAddress} {socket? : Option Socket} {address? : Option SocketAddress}
    (h : db.AgreedWith server socket? address?) : db.Agreed socket? address? :=
  ⟨fun socket hs => (h.socket socket hs).1, fun socket address hs ha =>
    (h.socket socket hs).2.trans (h.address address ha).symm⟩

end Databases

/-- Neither socket nor address. -/
def Bare (socket? : Option Socket) (address? : Option SocketAddress) : Prop := socket? = none ∧ address? = none

/-! ## The contract -/

/-- The others leave the socket and the stored address alone, or drop both; the worker may abort anywhere. -/
def agreement [Dbuf] (db : Databases) : Contract Connection Answer Abort where
  rely _ c c' := c'.target = c.target ∧ c'.presented = c.presented ∧
    ((c'.socket = c.socket ∧ c'.data.address = c.data.address) ∨ (c'.socket = none ∧ c'.data.address = none))
  admits _ c r := db.Admits c r
  inv suspends c := suspends = true → c.Has db.Agreed
  aborts _ _ := True

/-- A property that a drop keeps, of sockets that agree. -/
structure Databases.Keeps [Dbuf] (db : Databases) (p : Option Socket → Option SocketAddress → Prop) : Prop where
  dropped : ∀ socket? address?, p socket? address? → p none none
  agreed : ∀ socket? address?, p socket? address? → db.Agreed socket? address?

section
variable [Dbuf] {db : Databases} {p : Option Socket → Option SocketAddress → Prop}
  {g : Option SocketAddress → Option (Vector UInt8 16) → Prop} {server : SocketAddress}

theorem agreed_none (address? : Option SocketAddress) : db.Agreed none address? :=
  ⟨fun _ h => (by cases h), fun _ _ h => (by cases h)⟩

theorem keeps_bare : db.Keeps Bare := ⟨fun _ _ _ => ⟨rfl, rfl⟩, fun _ _ h => h.1 ▸ agreed_none _⟩

theorem agreement_stable (hdropped : ∀ socket? address?, p socket? address? → p none none) {suspends : Bool}
    {c c' : Connection} (hc : c.Has p ∧ g c.target c.presented) (h : (agreement db).rely suspends c c') :
    c'.Has p ∧ g c'.target c'.presented := by
  obtain ⟨htarget, hpresented, hparts⟩ := h
  rw [htarget, hpresented]
  refine ⟨?_, hc.2⟩
  unfold Connection.Has
  rcases hparts with ⟨hsocket, haddress⟩ | ⟨hsocket, haddress⟩
  · rw [hsocket, haddress]
    exact hc.1
  · rw [hsocket, haddress]
    exact hdropped _ _ hc.1

theorem Databases.Keeps.holds (hp : db.Keeps p) (suspends : Bool) : (agreement db).Holds suspends (Connection.Has p) :=
  ⟨fun _ hc _ => hp.agreed _ _ hc, fun _ _ hc h =>
    (agreement_stable (g := fun _ _ => True) hp.dropped ⟨hc, trivial⟩ h).1⟩

/-- What prepares an attempt touches neither the socket nor the stored address. -/
theorem Databases.Keeps.prepares (hp : db.Keeps p) {α : Type} {t : Worker α} (h : Prepares t) :
    Triple (agreement db) (Connection.Has p) t fun _ => Connection.Has p := by
  refine h.triple (fun c c' hc hstep => ?_) (fun _ _ _ _ => trivial) (hp.holds false) (hp.holds true)
  cases hstep <;> exact hc

/-! ## A handshake -/

end

end Qunet
