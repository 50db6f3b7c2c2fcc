import Qunet.Connection.Families
import Qunet.Connection.PeerClosed

/-!
# The path of a URL (`m_wts.connectPath`)

* `PathGiven` : the options that were made for a destination carry this path;
* `PathStands` : so will the next ones;
* `pathContract` : others leave the path and the attempts alone;
* `threadConnect_path` : attempts for another destination do no harm, nor those for a domain;
* **`urlPathReaches_iff`** : over all runs, the path is lost exactly if the host is an address.
-/

namespace Qunet
open Lib

def Event.destination? : Event → Option Text
  | .threadConnect url => some url
  | _ => none

/-- The destination of the latest attempt to connect. -/
def destination? (history : List Event) : Option Text := history.findSome? Event.destination?

/-- The options that were made since an attempt for `url`, and before one for another destination, carry this path. -/
def PathGiven (url path : Text) (history : List Event) : Prop :=
  ∀ newer older opts, history = newer ++ .options opts :: older → destination? older = some url → opts.path = path

structure PathStands (url path : Text) (c : Connection) : Prop where
  given : PathGiven url path c.history
  stored : destination? c.history = some url → c.connectPath = path

/-- The path may be missing while an attempt begins. -/
def pathContract (url path : Text) : Contract Connection Answer Abort where
  rely _ := PlainStep
  admits _ _ _ := True
  inv suspends c := PathGiven url path c.history ∧ (suspends = true → PathStands url path c)
  aborts _ c := PathGiven url path c.history

section
variable {url path : Text}

theorem PathGiven.cons {history : List Event} (h : PathGiven url path history) {e : Event}
    (he : ∀ opts, e = .options opts → destination? history = some url → opts.path = path) :
    PathGiven url path (e :: history) := by
  intro newer older opts heq hurl
  cases newer with
  | nil =>
    cases heq
    exact he opts rfl hurl
  | cons e' newer =>
    cases heq
    exact h newer older opts rfl hurl

theorem PathGiven.plainStep {c c' : Connection} (h : PathGiven url path c.history) (hstep : PlainStep c c') :
    PathGiven url path c'.history := by
  obtain ⟨es, hes, hplain⟩ := hstep.history
  rw [hes]
  clear hes
  induction es with
  | nil => exact h
  | cons e es ih =>
    obtain ⟨he, hrest⟩ := List.forall_mem_cons.mp hplain
    refine (ih hrest).cons fun opts heq => ?_
    subst heq
    cases he

theorem PlainStep.destination {c c' : Connection} (h : PlainStep c c') :
    destination? c'.history = destination? c.history := by
  obtain ⟨es, hes, hplain⟩ := h.history
  have hnone : es.findSome? Event.destination? = none := by
    refine List.findSome?_eq_none_iff.mpr fun e he => ?_
    have hne := hplain e he
    cases e <;> first | rfl | cases hne
  unfold destination?
  rw [hes, List.findSome?_append, hnone, Option.none_or]

theorem PathStands.plainStep {c c' : Connection} (h : PathStands url path c) (hstep : PlainStep c c') :
    PathStands url path c' :=
  ⟨h.given.plainStep hstep, fun hurl => hstep.path.trans (h.stored (hstep.destination ▸ hurl))⟩

theorem pathStands_holds (suspends : Bool) : (pathContract url path).Holds suspends (PathStands url path) where
  inv _ hc := ⟨hc.given, fun _ => hc⟩
  stable _ _ hc hstep := hc.plainStep hstep

theorem pathContract_tolerates : (pathContract url path).Tolerates disconnectWaiter where
  rely _ _ h := h
  inv _ h := ⟨h.1, fun hwait => (by cases hwait)⟩
  admits _ _ _ := trivial
  register _ := .quiet rfl (Or.inl rfl) rfl
  drop _ := .quiet rfl (Or.inl rfl) rfl

/-- The options carry the path that is stored when they are made. -/
theorem makeOptions_path (address : SocketAddress) (type : ConnectionType) (reconnecting : Bool) :
    Triple (pathContract url path) (PathStands url path) (makeOptions address type reconnecting)
      fun _ => PathStands url path := by
  let Read (now c : Connection) : Prop :=
    PathStands url path c ∧ (destination? c.history = some url → now.connectPath = path)
  have hread : Triple (pathContract url path) (PathStands url path) (.read id) Read :=
    .read (pathStands_holds false) fun c hc => ⟨hc, hc.stored⟩
  have hholds (now : Connection) : (pathContract url path).Holds false (Read now) := by
    refine ⟨fun c hc => ⟨hc.1.given, fun hwait => (by cases hwait)⟩, fun c c' hc hstep => ?_⟩
    exact ⟨hc.1.plainStep hstep, fun hurl => hc.2 (hstep.destination ▸ hurl)⟩
  refine hread.bind fun now => ?_
  refine Triple.bind (Q := fun _ => PathStands url path) ?_ fun _ => .pure fun _ hc => hc
  refine note_triple (hholds now) fun c hc => ⟨hc.1.given.cons fun opts heq hurl => ?_, hc.1.stored⟩
  cases heq
  exact hc.2 hurl

theorem pathRule : WorkerRule fun t => Triple (pathContract url path) (PathStands url path) t fun _ =>
    PathStands url path :=
  .of_triple (fun _ _ hc hstep => hc.plainStep hstep) (fun _ _ hc => hc.given) pathStands_holds pathContract_tolerates
    (fun _ hc => hc.2 rfl) makeOptions_path

theorem nextAttempt_path :
    Triple (pathContract url path) (PathStands url path) nextAttempt fun _ => PathStands url path :=
  .update (pathStands_holds false) fun _ hc => ⟨hc.given, hc.stored⟩

theorem debounce_path : Triple (pathContract url path) (PathStands url path) debounce fun _ => PathStands url path :=
  debounce_triple pathContract_tolerates pathStands_holds fun _ hc =>
    ⟨hc.given.cons fun _ heq => (by cases heq), hc.stored⟩

/-! ## An attempt to connect -/

/-- An attempt for this destination has begun. -/
structure PathBegun (url path destination : Text) (c : Connection) : Prop where
  given : PathGiven url path c.history
  begun : destination? c.history = some destination

theorem pathBegun_holds {destination : Text} :
    (pathContract url path).Holds false (PathBegun url path destination) where
  inv _ hc := ⟨hc.given, fun hwait => (by cases hwait)⟩
  stable _ _ hc hstep := ⟨hc.given.plainStep hstep, hstep.destination.trans hc.begun⟩

theorem PathBegun.stands {destination : Text} {c : Connection} (h : PathBegun url path destination c)
    (hpath : destination = url → c.connectPath = path) : PathStands url path c :=
  ⟨h.given, fun hurl => hpath (Option.some.inj (h.begun.symm.trans hurl))⟩

variable [Host]

/-- An address as the host: the path is cleared, which must not matter. -/
theorem threadConnectIp_path {destination : Text} (hpath : destination = url → path = []) (address : SocketAddress)
    (type : ConnectionType) :
    Triple (pathContract url path) (PathBegun url path destination) (threadConnectIp address type)
      fun _ => PathStands url path := by
  refine Triple.bind (Q := fun _ => PathBegun url path destination) (.read pathBegun_holds fun _ hc => hc) fun _ => ?_
  refine Triple.bind (Q := fun _ => PathBegun url path destination)
    (.act pathBegun_holds fun _ hc => ⟨hc.given, hc.begun⟩) fun _ => ?_
  refine Triple.bind (Q := fun _ => PathStands url path) ?_ fun _ => pathRule.threadConnectWithIps _ _ _
  refine .act pathBegun_holds fun c hc => ?_
  have hcleared : PathBegun url path destination { c with connectPath := [] } := ⟨hc.given, hc.begun⟩
  exact hcleared.stands fun hurl => (hpath hurl).symm

theorem threadConnect_path {p : UrlParser} (hparse : UrlParser.parse url = some (.ok p))
    (hpath : p.address? = none ∨ p.path = []) (destination : Text) :
    Triple (pathContract url p.path) (PathStands url p.path) (threadConnect destination)
      fun _ => PathStands url p.path := by
  have hnote : Triple (pathContract url p.path) (PathStands url p.path) (note (.threadConnect destination))
      fun _ => PathBegun url p.path destination :=
    note_triple (pathStands_holds false) fun c hc => ⟨hc.given.cons fun _ heq => (by cases heq), rfl⟩
  refine hnote.bind fun _ => ?_
  split
  · exact .abort pathBegun_holds fun _ hc => hc.given
  · next e herror =>
    refine .pure fun c hc => hc.stands ?_
    rintro rfl
    rw [hparse] at herror
    cases herror
  · next p' hparse' =>
    have hsame : destination = url → p' = p := by
      rintro rfl
      rw [hparse] at hparse'
      cases hparse'
      rfl
    have hreset : Triple (pathContract url p.path) (PathBegun url p.path destination) resetConnectionState
        fun _ => PathBegun url p.path destination :=
      resetConnectionState_triple pathBegun_holds (fun _ hc => ⟨hc.given, hc.begun⟩)
        (fun _ hc => ⟨hc.given, hc.begun⟩) fun _ hc => ⟨hc.given, hc.begun⟩
    refine hreset.bind fun _ => ?_
    have hstore : Triple (pathContract url p.path) (PathBegun url p.path destination)
        (.act fun c => { c with connectPath := p'.path })
        fun _ c => PathBegun url p.path destination c ∧ PathStands url p.path c := by
      refine .act pathBegun_holds fun c hc => ?_
      have hbegun : PathBegun url p.path destination { c with connectPath := p'.path } := ⟨hc.given, hc.begun⟩
      exact ⟨hbegun, hbegun.stands fun hurl => congrArg UrlParser.path (hsame hurl)⟩
    refine hstore.bind fun _ => ?_
    have hip {a : SocketAddress} (ha : p'.address? = some a) : destination = url → p.path = [] := by
      intro hurl
      rw [hsame hurl] at ha
      exact hpath.resolve_left (by simp [ha])
    unfold UrlParser.address? at hip
    split <;> rename_i hvalue <;> rw [hvalue] at hip
    · exact (threadConnectIp_path (hip rfl) _ _).pre fun _ hc => hc.1
    · exact (threadConnectIp_path (hip rfl) _ _).pre fun _ hc => hc.1
    · exact (pathRule.threadConnectDomain _ _ _).pre fun _ hc => hc.2
    · exact (pathRule.threadConnectDomain _ _ _).pre fun _ hc => hc.2

/-! ## Runs -/

/-- In every run, a domain or the lack of a path keeps it. -/
theorem pathGiven_of_running {p : UrlParser} (hparse : UrlParser.parse url = some (.ok p))
    (hpath : p.address? = none ∨ p.path = []) {c : ConnectionConfig} (h : Running (fun _ _ => True) c) :
    PathGiven url p.path c.shared.history := by
  have hloop : Triple (pathContract url p.path) (PathStands url p.path) workerThreadLoop
      fun _ => PathStands url p.path :=
    pathRule.workerThreadLoop (threadConnect_path hparse hpath)
      (pathRule.reconnectingPass nextAttempt_path debounce_path)
  have hstart : PathStands url p.path {} := ⟨fun newer older opts heq => (by simp at heq), fun hurl => (by cases hurl)⟩
  have hsafe := hloop.invariant (fun _ _ hc hstep => hc.plainStep hstep) (fun _ _ _ => trivial)
    (fun _ _ _ _ hstep => userStep_plain hstep) hstart h
  exact hsafe.always (fun _ hc => hc.given) (fun _ _ hc => hc) fun _ _ hc => hc.1

end

/-- Another build, where addresses are written the same way. -/
@[reducible] def Host.inBuild (host : Host) (quicSupport wsSupport tlsSupport : Bool) : Host :=
  { host with quicSupport, wsSupport, tlsSupport }

/-- In every run of every build, the options for `url` carry this path. -/
def UrlPathReaches [host : Host] (url path : Text) : Prop :=
  ∀ quicSupport wsSupport tlsSupport c, @Running (host.inBuild quicSupport wsSupport tlsSupport) (fun _ _ => True) c →
    PathGiven url path c.shared.history

theorem inBuild_parse [host : Host] (quicSupport wsSupport tlsSupport : Bool) (url : Text) :
    @UrlParser.parse (host.inBuild quicSupport wsSupport tlsSupport) url = UrlParser.parse url := rfl

/-- The worker takes the request. -/
def takeEvents (url : Text) : List ConnectionEvent := callEvents (.connect url) ++ List.replicate 3 (.own .ready)

/-- With an address as the host, the options are made fourteen steps later, without a path. -/
theorem literal_options [host : Host] {url : Text} {p : UrlParser} {a : SocketAddress}
    (hparse : UrlParser.parse url = some (.ok p)) (ha : p.address? = some a)
    (hprotocol : p.protocol = .webSocket ∨ p.protocol = .webSocketTls) :
    ∃ c, @runConnection (host.inBuild false true false) (takeEvents url ++ List.replicate 14 (.own .ready)) = some c ∧
      ∃ opts older, c.shared.history = .options opts :: older ∧ destination? older = some url ∧ opts.path = [] := by
  have htake : @runConnection (host.inBuild false true false) (takeEvents url) =
      some ⟨{ history := [.dequeued url, .connectOk url] }, do
        finishConnect (← (@threadConnect (host.inBuild false true false) url).race disconnectWaiter false)
        note .processed⟩ := rfl
  unfold runConnection at htake ⊢
  rw [Config.run_append htake]
  unfold threadConnect
  rw [inBuild_parse, hparse]
  obtain ⟨protocol, path, value⟩ := p
  cases value with
  | ipWithPort address =>
    rcases hprotocol with rfl | rfl <;> exact ⟨_, rfl, _, _, rfl, rfl, rfl⟩
  | ip ip =>
    rcases hprotocol with rfl | rfl <;> exact ⟨_, rfl, _, _, rfl, rfl, rfl⟩
  | domain name => cases ha
  | domainWithPort name port => cases ha

/-- An address as the host loses the path. -/
theorem not_urlPathReaches_of_literal [host : Host] {url : Text} {p : UrlParser} {a : SocketAddress}
    (hparse : UrlParser.parse url = some (.ok p)) (ha : p.address? = some a) (hpath : p.path ≠ [])
    (hprotocol : p.protocol = .webSocket ∨ p.protocol = .webSocketTls) : ¬ UrlPathReaches url p.path := by
  intro hreaches
  obtain ⟨c, hrun, opts, older, hhistory, hurl, hempty⟩ := literal_options hparse ha hprotocol
  have hruns := @Running.of_run (host.inBuild false true false) (fun _ _ => True) _ c (fun _ _ _ => trivial) hrun
  exact hpath ((hreaches false true false c hruns [] older opts hhistory hurl).symm.trans hempty)

/-- The path of a WebSocket URL reaches every attempt exactly if the host is a domain, or there is no path. -/
theorem urlPathReaches_iff [host : Host] {url : Text} {p : UrlParser} (hparse : UrlParser.parse url = some (.ok p))
    (hprotocol : p.protocol = .webSocket ∨ p.protocol = .webSocketTls) :
    UrlPathReaches url p.path ↔ p.address? = none ∨ p.path = [] := by
  constructor
  · intro hreaches
    by_contra hlost
    obtain ⟨haddress, hpath⟩ := not_or.mp hlost
    obtain ⟨a, ha⟩ := Option.ne_none_iff_exists'.mp haddress
    exact not_urlPathReaches_of_literal hparse ha hpath hprotocol hreaches
  · intro hpath quicSupport wsSupport tlsSupport c hruns
    exact @pathGiven_of_running url (host.inBuild quicSupport wsSupport tlsSupport) p hparse hpath c hruns

/-- No host is an address. -/
@[reducible] def domainHost : Host where
  parseIpAddress _ := none
  parseIpv6Address _ := none
  quicSupport := false
  wsSupport := true
  tlsSupport := false

def gameUrl : Text := ['w', 's', ':', '/', '/', 'h', '/', 'g']

theorem urlPathReaches_domain : @UrlPathReaches domainHost gameUrl ['/', 'g'] :=
  (@urlPathReaches_iff domainHost gameUrl ⟨.webSocket, ['/', 'g'], .domain ['h']⟩ (by decide) (Or.inl rfl)).mpr
    (Or.inl rfl)

/-- `ws://h/g`, where `h` is an address: the options have no path. -/
theorem urlPath_lost : ¬ ∀ (host : Host) (url : Text) (p : UrlParser), UrlParser.parse url = some (.ok p) →
    p.protocol = .webSocket ∨ p.protocol = .webSocketTls → @UrlPathReaches host url p.path := by
  intro h
  have hparse : @UrlParser.parse webSocketHost gameUrl = some (.ok ⟨.webSocket, ['/', 'g'], .ip (.v4 1)⟩) := by decide
  exact @not_urlPathReaches_of_literal webSocketHost gameUrl _ ⟨.v4 1, 80⟩ hparse rfl (by simp) (Or.inl rfl)
    (h webSocketHost gameUrl _ hparse (Or.inl rfl))

end Qunet
