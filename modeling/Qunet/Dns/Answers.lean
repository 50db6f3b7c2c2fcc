import Qunet.Dns.Resolver
import Qunet.Lib.Machine
import Qunet.Lib.Ranking
import Mathlib.Data.Prod.Lex

/-!
# Answers of the DNS resolver

* `endpointBefore_ranks` : endpoints are compared by priority, then by weight;
* `parseQuery_endpoints` : a parsed record has all endpoints of the answer, in that order, and at least one;
* `Queries.Known`, `Queries.latest` : where a record may come from;
* `Queries.Sound`, `Queries.Sound.step` : what every event keeps; `Resolver.Sound.run`, what every run keeps;
* **`resolved_endpoint`** : `endpoints[0]` exists, and comes first among the endpoints of an answer for that name;
* **`answers_coherent`** : the cache agrees with the latest answer for each name;
* **`answered_once`** : no callback is invoked twice, and none is lost.
-/

namespace Qunet
open Lib

/-! ## Endpoints -/

/-- The priority, then the weight. -/
def SRVEndpoint.rank (ep : SRVEndpoint) : ℕ ×ₗ ℕ := toLex (ep.priority.toNat, ep.weight.toNat)

theorem endpointBefore_ranks : Ranks endpointBefore SRVEndpoint.rank := by
  intro a b
  rw [SRVEndpoint.rank, SRVEndpoint.rank, Prod.Lex.toLex_lt_toLex, endpointBefore]
  by_cases hpriority : a.priority = b.priority
  · simp [hpriority, UInt16.lt_iff_toNat_lt]
  · have hne : a.priority.toNat ≠ b.priority.toNat := fun h => hpriority (UInt16.toNat_inj.mp h)
    simp [hpriority, hne, UInt16.lt_iff_toNat_lt]

/-- What `std::sort` demands of the comparison. -/
theorem endpointBefore_strictWeakOrder : IsStrictWeakOrder SRVEndpoint fun a b => endpointBefore a b = true :=
  endpointBefore_ranks.strictWeakOrder

theorem readAnswers_ok {α : Type} {field : ResourceRecord → Option α} {result : List ResourceRecord} {found : List α}
    (h : readAnswers field result = .ok found) : found = result.filterMap field ∧ found ≠ [] := by
  unfold readAnswers at h
  dsimp only at h
  split at h
  · cases h
  · next hne =>
    cases h
    exact ⟨rfl, by simpa using hne⟩

section
variable [StdSort endpointBefore]

theorem parseQuery_endpoints {result : List ResourceRecord} {record : DNSRecordSRV}
    (h : DNSRecord.parseQuery result = .ok record) :
    record.endpoints.Perm (result.filterMap ResourceRecord.srv?) ∧ record.endpoints ≠ [] ∧
      record.endpoints.Pairwise fun a b => a.rank ≤ b.rank := by
  have hmap : (readAnswers ResourceRecord.srv? result).map
      (fun found => DNSRecordSRV.mk (StdSort.sort endpointBefore found)) = .ok record := h
  cases hread : readAnswers ResourceRecord.srv? result with
  | error e =>
    rw [hread] at hmap
    cases hmap
  | ok found =>
    rw [hread] at hmap
    cases hmap
    obtain ⟨hfound, hne⟩ := readAnswers_ok hread
    have hperm : (StdSort.sort endpointBefore found).Perm found := StdSort.perm found
    refine ⟨hfound ▸ hperm, fun (hnil : StdSort.sort endpointBefore found = []) => hne ?_,
      endpointBefore_ranks.pairwise (StdSort.sorted found)⟩
    rw [hnil] at hperm
    exact hperm.nil_eq.symm

/-- The first endpoint is one of the answer, and none of the others comes before it. -/
theorem parseQuery_first {result : List ResourceRecord} {record : DNSRecordSRV}
    (h : DNSRecord.parseQuery result = .ok record) :
    ∃ ep, record.endpoints[0]? = some ep ∧ ep ∈ result.filterMap ResourceRecord.srv? ∧
      ∀ other ∈ result.filterMap ResourceRecord.srv?, ep.rank ≤ other.rank := by
  obtain ⟨hperm, hne, hsorted⟩ := parseQuery_endpoints h
  obtain ⟨ep, rest, hep⟩ := List.exists_cons_of_ne_nil hne
  rw [hep] at hperm hsorted
  refine ⟨ep, by rw [hep]; rfl, hperm.mem_iff.mp List.mem_cons_self, fun other hother => ?_⟩
  rcases List.mem_cons.mp (hperm.mem_iff.mpr hother) with rfl | hrest
  · exact le_refl _
  · exact (List.pairwise_cons.mp hsorted).1 other hrest

end

/-! ## Queries of one type -/

section
variable {R : Type} [DNSRecord R]

/-- The record is that of `localhost`, or c-ares had an answer for the name that says so. -/
def Queries.Known (name : Text) (record : R) (q : Queries R) : Prop :=
  (name = localhostName ∧ DNSRecord.localhost = some record) ∨
    ∃ result, (name, result) ∈ q.responses ∧ DNSRecord.parseQuery result = .ok record

/-- The latest answer for the name that can be parsed. -/
def Queries.latest (name : Text) (q : Queries R) : Option R :=
  q.responses.findSome? fun response =>
    if response.1 = name then (DNSRecord.parseQuery response.2 : ResolverResult R).toOption else none

def Queries.calledBack (q : Queries R) : List Nat := q.called.map (·.1.callback)

def Queries.waiting (q : Queries R) : List Nat := q.pending.map (·.callback)

/-- Every call is counted once among the callbacks and the queries. -/
def Queries.Once (q : Queries R) : Prop := (q.calledBack ++ q.waiting).Perm (List.range q.asked)

/-- Callbacks are given what is known, and the cache has nothing older than the latest answer. -/
structure Queries.Coherent (q : Queries R) : Prop where
  getCached : ∀ name record, q.getCached name = some record →
    (name = localhostName ∧ DNSRecord.localhost = some record) ∨ q.latest name = some record
  called : ∀ data record, (data, .ok record) ∈ q.called → q.Known data.name record

structure Queries.Sound (q : Queries R) : Prop where
  cached : ∀ name record, q.cache name = some record → q.latest name = some record
  called : ∀ data record, (data, .ok record) ∈ q.called → q.Known data.name record
  requests : q.Once

namespace Queries
variable {q q' : Queries R}

theorem getCached_cases {name : Text} {record : R} (h : q.getCached name = some record) :
    (name = localhostName ∧ DNSRecord.localhost = some record) ∨ q.cache name = some record := by
  unfold getCached at h
  split at h
  · next hlocal =>
    obtain ⟨hname, hrecord⟩ := Option.ite_none_right_eq_some.mp hlocal
    exact Or.inl ⟨hname, hrecord.trans h⟩
  · exact Or.inr h

theorem known_of_latest {name : Text} {record : R} (h : q.latest name = some record) : q.Known name record := by
  obtain ⟨response, hmem, hparse⟩ := List.exists_of_findSome?_eq_some h
  obtain ⟨rfl, hrecord⟩ := Option.ite_none_right_eq_some.mp hparse
  refine Or.inr ⟨response.2, hmem, ?_⟩
  cases hresult : (DNSRecord.parseQuery response.2 : ResolverResult R) with
  | error e =>
    rw [hresult] at hrecord
    cases hrecord
  | ok parsed =>
    rw [hresult] at hrecord
    cases hrecord
    rfl

theorem Known.mono {name : Text} {record : R} (h : q.Known name record) (hsub : q.responses ⊆ q'.responses) :
    q'.Known name record :=
  h.imp id fun ⟨result, hmem, hparse⟩ => ⟨result, hsub hmem, hparse⟩

namespace Sound

theorem start : (({} : Queries R)).Sound :=
  ⟨fun _ _ h => (by cases h), fun _ _ h => absurd h List.not_mem_nil, .refl _⟩

/-- What is cached is known. -/
theorem getCached (h : q.Sound) {name : Text} {record : R} (hget : q.getCached name = some record) :
    q.Known name record := by
  rcases getCached_cases hget with hlocal | hcached
  · exact Or.inl hlocal
  · exact known_of_latest (h.cached name record hcached)

/-- A callback is invoked with a record that is known or with an error; the answers stay. -/
theorem invoke (h : q.Sound) (hresponses : q'.responses = q.responses) {data : QueryData} {result : ResolverResult R}
    (hcalled : q'.called = (data, result) :: q.called)
    (hresult : ∀ record, result = .ok record → q.Known data.name record) :
    ∀ data record, (data, .ok record) ∈ q'.called → q'.Known data.name record := by
  intro other record hmem
  rw [hcalled] at hmem
  refine Known.mono (q := q) ?_ (hresponses ▸ List.Subset.refl _)
  rcases List.mem_cons.mp hmem with heq | hold
  · cases heq
    exact hresult record rfl
  · exact h.called other record hold

theorem query (h : q.Sound) (name : Text) (status : AresStatus) : (q.query name status).2.Sound := by
  have hrange : (List.range (q.asked + 1)).Perm (q.asked :: (q.calledBack ++ q.waiting)) := by
    rw [List.range_succ]
    exact (List.perm_append_singleton _ _).trans (h.requests.symm.cons _)
  unfold Queries.query
  dsimp only
  split
  · next record hget =>
    refine ⟨h.cached, h.invoke rfl rfl ?_, hrange.symm⟩
    rintro _ ⟨⟩
    exact h.getCached hget
  · have hpending : (q.calledBack ++ (q.waiting ++ [q.asked])).Perm (List.range (q.asked + 1)) := by
      rw [← List.append_assoc]
      exact (List.perm_append_singleton _ _).trans hrange.symm
    have hwaiting : (q.pending ++ [(⟨q.asked, name⟩ : QueryData)]).map (·.callback) = q.waiting ++ [q.asked] := by
      rw [List.map_append]
      rfl
    split
    · exact ⟨h.cached, h.called, by simpa only [Once, calledBack, waiting, hwaiting] using hpending⟩
    · exact ⟨h.cached, h.called, by simpa only [Once, calledBack, waiting, hwaiting] using hpending⟩

/-- c-ares calls the callback of one of its queries. -/
theorem answer (h : q.Sound) {before after : List QueryData} {data : QueryData}
    (hpending : q.pending = before ++ data :: after) (hout : q'.pending = before ++ after)
    {result : ResolverResult R} (hcalled : q'.called = (data, result) :: q.called) (hasked : q'.asked = q.asked) :
    q'.Once := by
  have hback : q'.calledBack = data.callback :: q.calledBack := by simp [calledBack, hcalled]
  have hwaiting : q.waiting = before.map (·.callback) ++ data.callback :: after.map (·.callback) := by
    simp [waiting, hpending]
  have hleft : q'.waiting = before.map (·.callback) ++ after.map (·.callback) := by simp [waiting, hout]
  have hmoved : (q'.calledBack ++ q'.waiting).Perm (q.calledBack ++ q.waiting) := by
    rw [hback, hleft, hwaiting, List.cons_append, ← List.append_assoc, ← List.append_assoc]
    exact List.perm_middle.symm
  rw [Once, hasked]
  exact hmoved.trans h.requests

end Sound

/-- A new answer is the latest one for its name, if it can be parsed. -/
theorem latest_cons {name other : Text} {result : List ResourceRecord}
    (hresponses : q'.responses = (name, result) :: q.responses) :
    q'.latest other = ((if name = other then (DNSRecord.parseQuery result : ResolverResult R).toOption else none).or
      (q.latest other)) := by
  unfold latest
  rw [hresponses, List.findSome?_cons]
  split
  · next record hrecord => rw [hrecord, Option.some_or]
  · next hnone => rw [hnone, Option.none_or]

namespace Sound

theorem queryCallback (h : q.Sound) {before after : List QueryData} {data : QueryData}
    (hpending : q.pending = before ++ data :: after) (status : AresStatus) (result : List ResourceRecord) :
    (({ q with pending := before ++ after } : Queries R).queryCallback data status result).Sound := by
  unfold Queries.queryCallback
  split
  · -- an answer: it is kept, and so is its record
    dsimp only
    split
    · next record hparse =>
      refine ⟨fun name cached hcached => ?_, fun other parsed hmem => ?_, h.answer hpending rfl rfl rfl⟩
      · have hupdate : Function.update q.cache data.name (some record) name = some cached := hcached
        rw [latest_cons (q := q) rfl, hparse]
        by_cases hname : data.name = name
        · subst hname
          rw [Function.update_self] at hupdate
          rw [if_pos rfl, ← hupdate]
          rfl
        · rw [Function.update_of_ne (Ne.symm hname)] at hupdate
          rw [if_neg hname, Option.none_or]
          exact h.cached name cached hupdate
      · rcases List.mem_cons.mp hmem with heq | hold
        · cases heq
          exact Or.inr ⟨result, List.mem_cons_self, hparse⟩
        · exact (h.called other parsed hold).mono (List.subset_cons_self _ _)
    · next e hparse =>
      refine ⟨fun name cached hcached => ?_, fun other parsed hmem => ?_, h.answer hpending rfl rfl rfl⟩
      · rw [latest_cons (q := q) rfl, hparse]
        have hnone : (if data.name = name then (Except.error e : ResolverResult R).toOption else none) = none := by
          split <;> rfl
        rw [hnone, Option.none_or]
        exact h.cached name cached hcached
      · rcases List.mem_cons.mp hmem with heq | hold
        · cases heq
        · exact (h.called other parsed hold).mono (List.subset_cons_self _ _)
  · refine ⟨h.cached, h.invoke rfl rfl ?_, h.answer hpending rfl rfl rfl⟩
    rintro record ⟨⟩

theorem coherent (h : q.Sound) : q.Coherent :=
  ⟨fun name record hget => (getCached_cases hget).imp id (h.cached name record), h.called⟩

theorem evict (h : q.Sound) (name : Text) :
    ({ q with cache := Function.update q.cache name none } : Queries R).Sound := by
  refine ⟨fun other record hcached => ?_, h.called, h.requests⟩
  by_cases hname : other = name
  · subst hname
    cases (Function.update_self _ _ _).symm.trans hcached
  · exact h.cached other record ((Function.update_of_ne hname _ _).symm.trans hcached)

theorem step (h : q.Sound) {e : QueryEvent} (hstep : q.step e = some q') : q'.Sound := by
  cases e with
  | query name status =>
    cases hstep
    exact h.query name status
  | answered i status result =>
    obtain ⟨data, hdata, rfl⟩ := Option.map_eq_some_iff.mp hstep
    obtain ⟨hlt, hget⟩ := List.getElem?_eq_some_iff.mp hdata
    have hsplit : q.pending = q.pending.take i ++ data :: q.pending.drop (i + 1) := by
      rw [← hget, ← List.drop_eq_getElem_cons hlt, List.take_append_drop]
    have hanswered := h.queryCallback hsplit status result
    rwa [← List.eraseIdx_eq_take_drop_succ] at hanswered
  | evicted name =>
    cases hstep
    exact h.evict name

end Sound
end Queries
end

/-! ## The resolver -/

section
variable [StdSort endpointBefore] {r r' : Resolver}

/-- The servers are those of the user and the system, and there is at least one. -/
structure Serves (primaryNs : Option IpAddress) (systemDnsServers servers : List SocketAddress) : Prop where
  nonempty : servers ≠ []
  custom : ∀ addr, primaryNs = some addr → servers.head? = some ⟨addr, Resolver.dnsPort⟩
  system : systemDnsServers <:+ servers

omit [StdSort endpointBefore] in
theorem reloadServers_serves (r : Resolver) : Serves r.primaryNs r.systemDnsServers r.reloadServers.servers := by
  unfold Resolver.reloadServers
  dsimp only
  split
  · next hempty =>
    obtain ⟨hcustom, hsystem⟩ := List.append_eq_nil_iff.mp (List.isEmpty_iff.mp hempty)
    refine ⟨List.cons_ne_nil _ _, fun addr haddr => ?_, hsystem ▸ List.nil_suffix⟩
    rw [haddr] at hcustom
    cases hcustom
  · next hne =>
    refine ⟨fun hnil => hne (List.isEmpty_iff.mpr hnil), fun addr haddr => ?_, List.suffix_append _ _⟩
    rw [haddr]
    rfl

structure Resolver.Sound (r : Resolver) : Prop where
  a : r.aQueries.Sound
  aaaa : r.aaaaQueries.Sound
  srv : r.srvQueries.Sound
  serves : Serves r.primaryNs r.systemDnsServers r.servers

theorem Resolver.Sound.create (systemDnsServers : List SocketAddress) : (Resolver.create systemDnsServers).Sound :=
  ⟨.start, .start, .start, reloadServers_serves _⟩

theorem Resolver.Sound.step (h : r.Sound) {e : ResolverEvent} (hstep : resolverStep r e = some r') : r'.Sound := by
  cases e with
  | a e =>
    obtain ⟨q, hq, rfl⟩ := Option.map_eq_some_iff.mp hstep
    exact ⟨h.a.step hq, h.aaaa, h.srv, h.serves⟩
  | aaaa e =>
    obtain ⟨q, hq, rfl⟩ := Option.map_eq_some_iff.mp hstep
    exact ⟨h.a, h.aaaa.step hq, h.srv, h.serves⟩
  | srv e =>
    obtain ⟨q, hq, rfl⟩ := Option.map_eq_some_iff.mp hstep
    exact ⟨h.a, h.aaaa, h.srv.step hq, h.serves⟩
  | setCustomDnsServers primary secondary =>
    cases hstep
    exact ⟨h.a, h.aaaa, h.srv, reloadServers_serves _⟩
  | setDnsTransport transport =>
    cases hstep
    unfold Resolver.setDnsTransport
    split
    · exact h
    · exact ⟨h.a, h.aaaa, h.srv, reloadServers_serves _⟩

/-- The resolvers of the runs, whatever the queries, the answers and their order. -/
def ResolverRun (systemDnsServers : List SocketAddress) (events : List ResolverEvent) (r : Resolver) : Prop :=
  runSteps resolverStep (Resolver.create systemDnsServers) events = some r

theorem Resolver.Sound.run {systemDnsServers : List SocketAddress} {events : List ResolverEvent}
    (h : ResolverRun systemDnsServers events r) : r.Sound :=
  runSteps_invariant (fun _ _ _ hstep hsound => hsound.step hstep) (Resolver.Sound.create systemDnsServers) h

/-- What `asyncQuerySRV` returns for a name: what the query returned, and what its callback was given in time. -/
def Resolver.SrvResult (r : Resolver) (name : Text) (result : ResolverResult DNSRecordSRV) : Prop :=
  ∃ asked received, result = wrapSync asked received ∧
    ∀ sent, received = some sent → ∃ data, data.name = name ∧ (data, sent) ∈ r.srvQueries.called

/-- **Endpoints of a domain.** In every run, `endpoints[0]` of a result exists; it is one of the endpoints of an answer
that c-ares had for this name, and none of them has a lower priority, or the same priority and a lower weight. -/
theorem resolved_endpoint {systemDnsServers : List SocketAddress} {events : List ResolverEvent}
    (h : ResolverRun systemDnsServers events r) {name : Text} {result : ResolverResult DNSRecordSRV}
    (hresult : r.SrvResult name result) :
    firstEndpoint result = some (.srv none) ∨
      ∃ response ep, (name, response) ∈ r.srvQueries.responses ∧ ep ∈ response.filterMap ResourceRecord.srv? ∧
        (∀ other ∈ response.filterMap ResourceRecord.srv?, ep.rank ≤ other.rank) ∧
        firstEndpoint result = some (.srv (some (ep.target, ep.port))) := by
  obtain ⟨asked, received, rfl, hreceived⟩ := hresult
  match asked, received with
  | .error e, _ => exact Or.inl rfl
  | .ok (), none => exact Or.inl rfl
  | .ok (), some (.error e) => exact Or.inl rfl
  | .ok (), some (.ok record) =>
    obtain ⟨data, rfl, hcalled⟩ := hreceived _ rfl
    rcases (Resolver.Sound.run h).srv.called data record hcalled with ⟨-, hlocal⟩ | ⟨response, hmem, hparse⟩
    · cases hlocal
    · obtain ⟨ep, hfirst, hep, hleast⟩ := parseQuery_first hparse
      exact Or.inr ⟨response, ep, hmem, hep, hleast, congrArg (Option.map _) hfirst⟩

end

/-- A stable sort of the endpoints. -/
@[reducible] def sortEndpoints : StdSort endpointBefore where
  sort l := l.insertionSort fun a b => endpointBefore b a = false
  perm l := List.perm_insertionSort _ l
  sorted l := by
    have htotal : Std.Total fun a b => endpointBefore b a = false :=
      ⟨fun a b => by simpa only [endpointBefore_ranks.not_before] using le_total a.rank b.rank⟩
    have htrans : IsTrans SRVEndpoint fun a b => endpointBefore b a = false :=
      ⟨fun a b c => by simpa only [endpointBefore_ranks.not_before] using le_trans⟩
    exact List.pairwise_insertionSort _ l

def gameName : Text := ['g']

/-- An address, three endpoints, and a record without a target. -/
def gameAnswer : List ResourceRecord :=
  [.a (some 1), .srv (some ['b']) 2 20 0, .srv none 0 0 0, .srv (some ['c']) 3 10 7, .srv (some ['a']) 1 10 5]

def gameRecord : DNSRecordSRV := ⟨[⟨['a'], 1, 10, 5⟩, ⟨['c'], 3, 10, 7⟩, ⟨['b'], 2, 20, 0⟩]⟩

/-- The name is asked for twice; the second time it is cached. -/
def gameEvents : List ResolverEvent :=
  [.srv (.query gameName .success), .srv (.answered 0 .success gameAnswer), .srv (.query gameName .success)]

theorem gameEvents_run : ∃ r, @ResolverRun sortEndpoints [] gameEvents r ∧
    r.srvQueries.called = [(⟨1, gameName⟩, .ok gameRecord), (⟨0, gameName⟩, .ok gameRecord)] := by
  refine ⟨_, rfl, ?_⟩
  decide

theorem resolved_endpoint_cached : ∃ r, @ResolverRun sortEndpoints [] gameEvents r ∧
    ∃ response ep, (gameName, response) ∈ r.srvQueries.responses ∧ ep ∈ response.filterMap ResourceRecord.srv? ∧
      (∀ other ∈ response.filterMap ResourceRecord.srv?, ep.rank ≤ other.rank) ∧
      firstEndpoint (.ok gameRecord) = some (.srv (some (ep.target, ep.port))) := by
  obtain ⟨r, hrun, hcalled⟩ := gameEvents_run
  refine ⟨r, hrun, ?_⟩
  have hresult : r.SrvResult gameName (.ok gameRecord) := by
    refine ⟨.ok (), some (.ok gameRecord), rfl, ?_⟩
    rintro _ ⟨⟩
    exact ⟨⟨1, gameName⟩, rfl, hcalled ▸ List.mem_cons_self⟩
  rcases @resolved_endpoint sortEndpoints r [] gameEvents hrun gameName (.ok gameRecord) hresult with hnone | hfound
  · cases hnone
  · exact hfound

/-- **The cache.** In every run and for every type, what is cached for a name is `localhost` or the latest answer for it
that could be parsed, and every record that a callback was given is `localhost` or was parsed from an answer for its
name. -/
theorem answers_coherent [StdSort endpointBefore] {r : Resolver} {systemDnsServers : List SocketAddress}
    {events : List ResolverEvent} (h : ResolverRun systemDnsServers events r) :
    r.aQueries.Coherent ∧ r.aaaaQueries.Coherent ∧ r.srvQueries.Coherent :=
  have hsound := Resolver.Sound.run h
  ⟨hsound.a.coherent, hsound.aaaa.coherent, hsound.srv.coherent⟩

theorem answers_coherent_cached : ∃ r, @ResolverRun sortEndpoints [] gameEvents r ∧ r.aQueries.Coherent ∧
    r.aaaaQueries.Coherent ∧ @Queries.Coherent _ (@dnsRecordSRV sortEndpoints) r.srvQueries := by
  obtain ⟨r, hrun, -⟩ := gameEvents_run
  exact ⟨r, hrun, @answers_coherent sortEndpoints r [] gameEvents hrun⟩

/-- **Callbacks.** In every run and for every type, the callback of each call has been invoked once, or belongs to a
query that c-ares still has. -/
theorem answered_once [StdSort endpointBefore] {r : Resolver} {systemDnsServers : List SocketAddress}
    {events : List ResolverEvent} (h : ResolverRun systemDnsServers events r) :
    r.aQueries.Once ∧ r.aaaaQueries.Once ∧ r.srvQueries.Once :=
  have hsound := Resolver.Sound.run h
  ⟨hsound.a.requests, hsound.aaaa.requests, hsound.srv.requests⟩

theorem answered_once_cached : ∃ r, @ResolverRun sortEndpoints [] gameEvents r ∧ r.aQueries.Once ∧
    r.aaaaQueries.Once ∧ r.srvQueries.Once := by
  obtain ⟨r, hrun, -⟩ := gameEvents_run
  exact ⟨r, hrun, @answered_once sortEndpoints r [] gameEvents hrun⟩

end Qunet
