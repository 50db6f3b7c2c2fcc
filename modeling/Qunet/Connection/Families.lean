import Qunet.Connection.PingRanking
import Qunet.Connection.Worker

/-!
# The address families (`setIpv4Enabled`, `setIpv6Enabled`)

* `Connection.contacts` : the addresses that were pinged or passed to `threadEstablishConn`;
* `familyContract` : others leave the two settings and the contacts alone;
* `Contacts` : tasks that contact enabled families only; `resolveDomain_ends`, where the settings are looked at;
* `DisabledLiteral` : an address of a disabled family as the destination, which is contacted all the same;
* `NeverDisabled` : the attempt keeps the contract (`neverDisabled_iff`).
-/

namespace Qunet
open Lib

/-- The address of a contact. -/
def Event.contact? : Event → Option SocketAddress
  | .pinged address => some address
  | .establish address _ => some address
  | _ => none

def Connection.contacts (c : Connection) : List SocketAddress := c.history.filterMap Event.contact?

def familyEnabled (ipv4 ipv6 : Bool) (a : SocketAddress) : Bool := if a.isV6 then ipv6 else ipv4

/-- The settings are these, and every contact belongs to an enabled family. -/
structure Respects (ipv4 ipv6 : Bool) (c : Connection) : Prop where
  enabled4 : c.settings.ipv4Enabled = ipv4
  enabled6 : c.settings.ipv6Enabled = ipv6
  contacts : ∀ a ∈ c.contacts, familyEnabled ipv4 ipv6 a = true

def familyContract (ipv4 ipv6 : Bool) : Contract Connection Answer Abort where
  rely _ c c' := c'.settings.ipv4Enabled = c.settings.ipv4Enabled ∧
    c'.settings.ipv6Enabled = c.settings.ipv6Enabled ∧ c'.contacts = c.contacts
  admits _ _ _ := True
  inv _ := Respects ipv4 ipv6
  aborts _ := Respects ipv4 ipv6

/-- The settings stay, and what is contacted is enabled. -/
def ContactStep (ipv4 ipv6 : Bool) (c c' : Connection) : Prop :=
  c'.settings = c.settings ∧ ∀ a ∈ c'.contacts, a ∈ c.contacts ∨ familyEnabled ipv4 ipv6 a = true

abbrev Contacts (ipv4 ipv6 : Bool) {α : Type} (t : Worker α) : Prop :=
  Confined (ContactStep ipv4 ipv6) (fun _ => True) t

/-- Every address of a list is enabled. -/
def AllEnabled (ipv4 ipv6 : Bool) (addrs : List SocketAddress) : Prop :=
  ∀ a ∈ addrs, familyEnabled ipv4 ipv6 a = true

section
variable {ipv4 ipv6 : Bool}

theorem familyContract_holds (suspends : Bool) : (familyContract ipv4 ipv6).Holds suspends (Respects ipv4 ipv6) where
  inv _ hc := hc
  stable c c' hc hrely := by
    obtain ⟨h4, h6, hcontacts⟩ := hrely
    exact ⟨h4.trans hc.enabled4, h6.trans hc.enabled6, hcontacts ▸ hc.contacts⟩

theorem ContactStep.respects {c c' : Connection} (hc : Respects ipv4 ipv6 c) (h : ContactStep ipv4 ipv6 c c') :
    Respects ipv4 ipv6 c' := by
  obtain ⟨hsettings, hcontacts⟩ := h
  refine ⟨by rw [hsettings, hc.enabled4], by rw [hsettings, hc.enabled6], fun a ha => ?_⟩
  exact (hcontacts a ha).elim (hc.contacts a) id

/-- A task that contacts enabled families only keeps the contract. -/
theorem Contacts.triple {α : Type} {t : Worker α} (h : Contacts ipv4 ipv6 t) :
    Triple (familyContract ipv4 ipv6) (Respects ipv4 ipv6) t fun _ => Respects ipv4 ipv6 :=
  Confined.triple h (fun _ _ hc hstep => hstep.respects hc) (fun _ _ _ hc => hc) (familyContract_holds false)
    (familyContract_holds true)

/-! ## Steps without a contact -/

theorem contactStep_quiet {c c' : Connection} (hsettings : c'.settings = c.settings) (h : c'.contacts = c.contacts) :
    ContactStep ipv4 ipv6 c c' :=
  ⟨hsettings, fun _ ha => Or.inl (h ▸ ha)⟩

theorem contactStep_refl (c : Connection) : ContactStep ipv4 ipv6 c c := contactStep_quiet rfl rfl

theorem contactStep_log {c : Connection} {e : Event} (h : ∀ a, e.contact? = some a → familyEnabled ipv4 ipv6 a = true) :
    ContactStep ipv4 ipv6 c (c.log e) := by
  refine ⟨rfl, fun a ha => ?_⟩
  obtain ⟨e', he', hcontact⟩ := List.mem_filterMap.mp ha
  rcases List.mem_cons.mp he' with rfl | hold
  · exact Or.inr (h a hcontact)
  · exact Or.inl (List.mem_filterMap.mpr ⟨e', hold, hcontact⟩)

theorem note_contacts {e : Event} (h : ∀ a, e.contact? = some a → familyEnabled ipv4 ipv6 a = true) :
    Contacts ipv4 ipv6 (note e) :=
  .act fun _ => contactStep_log h

/-- What pings enabled addresses. -/
theorem Looks.contacts {α : Type} {pinged : List SocketAddress} {t : Worker α} (h : Looks pinged t)
    (hpinged : AllEnabled ipv4 ipv6 pinged) : Contacts ipv4 ipv6 t := by
  apply h.mono
  · intro c c' hstep
    cases hstep with
    | refl => exact contactStep_refl c
    | log e he =>
      refine contactStep_log fun a ha => ?_
      cases e with
      | pinged address =>
        cases ha
        exact hpinged _ he
      | query name => cases ha
      | _ => exact he.elim
  · exact fun _ h => h.elim

theorem setState_contacts (state : ConnectionState) : Contacts ipv4 ipv6 (setState state) := by
  apply Confined.bind (.update fun c => contactStep_quiet rfl rfl)
  intro prev
  split
  · exact .bind (note_contacts (by simp [Event.contact?])) fun _ => .whenever (.act fun c => contactStep_quiet rfl rfl)
  · exact .pure

theorem threadConnectSocket_contacts (address : SocketAddress) (type : ConnectionType) :
    Contacts ipv4 ipv6 (threadConnectSocket address type false) := by
  have hoptions : Contacts ipv4 ipv6 (makeOptions address type false) :=
    .bind (.read contactStep_refl) fun _ => .bind (note_contacts (by simp [Event.contact?])) fun _ => .pure
  apply Confined.bind hoptions
  intro opts
  apply Confined.bind (.read contactStep_refl)
  intro qdbDir
  have hopen : Contacts ipv4 ipv6 (openSocket opts qdbDir false) := by
    refine (connect_handshakes opts qdbDir).mono ?_ fun _ _ => trivial
    intro c c' hstep
    cases hstep with
    | refl => exact contactStep_refl c
    | start m => exact contactStep_log (by simp [Event.contact?])
  apply Confined.bind hopen
  intro r
  split
  · exact .pure
  · exact .bind (.act fun c => contactStep_quiet rfl rfl) fun _ => .pure

/-! ## Queries -/

theorem isV6_mk (ip : IpAddress) (port : UInt16) : (SocketAddress.mk ip port).isV6 = ip.isV6 := by
  cases ip <;> rfl

/-- A query that is not allowed has no result, and one that is has addresses of its family. -/
theorem queryRecords_ends (hostname : Text) (port : UInt16) (v6 allowed : Bool) :
    Ends (fun addrs => ∀ a ∈ addrs, a.isV6 = v6 ∧ allowed = true) (fun _ => True)
      (queryRecords hostname port v6 allowed) := by
  have hnil : ∀ a ∈ ([] : List SocketAddress), a.isV6 = v6 ∧ allowed = true := by simp
  unfold queryRecords
  split
  · exact Ends.pure hnil
  · next hallowed =>
    simp only [Bool.not_eq_true', Bool.not_eq_false] at hallowed
    apply Ends.bind .single
    intro _ _ r c found c' hstep
    obtain ⟨records, hrecords, hpair⟩ := Option.map_eq_some_iff.mp hstep
    cases hpair
    rcases found with _ | addresses
    · exact hnil
    · intro a ha
      obtain ⟨ip, hip, rfl⟩ := List.mem_map.mp ha
      cases r with
      | records answer =>
        simp only [Answer.records?, Option.ite_none_right_eq_some, List.all_eq_true, decide_eq_true_eq,
          Option.some.injEq] at hrecords
        obtain ⟨hfamily, rfl⟩ := hrecords
        exact ⟨by rw [isV6_mk]; exact hfamily ip hip, hallowed⟩
      | _ => cases hrecords

/-- Where the settings are looked at: the addresses of a host are enabled. -/
theorem fetchIps_ends (hostname : Text) (port : UInt16) :
    Ends (AllEnabled ipv4 ipv6) (fun _ => True) (fetchIps hostname port ipv4 ipv6) := by
  apply Ends.bind (queryRecords_ends hostname port false ipv4)
  intro a ha
  apply Ends.bind (queryRecords_ends hostname port true ipv6)
  intro aaaa haaaa
  refine Ends.pure fun x hx => ?_
  unfold familyEnabled
  rcases List.mem_append.mp hx with hx | hx
  · simp [ha x hx]
  · simp [haaaa x hx]

variable {settings : ConnectionSettings}

theorem resolveDomain_ends (h4 : settings.ipv4Enabled = ipv4) (h6 : settings.ipv6Enabled = ipv6) (hostname : Text)
    (port : Option UInt16) (type : ConnectionType) :
    Ends (AllEnabled ipv4 ipv6) (fun _ => True) (resolveDomain hostname port type settings) := by
  subst h4 h6
  unfold resolveDomain
  split
  · exact fetchIps_ends _ _
  · apply Ends.bind .single
    intro _ _
    apply Ends.bind .single
    intro r _
    split <;> exact fetchIps_ends _ _

/-! ## Pings -/

theorem startPings_ends {addrs : List SocketAddress} (h : AllEnabled ipv4 ipv6 addrs) :
    Ends (fun cached => AllEnabled ipv4 ipv6 (cached.map (·.1))) (fun _ => True) (startPings addrs) := by
  induction addrs with
  | nil => exact Ends.pure (by simp [AllEnabled])
  | cons addr rest ih =>
    obtain ⟨haddr, hrest⟩ := List.forall_mem_cons.mp h
    apply Ends.bind .single
    intro r _
    split
    · exact (ih hrest).bind fun cached hcached => Ends.pure (List.forall_mem_cons.mpr ⟨haddr, hcached⟩)
    · exact Ends.bind .single fun _ _ => ih hrest

/-- A result comes with the address that was asked. -/
theorem receivePing_mem {addrs : List SocketAddress} {sent sent' : List (SocketAddress × PingResult)} {r : Answer}
    {address : SocketAddress} {result : PingResult}
    (h : receivePing addrs sent r = some (some (address, result, sent'))) :
    (address ∈ addrs ∨ address ∈ sent.map (·.1)) ∧ ∀ x ∈ sent', x ∈ sent := by
  cases r with
  | ready =>
    obtain ⟨p, hp, hq⟩ := Option.map_eq_some_iff.mp h
    cases hq
    exact ⟨Or.inr (List.mem_map_of_mem (List.mem_of_mem_head? hp)), fun x hx => List.mem_of_mem_tail hx⟩
  | ping i result' =>
    obtain ⟨a, ha, hq⟩ := Option.map_eq_some_iff.mp h
    cases hq
    exact ⟨Or.inl (List.mem_of_getElem? ha), fun x hx => hx⟩
  | _ => cases h

theorem Pings.add_results (p : Pings) (address : SocketAddress) (result : PingResult) :
    ∀ x ∈ (p.add address result).pingResults, x ∈ p.pingResults ∨ x.1 = address := by
  intro x hx
  unfold Pings.add at hx
  split at hx
  · exact Or.inl hx
  · rcases List.mem_append.mp hx with hx | hx
    · exact Or.inl hx
    · exact Or.inr (by rw [List.mem_singleton.mp hx])

theorem awaitPings_ends {addrs : List SocketAddress} (haddrs : AllEnabled ipv4 ipv6 addrs) (n : Nat)
    {sent : List (SocketAddress × PingResult)} (hsent : AllEnabled ipv4 ipv6 (sent.map (·.1))) {p : Pings}
    (hp : AllEnabled ipv4 ipv6 (p.pingResults.map (·.1))) :
    Ends (fun p => AllEnabled ipv4 ipv6 (p.pingResults.map (·.1))) (fun _ => True) (awaitPings addrs n sent p) := by
  induction n generalizing sent p with
  | zero => exact Ends.pure hp
  | succ n ih =>
    apply Ends.bind .single
    intro late _
    split
    · exact Ends.pure hp
    · intro r c received c' hstep
      obtain ⟨received', hreceived, hpair⟩ := Option.map_eq_some_iff.mp hstep
      cases hpair
      rcases received with _ | ⟨address, result, sent'⟩
      · exact hp
      · obtain ⟨hmem, hsub⟩ := receivePing_mem hreceived
        have haddress : familyEnabled ipv4 ipv6 address = true := hmem.elim (haddrs address) (hsent address)
        refine ih ?_ ?_
        · exact fun a ha => hsent a (List.map_subset _ hsub ha)
        · intro a ha
          obtain ⟨x, hx, rfl⟩ := List.mem_map.mp ha
          rcases p.add_results address result x hx with hold | hnew
          · exact hp _ (List.mem_map_of_mem hold)
          · rwa [hnew]

/-- Another port is of the same family. -/
theorem pingedCandidates_enabled {addrs results : List SocketAddress} (haddrs : AllEnabled ipv4 ipv6 addrs)
    (hresults : AllEnabled ipv4 ipv6 results) (protocols : List SupportedProtocol) :
    AllEnabled ipv4 ipv6 ((pingedCandidates addrs results protocols).map (·.1)) := by
  intro a ha
  obtain ⟨candidate, hcandidate, rfl⟩ := List.mem_map.mp ha
  unfold pingedCandidates at hcandidate
  split at hcandidate
  · obtain ⟨addr, haddr, hmem⟩ := List.mem_flatMap.mp hcandidate
    simp only [List.mem_cons, List.not_mem_nil, or_false] at hmem
    rcases hmem with rfl | rfl | rfl | rfl <;> exact haddrs addr haddr
  · obtain ⟨addr, haddr, hmem⟩ := List.mem_flatMap.mp hcandidate
    obtain ⟨ty, -, hty⟩ := List.mem_filterMap.mp hmem
    obtain ⟨ctype, -, rfl⟩ := Option.map_eq_some_iff.mp hty
    exact hresults addr haddr

/-! ## Candidates -/

theorem resetConnectionState_contacts : Contacts ipv4 ipv6 resetConnectionState :=
  .bind (.act fun _ => contactStep_quiet rfl rfl) fun _ => .bind (.act fun _ => contactStep_quiet rfl rfl) fun _ =>
    .act fun _ => contactStep_quiet rfl rfl

variable [Host]

theorem threadEstablishConn_contacts {address : SocketAddress} (h : familyEnabled ipv4 ipv6 address = true)
    (type : ConnectionType) : Contacts ipv4 ipv6 (threadEstablishConn address type) := by
  apply Confined.bind (note_contacts fun a ha => ?_)
  · intro
    split
    · exact .pure
    · have htls : Contacts ipv4 ipv6 (initTlsContext type) := by
        unfold initTlsContext
        split
        · exact .ask contactStep_refl
        · exact .pure
      apply Confined.bind htls
      intro ready
      split
      · exact .pure
      · exact threadConnectSocket_contacts address type
  · cases ha
    exact h

theorem tryCandidates_contacts {addrs : List Candidate} (h : AllEnabled ipv4 ipv6 (addrs.map (·.1)))
    (errors : List (SocketAddress × ConnectionType × ConnectionError)) :
    Contacts ipv4 ipv6 (tryCandidates addrs errors) := by
  induction addrs generalizing errors with
  | nil => exact .pure
  | cons a rest ih =>
    obtain ⟨ha, hrest⟩ := List.forall_mem_cons.mp h
    apply Confined.bind (threadEstablishConn_contacts ha a.2)
    intro r
    split
    · exact ih hrest _
    · exact .bind (.act fun c => contactStep_quiet rfl rfl) fun _ => .pure

theorem threadFinalConnect_contacts {addrs : List Candidate} (h : AllEnabled ipv4 ipv6 (addrs.map (·.1))) :
    Contacts ipv4 ipv6 (threadFinalConnect addrs) := by
  apply Confined.bind (.assert trivial)
  intro
  apply Confined.bind (setState_contacts .connecting)
  intro
  apply Confined.bind (.read contactStep_refl)
  intro preferred
  have hperm : (sortCandidates preferred addrs).Perm addrs := List.perm_insertionSort _ addrs
  exact tryCandidates_contacts (fun a ha => h a ((hperm.map _).mem_iff.mp ha)) []

theorem threadPingCandidates_contacts {addrs : List SocketAddress} (h : AllEnabled ipv4 ipv6 addrs) :
    Contacts ipv4 ipv6 (threadPingCandidates addrs) := by
  apply Confined.bind (setState_contacts .pinging)
  intro
  apply Ends.confined_bind ((startPings_looks fun _ => id).contacts h) (startPings_ends h)
  intro cached hcached
  have hsent : AllEnabled ipv4 ipv6 ((cached.take 8).map (·.1)) := fun a ha =>
    hcached a (List.map_subset _ (List.take_subset 8 cached) ha)
  apply Ends.confined_bind ((awaitPings_looks addrs _ _ {}).contacts (by simp [AllEnabled]))
    (awaitPings_ends h _ hsent (by simp [AllEnabled]))
  intro pings hpings
  apply Confined.bind (.read contactStep_refl)
  intro preferIpv6
  have harranged : Ends (fun sorted => AllEnabled ipv4 ipv6 (sorted.map (·.1))) (fun _ => True)
      (.ask (arrange preferIpv6 pings.pingResults) : Worker _) := by
    intro answer c sorted c' hstep
    obtain ⟨sorted', hsorted, hpair⟩ := Option.map_eq_some_iff.mp hstep
    cases hpair
    exact fun a ha => hpings a (((arrange_some hsorted).1.map _).mem_iff.mp ha)
  apply Ends.confined_bind (.ask contactStep_refl) harranged
  intro sorted hsorted
  exact threadFinalConnect_contacts (pingedCandidates_enabled h hsorted _)

theorem threadConnectWithIps_contacts {addrs : List SocketAddress} (h : AllEnabled ipv4 ipv6 addrs)
    (type : ConnectionType) (preferIpv6 : Bool) : Contacts ipv4 ipv6 (threadConnectWithIps addrs type preferIpv6) := by
  have hperm : (sortAddresses addrs preferIpv6).Perm addrs := List.perm_insertionSort _ addrs
  have hsorted : AllEnabled ipv4 ipv6 (sortAddresses addrs preferIpv6) := fun a ha => h a (hperm.mem_iff.mp ha)
  unfold threadConnectWithIps
  split
  · exact .pure
  · dsimp only
    split
    · exact threadPingCandidates_contacts hsorted
    · refine threadFinalConnect_contacts fun a ha => hsorted a ?_
      rwa [List.map_map, Function.comp_def, List.map_id'] at ha

/-! ## Destinations -/

theorem threadConnectIp_contacts {address : SocketAddress} (h : familyEnabled ipv4 ipv6 address = true)
    (type : ConnectionType) : Contacts ipv4 ipv6 (threadConnectIp address type) :=
  .bind (.read contactStep_refl) fun _ => .bind (.act fun _ => contactStep_quiet rfl rfl) fun _ =>
    .bind (.act fun _ => contactStep_quiet rfl rfl) fun _ =>
      threadConnectWithIps_contacts (List.forall_mem_singleton.mpr h) _ _

/-- The settings are read, and nothing that is resolved by them belongs to a disabled family. -/
theorem threadConnectDomain_respects (hostname : Text) (port : Option UInt16) (type : ConnectionType) :
    Triple (familyContract ipv4 ipv6) (Respects ipv4 ipv6) (threadConnectDomain hostname port type)
      fun _ => Respects ipv4 ipv6 := by
  refine (Contacts.triple (setState_contacts .dnsResolving)).bind fun _ => ?_
  have hread : Triple (familyContract ipv4 ipv6) (Respects ipv4 ipv6) (.read (·.settings)) fun settings c =>
      Respects ipv4 ipv6 c ∧ settings.ipv4Enabled = ipv4 ∧ settings.ipv6Enabled = ipv6 :=
    .read (familyContract_holds false) fun c hc => ⟨hc, hc.enabled4, hc.enabled6⟩
  refine hread.bind fun settings c ⟨hc, h4, h6⟩ => ?_
  refine Contacts.triple ?_ c hc
  apply Ends.confined_bind ((resolveDomain_looks hostname port type settings).contacts (by simp [AllEnabled]))
    (resolveDomain_ends h4 h6 hostname port type)
  intro addrs haddrs
  split
  · exact .pure
  · exact .bind (.act fun _ => contactStep_quiet rfl rfl) fun _ => threadConnectWithIps_contacts haddrs _ _

/-- The address that a destination is. -/
def UrlParser.address? (p : UrlParser) : Option SocketAddress :=
  match p.value with
  | .ipWithPort address => some address
  | .ip ip => some ⟨ip, defaultPort p.protocol⟩
  | _ => none

/-- The destination is an address, and its family is disabled. -/
def DisabledLiteral (url : Text) (ipv4 ipv6 : Bool) : Prop :=
  ∃ p a, UrlParser.parse url = some (.ok p) ∧ p.address? = some a ∧ familyEnabled ipv4 ipv6 a = false

/-- An attempt with these settings, which nobody changes, contacts no address of a disabled family. -/
def NeverDisabled (url : Text) (ipv4 ipv6 : Bool) : Prop :=
  Triple (familyContract ipv4 ipv6) (Respects ipv4 ipv6) (threadConnect url) fun _ => Respects ipv4 ipv6

theorem neverDisabled_of_not_literal {url : Text} (h : ¬ DisabledLiteral url ipv4 ipv6) :
    NeverDisabled url ipv4 ipv6 := by
  refine (Contacts.triple (note_contacts (by simp [Event.contact?]))).bind fun _ => ?_
  split
  · exact .abort (familyContract_holds false) fun _ hc => hc
  · exact .pure fun _ hc => hc
  · next p hparse =>
    refine (Contacts.triple resetConnectionState_contacts).bind fun _ => ?_
    have hpath : Contacts ipv4 ipv6 (.act fun c => { c with connectPath := p.path } : Worker Unit) :=
      .act fun _ => contactStep_quiet rfl rfl
    refine (Contacts.triple hpath).bind fun _ => ?_
    have henabled {a : SocketAddress} (ha : p.address? = some a) : familyEnabled ipv4 ipv6 a = true := by
      by_contra hdisabled
      exact h ⟨p, a, hparse, ha, by simpa using hdisabled⟩
    unfold UrlParser.address? at henabled
    split <;> rename_i hvalue <;> rw [hvalue] at henabled
    · exact Contacts.triple (threadConnectIp_contacts (henabled rfl) _)
    · exact Contacts.triple (threadConnectIp_contacts (henabled rfl) _)
    · exact threadConnectDomain_respects _ _ _
    · exact threadConnectDomain_respects _ _ _

/-- Twelve steps to the first contact: with a known type the address is tried, otherwise it is pinged. -/
theorem threadConnect_literal {url : Text} {p : UrlParser} {a : SocketAddress}
    (hparse : UrlParser.parse url = some (.ok p)) (ha : p.address? = some a) (settings : ConnectionSettings) :
    ∃ t c, (threadConnect url).exec (List.replicate 12 (.cached none)) { settings } = some (t, c) ∧
      a ∈ c.contacts := by
  obtain ⟨protocol, path, value⟩ := p
  unfold threadConnect
  rw [hparse]
  cases value with
  | ipWithPort address =>
    cases ha
    cases protocol <;> exact ⟨_, _, rfl, List.mem_cons_self⟩
  | ip ip =>
    cases ha
    cases protocol <;> exact ⟨_, _, rfl, List.mem_cons_self⟩
  | domain name => cases ha
  | domainWithPort name port => cases ha

theorem not_neverDisabled_of_literal {url : Text} (h : DisabledLiteral url ipv4 ipv6) :
    ¬ NeverDisabled url ipv4 ipv6 := by
  obtain ⟨p, a, hparse, ha, hdisabled⟩ := h
  intro hnever
  obtain ⟨t, c, hrun, hcontact⟩ := threadConnect_literal hparse ha { ipv4Enabled := ipv4, ipv6Enabled := ipv6 }
  have hstart : Respects ipv4 ipv6 { settings := { ipv4Enabled := ipv4, ipv6Enabled := ipv6 } } :=
    ⟨rfl, rfl, by simp [Connection.contacts]⟩
  have hsafe := (hnever _ hstart).exec (fun _ _ _ => trivial) hrun
  have hrespects : Respects ipv4 ipv6 c := hsafe.now (fun _ _ hc => hc) (fun _ _ hc => hc) fun _ _ hc => hc
  exact absurd (hrespects.contacts a hcontact) (by simp [hdisabled])

/-- No address of a disabled family is contacted exactly if the destination is not itself one. -/
theorem neverDisabled_iff (url : Text) (ipv4 ipv6 : Bool) :
    NeverDisabled url ipv4 ipv6 ↔ ¬ DisabledLiteral url ipv4 ipv6 :=
  ⟨fun hnever h => not_neverDisabled_of_literal h hnever, neverDisabled_of_not_literal⟩

end

/-- An IPv4 address is tried although IPv4 is disabled. -/
theorem disabled_address_contacted :
    ¬ ∀ (host : Host) (url : Text) (ipv4 ipv6 : Bool), @NeverDisabled host url ipv4 ipv6 := fun h =>
  @not_neverDisabled_of_literal false true plainHost tcpUrl
    ⟨⟨.tcp, [], .ip (.v4 1)⟩, ⟨.v4 1, 4340⟩, by decide, rfl, rfl⟩ (h plainHost tcpUrl false true)

end Qunet
