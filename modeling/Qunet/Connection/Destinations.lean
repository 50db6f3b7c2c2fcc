import Qunet.Connection.Ports

/-!
# Writing destinations (`UrlParser.hpp`)

* `Host.ReadsAddresses` : what is relied on: which texts are addresses;
* `Destination` : a protocol, a host, a port and a path, and the text that is written for them;
* `takeProtocol_text`, `takePath_append` : the protocol and the path are found where they were written;
* **`recovered_iff`** : the parser finds what was written, but not a bracketed address without a port.
-/

namespace Qunet

/-- What `qsox` reads: IPv6 addresses with at least two colons, IPv4 addresses without one, neither with a slash or
brackets. -/
structure Host.ReadsAddresses [Host] : Prop where
  ipv6 : ∀ text octets, Host.parseIpv6Address text = some octets → Host.parseIpAddress text = some (.v6 octets) ∧
    2 ≤ text.count ':' ∧ '/' ∉ text ∧ '[' ∉ text ∧ ']' ∉ text
  ipv4 : ∀ text bits, Host.parseIpAddress text = some (.v4 bits) →
    text ≠ [] ∧ ':' ∉ text ∧ '/' ∉ text ∧ '[' ∉ text ∧ ']' ∉ text

/-! ## What is written -/

/-- The protocol in front of a destination. -/
inductive Scheme where
  | none | qunet | udp | tcp | quic | ws | wss
  deriving DecidableEq

namespace Scheme

def protocol : Scheme → ConnectionType
  | none | qunet => .unknown
  | udp => .udp
  | tcp => .tcp
  | quic => .quic
  | ws => .webSocket
  | wss => .webSocketTls

def name : Scheme → Text
  | none => []
  | qunet => ['q', 'u', 'n', 'e', 't']
  | udp => ['u', 'd', 'p']
  | tcp => ['t', 'c', 'p']
  | quic => ['q', 'u', 'i', 'c']
  | ws => ['w', 's']
  | wss => ['w', 's', 's']

def text (scheme : Scheme) : Text := if scheme = none then [] else scheme.name ++ [':', '/', '/']

end Scheme

section
variable [Host]

/-- A host as it is written. -/
inductive WrittenHost where
  | ipv4 (text : Text) (bits : UInt32) (address : Host.parseIpAddress text = some (.v4 bits))
  | ipv6 (text : Text) (octets : Vector UInt8 16) (address : Host.parseIpv6Address text = some octets)
  | bracketed (text : Text) (octets : Vector UInt8 16) (address : Host.parseIpv6Address text = some octets)
  | domain (name : Text) (ne_nil : name ≠ []) (plain : ∀ c ∈ [':', '/', '[', ']'], c ∉ name)
      (domain : Host.parseIpAddress name = none)

namespace WrittenHost

def text : WrittenHost → Text
  | ipv4 text _ _ | ipv6 text _ _ => text
  | bracketed text _ _ => '[' :: text ++ [']']
  | domain name _ _ _ => name

def value (port : Option UInt16) : WrittenHost → UrlValue
  | ipv4 _ bits _ => port.elim (.ip (.v4 bits)) fun port => .ipWithPort ⟨.v4 bits, port⟩
  | ipv6 _ octets _ | bracketed _ octets _ =>
    port.elim (.ip (.v6 octets)) fun port => .ipWithPort ⟨.v6 octets, port⟩
  | domain name _ _ _ => port.elim (.domain name) fun port => .domainWithPort name port

def isIpv6 : WrittenHost → Bool
  | ipv6 _ _ _ => true
  | _ => false

def isBracketed : WrittenHost → Bool
  | bracketed _ _ _ => true
  | _ => false

end WrittenHost

/-- A port with its decimal digits. -/
structure WrittenPort where
  port : UInt16
  digits : Text
  numeral : Numeral digits port

/-- The colon and the digits, if there is a port. -/
def portText : Option WrittenPort → Text
  | none => []
  | some port => ':' :: port.digits

/-- A destination: a bare IPv6 address is not followed by a port, and `://` occurs behind the protocol only. -/
structure Destination where
  scheme : Scheme
  host : WrittenHost
  port : Option WrittenPort
  path : Text
  ipv6_port : host.isIpv6 = true → port = none
  path_slash : path = [] ∨ path.head? = some '/'
  separator : ¬ [':', '/', '/'] <:+: host.text ++ portText port ++ path

namespace Destination

def text (d : Destination) : Text := d.scheme.text ++ (d.host.text ++ portText d.port ++ d.path)

/-- What the parser should find. -/
def parsed (d : Destination) : UrlParser := ⟨d.scheme.protocol, d.path, d.host.value (d.port.map (·.port))⟩

/-- The parser finds what was written. -/
def Recovered (d : Destination) : Prop := UrlParser.parse d.text = some (.ok d.parsed)

end Destination

end

/-! ## The protocol and the path -/

theorem findText_eq_none {pat s : Text} (h : ¬ pat <:+: s) : findText pat s = none := by
  induction s with
  | nil =>
    unfold findText
    rw [if_neg]
    intro hempty
    rw [List.isEmpty_iff] at hempty
    exact h (by simp [hempty])
  | cons c cs ih =>
    unfold findText
    rw [if_neg, ih fun hinside => h (hinside.trans (List.suffix_cons c cs).isInfix)]
    · rfl
    · intro hprefix
      exact h (List.isPrefixOf_iff_prefix.mp hprefix).isInfix

/-- A pattern is found behind a text that does not have its first character. -/
theorem findText_append {p : Char} {ps name rest : Text} (h : p ∉ name) :
    findText (p :: ps) (name ++ (p :: ps ++ rest)) = some name.length := by
  induction name with
  | nil =>
    unfold findText
    simp
  | cons c name ih =>
    rw [List.mem_cons, not_or] at h
    rw [List.cons_append]
    unfold findText
    rw [if_neg, ih h.2]
    · rfl
    · simp [List.isPrefixOf, h.1]

theorem takeProtocol_text (scheme : Scheme) {rest : Text} (h : ¬ [':', '/', '/'] <:+: rest) :
    UrlParser.takeProtocol (scheme.text ++ rest) = .ok (scheme.protocol, rest) := by
  have hnamed : scheme ≠ .none → UrlParser.protocolNamed scheme.name = some scheme.protocol ∧ ':' ∉ scheme.name := by
    cases scheme <;> decide
  unfold UrlParser.takeProtocol Scheme.text
  by_cases hnone : scheme = .none
  · rw [if_pos hnone, List.nil_append, findText_eq_none h, hnone]
    rfl
  · obtain ⟨hname, hcolon⟩ := hnamed hnone
    rw [if_neg hnone, List.append_assoc, findText_append hcolon]
    simp [hname]

theorem takePath_append {host path : Text} (hhost : '/' ∉ host) (hpath : path = [] ∨ path.head? = some '/') :
    UrlParser.takePath (host ++ path) = (path, host) := by
  unfold UrlParser.takePath
  rw [List.findIdx?_append, findIdx_eq_none_iff.mpr hhost]
  obtain rfl | hslash := hpath
  · simp
  · obtain ⟨rest, rfl⟩ := List.head?_eq_some_iff.mp hslash
    simp [List.findIdx?_cons]

/-! ## The host and the port -/

section
variable [Host]

namespace WrittenHost

/-- The host without brackets. -/
def bare : WrittenHost → Text
  | ipv4 text _ _ | ipv6 text _ _ | bracketed text _ _ => text
  | domain name _ _ _ => name

/-- What cannot be in a host without brackets. -/
theorem bare_plain (hqsox : Host.ReadsAddresses) (host : WrittenHost) :
    host.bare ≠ [] ∧ '/' ∉ host.bare ∧ '[' ∉ host.bare ∧ ']' ∉ host.bare := by
  have hipv6 : ∀ text octets, Host.parseIpv6Address text = some octets →
      text ≠ [] ∧ '/' ∉ text ∧ '[' ∉ text ∧ ']' ∉ text := by
    intro text octets address
    obtain ⟨-, hcolons, hplain⟩ := hqsox.ipv6 text octets address
    refine ⟨?_, hplain⟩
    rintro rfl
    simp at hcolons
  cases host with
  | ipv4 text bits address =>
    obtain ⟨hne, -, hplain⟩ := hqsox.ipv4 text bits address
    exact ⟨hne, hplain⟩
  | ipv6 text octets address => exact hipv6 text octets address
  | bracketed text octets address => exact hipv6 text octets address
  | domain name ne_nil plain => exact ⟨ne_nil, plain '/' (by decide), plain '[' (by decide), plain ']' (by decide)⟩

theorem slash_not_mem (hqsox : Host.ReadsAddresses) (host : WrittenHost) : '/' ∉ host.text := by
  have hbare := (host.bare_plain hqsox).2.1
  cases host with
  | bracketed text octets address =>
    change '/' ∉ text at hbare
    change '/' ∉ '[' :: text ++ [']']
    simpa using hbare
  | _ => exact hbare

theorem stripBrackets_text (hqsox : Host.ReadsAddresses) (host : WrittenHost) :
    UrlParser.stripBrackets host.text = host.bare := by
  have hopen := (host.bare_plain hqsox).2.2.1
  have hplain : ∀ text : Text, '[' ∉ text → UrlParser.stripBrackets text = text := by
    intro text htext
    refine if_neg fun h => htext ?_
    exact List.mem_of_mem_head? h.1
  cases host with
  | bracketed text octets address =>
    change UrlParser.stripBrackets ('[' :: text ++ [']']) = text
    unfold UrlParser.stripBrackets
    rw [if_pos ⟨rfl, List.getLast?_concat⟩]
    simp
  | ipv4 text bits address => exact hplain text hopen
  | ipv6 text octets address => exact hplain text hopen
  | domain name ne_nil plain => exact hplain name hopen

theorem valueOf_address {text : Text} {ip : IpAddress} (h : Host.parseIpAddress text = some ip)
    (port : Option UInt16) :
    UrlParser.valueOf port text = port.elim (.ip ip) fun port => .ipWithPort ⟨ip, port⟩ := by
  unfold UrlParser.valueOf
  rw [h]
  cases port <;> rfl

theorem valueOf_bare (hqsox : Host.ReadsAddresses) (host : WrittenHost) (port : Option UInt16) :
    UrlParser.valueOf port host.bare = host.value port := by
  cases host with
  | ipv4 text bits address => exact valueOf_address address port
  | ipv6 text octets address => exact valueOf_address (hqsox.ipv6 text octets address).1 port
  | bracketed text octets address => exact valueOf_address (hqsox.ipv6 text octets address).1 port
  | domain name ne_nil plain domain =>
    unfold UrlParser.valueOf bare
    dsimp only
    rw [domain]
    cases port <;> rfl

/-- A text with one colon is no IPv6 address, nor is one with brackets. -/
theorem not_ipv6 (hqsox : Host.ReadsAddresses) {text : Text} (h : text.count ':' < 2 ∨ '[' ∈ text) :
    Host.parseIpv6Address text = none := by
  cases haddress : Host.parseIpv6Address text with
  | none => rfl
  | some octets =>
    obtain ⟨-, hcolons, -, hopen, -⟩ := hqsox.ipv6 text octets haddress
    rcases h with h | h
    · omega
    · exact absurd h hopen

theorem colon_not_mem (hqsox : Host.ReadsAddresses) {host : WrittenHost} (hipv6 : host.isIpv6 = false)
    (hbracketed : host.isBracketed = false) : ':' ∉ host.text := by
  cases host with
  | ipv4 text bits address => exact (hqsox.ipv4 text bits address).2.1
  | ipv6 => cases hipv6
  | bracketed => cases hbracketed
  | domain name ne_nil plain => exact plain ':' (by decide)

/-- A port behind any host but a bare IPv6 address. -/
theorem separates (hqsox : Host.ReadsAddresses) (host : WrittenHost) (hipv6 : host.isIpv6 = false)
    (port : WrittenPort) :
    UrlParser.Separates (host.text ++ ':' :: port.digits) host.text port.digits := by
  have hlast : ':' ∉ port.digits := fun h => absurd (port.numeral.digits ':' h) (by decide)
  refine ⟨rfl, hlast, ?_⟩
  cases hbracketed : host.isBracketed with
  | true =>
    cases host with
    | bracketed text octets address => exact .inl (@List.getLast?_concat _ ('[' :: text) ']')
    | _ => cases hbracketed
  | false =>
    have hcolon := colon_not_mem hqsox hipv6 hbracketed
    refine .inr (not_ipv6 hqsox (.inl ?_))
    rw [List.count_append, List.count_cons_self, List.count_eq_zero_of_not_mem hcolon,
      List.count_eq_zero_of_not_mem hlast]
    decide

theorem text_ne_nil (hqsox : Host.ReadsAddresses) (host : WrittenHost) : host.text ≠ [] := by
  have hbare := (host.bare_plain hqsox).1
  cases host with
  | bracketed text octets address => exact List.cons_ne_nil _ _
  | _ => exact hbare

/-- A bare IPv6 address: no port is found. -/
theorem takePort_of_ipv6 (hqsox : Host.ReadsAddresses) {text : Text} {octets : Vector UInt8 16}
    (address : Host.parseIpv6Address text = some octets) : UrlParser.takePort text = some (.ok (none, text)) := by
  obtain ⟨-, hcolons, -, -, hclose⟩ := hqsox.ipv6 text octets address
  have hcolon : ':' ∈ text := List.count_pos_iff.mp (by omega)
  obtain ⟨before, after, rfl, hlast⟩ := exists_last hcolon
  rw [List.count_append, List.count_cons_self, List.count_eq_zero_of_not_mem hlast] at hcolons
  have hne : before ≠ [] := by
    rintro rfl
    simp at hcolons
  refine UrlParser.takePort_ipv6 hlast hne (not_or.mpr ⟨fun hgetLast => hclose ?_, by simp [address]⟩)
  exact List.mem_append_left _ (List.mem_of_getLast? hgetLast)

/-- A bracketed address without a port: what follows its last colon is taken for one. -/
theorem takePort_of_bracketed (hqsox : Host.ReadsAddresses) {text : Text} {octets : Vector UInt8 16}
    (address : Host.parseIpv6Address text = some octets) (rest : Text) :
    UrlParser.takePort ('[' :: text ++ [']']) ≠ some (.ok (none, rest)) := by
  obtain ⟨-, hcolons, -, -, hclose⟩ := hqsox.ipv6 text octets address
  have hcolon : ':' ∈ text := List.count_pos_iff.mp (by omega)
  obtain ⟨before, after, rfl, hlast⟩ := exists_last hcolon
  have hsep : UrlParser.Separates ('[' :: (before ++ ':' :: after) ++ [']']) ('[' :: before) (after ++ [']']) :=
    ⟨by simp, by simpa using hlast, .inr (not_ipv6 hqsox (.inr (by simp)))⟩
  rw [UrlParser.takePort_separated hsep (List.cons_ne_nil _ _)]
  cases fromChars (after ++ [']']) with
  | none => simp
  | some port => simp

/-- A port is found. -/
theorem takePort_of_port (hqsox : Host.ReadsAddresses) {host : WrittenHost} (hipv6 : host.isIpv6 = false)
    (port : WrittenPort) :
    UrlParser.takePort (host.text ++ ':' :: port.digits) = some (.ok (some port.port, host.text)) := by
  rw [UrlParser.takePort_separated (host.separates hqsox hipv6 port) (host.text_ne_nil hqsox),
    fromChars_numeral port.numeral]
  rfl

end WrittenHost

/-! ## The whole destination -/

/-- The protocol and the path are found, the host and the port are left. -/
theorem parse_text (hqsox : Host.ReadsAddresses) (d : Destination) :
    UrlParser.parse d.text = (UrlParser.takePort (d.host.text ++ portText d.port)).map fun r => r.map fun r =>
      ⟨d.scheme.protocol, d.path, UrlParser.valueOf r.1 (UrlParser.stripBrackets r.2)⟩ := by
  have hslash : '/' ∉ d.host.text ++ portText d.port := by
    rw [List.mem_append, not_or]
    refine ⟨d.host.slash_not_mem hqsox, ?_⟩
    cases d.port with
    | none => exact List.not_mem_nil
    | some port =>
      refine fun h => ?_
      rcases List.mem_cons.mp h with h | h
      · exact absurd h (by decide)
      · exact absurd (port.numeral.digits '/' h) (by decide)
  unfold UrlParser.parse Destination.text
  rw [takeProtocol_text d.scheme d.separator]
  dsimp only
  rw [takePath_append hslash d.path_slash]
  dsimp only
  rcases UrlParser.takePort (d.host.text ++ portText d.port) with _ | e | ⟨port, host⟩ <;> rfl

theorem recovered_of_takePort (hqsox : Host.ReadsAddresses) {d : Destination}
    (h : UrlParser.takePort (d.host.text ++ portText d.port) = some (.ok (d.port.map (·.port), d.host.text))) :
    d.Recovered := by
  unfold Destination.Recovered Destination.parsed
  rw [parse_text hqsox, h, ← d.host.valueOf_bare hqsox, ← d.host.stripBrackets_text hqsox]
  rfl

/-- If the parser has found what was written, `takePort` has found the port. -/
theorem takePort_of_recovered (hqsox : Host.ReadsAddresses) {d : Destination} (h : d.Recovered) :
    ∃ rest, UrlParser.takePort (d.host.text ++ portText d.port) = some (.ok (d.port.map (·.port), rest)) := by
  unfold Destination.Recovered at h
  rw [parse_text hqsox] at h
  obtain ⟨rest, htake⟩ := UrlParser.takePort_of_map h
  refine ⟨rest, ?_⟩
  rw [htake, Destination.parsed, ← d.host.valueOf_bare hqsox, UrlParser.valueOf_port]

/-- **Destinations are recovered**, all but the bracketed addresses without a port. -/
theorem recovered_iff (hqsox : Host.ReadsAddresses) (d : Destination) :
    d.Recovered ↔ ¬ (d.host.isBracketed = true ∧ d.port = none) := by
  constructor
  · rintro h ⟨hbracketed, hport⟩
    obtain ⟨rest, htake⟩ := takePort_of_recovered hqsox h
    rw [hport] at htake
    cases hhost : d.host with
    | bracketed text octets address =>
      rw [hhost, portText, List.append_nil] at htake
      exact WrittenHost.takePort_of_bracketed hqsox address rest htake
    | _ =>
      rw [hhost] at hbracketed
      cases hbracketed
  · intro h
    apply recovered_of_takePort hqsox
    cases hport : d.port with
    | some port =>
      have hipv6 : d.host.isIpv6 = false := by
        rw [Bool.eq_false_iff]
        intro hipv6
        rw [d.ipv6_port hipv6] at hport
        cases hport
      exact WrittenHost.takePort_of_port hqsox hipv6 port
    | none =>
      rw [portText, List.append_nil]
      cases hhost : d.host with
      | ipv6 text octets address => exact WrittenHost.takePort_of_ipv6 hqsox address
      | bracketed text octets address =>
        rw [hhost] at h
        exact absurd ⟨rfl, hport⟩ h
      | ipv4 text bits address => exact UrlParser.takePort_plain (hqsox.ipv4 text bits address).2.1
      | domain name ne_nil plain => exact UrlParser.takePort_plain (plain ':' (by decide))

end

/-! ### A loopback address -/

def loopbackText : Text := [':', ':', '1']

def loopbackOctets : Vector UInt8 16 := Vector.ofFn fun i => if i = 15 then 1 else 0

/-- The one address here is `::1`. -/
@[reducible] def loopbackHost : Host where
  parseIpAddress text := if text = loopbackText then some (.v6 loopbackOctets) else none
  parseIpv6Address text := if text = loopbackText then some loopbackOctets else none
  quicSupport := false
  wsSupport := true
  tlsSupport := true

theorem loopbackText_address : @Host.parseIpv6Address loopbackHost loopbackText = some loopbackOctets := if_pos rfl

theorem loopbackHost_readsAddresses : @Host.ReadsAddresses loopbackHost :=
  @Host.ReadsAddresses.mk loopbackHost
    (fun text octets h => by
      obtain ⟨rfl, hoctets⟩ := Option.ite_none_right_eq_some.mp h
      cases hoctets
      exact ⟨if_pos rfl, by decide⟩)
    (fun text bits h => by
      obtain ⟨-, hbits⟩ := Option.ite_none_right_eq_some.mp h
      cases hbits)

def bracketedLoopback : @WrittenHost loopbackHost :=
  @WrittenHost.bracketed loopbackHost loopbackText loopbackOctets loopbackText_address

/-- `wss://[::1]:4340/ws` is recovered. -/
theorem recovered_loopback : ∃ d : @Destination loopbackHost,
    @Destination.text loopbackHost d = "wss://[::1]:4340/ws".toList ∧ @Destination.Recovered loopbackHost d := by
  let d : @Destination loopbackHost := @Destination.mk loopbackHost .wss bracketedLoopback
    (some ⟨4340, ['4', '3', '4', '0'], numeral_toDigits 4340⟩) ['/', 'w', 's'] (fun h => by cases h) (.inr rfl)
    (by decide)
  refine ⟨d, rfl, (@recovered_iff loopbackHost loopbackHost_readsAddresses d).mpr fun h => ?_⟩
  cases h.2

/-- `[::1]` is not recovered: the parser finds the domain `[:` and the port 1. -/
theorem bracketed_not_recovered : ∃ d : @Destination loopbackHost,
    @Destination.text loopbackHost d = "[::1]".toList ∧ ¬ @Destination.Recovered loopbackHost d := by
  let d : @Destination loopbackHost :=
    @Destination.mk loopbackHost .none bracketedLoopback none [] (fun h => by cases h) (.inl rfl) (by decide)
  have hparse : @UrlParser.parse loopbackHost ['[', ':', ':', '1', ']'] =
      some (.ok ⟨.unknown, [], .domainWithPort ['[', ':'] 1⟩) := by decide
  refine ⟨d, rfl, fun h => ?_⟩
  cases hparse.symm.trans h

end Qunet
