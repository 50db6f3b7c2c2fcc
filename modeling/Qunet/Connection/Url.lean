import Qunet.Connection.Error

/-!
# Destinations (`UrlParser.hpp`)

* `Host` : what lies outside of the repository: how addresses are written, and what the build supports;
* `UrlParser.parse` : the protocol, the path and the host of a destination;
* `UrlParser.parse_eq_none` : when the parser reads outside of its text.
-/

namespace Qunet

abbrev Text := List Char

class Host where
  /-- `qsox::IpAddress::parse` -/
  parseIpAddress : Text → Option IpAddress
  /-- `qsox::Ipv6Address::parse` -/
  parseIpv6Address : Text → Option (Vector UInt8 16)
  quicSupport : Bool
  wsSupport : Bool
  tlsSupport : Bool

/-- `UrlParseError`, without `Success`. -/
inductive UrlParseError where
  | invalidProtocol | invalidPort
  deriving DecidableEq

/-- The variant `UrlParser::m_value`. -/
inductive UrlValue where
  | ipWithPort (address : SocketAddress)
  | ip (address : IpAddress)
  | domain (name : Text)
  | domainWithPort (name : Text) (port : UInt16)
  deriving DecidableEq

/-- What a successful parse leaves behind. -/
structure UrlParser where
  protocol : ConnectionType
  path : Text
  value : UrlValue
  deriving DecidableEq

/-! ## Searching -/

/-- `find` of a text. -/
def findText (pat : Text) : Text → Option Nat
  | [] => if pat.isEmpty then some 0 else none
  | c :: cs => if pat.isPrefixOf (c :: cs) then some 0 else (findText pat cs).map (· + 1)

/-- `find_last_of` for one character. -/
def findLastOf (c : Char) (s : Text) : Option Nat := (s.reverse.findIdx? (· == c)).map (s.length - 1 - ·)

/-- `std::from_chars`: the number at the front, whatever follows it. -/
def fromChars (s : Text) : Option UInt16 :=
  let digits := s.takeWhile Char.isDigit
  let value := digits.foldl (fun n c => 10 * n + (c.toNat - '0'.toNat)) 0
  if digits.isEmpty || 65536 ≤ value then none else some (UInt16.ofNat value)

namespace UrlParser

def protocolNamed (proto : Text) : Option ConnectionType :=
  if proto = ['u', 'd', 'p'] then some .udp
  else if proto = ['t', 'c', 'p'] then some .tcp
  else if proto = ['q', 'u', 'i', 'c'] then some .quic
  else if proto = ['w', 's'] then some .webSocket
  else if proto = ['w', 's', 's'] then some .webSocketTls
  else if proto = ['q', 'u', 'n', 'e', 't'] then some .unknown
  else none

/-- The protocol, and the text behind it. -/
def takeProtocol (url : Text) : Except UrlParseError (ConnectionType × Text) :=
  match findText [':', '/', '/'] url with
  | none => .ok (.unknown, url)
  | some protoEnd =>
    match protocolNamed (url.take protoEnd) with
    | none => .error .invalidProtocol
    | some type => .ok (type, url.drop (protoEnd + 3))

/-- The path, and the text before it. -/
def takePath (url : Text) : Text × Text :=
  match url.findIdx? (· == '/') with
  | none => ([], url)
  | some pathPos => (url.drop pathPos, url.take pathPos)

/-- A text without its brackets. -/
def stripBrackets (url : Text) : Text :=
  if url.head? = some '[' ∧ url.getLast? = some ']' then (url.drop 1).dropLast else url

section
variable [Host]

/-- The colon before the port, if there is one. It is looked for at `m_url[colonPos - 1]`, which lies outside of the
text when the text starts with its last colon. -/
def portColon (url : Text) : Option (Option Nat) :=
  match findLastOf ':' url with
  | none => some none
  | some 0 => none
  | some (before + 1) =>
    if url[before]? = some ']' || (Host.parseIpv6Address url).isNone then some (some (before + 1)) else some none

/-- The port, and the text before it. -/
def takePort (url : Text) : Option (Except UrlParseError (Option UInt16 × Text)) :=
  match portColon url with
  | none => none
  | some none => some (.ok (none, url))
  | some (some colonPos) =>
    match fromChars (url.drop (colonPos + 1)) with
    | none => some (.error .invalidPort)
    | some port => some (.ok (some port, url.take colonPos))

def valueOf (port : Option UInt16) (url : Text) : UrlValue :=
  match Host.parseIpAddress url, port with
  | some ip, some port => .ipWithPort ⟨ip, port⟩
  | some ip, none => .ip ip
  | none, some port => .domainWithPort url port
  | none, none => .domain url

/-- The parser; nothing when it reads outside of the text. -/
def parse (url : Text) : Option (Except UrlParseError UrlParser) :=
  match takeProtocol url with
  | .error e => some (.error e)
  | .ok (protocol, url) =>
    match takePort (takePath url).2 with
    | none => none
    | some (.error e) => some (.error e)
    | some (.ok (port, host)) => some (.ok ⟨protocol, (takePath url).1, valueOf port (stripBrackets host)⟩)

theorem takePort_eq_none {url : Text} : takePort url = none ↔ findLastOf ':' url = some 0 := by
  unfold takePort portColon
  rcases findLastOf ':' url with _ | _ | before
  · simp
  · simp
  · by_cases hport : (url[before]? = some ']' || (Host.parseIpv6Address url).isNone) = true
    · simp only [hport, if_true]
      cases fromChars (url.drop (before + 1 + 1)) <;> simp
    · simp only [hport]
      simp

/-- The parser reads outside of its text exactly when the part with the host starts with its last colon. -/
theorem parse_eq_none {url : Text} :
    parse url = none ↔
      ∃ protocol rest, takeProtocol url = .ok (protocol, rest) ∧ findLastOf ':' (takePath rest).2 = some 0 := by
  unfold parse
  rcases takeProtocol url with e | ⟨protocol, rest⟩
  · simp
  · have hport : takePort (takePath rest).2 = none ↔ _ := takePort_eq_none
    rcases h : takePort (takePath rest).2 with _ | e | ⟨port, host⟩
    · simpa [h] using hport
    · simpa [h] using hport
    · simpa [h] using hport

end

end UrlParser

end Qunet
