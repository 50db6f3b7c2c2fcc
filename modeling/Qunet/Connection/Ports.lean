import Mathlib.Data.List.TakeWhile
import Qunet.Connection.Url

/-!
# The port of a destination (`UrlParser.hpp`)

* `findLastOf_append` : the last colon cuts the text in two;
* `Numeral`, `fromChars_eq_some_iff` : a number and its decimal digits, and what `std::from_chars` takes for one;
* `Separates`, `takePort_separated` : when the last colon stands before a port, and what becomes of it;
* **`portsStrict_iff`** : a port is what follows the last colon exactly if no other character follows its digits.
-/

namespace Qunet

/-! ## The last colon -/

theorem findIdx_eq_none_iff {c : Char} {s : Text} : s.findIdx? (· == c) = none ↔ c ∉ s := by
  simp only [List.findIdx?_eq_none_iff, beq_eq_false_iff_ne]
  exact ⟨fun h hmem => h c hmem rfl, fun h x hx heq => h (heq ▸ hx)⟩

theorem findLastOf_eq_none_iff {c : Char} {s : Text} : findLastOf c s = none ↔ c ∉ s := by
  rw [findLastOf, Option.map_eq_none_iff, findIdx_eq_none_iff, List.mem_reverse]

theorem findLastOf_append {c : Char} {before after : Text} (h : c ∉ after) :
    findLastOf c (before ++ c :: after) = some before.length := by
  have hafter : after.reverse.findIdx? (· == c) = none := findIdx_eq_none_iff.mpr (List.mem_reverse.not.mpr h)
  have hreverse : (before ++ c :: after).reverse = after.reverse ++ c :: before.reverse := by simp
  unfold findLastOf
  rw [hreverse, List.findIdx?_append, hafter, List.findIdx?_cons]
  simp

/-- The last occurrence of a character cuts the text in two. -/
theorem exists_last {c : Char} {s : Text} (h : c ∈ s) : ∃ before after, s = before ++ c :: after ∧ c ∉ after := by
  obtain ⟨front, back, hs, hback⟩ := List.eq_append_cons_of_mem (List.mem_reverse.mpr h)
  refine ⟨back.reverse, front.reverse, ?_, by simpa using hback⟩
  rw [← List.reverse_reverse s, hs]
  simp

theorem last_unique {c : Char} {before before' after after' : Text} (h : c ∉ after) (h' : c ∉ after')
    (heq : before ++ c :: after = before' ++ c :: after') : before = before' ∧ after = after' := by
  have hlength : before.length = before'.length := by
    have hfind := congrArg (findLastOf c) heq
    rw [findLastOf_append h, findLastOf_append h'] at hfind
    exact Option.some.inj hfind
  obtain ⟨rfl, htail⟩ := List.append_inj heq hlength
  exact ⟨rfl, (List.cons.inj htail).2⟩

/-! ## Numbers -/

/-- A port, and a decimal number with its value. -/
structure Numeral (text : Text) (port : UInt16) : Prop where
  ne_nil : text ≠ []
  digits : ∀ c ∈ text, c.isDigit
  value : Nat.ofDigitChars 10 text 0 = port.toNat

theorem numeral_toDigits (port : UInt16) : Numeral (Nat.toDigits 10 port.toNat) port :=
  ⟨Nat.toDigits_ne_nil, fun _ h => Nat.isDigit_of_mem_toDigits (by decide) (by decide) h, Nat.ofDigitChars_ten_toDigits⟩

/-- Exactly the digits at the front are read. -/
theorem fromChars_eq_some_iff {text : Text} {port : UInt16} :
    fromChars text = some port ↔ Numeral (text.takeWhile Char.isDigit) port := by
  unfold fromChars
  dsimp only
  rw [← Nat.ofDigitChars_eq_foldl]
  constructor
  · intro h
    split at h
    · cases h
    · next hread =>
      simp only [Bool.or_eq_true, List.isEmpty_iff, decide_eq_true_eq, not_or] at hread
      have hdigits : ∀ c ∈ text.takeWhile Char.isDigit, c.isDigit := fun c hc => List.mem_takeWhile_imp hc
      refine ⟨hread.1, hdigits, ?_⟩
      rw [← Option.some.inj h, UInt16.toNat_ofNat_of_lt' (by show _ < 2 ^ 16; omega)]
  · intro h
    have hlt := port.toNat_lt
    rw [if_neg (by simp [h.ne_nil, h.value]; omega), h.value, UInt16.ofNat_toNat]

theorem fromChars_eq_none_iff {text : Text} :
    fromChars text = none ↔
      text.takeWhile Char.isDigit = [] ∨ 65536 ≤ Nat.ofDigitChars 10 (text.takeWhile Char.isDigit) 0 := by
  unfold fromChars
  dsimp only
  rw [← Nat.ofDigitChars_eq_foldl]
  simp only [ite_eq_left_iff, reduceCtorEq, imp_false, not_not, Bool.or_eq_true, List.isEmpty_iff, decide_eq_true_eq]

theorem fromChars_numeral {text : Text} {port : UInt16} (h : Numeral text port) : fromChars text = some port := by
  have hall : text.takeWhile Char.isDigit = text := List.takeWhile_eq_self_iff.mpr h.digits
  rw [fromChars_eq_some_iff, hall]
  exact h

/-- The port in the parser's result. -/
def UrlValue.port? : UrlValue → Option UInt16
  | .ipWithPort address => some address.port
  | .domainWithPort _ port => some port
  | .ip _ | .domain _ => none

namespace UrlParser
section
variable [Host]

/-! ## The colon before the port -/

/-- The last colon of `host` stands between these texts, and what follows is a port: there is a `]` before it, or this
is no IPv6 address. -/
structure Separates (host before after : Text) : Prop where
  cut : host = before ++ ':' :: after
  last : ':' ∉ after
  port : before.getLast? = some ']' ∨ Host.parseIpv6Address host = none

/-- Only the text before the port is looked at. -/
theorem portColon_append {before after : Text} (hlast : ':' ∉ after) (hne : before ≠ []) :
    portColon (before ++ ':' :: after) =
      if before.getLast? = some ']' ∨ Host.parseIpv6Address (before ++ ':' :: after) = none then
        some (some before.length)
      else some none := by
  obtain ⟨front, b, rfl⟩ := List.eq_nil_or_concat before |>.resolve_left hne
  unfold portColon
  rw [findLastOf_append hlast]
  simp

/-- What becomes of a port. -/
theorem takePort_separated {host before after : Text} (h : Separates host before after) (hne : before ≠ []) :
    takePort host =
      some ((fromChars after).elim (.error .invalidPort) fun port => .ok (some port, before)) := by
  obtain ⟨rfl, hlast, hport⟩ := h
  unfold takePort
  rw [portColon_append hlast hne, if_pos hport]
  have hdrop : (before ++ ':' :: after).drop (before.length + 1) = after := by simp
  dsimp only
  rw [hdrop]
  cases fromChars after with
  | none => rfl
  | some port => simp

/-- The parser looks in front of a text that starts with its last colon. -/
theorem takePort_outside {after : Text} (hlast : ':' ∉ after) : takePort (':' :: after) = none :=
  takePort_eq_none.mpr (@findLastOf_append ':' [] after hlast)

theorem takePort_plain {host : Text} (h : ':' ∉ host) : takePort host = some (.ok (none, host)) := by
  unfold takePort portColon
  rw [findLastOf_eq_none_iff.mpr h]

/-- The last colon of an IPv6 address. -/
theorem takePort_ipv6 {before after : Text} (hlast : ':' ∉ after) (hne : before ≠ [])
    (hport : ¬ (before.getLast? = some ']' ∨ Host.parseIpv6Address (before ++ ':' :: after) = none)) :
    takePort (before ++ ':' :: after) = some (.ok (none, before ++ ':' :: after)) := by
  unfold takePort
  rw [portColon_append hlast hne, if_neg hport]

/-- A port that is found is read behind a separating colon. -/
theorem takePort_some {host rest : Text} {port : UInt16} (h : takePort host = some (.ok (some port, rest))) :
    ∃ before after, Separates host before after ∧ fromChars after = some port := by
  by_cases hcolon : ':' ∈ host
  · obtain ⟨before, after, rfl, hlast⟩ := exists_last hcolon
    cases before with
    | nil =>
      rw [List.nil_append, takePort_outside hlast] at h
      cases h
    | cons b before =>
      have hne : b :: before ≠ [] := List.cons_ne_nil b before
      have hsep : Separates (b :: before ++ ':' :: after) (b :: before) after := by
        refine ⟨rfl, hlast, ?_⟩
        by_contra hport
        rw [takePort_ipv6 hlast hne hport] at h
        cases h
      refine ⟨_, after, hsep, ?_⟩
      rw [takePort_separated hsep hne] at h
      cases hread : fromChars after with
      | none =>
        rw [hread] at h
        cases h
      | some port' =>
        rw [hread] at h
        cases h
        rfl
  · rw [takePort_plain hcolon] at h
    cases h

/-! ## Strict ports -/

/-- The part of a destination between its protocol and its path. -/
def hostPart (url : Text) : Except UrlParseError Text := (takeProtocol url).map fun r => (takePath r.2).2

/-- The parser, after it has found the host. -/
theorem parse_of_hostPart {url host : Text} (h : hostPart url = .ok host) :
    ∃ protocol path, parse url = (takePort host).map fun r => r.map fun r =>
      ⟨protocol, path, valueOf r.1 (stripBrackets r.2)⟩ := by
  unfold parse
  unfold hostPart at h
  cases hproto : takeProtocol url with
  | error e =>
    rw [hproto] at h
    cases h
  | ok r =>
    rw [hproto] at h
    obtain rfl := Except.ok.inj h
    refine ⟨r.1, (takePath r.2).1, ?_⟩
    dsimp only
    rcases takePort (takePath r.2).2 with _ | e | ⟨port, host⟩ <;> rfl

theorem valueOf_port (port : Option UInt16) (url : Text) : (valueOf port url).port? = port := by
  unfold valueOf
  rcases Host.parseIpAddress url with _ | ip <;> cases port <;> rfl

/-- The parser has the port that `takePort` finds. -/
theorem takePort_of_map {host path : Text} {protocol : ConnectionType} {parser : UrlParser}
    (h : ((takePort host).map fun r => r.map fun r => (⟨protocol, path, valueOf r.1 (stripBrackets r.2)⟩ : UrlParser)) =
      some (.ok parser)) :
    ∃ rest, takePort host = some (.ok (parser.value.port?, rest)) := by
  obtain ⟨r, htake, hr⟩ := Option.map_eq_some_iff.mp h
  cases r with
  | error e => cases hr
  | ok r =>
    cases hr
    exact ⟨r.2, by rw [htake, valueOf_port]⟩

theorem takePort_of_parse {url : Text} {parser : UrlParser} (hparse : parse url = some (.ok parser)) :
    ∃ host rest, hostPart url = .ok host ∧ takePort host = some (.ok (parser.value.port?, rest)) := by
  cases hhost : hostPart url with
  | error e =>
    unfold hostPart at hhost
    unfold parse at hparse
    cases hproto : takeProtocol url with
    | error e =>
      rw [hproto] at hparse
      cases hparse
    | ok r =>
      rw [hproto] at hhost
      cases hhost
  | ok host =>
    obtain ⟨protocol, path, heq⟩ := parse_of_hostPart hhost
    rw [heq] at hparse
    obtain ⟨rest, htake⟩ := takePort_of_map hparse
    exact ⟨host, rest, rfl, htake⟩

/-- A port that is found is what follows the host's last colon, in decimal digits only. What follows a separating colon
and is not the number of a port is an error. -/
structure PortsStrict (url : Text) : Prop where
  accepted : ∀ parser port, parse url = some (.ok parser) → parser.value.port? = some port →
    ∃ before after, hostPart url = .ok (before ++ ':' :: after) ∧ ':' ∉ after ∧ Numeral after port
  rejected : ∀ host before after, hostPart url = .ok host → Separates host before after →
    (∀ port, ¬ Numeral after port) → parse url = some (.error .invalidPort)

/-- What follows a separating colon is a port; or there is something before the colon, and right after it no number in
range. -/
def PortClean (url : Text) : Prop :=
  ∀ host before after, hostPart url = .ok host → Separates host before after →
    (∃ port, Numeral after port) ∨ before ≠ [] ∧
      (after.takeWhile Char.isDigit = [] ∨ 65536 ≤ Nat.ofDigitChars 10 (after.takeWhile Char.isDigit) 0)

/-- **When ports are strict.** Digits of a number in range must not be followed by another character. -/
theorem portsStrict_iff (url : Text) : PortsStrict url ↔ PortClean url := by
  constructor
  · intro h host before after hhost hsep
    by_cases hnumeral : ∃ port, Numeral after port
    · exact .inl hnumeral
    · refine .inr ?_
      have hparse := h.rejected host before after hhost hsep fun port hport => hnumeral ⟨port, hport⟩
      obtain ⟨protocol, path, heq⟩ := parse_of_hostPart hhost
      rw [heq] at hparse
      have hne : before ≠ [] := by
        rintro rfl
        rw [hsep.cut, List.nil_append, takePort_outside hsep.last] at hparse
        cases hparse
      refine ⟨hne, fromChars_eq_none_iff.mp ?_⟩
      rw [takePort_separated hsep hne] at hparse
      cases hread : fromChars after with
      | none => rfl
      | some port =>
        rw [hread] at hparse
        cases hparse
  · intro h
    constructor
    · intro parser port hparse hport
      obtain ⟨host, rest, hhost, htake⟩ := takePort_of_parse hparse
      rw [hport] at htake
      obtain ⟨before, after, hsep, hread⟩ := takePort_some htake
      refine ⟨before, after, by rw [hhost, hsep.cut], hsep.last, ?_⟩
      obtain ⟨port', hport'⟩ | ⟨-, hnone⟩ := h host before after hhost hsep
      · rw [fromChars_numeral hport'] at hread
        cases hread
        exact hport'
      · rw [fromChars_eq_none_iff.mpr hnone] at hread
        cases hread
    · intro host before after hhost hsep hnumeral
      obtain ⟨port, hport⟩ | ⟨hne, hread⟩ := h host before after hhost hsep
      · exact absurd hport (hnumeral port)
      · obtain ⟨protocol, path, heq⟩ := parse_of_hostPart hhost
        rw [heq, takePort_separated hsep hne, fromChars_eq_none_iff.mpr hread]
        rfl

end

/-- A build where no text is an address. -/
@[reducible] def domainHost : Host where
  parseIpAddress _ := none
  parseIpv6Address _ := none
  quicSupport := false
  wsSupport := false
  tlsSupport := false

/-- The port 80 is found in `h:80x`. -/
theorem trailing_not_strict : ¬ @PortsStrict domainHost ['h', ':', '8', '0', 'x'] := by
  intro h
  have hparse : @parse domainHost ['h', ':', '8', '0', 'x'] =
      some (.ok ⟨.unknown, [], .domainWithPort ['h'] 80⟩) := by decide
  obtain ⟨before, after, hhost, hlast, hnumeral⟩ := @PortsStrict.accepted domainHost _ h _ 80 hparse rfl
  have hcut : before ++ ':' :: after = ['h'] ++ ':' :: ['8', '0', 'x'] := (Except.ok.inj hhost).symm
  obtain ⟨-, rfl⟩ := last_unique hlast (by decide) hcut
  exact absurd (hnumeral.digits 'x' (by decide)) (by decide)

end UrlParser

end Qunet
