import Qunet.Lib.Traced
import Qunet.Connection.Ports

/-!
# The indices of the URL parser

* `UrlAccess` : an index into the text, or a part of it that is taken or removed; `UrlAccess.Inside`;
* `parseRecording` : the parser with every access, step by step;
* `parseRecording_ending` : what it returns is what the parser returns;
* `LeadingColon` : the destinations for which an index lies outside (`parseRecording_safe_iff`).
-/

namespace Qunet
open Lib Traced

inductive UrlAccess where
  /-- `m_url[i]`, where `0 - 1` stands for the greatest `size_t` -/
  | index (i : Int) (size : Nat)
  /-- `substr(pos)`, or `substr(0, pos)` -/
  | substr (pos size : Nat)
  | removePrefix (n size : Nat)
  | removeSuffix (n size : Nat)

namespace UrlAccess

def Inside : UrlAccess → Prop
  | index i size => 0 ≤ i ∧ i < size
  | substr pos size => pos ≤ size
  | removePrefix n size => n ≤ size
  | removeSuffix n size => n ≤ size

/-- A read outside of the text. -/
inductive Fault where
  | outside

end UrlAccess

namespace UrlParser

abbrev UrlRun (α : Type) := Traced UrlAccess UrlAccess.Fault UrlParseError α

def charAt (i : Int) (s : Text) : UrlRun Char := do
  record (.index i s.length)
  match if 0 ≤ i then s[i.toNat]? else none with
  | some c => return c
  | none => abort .outside

def substrFrom (pos : Nat) (s : Text) : UrlRun Text := do
  record (.substr pos s.length)
  return s.drop pos

def substrTo (count : Nat) (s : Text) : UrlRun Text := do
  record (.substr 0 s.length)
  return s.take count

def removePrefix (n : Nat) (s : Text) : UrlRun Text := do
  record (.removePrefix n s.length)
  return s.drop n

def removeSuffix (n : Nat) (s : Text) : UrlRun Text := do
  record (.removeSuffix n s.length)
  return s.take (s.length - n)

def recordProtocol (url : Text) : UrlRun (ConnectionType × Text) :=
  match findText [':', '/', '/'] url with
  | none => return (.unknown, url)
  | some protoEnd => do
    let proto ← substrTo protoEnd url
    match protocolNamed proto with
    | none => fail .invalidProtocol
    | some type => return (type, ← substrFrom (protoEnd + 3) url)

def recordPath (url : Text) : UrlRun (Text × Text) :=
  match url.findIdx? (· == '/') with
  | none => return ([], url)
  | some pathPos => do
    let path ← substrFrom pathPos url
    return (path, ← substrTo pathPos url)

section
variable [Host]

/-- The colon before the port. -/
def recordColon (url : Text) : UrlRun (Option Nat) :=
  match findLastOf ':' url with
  | none => return none
  | some colonPos => do
    let before ← charAt ((colonPos : Int) - 1) url
    return if before = ']' || (Host.parseIpv6Address url).isNone then some colonPos else none

def recordPort (url : Text) : UrlRun (Option UInt16 × Text) := do
  match ← recordColon url with
  | none => return (none, url)
  | some colonPos =>
    let portStr ← substrFrom (colonPos + 1) url
    match fromChars portStr with
    | none => fail .invalidPort
    | some port => return (some port, ← removeSuffix (portStr.length + 1) url)

def recordBrackets (url : Text) : UrlRun Text :=
  if url.head? = some '[' ∧ url.getLast? = some ']' then do removeSuffix 1 (← removePrefix 1 url) else return url

/-- `UrlParser::parse`, with its accesses. -/
def parseRecording (url : Text) : UrlRun UrlParser := do
  let (protocol, url) ← recordProtocol url
  let (path, url) ← recordPath url
  let (port, url) ← recordPort url
  let url ← recordBrackets url
  return ⟨protocol, path, valueOf port url⟩

end

/-! ## The steps -/

theorem findText_lt {pat s : Text} {i : Nat} (h : findText pat s = some i) : i + pat.length ≤ s.length := by
  induction s generalizing i with
  | nil =>
    unfold findText at h
    split at h
    · next hempty =>
      cases h
      rw [List.isEmpty_iff.mp hempty]
      exact Nat.le_refl 0
    · cases h
  | cons c cs ih =>
    unfold findText at h
    split at h
    · next hprefix =>
      cases h
      have hle := (List.isPrefixOf_iff_prefix.mp hprefix).length_le
      omega
    · obtain ⟨j, hj, rfl⟩ := Option.map_eq_some_iff.mp h
      have hle := ih hj
      rw [List.length_cons]
      omega

theorem findLastOf_lt {c : Char} {s : Text} {i : Nat} (h : findLastOf c s = some i) : i < s.length := by
  have hmem : c ∈ s := by
    by_contra hnone
    rw [findLastOf_eq_none_iff.mpr hnone] at h
    cases h
  have hpos := List.length_pos_of_mem hmem
  obtain ⟨j, -, rfl⟩ := Option.map_eq_some_iff.mp h
  omega

theorem charAt_eq {i : Nat} {s : Text} (h : i < s.length) :
    (charAt i s).ending = .returned s[i] ∧ Safe UrlAccess.Inside (charAt i s) := by
  have hlook : (if (0 : Int) ≤ i then s[(i : Int).toNat]? else none) = some s[i] := by
    rw [if_pos (by omega), Int.toNat_natCast, List.getElem?_eq_getElem h]
  unfold charAt
  rw [hlook]
  refine ⟨rfl, safe_record_bind_iff.mpr ⟨⟨by omega, by omega⟩, safe_pure _⟩⟩

theorem findLastOf_eq_zero {s : Text} : findLastOf ':' s = some 0 ↔ ∃ after, s = ':' :: after ∧ ':' ∉ after := by
  constructor
  · intro h
    have hmem : ':' ∈ s := by
      by_contra hnone
      rw [findLastOf_eq_none_iff.mpr hnone] at h
      cases h
    obtain ⟨before, after, rfl, hafter⟩ := exists_last hmem
    rw [findLastOf_append hafter] at h
    obtain rfl := List.length_eq_zero_iff.mp (Option.some.inj h)
    exact ⟨after, rfl, hafter⟩
  · rintro ⟨after, rfl, hafter⟩
    exact @findLastOf_append ':' [] after hafter

/-- How a computation ends whose result is nothing where it reads outside. -/
def ended {α : Type} : Option (Except UrlParseError α) → Ending UrlAccess.Fault UrlParseError α
  | none => .aborted .outside
  | some (.error e) => .failed e
  | some (.ok a) => .returned a

/-- The computation stays inside, and ends as said. -/
def Runs {α : Type} (r : UrlRun α) (outcome : Option (Except UrlParseError α)) : Prop :=
  Safe UrlAccess.Inside r ∧ r.ending = ended outcome

theorem runs_substrFrom {pos : Nat} {s : Text} (h : pos ≤ s.length) :
    Runs (substrFrom pos s) (some (.ok (s.drop pos))) :=
  ⟨safe_record_bind_iff.mpr ⟨h, safe_pure _⟩, rfl⟩

theorem runs_substrTo (count : Nat) (s : Text) : Runs (substrTo count s) (some (.ok (s.take count))) :=
  ⟨safe_record_bind_iff.mpr ⟨Nat.zero_le _, safe_pure _⟩, rfl⟩

theorem runs_removePrefix {n : Nat} {s : Text} (h : n ≤ s.length) :
    Runs (removePrefix n s) (some (.ok (s.drop n))) :=
  ⟨safe_record_bind_iff.mpr ⟨h, safe_pure _⟩, rfl⟩

theorem runs_removeSuffix {n : Nat} {s : Text} (h : n ≤ s.length) :
    Runs (removeSuffix n s) (some (.ok (s.take (s.length - n)))) :=
  ⟨safe_record_bind_iff.mpr ⟨h, safe_pure _⟩, rfl⟩

theorem runs_pure {α : Type} (a : α) : Runs (pure a : UrlRun α) (some (.ok a)) := ⟨safe_pure a, rfl⟩

theorem runs_fail {α : Type} (e : UrlParseError) : Runs (fail e : UrlRun α) (some (.error e)) := ⟨safe_fail e, rfl⟩

/-- What comes after a part that returns. -/
theorem Runs.bind {α β : Type} {r : UrlRun α} {a : α} {f : α → UrlRun β} {outcome : Option (Except UrlParseError β)}
    (h : Runs r (some (.ok a))) (hf : Runs (f a) outcome) : Runs (r >>= f) outcome := by
  obtain ⟨hsafe, hend⟩ := h
  refine ⟨safe_bind_iff.mpr ⟨hsafe, fun b hb => ?_⟩, (bind_ending hend f).trans hf.2⟩
  rw [hend] at hb
  cases hb
  exact hf.1

theorem Runs.bind_error {α β : Type} {r : UrlRun α} {e : UrlParseError} {f : α → UrlRun β}
    (h : Runs r (some (.error e))) : Runs (r >>= f) (some (.error e)) := by
  obtain ⟨hsafe, hend⟩ := h
  refine ⟨safe_bind_iff.mpr ⟨hsafe, fun b hb => ?_⟩, bind_failed hend f⟩
  rw [hend] at hb
  cases hb

theorem recordProtocol_runs (url : Text) : Runs (recordProtocol url) (some (takeProtocol url)) := by
  unfold recordProtocol takeProtocol
  cases hfind : findText [':', '/', '/'] url with
  | none => exact runs_pure _
  | some protoEnd =>
    have hlt : protoEnd + 3 ≤ url.length := findText_lt hfind
    refine Runs.bind (runs_substrTo protoEnd url) ?_
    dsimp only
    cases protocolNamed (url.take protoEnd) with
    | none => exact runs_fail _
    | some type => exact (runs_substrFrom hlt).bind (runs_pure _)

theorem recordPath_runs (url : Text) : Runs (recordPath url) (some (.ok (takePath url))) := by
  unfold recordPath takePath
  cases hfind : url.findIdx? (· == '/') with
  | none => exact runs_pure _
  | some pathPos =>
    have hlt : pathPos < url.length := (List.findIdx?_eq_some_iff_getElem.mp hfind).1
    exact (runs_substrFrom hlt.le).bind ((runs_substrTo pathPos url).bind (runs_pure _))

/-- A text in brackets has two characters at least. -/
theorem recordBrackets_runs (url : Text) : Runs (recordBrackets url) (some (.ok (stripBrackets url))) := by
  unfold recordBrackets stripBrackets
  split
  · next hbrackets =>
    obtain ⟨hhead, hlast⟩ := hbrackets
    have hlength : 2 ≤ url.length := by
      rcases url with _ | ⟨c, _ | ⟨d, rest⟩⟩
      · cases hhead
      · cases hhead
        cases hlast
      · simp
    have hrest : 1 ≤ (url.drop 1).length := by
      rw [List.length_drop]
      omega
    refine (runs_removePrefix (by omega)).bind ?_
    rw [List.dropLast_eq_take]
    exact runs_removeSuffix hrest
  · exact runs_pure _

section
variable [Host]

theorem recordPort_runs {url : Text} (h : findLastOf ':' url ≠ some 0) : Runs (recordPort url) (takePort url) := by
  unfold recordPort takePort recordColon portColon
  cases hfind : findLastOf ':' url with
  | none => exact (runs_pure none).bind (runs_pure _)
  | some colonPos =>
    have hlt := findLastOf_lt hfind
    cases colonPos with
    | zero => exact absurd hfind h
    | succ before =>
      have hbefore : before < url.length := by omega
      have hchar : Runs (charAt ((before + 1 : Nat) - 1 : Int) url) (some (.ok url[before])) := by
        obtain ⟨hend, hsafe⟩ := charAt_eq hbefore
        rw [show ((before + 1 : Nat) - 1 : Int) = before by omega]
        exact ⟨hsafe, hend⟩
      have hcolon : (url[before]? = some ']' || (Host.parseIpv6Address url).isNone) =
          (url[before] = ']' || (Host.parseIpv6Address url).isNone) := by
        simp only [List.getElem?_eq_getElem hbefore, Option.some_inj]
      dsimp only
      rw [hcolon]
      by_cases hport : (url[before] = ']' || (Host.parseIpv6Address url).isNone) = true
      · rw [if_pos hport]
        refine Runs.bind (hchar.bind (runs_pure _)) ?_
        rw [if_pos hport]
        refine Runs.bind (runs_substrFrom hlt) ?_
        dsimp only
        cases fromChars (url.drop (before + 1 + 1)) with
        | none => exact runs_fail _
        | some port =>
          have hsize : (url.drop (before + 1 + 1)).length + 1 ≤ url.length := by
            rw [List.length_drop]
            omega
          have hcut : url.length - ((url.drop (before + 1 + 1)).length + 1) = before + 1 := by
            rw [List.length_drop]
            omega
          have hremove := runs_removeSuffix hsize
          rw [hcut] at hremove
          exact hremove.bind (runs_pure _)
      · rw [if_neg hport]
        refine Runs.bind (hchar.bind (runs_pure _)) ?_
        rw [if_neg hport]
        exact runs_pure _

/-- The index in front of the text. -/
theorem recordPort_front {url : Text} (h : findLastOf ':' url = some 0) :
    ¬ Safe UrlAccess.Inside (recordPort url) ∧ (recordPort url).ending = .aborted .outside := by
  unfold recordPort recordColon
  rw [h]
  refine ⟨fun hsafe => ?_, rfl⟩
  exact (hsafe.2 .outside) rfl

/-! ## The parser -/

/-- What is left of a destination without its protocol and its path begins with its last colon. -/
def LeadingColon (url : Text) : Prop :=
  ∃ protocol rest after, takeProtocol url = .ok (protocol, rest) ∧ (takePath rest).2 = ':' :: after ∧ ':' ∉ after

/-- What the parser does with each part, and what it returns. -/
theorem parseRecording_runs {url : Text} (h : ¬ LeadingColon url) : Runs (parseRecording url) (parse url) := by
  have hprotocol := recordProtocol_runs url
  unfold parseRecording parse
  cases hcut : takeProtocol url with
  | error e =>
    rw [hcut] at hprotocol
    exact hprotocol.bind_error
  | ok cut =>
    obtain ⟨protocol, rest⟩ := cut
    rw [hcut] at hprotocol
    have hfront : findLastOf ':' (takePath rest).2 ≠ some 0 := by
      intro hzero
      obtain ⟨after, hafter⟩ := findLastOf_eq_zero.mp hzero
      exact h ⟨protocol, rest, after, hcut, hafter⟩
    have hport := recordPort_runs hfront
    refine hprotocol.bind (Runs.bind (recordPath_runs rest) ?_)
    dsimp only
    have htotal : takePort (takePath rest).2 ≠ none := fun hnone => hfront (takePort_eq_none.mp hnone)
    rcases hread : takePort (takePath rest).2 with _ | e | ⟨port, host⟩
    · exact absurd hread htotal
    · rw [hread] at hport
      exact hport.bind_error
    · rw [hread] at hport
      exact hport.bind ((recordBrackets_runs host).bind (runs_pure _))

theorem parseRecording_front {url : Text} (h : LeadingColon url) :
    ¬ Safe UrlAccess.Inside (parseRecording url) ∧ (parseRecording url).ending = .aborted .outside := by
  obtain ⟨protocol, rest, after, hcut, hafter⟩ := h
  have hprotocol := recordProtocol_runs url
  rw [hcut] at hprotocol
  obtain ⟨-, hend⟩ := recordPort_front (findLastOf_eq_zero.mpr ⟨after, hafter⟩)
  have hends : (parseRecording url).ending = .aborted .outside := by
    unfold parseRecording
    rw [bind_ending hprotocol.2]
    dsimp only
    rw [bind_ending (recordPath_runs rest).2]
    show (Traced.bind _ _).ending = _
    unfold Traced.bind
    rw [hend]
  exact ⟨fun hsafe => hsafe.2 .outside hends, hends⟩

/-- The recording parser ends as the parser does. -/
theorem parseRecording_ending (url : Text) : (parseRecording url).ending = ended (parse url) := by
  by_cases h : LeadingColon url
  · obtain ⟨protocol, rest, after, hcut, hafter⟩ := h
    have hnone : parse url = none :=
      parse_eq_none.mpr ⟨protocol, rest, hcut, findLastOf_eq_zero.mpr ⟨after, hafter⟩⟩
    rw [hnone]
    exact (parseRecording_front ⟨protocol, rest, after, hcut, hafter⟩).2
  · exact (parseRecording_runs h).2

/-- Every index and every removal of the parser lies inside of the text exactly if its host part does not begin with its
last colon. -/
theorem parseRecording_safe_iff (url : Text) :
    Safe UrlAccess.Inside (parseRecording url) ↔ ¬ LeadingColon url :=
  ⟨fun hsafe h => (parseRecording_front h).1 hsafe, fun h => (parseRecording_runs h).1⟩

end

/-- `:80` is read in front of its beginning. -/
theorem parseRecording_leading_colon :
    ¬ ∀ (host : Host) (url : Text), Safe UrlAccess.Inside (@parseRecording host url) := fun h =>
  (@parseRecording_front domainHost [':', '8', '0'] ⟨.unknown, [':', '8', '0'], ['8', '0'], by decide, by decide,
    by decide⟩).1 (h domainHost [':', '8', '0'])

end UrlParser

end Qunet
