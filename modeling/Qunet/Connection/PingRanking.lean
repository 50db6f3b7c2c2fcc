import Qunet.Connection.ConnectSteps
import Qunet.Lib.Ranking
import Mathlib.Data.Prod.Lex

/-!
# Ranking the pinged addresses

* `handicapped`, `pingRank` : the response time with 25 ms for the family that is not preferred;
* `pingBefore_ranks` : the comparison of the ping results compares these ranks;
* `collected` : what the loop makes of the results that have arrived (`threadPingCandidates_eq`);
* `Answerable` : the results that leave a candidate (`pingedCandidates_ne_nil`);
* `threadFinalConnect_ends` : with a candidate, an attempt ends in success or with the errors of all addresses.
-/

namespace Qunet
open Lib

/-! ## The order of the results -/

/-- The address does not belong to the preferred family. -/
def nonPreferred (preferIpv6 : Bool) (r : SocketAddress × Nat) : Bool := r.1.isV6 != preferIpv6

def handicapped (preferIpv6 : Bool) (r : SocketAddress × Nat) : Nat :=
  r.2 + if nonPreferred preferIpv6 r then 25000000 else 0

/-- At the same time the preferred family comes first. -/
def pingRank (preferIpv6 : Bool) (r : SocketAddress × Nat) : Nat ×ₗ Bool :=
  toLex (handicapped preferIpv6 r, nonPreferred preferIpv6 r)

theorem pingBefore_ranks (preferIpv6 : Bool) : Ranks (pingBefore preferIpv6) (pingRank preferIpv6) := by
  rintro ⟨a, s⟩ ⟨b, t⟩
  have hfamily : ¬ true < false := by decide
  rw [pingRank, pingRank, Prod.Lex.toLex_lt_toLex]
  unfold pingBefore handicapped nonPreferred absDiff
  -- two families and the preferred one, with the threshold left to `omega`
  cases a.isV6 <;> cases b.isV6 <;> cases preferIpv6 <;> simp [hfamily] <;> omega

theorem arrange_some {preferIpv6 : Bool} {results sorted : List (SocketAddress × Nat)} {answer : Answer}
    (h : arrange preferIpv6 results answer = some sorted) :
    sorted.Perm results ∧ sorted.Pairwise fun a b => pingBefore preferIpv6 b a = false := by
  cases answer with
  | order indices =>
    simp only [arrange, Option.ite_none_right_eq_some, Bool.and_eq_true, decide_eq_true_eq, Option.some.injEq] at h
    obtain ⟨⟨hperm, hsorted⟩, rfl⟩ := h
    exact ⟨perm_filterMap_indices (List.isPerm_iff.mp hperm), hsorted⟩
  | _ => cases h

/-- There is always an arrangement. -/
theorem exists_arrange (preferIpv6 : Bool) (results : List (SocketAddress × Nat)) :
    ∃ answer sorted, arrange preferIpv6 results answer = some sorted := by
  obtain ⟨indices, hperm, hsorted⟩ := (pingBefore_ranks preferIpv6).exists_arrangement results
  refine ⟨.order indices, indices.filterMap (results[·]?), ?_⟩
  simp only [arrange, Option.ite_none_right_eq_some, Bool.and_eq_true, decide_eq_true_eq]
  exact ⟨⟨List.isPerm_iff.mpr hperm, hsorted⟩, trivial⟩

/-- The comparison is a strict weak order, and every list can be sorted by it; a sorted list is ordered by the response
times with 25 ms for the other family, where the preferred family comes first at the same time. -/
theorem ping_ranking (preferIpv6 : Bool) (results : List (SocketAddress × Nat)) :
    IsStrictWeakOrder (SocketAddress × Nat) (fun a b => pingBefore preferIpv6 a b = true) ∧
    (∃ answer sorted, arrange preferIpv6 results answer = some sorted) ∧
    ∀ answer sorted, arrange preferIpv6 results answer = some sorted → sorted.Perm results ∧
      sorted.Pairwise fun a b => handicapped preferIpv6 a < handicapped preferIpv6 b ∨
        handicapped preferIpv6 a = handicapped preferIpv6 b ∧
          (nonPreferred preferIpv6 a = true → nonPreferred preferIpv6 b = true) := by
  refine ⟨(pingBefore_ranks preferIpv6).strictWeakOrder, exists_arrange preferIpv6 results, ?_⟩
  intro answer sorted h
  obtain ⟨hperm, hsorted⟩ := arrange_some h
  refine ⟨hperm, ((pingBefore_ranks preferIpv6).pairwise hsorted).imp fun hle => ?_⟩
  rwa [pingRank, pingRank, Prod.Lex.toLex_le_toLex, Bool.le_iff_imp] at hle

/-- An IPv6 address that answers 20 ms later comes first where IPv6 is preferred. -/
theorem ping_ranking_two :
    [((⟨.v6 (.replicate 16 0), 80⟩ : SocketAddress), 30000000), (⟨.v4 1, 80⟩, 10000000)].Perm
      [(⟨.v4 1, 80⟩, 10000000), (⟨.v6 (.replicate 16 0), 80⟩, 30000000)] ∧
    [((⟨.v6 (.replicate 16 0), 80⟩ : SocketAddress), 30000000), (⟨.v4 1, 80⟩, 10000000)].Pairwise fun a b =>
      handicapped true a < handicapped true b ∨
        handicapped true a = handicapped true b ∧ (nonPreferred true a = true → nonPreferred true b = true) :=
  (ping_ranking true _).2.2 (.order [1, 0]) _ rfl

/-! ## What has arrived -/

/-- A result that counts. -/
def PingResult.usable (result : PingResult) : Bool :=
  !(result.timedOut || result.errored || result.protocols.isEmpty)

/-- The list has a protocol that this client knows. -/
def known (protocols : List SupportedProtocol) : Bool :=
  protocols.any fun proto => (protocolType proto.protocolId).isSome

def collected (received : List (SocketAddress × PingResult)) : Pings :=
  received.foldl (fun p x => p.add x.1 x.2) {}

/-- No result counts, or one that does announces a protocol that this client knows. -/
def Answerable (received : List (SocketAddress × PingResult)) : Prop :=
  (∀ x ∈ received, x.2.usable = false) ∨ ∃ x ∈ received, x.2.usable = true ∧ known x.2.protocols = true

theorem Pings.add_usable {p : Pings} {address : SocketAddress} {result : PingResult} (h : result.usable = true) :
    p.add address result =
      ⟨p.pingResults ++ [(address, result.responseTime)], result.protocols.foldl addProtocol p.protocols⟩ := by
  unfold PingResult.usable at h
  unfold Pings.add
  rw [if_neg (by simpa using h)]

theorem Pings.add_unusable {p : Pings} {address : SocketAddress} {result : PingResult} (h : result.usable = false) :
    p.add address result = p := by
  unfold PingResult.usable at h
  rw [Bool.not_eq_false'] at h
  exact if_pos h

/-- A protocol that is there already has the same id. -/
theorem known_addProtocol (protocols : List SupportedProtocol) (proto : SupportedProtocol) :
    known (addProtocol protocols proto) = (known protocols || (protocolType proto.protocolId).isSome) := by
  unfold addProtocol
  split
  · next hthere =>
    obtain ⟨other, hother, hid⟩ := List.any_eq_true.mp hthere
    rw [decide_eq_true_eq] at hid
    by_cases hknown : (protocolType proto.protocolId).isSome = true
    · have hthere : known protocols = true := List.any_eq_true.mpr ⟨other, hother, by rwa [hid]⟩
      rw [hthere, Bool.true_or]
    · rw [Bool.eq_false_iff.mpr hknown, Bool.or_false]
  · unfold known
    rw [List.any_append, List.any_cons, List.any_nil, Bool.or_false]

theorem known_foldl_addProtocol (protocols new : List SupportedProtocol) :
    known (new.foldl addProtocol protocols) = (known protocols || known new) := by
  induction new generalizing protocols with
  | nil => exact (Bool.or_false _).symm
  | cons proto new ih =>
    rw [List.foldl_cons, ih, known_addProtocol, Bool.or_assoc]
    rfl

/-- What the loop holds after the results: which addresses count, and whether a known protocol is among theirs. -/
theorem foldl_add_spec (received : List (SocketAddress × PingResult)) (p : Pings) :
    let q := received.foldl (fun p x => p.add x.1 x.2) p
    (q.pingResults = [] ↔ p.pingResults = [] ∧ ∀ x ∈ received, x.2.usable = false) ∧
      known q.protocols = (known p.protocols || received.any fun x => x.2.usable && known x.2.protocols) := by
  induction received generalizing p with
  | nil => simp
  | cons x received ih =>
    obtain ⟨hresults, hprotocols⟩ := ih (p.add x.1 x.2)
    dsimp only at hresults hprotocols ⊢
    rw [List.foldl_cons, hresults, hprotocols, List.any_cons]
    by_cases hx : x.2.usable = true
    · rw [Pings.add_usable hx]
      constructor
      · simp [hx]
      · dsimp only
        rw [known_foldl_addProtocol, hx, Bool.true_and, Bool.or_assoc]
    · rw [Bool.not_eq_true] at hx
      rw [Pings.add_unusable hx, hx]
      simp [hx]

theorem collected_spec (received : List (SocketAddress × PingResult)) :
    Answerable received ↔ (collected received).pingResults = [] ∨ known (collected received).protocols = true := by
  obtain ⟨hresults, hprotocols⟩ := foldl_add_spec received {}
  unfold collected Answerable
  rw [hresults, hprotocols]
  simp [known]

/-- There is a candidate exactly if the results leave one. -/
theorem pingedCandidates_ne_nil {addrs : List SocketAddress} (h : addrs ≠ []) {results : List SocketAddress}
    {protocols : List SupportedProtocol} :
    pingedCandidates addrs results protocols ≠ [] ↔ results = [] ∨ known protocols = true := by
  unfold pingedCandidates
  by_cases hnone : results = []
  · rw [if_pos (by rw [hnone]; rfl)]
    refine iff_of_true ?_ (Or.inl hnone)
    obtain ⟨a, rest, rfl⟩ := List.exists_cons_of_ne_nil h
    simp
  · obtain ⟨a, rest, rfl⟩ := List.exists_cons_of_ne_nil hnone
    rw [if_neg (by simp)]
    simp only [hnone, false_or, ne_eq, List.flatMap_eq_nil_iff, List.filterMap_eq_nil_iff]
    unfold known
    rw [List.any_eq_true]
    constructor
    · intro hall
      by_contra hunknown
      refine hall fun _ _ ty hty => ?_
      rw [Option.map_eq_none_iff]
      by_contra htype
      exact hunknown ⟨ty, hty, Option.isSome_iff_ne_none.mpr htype⟩
    · rintro ⟨ty, hty, hknown⟩ hall
      have hnothing := hall a List.mem_cons_self ty hty
      rw [Option.map_eq_none_iff] at hnothing
      rw [hnothing] at hknown
      cases hknown

/-! ## The loop, apart from what it collects -/

/-- The results that `awaitPings` receives. -/
def awaitResults (addrs : List SocketAddress) : Nat → List (SocketAddress × PingResult) →
    Worker (List (SocketAddress × PingResult))
  | 0, _ => return []
  | n + 1, sent => do
    if ← .ask Answer.flag? then return []
    match ← .await (receivePing addrs sent) with
    | none => return []
    | some (address, result, sent) => return (address, result) :: (← awaitResults addrs n sent)

theorem awaitPings_eq (addrs : List SocketAddress) (n : Nat) (sent : List (SocketAddress × PingResult)) (p : Pings) :
    awaitPings addrs n sent p =
      (do return (← awaitResults addrs n sent).foldl (fun p x => p.add x.1 x.2) p) := by
  induction n generalizing sent p with
  | zero => rfl
  | succ n ih =>
    unfold awaitPings awaitResults
    simp only [bind_assoc]
    refine congrArg (bind _) (funext fun late => ?_)
    cases late with
    | true => rfl
    | false =>
      simp only [Bool.false_eq_true, if_false, bind_assoc]
      refine congrArg (bind _) (funext fun received => ?_)
      cases received with
      | none => rfl
      | some r =>
        obtain ⟨address, result, sent⟩ := r
        simp only [bind_assoc, pure_bind, ih]
        rfl

/-- Until the results are there. -/
def gatherResults (addrs : List SocketAddress) : Worker (List (SocketAddress × PingResult)) := do
  setState .pinging
  let cached ← startPings addrs
  awaitResults addrs addrs.length (cached.take 8)

theorem setState_ends {B : Abort → Prop} (state : ConnectionState) : Ends (fun _ => True) B (setState state) := by
  refine Ends.of_confined (A := fun _ _ => True) ?_
  apply Confined.bind (.update fun _ => trivial)
  intro prev
  split
  · exact .bind (.act fun _ => trivial) fun _ => .whenever (.act fun _ => trivial)
  · exact .pure

section
variable [Host]

/-- From the results on. -/
def connectPinged (addrs : List SocketAddress) (received : List (SocketAddress × PingResult)) :
    Worker (ConnectionResult Unit) := do
  let preferIpv6 ← .read (·.settings.preferIpv6)
  let sorted ← .ask (arrange preferIpv6 (collected received).pingResults)
  threadFinalConnect (pingedCandidates addrs (sorted.map (·.1)) (collected received).protocols)

theorem threadPingCandidates_eq (addrs : List SocketAddress) :
    threadPingCandidates addrs = gatherResults addrs >>= connectPinged addrs := by
  unfold threadPingCandidates gatherResults
  simp only [bind_assoc, awaitPings_eq, pure_bind]
  rfl

/-! ## How the attempt ends -/

/-- Success, or the errors of all addresses. -/
def SucceedsOrFailsAll (r : ConnectionResult Unit) : Prop :=
  r = .ok () ∨ ∃ errors, errors ≠ [] ∧ r = .error (.allAddressesFailed errors)

/-- One address: what comes of it is a result, unless the socket runs into its own undefined behaviour. -/
theorem threadEstablishConn_ends (address : SocketAddress) (type : ConnectionType) :
    Ends (fun _ => True) (· = Abort.movedTransport) (threadEstablishConn address type) := by
  refine Ends.of_confined (A := fun _ _ => True) ?_
  apply Confined.bind (.act fun _ => trivial)
  intro
  split
  · exact .pure
  · apply Confined.bind
    · unfold initTlsContext
      split
      · exact .ask fun _ => trivial
      · exact .pure
    · intro ready
      split
      · exact .pure
      · apply Confined.bind
        · exact .bind (.read fun _ => trivial) fun _ => .bind (.act fun _ => trivial) fun _ => .pure
        · intro opts
          apply Confined.bind (.read fun _ => trivial)
          intro qdbDir
          apply Confined.bind ((connect_handshakes opts qdbDir).mono (fun _ _ _ => trivial) fun _ h => h)
          intro r
          split
          · exact .pure
          · exact .bind (.act fun _ => trivial) fun _ => .pure

theorem tryCandidates_ends (addrs : List Candidate) (errors : List (SocketAddress × ConnectionType × ConnectionError))
    (h : addrs ≠ [] ∨ errors ≠ []) :
    Ends SucceedsOrFailsAll (· = Abort.movedTransport) (tryCandidates addrs errors) := by
  induction addrs generalizing errors with
  | nil => exact Or.inr ⟨errors, h.resolve_left (by simp), rfl⟩
  | cons a rest ih =>
    apply Ends.bind (threadEstablishConn_ends a.1 a.2)
    intro r _
    split
    · exact ih _ (Or.inr (by simp))
    · exact Ends.bind (Q := fun _ => True) .single fun _ _ =>
        Or.inl rfl

/-- With a candidate the assertion holds, and there is an error for each one that fails. -/
theorem threadFinalConnect_ends {addrs : List Candidate} (h : addrs ≠ []) :
    Ends SucceedsOrFailsAll (· = Abort.movedTransport) (threadFinalConnect addrs) := by
  have hsorted (preferred : ConnectionType) : sortCandidates preferred addrs ≠ [] := by
    intro hnil
    have hperm : (sortCandidates preferred addrs).Perm addrs := List.perm_insertionSort _ addrs
    rw [hnil] at hperm
    exact h hperm.nil_eq.symm
  have hassert : Ends (fun _ => True) (· = Abort.movedTransport)
      (.assert (!addrs.isEmpty) .noCandidates : Worker Unit) := by
    unfold Task.assert
    rw [if_pos (by simpa using h)]
    exact trivial
  apply Ends.bind hassert
  intro _ _
  apply Ends.bind (setState_ends .connecting)
  intro _ _
  apply Ends.bind .single
  intro preferred _
  exact tryCandidates_ends _ [] (Or.inl (hsorted preferred))

/-- From the results on, an attempt meets the assertion and ends as it should exactly if they leave a candidate. -/
theorem connectPinged_ends_iff {addrs : List SocketAddress} (h : addrs ≠ [])
    (received : List (SocketAddress × PingResult)) :
    Ends SucceedsOrFailsAll (· ≠ Abort.noCandidates) (connectPinged addrs received) ↔ Answerable received := by
  have hcandidates {preferIpv6 : Bool} {answer : Answer} {sorted : List (SocketAddress × Nat)}
      (hsorted : arrange preferIpv6 (collected received).pingResults answer = some sorted) :
      pingedCandidates addrs (sorted.map (·.1)) (collected received).protocols ≠ [] ↔ Answerable received := by
    have hperm := (arrange_some hsorted).1
    rw [pingedCandidates_ne_nil h, collected_spec, List.map_eq_nil_iff]
    constructor
    · exact Or.imp_left fun hnil => (hnil ▸ hperm).nil_eq.symm
    · exact Or.imp_left fun hnil => (hnil ▸ hperm).eq_nil
  constructor
  · intro hends
    -- the settings are read, the results are arranged, and then the assertion is next
    obtain ⟨answer, sorted, hsorted⟩ := exists_arrange true (collected received).pingResults
    have hread := hends .ready {} true {} rfl
    have harrange : Ends SucceedsOrFailsAll (· ≠ Abort.noCandidates)
        (threadFinalConnect (pingedCandidates addrs (sorted.map (·.1)) (collected received).protocols)) :=
      hread answer {} sorted {} (congrArg (Option.map fun s => (s, ({} : Connection))) hsorted)
    by_contra hnone
    have hnil := (not_congr (hcandidates hsorted)).mpr hnone
    rw [not_not] at hnil
    rw [hnil] at harrange
    exact harrange rfl
  · intro hanswerable
    apply Ends.bind .single
    intro preferIpv6 _
    have hask : Ends (fun sorted => ∃ answer, arrange preferIpv6 (collected received).pingResults answer = some sorted)
        (· ≠ Abort.noCandidates) (.ask (arrange preferIpv6 (collected received).pingResults) : Worker _) := by
      intro answer c sorted c' hstep
      obtain ⟨sorted', hsorted, hpair⟩ := Option.map_eq_some_iff.mp hstep
      cases hpair
      exact ⟨answer, hsorted⟩
    apply Ends.bind hask
    rintro sorted ⟨answer, hsorted⟩
    refine (threadFinalConnect_ends ((hcandidates hsorted).mpr hanswerable)).mono (fun _ hr => hr) ?_
    rintro why rfl
    decide

/-- The attempt for some addresses gathers the results and goes on with what it received; it calls `threadFinalConnect`
with a candidate, and ends in success or with the errors of all addresses, exactly if the results leave a candidate. -/
theorem pinged_attempt_iff {addrs : List SocketAddress} (h : addrs ≠ []) :
    threadPingCandidates addrs = gatherResults addrs >>= connectPinged addrs ∧
      ∀ received, Ends SucceedsOrFailsAll (· ≠ Abort.noCandidates) (connectPinged addrs received) ↔
        Answerable received :=
  ⟨threadPingCandidates_eq addrs, connectPinged_ends_iff h⟩

end

theorem pinged_attempt_one_address :
    [(⟨.v4 1, 4340⟩ : SocketAddress)] ≠ [] ∧
      (@threadPingCandidates plainHost [⟨.v4 1, 4340⟩] =
          gatherResults [⟨.v4 1, 4340⟩] >>= @connectPinged plainHost [⟨.v4 1, 4340⟩] ∧
        ∀ received, Ends SucceedsOrFailsAll (· ≠ Abort.noCandidates)
          (@connectPinged plainHost [⟨.v4 1, 4340⟩] received) ↔ Answerable received) :=
  ⟨by simp, @pinged_attempt_iff plainHost _ (by simp)⟩

/-- The only address answers with the protocol 9. -/
theorem pinged_attempt_unknown_protocol :
    ¬ ∀ (host : Host) (addrs : List SocketAddress), addrs ≠ [] →
      Ends SucceedsOrFailsAll (· ≠ Abort.noCandidates) (@threadPingCandidates host addrs) := by
  intro h
  have hrun : ∃ c, (@threadPingCandidates plainHost [⟨.v4 1, 4340⟩]).exec
      [.ready, .ready, .cached none, .ready, .flag false, .ping 0 ⟨1000000, [⟨9, 4340⟩], false, false⟩, .ready,
        .order [0]] {} = some (.abort .noCandidates, c) := ⟨_, rfl⟩
  obtain ⟨c, hrun⟩ := hrun
  exact ((h plainHost [⟨.v4 1, 4340⟩] (by simp)).exec hrun) rfl

end Qunet
