import Qunet.Udp.AckSafety
import Mathlib.Order.Lattice.Nat
import Mathlib.Order.WithBot
import Mathlib.Algebra.Order.Monoid.Unbundled.WithTop

/-!
# Retransmission (`ReliableStore.cpp`, and the loop of `UdpTransport::handleTimerExpiry`)

* `Due` : the condition of the scan; `retransmitScan_cases` : it takes the first message that is due;
* `untilTimerExpiry`, `retransmitLoop`, `LoopEnds`; **`timer_agrees`** : the timer expires exactly when there is
  something to do, and the loop ends when nothing is due or a message is given up;
* `Sender` : a store with what happened to its messages, newest event first;
* **`retransmission_discipline`** : what any run of pushes, acknowledgements and timer calls keeps.
-/

namespace Qunet
open Lib

namespace ReliableStore

/-! ## The scan -/

/-- The message was last sent at least its deadline ago. -/
def Due (deadline : Nat → Nat) (now : Nat) (u : UnackedLocalMessage) : Prop :=
  now - u.sentAt ≥ deadline u.retransmitAttempts

instance (deadline : Nat → Nat) (now : Nat) (u : UnackedLocalMessage) : Decidable (Due deadline now u) :=
  inferInstanceAs (Decidable (_ ≥ _))

/-- The message as the scan leaves it when it takes it. -/
def retried (now : Nat) (u : UnackedLocalMessage) : UnackedLocalMessage :=
  { u with sentAt := now, retransmitAttempts := u.retransmitAttempts + 1 }

/-- What the scan answers for the message it takes. -/
def attempt (u : UnackedLocalMessage) : Except TransportError (Option ReliableData) :=
  if u.retransmitAttempts ≥ 10 then .error (.custom .tooUnreliable) else .ok (some u.msg)

theorem retransmitScan_cons_due {deadline : Nat → Nat} {now : Nat} {u : UnackedLocalMessage}
    (l : List UnackedLocalMessage) (h : Due deadline now u) :
    retransmitScan deadline now (u :: l) = (attempt u, retried now u :: l) := by
  unfold retransmitScan attempt
  rw [if_pos (show now - u.sentAt ≥ _ from h)]
  dsimp only
  split <;> rfl

theorem retransmitScan_cons_idle {deadline : Nat → Nat} {now : Nat} {u : UnackedLocalMessage}
    (l : List UnackedLocalMessage) (h : ¬ Due deadline now u) :
    retransmitScan deadline now (u :: l) =
      ((retransmitScan deadline now l).1, u :: (retransmitScan deadline now l).2) := by
  rw [retransmitScan, if_neg (show ¬ now - u.sentAt ≥ _ from h)]

/-- What the scan can do: nothing is due, or the first message that is due is taken. -/
inductive Scan (deadline : Nat → Nat) (now : Nat) (l : List UnackedLocalMessage) :
    Except TransportError (Option ReliableData) × List UnackedLocalMessage → Prop where
  | idle (h : ∀ u ∈ l, ¬ Due deadline now u) : Scan deadline now l (.ok none, l)
  | taken {pre post : List UnackedLocalMessage} {u : UnackedLocalMessage} (hl : l = pre ++ u :: post)
      (hpre : ∀ v ∈ pre, ¬ Due deadline now v) (hu : Due deadline now u) :
      Scan deadline now l (attempt u, pre ++ retried now u :: post)

theorem retransmitScan_cases (deadline : Nat → Nat) (now : Nat) (l : List UnackedLocalMessage) :
    Scan deadline now l (retransmitScan deadline now l) := by
  induction l with
  | nil => exact .idle (by simp)
  | cons u l ih =>
    by_cases hu : Due deadline now u
    · rw [retransmitScan_cons_due l hu]
      exact @Scan.taken deadline now (u :: l) [] l u rfl (by simp) hu
    · rw [retransmitScan_cons_idle l hu]
      generalize retransmitScan deadline now l = r at ih
      cases ih with
      | idle h => exact .idle (List.forall_mem_cons.mpr ⟨hu, h⟩)
      | @taken pre post v hl hpre hv =>
        have hl' : u :: l = (u :: pre) ++ v :: post := by rw [hl, List.cons_append]
        exact .taken hl' (List.forall_mem_cons.mpr ⟨hu, hpre⟩) hv

theorem attempt_ne_none (u : UnackedLocalMessage) : attempt u ≠ .ok none := by
  unfold attempt
  split <;> simp

theorem attempt_ok {u : UnackedLocalMessage} {d : ReliableData} (h : attempt u = .ok (some d)) :
    u.retransmitAttempts < 10 ∧ u.msg = d := by
  unfold attempt at h
  split at h
  · cases h
  · cases h
    exact ⟨by omega, rfl⟩

theorem attempt_error {u : UnackedLocalMessage} {e : TransportError} (h : attempt u = .error e) :
    10 ≤ u.retransmitAttempts ∧ e = .custom .tooUnreliable := by
  unfold attempt at h
  split at h
  · cases h
    exact ⟨by omega, rfl⟩
  · cases h

/-! ## The timer -/

/-- Durations saturate at zero; `⊤` is `Duration::infinite()`. -/
def untilTimerExpiry (deadline : Nat → Nat) (now : Nat) (s : ReliableStore) : WithTop Nat :=
  if s.localUnacked = [] ∧ s.remoteUnacked = [] then ⊤
  else
    let expiry := s.localUnacked.foldl
      (fun expiry msg => min expiry ((deadline msg.retransmitAttempts - (now - msg.sentAt) : Nat) : WithTop Nat)) ⊤
    s.remoteUnacked.foldl
      (fun expiry msg => min expiry ((calcAckDeadline - (now - msg.receivedAt) : Nat) : WithTop Nat)) expiry

/-- The loop `while (auto msg = maybeRetransmit())` of `handleTimerExpiry` while the clock stands still, at most
`rounds` rounds of it: what it retransmits and how it ends. -/
def retransmitLoop (deadline : Nat → Nat) (now : Nat) :
    Nat → ReliableStore → Option (List ReliableData × Except TransportError Unit × ReliableStore)
  | 0, _ => none
  | rounds + 1, s =>
    match s.maybeRetransmit deadline now with
    | (.error e, s) => some ([], .error e, s)
    | (.ok none, s) => some ([], .ok (), s)
    | (.ok (some msg), s) => (retransmitLoop deadline now rounds s).map fun r => (msg :: r.1, r.2)

/-- The smallest of the durations is zero exactly if one of them is. -/
theorem foldl_min_eq_zero {α : Type} (f : α → Nat) (l : List α) (e : WithTop Nat) :
    l.foldl (fun e x => min e (f x : WithTop Nat)) e = 0 ↔ e = 0 ∨ ∃ x ∈ l, f x = 0 := by
  induction l generalizing e with
  | nil => simp
  | cons a l ih =>
    have hmin : min e (f a : WithTop Nat) = 0 ↔ e = 0 ∨ f a = 0 := by
      rw [← bot_eq_zero', min_eq_bot, bot_eq_zero', Nat.cast_eq_zero]
    rw [List.foldl_cons, ih, hmin, List.exists_mem_cons_iff, or_assoc]

theorem untilTimerExpiry_eq_zero (deadline : Nat → Nat) (now : Nat) (s : ReliableStore) :
    untilTimerExpiry deadline now s = 0 ↔
      (∃ u ∈ s.localUnacked, Due deadline now u) ∨ ∃ u ∈ s.remoteUnacked, now - u.receivedAt ≥ calcAckDeadline := by
  unfold untilTimerExpiry
  split
  next h => simp [h.1, h.2]
  next =>
    rw [foldl_min_eq_zero, foldl_min_eq_zero]
    simp [Due, Nat.sub_eq_zero_iff_le]

theorem maybeRetransmit_ne_none (deadline : Nat → Nat) (now : Nat) (s : ReliableStore) :
    (s.maybeRetransmit deadline now).1 ≠ .ok none ↔ ∃ u ∈ s.localUnacked, Due deadline now u := by
  have hscan := retransmitScan_cases deadline now s.localUnacked
  show (retransmitScan deadline now s.localUnacked).1 ≠ .ok none ↔ _
  generalize retransmitScan deadline now s.localUnacked = r at hscan
  cases hscan with
  | idle h => simpa using h
  | @taken pre post u hl _ hu =>
    exact iff_of_true (attempt_ne_none u) ⟨u, by rw [hl]; simp, hu⟩

/-- The messages that are due, in their order. -/
def dueMessages (deadline : Nat → Nat) (now : Nat) (l : List UnackedLocalMessage) : List UnackedLocalMessage :=
  l.filter fun u => Due deadline now u

/-- A message that was just taken is not due again at the same instant. -/
theorem not_due_retried {deadline : Nat → Nat} (hpos : ∀ n, 0 < deadline n) (now : Nat) (u : UnackedLocalMessage) :
    ¬ Due deadline now (retried now u) := by
  have hp := hpos (u.retransmitAttempts + 1)
  show ¬ now - now ≥ deadline (u.retransmitAttempts + 1)
  omega

/-- The first message that is due, and those that are due when it was taken. -/
theorem dueMessages_taken {deadline : Nat → Nat} (hpos : ∀ n, 0 < deadline n) {now : Nat}
    {pre post : List UnackedLocalMessage} {u : UnackedLocalMessage} (hpre : ∀ v ∈ pre, ¬ Due deadline now v)
    (hu : Due deadline now u) : dueMessages deadline now (pre ++ u :: post) =
      u :: dueMessages deadline now (pre ++ retried now u :: post) := by
  have hnone : pre.filter (fun v => Due deadline now v) = [] :=
    List.filter_eq_nil_iff.mpr fun v hv => by simpa using hpre v hv
  unfold dueMessages
  rw [List.filter_append, List.filter_append, hnone, List.filter_cons_of_pos (by simpa using hu),
    List.filter_cons_of_neg (by simpa using not_due_retried hpos now u)]
  rfl

/-- How the loop ends: the messages that were due are retransmitted in their order, each once; either all of them, and
then nothing is due, or those before one that is given up. -/
structure LoopEnds (deadline : Nat → Nat) (now : Nat) (s : ReliableStore) (msgs : List ReliableData)
    (r : Except TransportError Unit) (t : ReliableStore) : Prop where
  inOrder : msgs <+: (dueMessages deadline now s.localUnacked).map (·.msg)
  all : r = .ok () → msgs = (dueMessages deadline now s.localUnacked).map (·.msg) ∧
    (t.maybeRetransmit deadline now).1 = .ok none
  gaveUp : ∀ e, r = .error e → e = .custom .tooUnreliable ∧
    ∃ u, (dueMessages deadline now s.localUnacked)[msgs.length]? = some u ∧ 10 ≤ u.retransmitAttempts

/-- One message is retransmitted, and the loop goes on. -/
theorem LoopEnds.cons {deadline : Nat → Nat} {now : Nat} {s s' t : ReliableStore} {u : UnackedLocalMessage}
    {msgs : List ReliableData} {r : Except TransportError Unit} (h : LoopEnds deadline now s' msgs r t)
    (hdue : dueMessages deadline now s.localUnacked = u :: dueMessages deadline now s'.localUnacked) :
    LoopEnds deadline now s (u.msg :: msgs) r t := by
  refine ⟨?_, fun hr => ?_, fun e hr => ?_⟩
  · rw [hdue, List.map_cons, List.prefix_cons_inj]
    exact h.inOrder
  · rw [hdue, List.map_cons, (h.all hr).1]
    exact ⟨rfl, (h.all hr).2⟩
  · rw [hdue]
    exact h.gaveUp e hr

/-- Each retransmission leaves one message less that is due. -/
theorem retransmitLoop_ends {deadline : Nat → Nat} (hpos : ∀ n, 0 < deadline n) (now rounds : Nat)
    (s : ReliableStore) (hr : (dueMessages deadline now s.localUnacked).length < rounds) :
    ∃ msgs r t, retransmitLoop deadline now rounds s = some (msgs, r, t) ∧ LoopEnds deadline now s msgs r t := by
  induction rounds generalizing s with
  | zero => omega
  | succ rounds ih =>
    have hscan := retransmitScan_cases deadline now s.localUnacked
    unfold retransmitLoop
    rcases hm : s.maybeRetransmit deadline now with ⟨answer, s'⟩
    unfold maybeRetransmit at hm
    generalize retransmitScan deadline now s.localUnacked = r at hscan hm
    obtain ⟨rfl, rfl⟩ := Prod.mk.inj hm
    cases hscan with
    | idle hidle =>
      have hnone : dueMessages deadline now s.localUnacked = [] :=
        List.filter_eq_nil_iff.mpr fun u hu => by simpa using hidle u hu
      refine ⟨[], .ok (), s, rfl, List.nil_prefix, fun _ => ⟨by rw [hnone]; rfl, ?_⟩, nofun⟩
      by_contra hsome
      obtain ⟨u, hu, hdue⟩ := (maybeRetransmit_ne_none deadline now s).mp hsome
      exact hidle u hu hdue
    | @taken pre post u hl hpre hu =>
      have hdue : dueMessages deadline now s.localUnacked =
          u :: dueMessages deadline now (pre ++ retried now u :: post) := by
        rw [hl]
        exact dueMessages_taken hpos hpre hu
      by_cases h10 : u.retransmitAttempts ≥ 10
      · have ha : attempt u = .error (.custom .tooUnreliable) := if_pos h10
        rw [ha]
        refine ⟨[], .error (.custom .tooUnreliable), _, rfl, List.nil_prefix, nofun, ?_⟩
        rintro e ⟨⟩
        exact ⟨rfl, u, by rw [hdue]; rfl, h10⟩
      · have ha : attempt u = .ok (some u.msg) := if_neg h10
        rw [ha]
        rw [hdue, List.length_cons] at hr
        obtain ⟨msgs, res, t, hrun, hends⟩ :=
          ih { s with localUnacked := pre ++ retried now u :: post } (Nat.lt_of_succ_lt_succ hr)
        dsimp only at hrun ⊢
        exact ⟨u.msg :: msgs, res, t, by rw [hrun]; rfl, hends.cons hdue⟩

/-- **The timer and its handler agree**: the timer has expired exactly when there is a message to retransmit, a message
to give up, or an urgent acknowledgement; and at one instant the loop retransmits each message that is due at most once,
until nothing is due or a message is given up. -/
theorem timer_agrees (deadline : Nat → Nat) (hpos : ∀ n, 0 < deadline n) (now : Nat) (s : ReliableStore) :
    (untilTimerExpiry deadline now s = 0 ↔
      (s.maybeRetransmit deadline now).1 ≠ .ok none ∨ s.hasUrgentOutgoingAcks now = true) ∧
      ∃ msgs r t, retransmitLoop deadline now (s.localUnacked.length + 1) s = some (msgs, r, t) ∧
        msgs.length ≤ s.localUnacked.length ∧ LoopEnds deadline now s msgs r t := by
  constructor
  · rw [untilTimerExpiry_eq_zero, maybeRetransmit_ne_none]
    simp [hasUrgentOutgoingAcks]
  · have hle : (dueMessages deadline now s.localUnacked).length ≤ s.localUnacked.length := List.length_filter_le _ _
    obtain ⟨msgs, r, t, hrun, hends⟩ :=
      retransmitLoop_ends hpos now (s.localUnacked.length + 1) s (Nat.lt_succ_of_le hle)
    have hlength := hends.inOrder.length_le
    rw [List.length_map] at hlength
    exact ⟨msgs, r, t, hrun, hlength.trans hle, hends⟩

/-- A store with one message sent at the start. -/
def oneUnacked : ReliableStore := { localUnacked := [⟨1, firstMessage, 0, 0⟩] }

/-- The message is retransmitted once, and then nothing is due. -/
theorem timer_agrees_one :
    untilTimerExpiry (fun n => 370000000 * max 1 (min n 6)) 400000000 oneUnacked = 0 ∧
      ∃ t, retransmitLoop (fun n => 370000000 * max 1 (min n 6)) 400000000 2 oneUnacked =
          some ([firstMessage], .ok (), t) ∧
        (t.maybeRetransmit (fun n => 370000000 * max 1 (min n 6)) 400000000).1 = .ok none := by
  obtain ⟨hexpired, msgs, r, t, hrun, -, hends⟩ :=
    timer_agrees (fun n => 370000000 * max 1 (min n 6)) (fun n => by omega) 400000000 oneUnacked
  obtain ⟨t', hloop⟩ : ∃ t', retransmitLoop (fun n => 370000000 * max 1 (min n 6)) 400000000 2 oneUnacked =
      some ([firstMessage], .ok (), t') := ⟨_, rfl⟩
  cases hrun.symm.trans hloop
  exact ⟨hexpired.mpr (.inl nofun), t, hloop, (hends.all rfl).2⟩

end ReliableStore

/-! ## Runs of the sending side -/

/-- What happened to the messages of a sender. -/
inductive Happened where
  | pushed (now : Nat) (msg : ReliableData)
  | acked (ids : List UInt16)
  | returned (now : Nat) (msg : ReliableData)

namespace Happened

def Pushes (id : UInt16) : Happened → Prop
  | pushed _ msg => msg.header.messageId = id
  | _ => False

def Acks (id : UInt16) : Happened → Prop
  | acked ids => id ∈ ids
  | _ => False

def returns (id : UInt16) : Happened → Bool
  | returned _ msg => msg.header.messageId = id
  | _ => false

end Happened

/-- How often a message with the id was returned. -/
def returnCount (id : UInt16) (history : List Happened) : Nat := history.countP (·.returns id)

/-- The last message pushed with the id of `msg` is `msg`, and `since` happened after it was. -/
structure LastPush (msg : ReliableData) (since history : List Happened) : Prop where
  pushed : ∃ now before, history = since ++ .pushed now msg :: before
  last : ∀ e ∈ since, ¬ e.Pushes msg.header.messageId

/-- A store, what happened to its local messages, newest event first, and the last instant it saw. -/
structure Sender where
  store : ReliableStore := {}
  history : List Happened := []
  clock : Nat := 0

namespace Sender

def push (now : Nat) (msg : ReliableData) (sd : Sender) : Sender :=
  match sd.store.pushLocalUnacked now msg with
  | (.ok (), store) => ⟨store, .pushed now msg :: sd.history, now⟩
  | (.error _, store) => ⟨store, sd.history, now⟩

def acks (past : Nat → UInt16) (header : ReliabilityHeader) (sd : Sender) : Sender :=
  { sd with store := sd.store.processAcks past header, history := .acked header.ackList :: sd.history }

def retransmit (deadline : Nat → Nat) (now : Nat) (sd : Sender) : Sender :=
  match sd.store.maybeRetransmit deadline now with
  | (.ok (some msg), store) => ⟨store, .returned now msg :: sd.history, now⟩
  | (_, store) => ⟨store, sd.history, now⟩

end Sender

/-- The calls. The clock does not go back, no id is pushed while a message with it is unacknowledged, and headers are
well formed. -/
inductive SenderStep : Sender → Sender → Prop where
  | push (sd : Sender) (now : Nat) (msg : ReliableData) (hnow : sd.clock ≤ now)
      (hid : ∀ u ∈ sd.store.localUnacked, u.messageId ≠ msg.header.messageId) : SenderStep sd (sd.push now msg)
  | acks (sd : Sender) (past : Nat → UInt16) (header : ReliabilityHeader) (hc : header.ackCount ≤ 8) :
      SenderStep sd (sd.acks past header)
  | retransmit (sd : Sender) (deadline : Nat → Nat) (now : Nat) (hnow : sd.clock ≤ now) :
      SenderStep sd (sd.retransmit deadline now)

/-- The runs start without an unacknowledged message. -/
def ReachableSender (sd : Sender) : Prop :=
  Reachable (fun sd => sd.store.localUnacked = [] ∧ sd.history = []) SenderStep sd

open ReliableStore

/-- Between its push and the next one of its id, each message is returned at most 10 times. -/
def AtMostTen (history : List Happened) : Prop :=
  ∀ msg later since rest, history = later ++ rest → LastPush msg since rest →
    returnCount msg.header.messageId since ≤ 10

/-- The retransmission discipline. -/
structure RetransmissionDiscipline (sd : Sender) : Prop where
  bounded : sd.store.localUnacked.length ≤ 64
  /-- A message that is returned now was pushed and not acknowledged since. -/
  notAcked : ∀ deadline now msg, (sd.store.maybeRetransmit deadline now).1 = .ok (some msg) →
    ∃ since, LastPush msg since sd.history ∧ ∀ e ∈ since, ¬ e.Acks msg.header.messageId
  atMostTen : AtMostTen sd.history
  /-- Given up is only a message that was returned 10 times, the last time a deadline ago. -/
  unreliable : ∀ deadline now e, (sd.store.maybeRetransmit deadline now).1 = .error e →
    e = .custom .tooUnreliable ∧ ∃ u ∈ sd.store.localUnacked, ∃ since, LastPush u.msg since sd.history ∧
      (∀ e ∈ since, ¬ e.Acks u.msg.header.messageId) ∧ returnCount u.msg.header.messageId since = 10 ∧
      Due deadline now u ∧ ∀ t msg, .returned t msg ∈ since → msg.header.messageId = u.msg.header.messageId →
        now - t ≥ deadline u.retransmitAttempts

/-- What the history says of an unacknowledged message. -/
structure Tracked (history : List Happened) (clock : Nat) (u : UnackedLocalMessage) (since : List Happened) : Prop where
  id : u.messageId = u.msg.header.messageId
  push : LastPush u.msg since history
  notAcked : ∀ e ∈ since, ¬ e.Acks u.messageId
  count : returnCount u.messageId since = min u.retransmitAttempts 10
  times : ∀ t msg, .returned t msg ∈ since → msg.header.messageId = u.messageId → t ≤ u.sentAt
  sent : u.sentAt ≤ clock

structure SenderInv (sd : Sender) : Prop where
  bounded : sd.store.localUnacked.length ≤ 64
  nodup : (sd.store.localUnacked.map (·.messageId)).Nodup
  tracked : ∀ u ∈ sd.store.localUnacked, ∃ since, Tracked sd.history sd.clock u since
  atMostTen : AtMostTen sd.history

/-- The last push of an id is determined by the history. -/
theorem LastPush.unique {msg msg' : ReliableData} {since since' history : List Happened}
    (h : LastPush msg since history) (h' : LastPush msg' since' history)
    (hid : msg.header.messageId = msg'.header.messageId) : since = since' := by
  induction history generalizing since since' with
  | nil =>
    obtain ⟨now, before, hsplit⟩ := h.pushed
    simp at hsplit
  | cons e history ih =>
    obtain ⟨now, before, hsplit⟩ := h.pushed
    obtain ⟨now', before', hsplit'⟩ := h'.pushed
    rcases List.cons_eq_append_iff.mp hsplit with ⟨rfl, he⟩ | ⟨rest, rfl, hrest⟩
    · rcases List.cons_eq_append_iff.mp hsplit' with ⟨rfl, -⟩ | ⟨rest', rfl, -⟩
      · rfl
      · obtain ⟨rfl, -⟩ := List.cons.inj he
        exact absurd hid (h'.last _ List.mem_cons_self)
    · rcases List.cons_eq_append_iff.mp hsplit' with ⟨rfl, he'⟩ | ⟨rest', rfl, hrest'⟩
      · obtain ⟨rfl, -⟩ := List.cons.inj he'
        exact absurd hid.symm (h.last _ List.mem_cons_self)
      · have hh : LastPush msg rest history := ⟨⟨now, before, hrest⟩, fun x hx => h.last x (List.mem_cons_of_mem e hx)⟩
        have hh' : LastPush msg' rest' history :=
          ⟨⟨now', before', hrest'⟩, fun x hx => h'.last x (List.mem_cons_of_mem e hx)⟩
        rw [ih hh hh']

theorem LastPush.cons {msg : ReliableData} {since history : List Happened} (h : LastPush msg since history)
    {e : Happened} (he : ¬ e.Pushes msg.header.messageId) : LastPush msg (e :: since) (e :: history) := by
  obtain ⟨now, before, hsplit⟩ := h.pushed
  exact ⟨⟨now, before, by rw [hsplit, List.cons_append]⟩, List.forall_mem_cons.mpr ⟨he, h.last⟩⟩

theorem returnCount_cons (id : UInt16) (e : Happened) (history : List Happened) :
    returnCount id (e :: history) = returnCount id history + if e.returns id then 1 else 0 :=
  List.countP_cons

/-- An event that is about other messages leaves a message tracked. -/
theorem Tracked.other {history since : List Happened} {clock clock' : Nat} {u : UnackedLocalMessage}
    (h : Tracked history clock u since) (hclock : clock ≤ clock') {e : Happened} (hp : ¬ e.Pushes u.messageId)
    (ha : ¬ e.Acks u.messageId) (hr : e.returns u.messageId = false) :
    Tracked (e :: history) clock' u (e :: since) := by
  refine ⟨h.id, h.push.cons (by rwa [← h.id]), List.forall_mem_cons.mpr ⟨ha, h.notAcked⟩, ?_, ?_,
    h.sent.trans hclock⟩
  · rw [returnCount_cons, hr, h.count]
    rfl
  · intro t msg hmem hid
    rcases List.mem_cons.mp hmem with rfl | hmem
    · simp [Happened.returns, hid] at hr
    · exact h.times t msg hmem hid

theorem Tracked.later {history since : List Happened} {clock clock' : Nat} {u : UnackedLocalMessage}
    (h : Tracked history clock u since) (hclock : clock ≤ clock') : Tracked history clock' u since :=
  ⟨h.id, h.push, h.notAcked, h.count, h.times, h.sent.trans hclock⟩

/-- A message that is pushed is tracked. -/
theorem Tracked.pushed (history : List Happened) (now : Nat) (msg : ReliableData) :
    Tracked (.pushed now msg :: history) now ⟨msg.header.messageId, msg, now, 0⟩ [] :=
  ⟨rfl, ⟨⟨now, history, rfl⟩, by simp⟩, by simp, rfl, by simp, Nat.le_refl now⟩

/-- A message that is taken by the scan and returned. -/
theorem Tracked.returned {history since : List Happened} {clock now : Nat} {u : UnackedLocalMessage}
    (h : Tracked history clock u since) (hclock : clock ≤ now) (h10 : u.retransmitAttempts < 10) :
    Tracked (.returned now u.msg :: history) now (retried now u) (.returned now u.msg :: since) := by
  refine ⟨h.id, h.push.cons (by simp [Happened.Pushes]), ?_, ?_, ?_, Nat.le_refl now⟩
  · exact List.forall_mem_cons.mpr ⟨by simp [Happened.Acks], h.notAcked⟩
  · have hret : Happened.returns u.messageId (.returned now u.msg) = true := by simp [Happened.returns, h.id]
    have hcount := h.count
    show returnCount u.messageId _ = min (u.retransmitAttempts + 1) 10
    rw [returnCount_cons, hret, hcount, if_pos rfl]
    omega
  · intro t msg hmem hid
    rcases List.mem_cons.mp hmem with heq | hmem
    · cases heq
      exact Nat.le_refl now
    · exact (h.times t msg hmem hid).trans (h.sent.trans hclock)

/-- A message that is taken by the scan and given up. -/
theorem Tracked.givenUp {history since : List Happened} {clock now : Nat} {u : UnackedLocalMessage}
    (h : Tracked history clock u since) (hclock : clock ≤ now) (h10 : 10 ≤ u.retransmitAttempts) :
    Tracked history now (retried now u) since := by
  refine ⟨h.id, h.push, h.notAcked, ?_, fun t msg hmem hid => (h.times t msg hmem hid).trans (h.sent.trans hclock),
    Nat.le_refl now⟩
  have hcount := h.count
  show returnCount u.messageId since = min (u.retransmitAttempts + 1) 10
  omega

theorem AtMostTen.cons {history : List Happened} (h : AtMostTen history) {e : Happened}
    (he : ∀ msg since, e.returns msg.header.messageId = true → LastPush msg since history →
      returnCount msg.header.messageId since < 10) : AtMostTen (e :: history) := by
  intro msg later since rest hsplit hpush
  rcases List.cons_eq_append_iff.mp hsplit with ⟨-, rfl⟩ | ⟨later', -, hlater'⟩
  · obtain ⟨now, before, hbefore⟩ := hpush.pushed
    rcases List.cons_eq_append_iff.mp hbefore with ⟨rfl, -⟩ | ⟨since', rfl, hsince'⟩
    · exact Nat.zero_le _
    · have hpush' : LastPush msg since' history :=
        ⟨⟨now, before, hsince'⟩, fun x hx => hpush.last x (List.mem_cons_of_mem e hx)⟩
      have hold := h msg [] since' history rfl hpush'
      have hnew := he msg since'
      rw [returnCount_cons]
      cases hr : e.returns msg.header.messageId with
      | false => exact hold
      | true => exact hnew hr hpush'
  · exact h msg later' since rest hlater' hpush

namespace SenderInv
variable {sd : Sender}

/-- A call that changes nothing but the clock. -/
theorem later (h : SenderInv sd) {now : Nat} (hnow : sd.clock ≤ now) : SenderInv { sd with clock := now } := by
  refine ⟨h.bounded, h.nodup, fun u hu => ?_, h.atMostTen⟩
  obtain ⟨since, hs⟩ := h.tracked u hu
  exact ⟨since, hs.later hnow⟩

theorem push (h : SenderInv sd) {now : Nat} {msg : ReliableData} (hnow : sd.clock ≤ now)
    (hid : ∀ u ∈ sd.store.localUnacked, u.messageId ≠ msg.header.messageId) : SenderInv (sd.push now msg) := by
  unfold Sender.push pushLocalUnacked
  by_cases hfull : sd.store.localUnacked.length ≥ 64
  · rw [if_pos hfull]
    exact h.later hnow
  rw [if_neg hfull]
  refine ⟨?_, ?_, fun u hu => ?_, h.atMostTen.cons (fun _ _ hr => by cases hr)⟩
  · show (sd.store.localUnacked ++ [_]).length ≤ 64
    rw [List.length_append, List.length_singleton]
    omega
  · show ((sd.store.localUnacked ++ [_]).map _).Nodup
    rw [List.map_append, List.map_singleton, List.nodup_append]
    refine ⟨h.nodup, by simp, fun a ha b hb => ?_⟩
    obtain ⟨u, hu, rfl⟩ := List.mem_map.mp ha
    rw [List.mem_singleton.mp hb]
    exact hid u hu
  · rcases List.mem_append.mp hu with hu | hu
    · obtain ⟨since, hs⟩ := h.tracked u hu
      exact ⟨_, hs.other hnow (fun hp => hid u hu hp.symm) (by simp [Happened.Acks]) rfl⟩
    · rw [List.mem_singleton.mp hu]
      exact ⟨[], .pushed sd.history now msg⟩

/-- The ids being distinct, a message that stays is not among the acknowledged ones. -/
theorem foldl_ackLocal_stays (past : Nat → UInt16) (header : ReliabilityHeader) (is : List Nat) (s : ReliableStore)
    (hn : (s.localUnacked.map (·.messageId)).Nodup) :
    (is.foldl (fun s i => s.ackLocal (header.ackAt past i)) s).localUnacked.Sublist s.localUnacked ∧
      ∀ u ∈ (is.foldl (fun s i => s.ackLocal (header.ackAt past i)) s).localUnacked,
        ∀ i ∈ is, u.messageId ≠ header.ackAt past i := by
  induction is generalizing s with
  | nil => exact ⟨.refl _, by simp⟩
  | cons i is ih =>
    have hsub : (s.ackLocal (header.ackAt past i)).localUnacked.Sublist s.localUnacked := List.eraseP_sublist
    obtain ⟨hrest, hstay⟩ := ih (s.ackLocal (header.ackAt past i)) (hn.sublist (hsub.map _))
    rw [List.foldl_cons]
    refine ⟨hrest.trans hsub, fun u hu => List.forall_mem_cons.mpr ⟨?_, hstay u hu⟩⟩
    exact ne_of_mem_eraseP hn u (hrest.subset hu)

/-- The listed acknowledgements are visited. -/
theorem ackList_visited (past : Nat → UInt16) {header : ReliabilityHeader} {id : UInt16} (h : id ∈ header.ackList) :
    ∃ i ∈ header.ackIndices, id = header.ackAt past i := by
  obtain ⟨i, hi, rfl⟩ := List.mem_iff_getElem.mp h
  have hlen := header.ackList_length
  have h8 : i < 8 := by omega
  refine ⟨i, List.mem_range.mpr (by omega), ?_⟩
  rw [ReliabilityHeader.ackAt, dif_pos h8]
  simp [ReliabilityHeader.ackList]

theorem acks (h : SenderInv sd) (past : Nat → UInt16) (header : ReliabilityHeader) :
    SenderInv (sd.acks past header) := by
  obtain ⟨hsub, hstay⟩ := foldl_ackLocal_stays past header header.ackIndices sd.store h.nodup
  refine ⟨hsub.length_le.trans h.bounded, h.nodup.sublist (hsub.map _), fun u hu => ?_,
    h.atMostTen.cons (fun _ _ hr => by cases hr)⟩
  obtain ⟨since, hs⟩ := h.tracked u (hsub.subset hu)
  refine ⟨_, hs.other (Nat.le_refl _) (by simp [Happened.Pushes]) (fun ha => ?_) rfl⟩
  obtain ⟨i, hi, heq⟩ := ackList_visited past ha
  exact hstay u hu i hi heq

/-- The taken message is not one of the others. -/
theorem id_ne_taken {pre post : List UnackedLocalMessage} {u v : UnackedLocalMessage}
    (hn : ((pre ++ u :: post).map (·.messageId)).Nodup) (hv : v ∈ pre ∨ v ∈ post) : v.messageId ≠ u.messageId := by
  rw [List.map_append, List.map_cons, List.nodup_append, List.nodup_cons] at hn
  obtain ⟨-, ⟨hpost, -⟩, hpre⟩ := hn
  rcases hv with hv | hv
  · exact hpre _ (List.mem_map_of_mem hv) _ List.mem_cons_self
  · exact fun heq => hpost (heq ▸ List.mem_map_of_mem hv)

theorem retransmit (h : SenderInv sd) (deadline : Nat → Nat) {now : Nat} (hnow : sd.clock ≤ now) :
    SenderInv (sd.retransmit deadline now) := by
  have hscan := retransmitScan_cases deadline now sd.store.localUnacked
  unfold Sender.retransmit maybeRetransmit
  generalize retransmitScan deadline now sd.store.localUnacked = r at hscan
  cases hscan with
  | idle _ => exact h.later hnow
  | @taken pre post u hl _ hu =>
    have hbounded := h.bounded
    have hnodup := h.nodup
    rw [hl] at hbounded hnodup
    have hids : (pre ++ retried now u :: post).map (·.messageId) = (pre ++ u :: post).map (·.messageId) := by
      simp [retried]
    have hlen : (pre ++ retried now u :: post).length ≤ 64 := by simpa using hbounded
    have hmem : u ∈ sd.store.localUnacked := by simp [hl]
    have hrest : ∀ v, v ∈ pre ∨ v ∈ post → v ∈ sd.store.localUnacked := fun v hv => by simp [hl]; tauto
    have hcases : ∀ v ∈ pre ++ retried now u :: post, v = retried now u ∨ v ∈ pre ∨ v ∈ post := fun v hv => by
      simp at hv; tauto
    obtain ⟨since, hs⟩ := h.tracked u hmem
    by_cases h10 : u.retransmitAttempts ≥ 10
    · have ha : attempt u = .error (.custom .tooUnreliable) := if_pos h10
      rw [ha]
      refine ⟨hlen, by dsimp only; rw [hids]; exact hnodup, fun v hv => ?_, h.atMostTen⟩
      rcases hcases v hv with rfl | hv
      · exact ⟨since, hs.givenUp hnow h10⟩
      · obtain ⟨since', hs'⟩ := h.tracked v (hrest v hv)
        exact ⟨since', hs'.later hnow⟩
    · have ha : attempt u = .ok (some u.msg) := if_neg h10
      rw [ha]
      refine ⟨hlen, by dsimp only; rw [hids]; exact hnodup, fun v hv => ?_, h.atMostTen.cons fun msg since' hr hp => ?_⟩
      · rcases hcases v hv with rfl | hv
        · exact ⟨_, hs.returned hnow (by omega)⟩
        · obtain ⟨since', hs'⟩ := h.tracked v (hrest v hv)
          refine ⟨_, hs'.other hnow (by simp [Happened.Pushes]) (by simp [Happened.Acks]) ?_⟩
          have hne := id_ne_taken hnodup hv
          simp [Happened.returns, ← hs.id, hne.symm]
      · have hid : u.msg.header.messageId = msg.header.messageId := by simpa [Happened.returns] using hr
        have hcount := hs.count
        rw [hs.push.unique hp hid, hs.id, hid] at hcount
        omega

theorem step {sd sd' : Sender} (h : SenderInv sd) (hst : SenderStep sd sd') : SenderInv sd' := by
  cases hst with
  | push now msg hnow hid => exact h.push hnow hid
  | acks past header _ => exact h.acks past header
  | retransmit deadline now hnow => exact h.retransmit deadline hnow

/-- What the invariant says of the next call of `maybeRetransmit`. -/
theorem disciplined (h : SenderInv sd) : RetransmissionDiscipline sd := by
  refine ⟨h.bounded, fun deadline now msg hres => ?_, h.atMostTen, fun deadline now e hres => ?_⟩
  · have hscan := retransmitScan_cases deadline now sd.store.localUnacked
    unfold maybeRetransmit at hres
    generalize retransmitScan deadline now sd.store.localUnacked = r at hscan hres
    cases hscan with
    | idle _ => cases hres
    | @taken pre post u hl _ _ =>
      obtain ⟨since, hs⟩ := h.tracked u (by simp [hl])
      obtain ⟨-, rfl⟩ := attempt_ok hres
      exact ⟨since, hs.push, hs.id ▸ hs.notAcked⟩
  · have hscan := retransmitScan_cases deadline now sd.store.localUnacked
    unfold maybeRetransmit at hres
    generalize retransmitScan deadline now sd.store.localUnacked = r at hscan hres
    cases hscan with
    | idle _ => cases hres
    | @taken pre post u hl _ hdue =>
      have hmem : u ∈ sd.store.localUnacked := by simp [hl]
      obtain ⟨since, hs⟩ := h.tracked u hmem
      obtain ⟨h10, rfl⟩ := attempt_error hres
      have hcount := hs.count
      refine ⟨rfl, u, hmem, since, hs.push, hs.id ▸ hs.notAcked, by rw [← hs.id, hcount]; omega, hdue, ?_⟩
      intro t msg hret hid
      have ht := hs.times t msg hret (hid.trans hs.id.symm)
      have hd : now - u.sentAt ≥ deadline u.retransmitAttempts := hdue
      omega

end SenderInv

theorem ReachableSender.inv {sd : Sender} (h : ReachableSender sd) : SenderInv sd := by
  have hinit : ∀ sd : Sender, sd.store.localUnacked = [] ∧ sd.history = [] → SenderInv sd := by
    rintro sd ⟨hl, hh⟩
    refine ⟨by simp [hl], by simp [hl], by simp [hl], fun msg later since rest hsplit hp => ?_⟩
    obtain ⟨now, before, hbefore⟩ := hp.pushed
    simp [hh, hbefore] at hsplit
  have hstep : ∀ sd sd' : Sender, SenderInv sd → SenderStep sd sd' → SenderInv sd' := fun _ _ hinv hst => hinv.step hst
  exact Reachable.invariant hinit hstep h

/-- **The retransmission discipline** holds in every state a run of pushes, acknowledgements and timer calls reaches. -/
theorem retransmission_discipline (sd : Sender) (h : ReachableSender sd) : RetransmissionDiscipline sd :=
  h.inv.disciplined

/-- A sender that pushed one message and looked `n` times whether it is due, a second apart. -/
def unansweredSender : Nat → Sender
  | 0 => ({} : Sender).push 0 firstMessage
  | n + 1 => (unansweredSender n).retransmit (fun _ => 370000000) ((n + 1) * 1000000000)

theorem unansweredSender_reachable (n : Nat) :
    ReachableSender (unansweredSender n) ∧ (unansweredSender n).clock = n * 1000000000 := by
  induction n with
  | zero =>
    have hst : SenderStep {} (({} : Sender).push 0 firstMessage) := .push {} 0 firstMessage (by decide) (by simp)
    exact ⟨Reachable.next (Reachable.start ⟨rfl, rfl⟩) hst, rfl⟩
  | succ n ih =>
    have hst : SenderStep (unansweredSender n) (unansweredSender (n + 1)) :=
      .retransmit _ _ _ (by rw [ih.2]; omega)
    refine ⟨Reachable.next ih.1 hst, ?_⟩
    rw [unansweredSender, Sender.retransmit]
    split <;> rfl

theorem retransmission_discipline_unanswered : RetransmissionDiscipline (unansweredSender 10) :=
  retransmission_discipline _ (unansweredSender_reachable 10).1

/-- After ten retransmissions the message is given up. -/
example : ((unansweredSender 10).store.maybeRetransmit (fun _ => 370000000) 11000000000).1 =
    .error (.custom .tooUnreliable) := by
  decide +kernel

end Qunet
