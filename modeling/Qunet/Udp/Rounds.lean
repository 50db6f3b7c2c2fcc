import Qunet.Udp.Wire
import Qunet.Udp.Ordering
import Qunet.Udp.FragmentIntegrity

/-!
# A call of `receiveMessage` on genuine datagrams

* `KeepsOutgoing` : an operation that does not send;
* `Partials` : the partial messages are parts of what the peer has sent in fragments (`Partials.step`);
* `handleWhole` : what follows when a message is whole;
* `ReadStep`, `Genuine.read` : what a genuine datagram brings;
* `Round`, `receiveMessage_invariant` : what every round keeps, a call keeps.
-/

namespace Qunet
open Lib FragmentStore

/-! ## Operations that do not send -/

structure UdpTransport.SameSettings (t t' : UdpTransport) : Prop where
  connectionId : t'.connectionId = t.connectionId
  mtu : t'.mtu = t.mtu
  messageSizeLimit : t'.messageSizeLimit = t.messageSizeLimit
  zstdReady : t'.zstdReady = t.zstdReady
  zstdDict : t'.zstdDict = t.zstdDict

/-- The outgoing side is untouched, but acknowledged messages may be forgotten. -/
structure UdpTransport.KeepsOutgoing (t t' : UdpTransport) : Prop extends SameSettings t t' where
  nextId : t'.fragStore.nextId = t.fragStore.nextId
  nextLocalId : t'.relStore.nextLocalId = t.relStore.nextLocalId
  kept : t'.relStore.localUnacked.Sublist t.relStore.localUnacked

namespace UdpTransport

theorem SameSettings.refl (t : UdpTransport) : SameSettings t t := ⟨rfl, rfl, rfl, rfl, rfl⟩

theorem SameSettings.trans {t t' t'' : UdpTransport} (h : SameSettings t t') (h' : SameSettings t' t'') :
    SameSettings t t'' :=
  ⟨h'.connectionId.trans h.connectionId, h'.mtu.trans h.mtu, h'.messageSizeLimit.trans h.messageSizeLimit,
    h'.zstdReady.trans h.zstdReady, h'.zstdDict.trans h.zstdDict⟩

theorem KeepsOutgoing.refl (t : UdpTransport) : KeepsOutgoing t t := ⟨.refl t, rfl, rfl, List.Sublist.refl _⟩

theorem KeepsOutgoing.trans {t t' t'' : UdpTransport} (h : KeepsOutgoing t t') (h' : KeepsOutgoing t' t'') :
    KeepsOutgoing t t'' :=
  ⟨h.toSameSettings.trans h'.toSameSettings, h'.nextId.trans h.nextId, h'.nextLocalId.trans h.nextLocalId,
    h'.kept.trans h.kept⟩

/-- The reliable store only forgets what is acknowledged. -/
theorem handleIncoming_keeps (past : Nat → UInt16) (now : Nat) (s : ReliableStore) (m : ReliableMeta) :
    (s.handleIncoming past now m).2.nextLocalId = s.nextLocalId ∧
      (s.handleIncoming past now m).2.localUnacked.Sublist s.localUnacked := by
  obtain ⟨hlocal, hnext⟩ := (ReliableStore.handleIncoming_incoming past now s m).frame
  obtain ⟨l, hl, hsub, -⟩ := ReliableStore.processAcks_spec past s m.header
  rw [hl] at hlocal hnext
  exact ⟨hnext, by rw [hlocal]; exact hsub⟩

theorem acceptReliable_keeps (w : World) (t : UdpTransport) (m : QunetMessageMeta) :
    KeepsOutgoing t (acceptReliable w t m).2 ∧ (acceptReliable w t m).2.fragStore = t.fragStore := by
  cases hof : HeaderMeta.of? QunetMessageMeta.reliabilityHeader m with
  | none =>
    rw [acceptReliable_none hof]
    exact ⟨.refl t, rfl⟩
  | some rm =>
    rw [acceptReliable_some hof]
    obtain ⟨hnext, hsub⟩ := handleIncoming_keeps w.past w.now t.relStore rm
    exact ⟨⟨⟨rfl, rfl, rfl, rfl, rfl⟩, rfl, hnext, hsub⟩, rfl⟩

/-- The state after the payload was taken out. -/
theorem finishData_keeps (w : World) (t : UdpTransport) (m : QunetMessageMeta) :
    KeepsOutgoing t (finishData w t m).2 ∧ (finishData w t m).2.fragStore = t.fragStore ∧
      (finishData w t m).2.relStore = t.relStore ∧ (finishData w t m).2.pendingMessages = t.pendingMessages := by
  cases hdec : decompress w t m with
  | error e =>
    rw [finishData_error hdec]
    exact ⟨⟨⟨rfl, rfl, rfl, rfl, rfl⟩, rfl, rfl, List.Sublist.refl _⟩, rfl, rfl, rfl⟩
  | ok data =>
    rw [finishData_ok hdec]
    exact ⟨⟨⟨rfl, rfl, rfl, rfl, rfl⟩, rfl, rfl, List.Sublist.refl _⟩, rfl, rfl, rfl⟩

/-! ## Whole messages -/

/-- `processData` on a message that is no fragment, or is put together. -/
def handleWhole (w : World) (t : UdpTransport) (m : QunetMessageMeta) :
    Except TransportError (Option Received) × UdpTransport :=
  match acceptReliable w t m with
  | (.error e, t) => (.error e, t)
  | (.ok false, t) => (.ok none, t)
  | (.ok true, t) => finishData w t m

theorem processData_whole {w : World} {t t₁ : UdpTransport} {m m' : QunetMessageMeta}
    (h : defragment w t m = (.ok (some m'), t₁)) : processData w t m = handleWhole w t₁ m' := by
  unfold processData
  rw [h]
  rfl

theorem handleWhole_keeps (w : World) (t : UdpTransport) (m : QunetMessageMeta) :
    KeepsOutgoing t (handleWhole w t m).2 ∧ (handleWhole w t m).2.fragStore = t.fragStore := by
  obtain ⟨hkeeps, hfrag⟩ := acceptReliable_keeps w t m
  unfold handleWhole
  split
  · next heq =>
    rw [heq] at hkeeps hfrag
    exact ⟨hkeeps, hfrag⟩
  · next heq =>
    rw [heq] at hkeeps hfrag
    exact ⟨hkeeps, hfrag⟩
  · next t₂ heq =>
    rw [heq] at hkeeps hfrag
    obtain ⟨hkeeps', hfrag', -, -⟩ := finishData_keeps w t₂ m
    exact ⟨hkeeps.trans hkeeps', hfrag'.trans hfrag⟩

end UdpTransport

/-! ## Partial messages -/

/-- What the fragment store of the receiver holds of the messages `wholes` that the peer has sent in fragments. -/
structure Partials (wholes : UInt16 → Option Whole) (s : FragmentStore) : Prop where
  noneComplete : NoneComplete s.messages
  collected : ∀ e ∈ s.messages.entries, ∃ w got, wholes e.1 = some w ∧ FragmentStore.Collected w got e.2

namespace Partials
variable {wholes : UInt16 → Option Whole} {s : FragmentStore}

theorem mono {wholes' : UInt16 → Option Whole} (h : Partials wholes s)
    (hwholes : ∀ k w, wholes k = some w → wholes' k = some w) : Partials wholes' s := by
  refine ⟨h.noneComplete, fun e he => ?_⟩
  obtain ⟨w, got, hw, hcol⟩ := h.collected e he
  exact ⟨w, got, hwholes _ _ hw, hcol⟩

/-- The entry that a fragment is added to. -/
theorem entryFor (h : Partials wholes s) (now : Nat) {k : UInt16} {w : Whole} (hw : wholes k = some w) :
    ∃ got, FragmentStore.Collected w got (s.entryFor now k) := by
  unfold FragmentStore.entryFor
  cases hl : s.messages.lookup k with
  | none => exact ⟨_, FragmentStore.Collected.empty w k now⟩
  | some msg =>
    obtain ⟨w', got, hw', hcol⟩ := h.collected _ (mem_entries.mp hl)
    dsimp only at hw'
    rw [hw] at hw'
    cases hw'
    refine ⟨got, ?_⟩
    dsimp only [Option.getD_some]
    split
    · exact ⟨hcol.pieces, hcol.data, hcol.holds, hcol.total, hcol.unknown, hcol.headers, hcol.noHeaders⟩
    · exact hcol

/-- **One fragment.** It completes the message it belongs to, or nothing is returned. -/
theorem step (h : Partials wholes s) (c : FragmentStore.Call) {w : Whole} (hw : wholes c.id = some w)
    (hm : IsFragmentOf w c.message) :
    Partials wholes (s.step c).2 ∧ (s.step c).2.nextId = s.nextId ∧
      ((s.step c).1 = .ok none ∨ (s.step c).1 = .ok (some w.assembled)) := by
  have hnone := h.noneComplete.step c
  have hcases := step_cases h.noneComplete c
  obtain ⟨got, hcol⟩ := h.entryFor c.now hw
  have htouched : ¬ s.Repeats c → ∃ got', FragmentStore.Collected w got' (s.touched c) := fun hnew => ⟨_, hcol.add hm hnew⟩
  have hentries : ∀ e ∈ (scanned c.order c.now (s.messages.insert c.id (s.touched c))).entries, ¬ s.Repeats c →
      ∃ w got, wholes e.1 = some w ∧ FragmentStore.Collected w got e.2 := by
    intro e he hnew
    rcases mem_insert (mem_scanned he) with rfl | ⟨-, he⟩
    · obtain ⟨got', hcol'⟩ := htouched hnew
      exact ⟨w, got', hw, hcol'⟩
    · exact h.collected e he
  generalize s.step c = r at hcases hnone
  obtain ⟨res, t⟩ := r
  dsimp only at hcases hnone ⊢
  cases hcases with
  | duplicate hd =>
    refine ⟨⟨hnone, fun e he => ?_⟩, rfl, .inl rfl⟩
    rcases mem_insert he with rfl | ⟨-, he⟩
    · exact ⟨w, got, hw, hcol⟩
    · exact h.collected e he
  | added hd _ => exact ⟨⟨hnone, fun e he => hentries e he hd⟩, rfl, .inl rfl⟩
  | completed hd hc =>
    obtain ⟨got', hcol'⟩ := htouched hd
    refine ⟨⟨hnone, fun e he => hentries e he hd⟩, rfl, .inr ?_⟩
    rw [hcol'.reassemble hc]
    rfl

end Partials

/-! ## What a datagram brings -/

namespace UdpTransport

/-- Neither store is touched. -/
structure LeavesStores (t t' : UdpTransport) : Prop extends SameSettings t t' where
  relStore : t'.relStore = t.relStore
  fragStore : t'.fragStore = t.fragStore

theorem LeavesStores.refl (t : UdpTransport) : LeavesStores t t := ⟨.refl t, rfl, rfl⟩

theorem LeavesStores.trans {t t' t'' : UdpTransport} (h : LeavesStores t t') (h' : LeavesStores t' t'') :
    LeavesStores t t'' :=
  ⟨h.toSameSettings.trans h'.toSameSettings, h'.relStore.trans h.relStore, h'.fragStore.trans h.fragStore⟩

theorem LeavesStores.keeps {t t' : UdpTransport} (h : LeavesStores t t') : KeepsOutgoing t t' :=
  ⟨h.toSameSettings, by rw [h.fragStore], by rw [h.relStore], by rw [h.relStore]⟩

theorem countDownPacket_leaves (w : World) (t : UdpTransport) (buffer : Bytes) :
    LeavesStores t (countDownPacket w t buffer) := ⟨⟨rfl, rfl, rfl, rfl, rfl⟩, rfl, rfl⟩

/-- What was handed on is not a reliable message. -/
def NotReliable (rs : List Received) : Prop := ∀ x ∈ rs, reliableId x = none

theorem NotReliable.append {rs rs' : List Received} (h : NotReliable rs) (h' : NotReliable rs') :
    NotReliable (rs ++ rs') := by
  intro x hx
  rcases List.mem_append.mp hx with hx | hx
  · exact h x hx
  · exact h' x hx

section
variable [Dbuf]

theorem processControl_leaves (w : World) (t : UdpTransport) (m : QunetMessageMeta) :
    LeavesStores t (processControl w t m).2 ∧ NotReliable (handed (processControl w t m).1) := by
  unfold processControl
  dsimp only
  cases hd : decodeWithMeta m with
  | error e => exact ⟨⟨⟨rfl, rfl, rfl, rfl, rfl⟩, rfl, rfl⟩, by rintro x ⟨⟩⟩
  | ok msg =>
    cases msg with
    | data d => exact absurd hd decodeWithMeta_not_data
    | _ =>
      refine ⟨⟨⟨rfl, rfl, rfl, rfl, rfl⟩, rfl, rfl⟩, fun x hx => ?_⟩
      rw [List.mem_singleton.mp hx]
      rfl

/-- One item that is not a data message. -/
theorem receiveItem_control {w : World} {toReturn : Option Received} {t : UdpTransport}
    {item : Except MessageDecodeError QunetMessageMeta} (hitem : ∀ m, item = .ok m → m.type ≠ msgData)
    (hq : NotReliable (queue toReturn t)) :
    LeavesStores t (receiveItem w toReturn t item).2 ∧ NotReliable (receiveItem w toReturn t item).2.pendingMessages ∧
      ∀ o, (receiveItem w toReturn t item).1 = .ok o → NotReliable (queue o (receiveItem w toReturn t item).2) := by
  have hpending : NotReliable t.pendingMessages := fun x hx => hq x (List.mem_append_right _ hx)
  have hone : ∀ m, item = .ok m → processOne w t m = processControl w t m := fun m hm => if_pos (hitem m hm)
  have hstep := receiveItem_step w toReturn t item
  generalize receiveItem w toReturn t item = r at hstep
  obtain ⟨res, t'⟩ := r
  dsimp only at hstep ⊢
  cases hstep with
  | malformed e => exact ⟨.refl t, hpending, fun o ho => by cases ho⟩
  | padding _ =>
    refine ⟨.refl t, hpending, fun o ho => ?_⟩
    cases ho
    exact hq
  | @failed m _ _ _ hp =>
    obtain ⟨hleaves, -⟩ := processControl_leaves w t m
    have hframe := (processControl_frame w t m).1.pending
    rw [← hone m rfl, hp] at hleaves hframe
    refine ⟨hleaves, ?_, fun o ho => by cases ho⟩
    rw [hframe]
    exact hpending
  | @silent m _ _ hp =>
    obtain ⟨hleaves, -⟩ := processControl_leaves w t m
    have hframe := (processControl_frame w t m).1.pending
    rw [← hone m rfl, hp] at hleaves hframe
    have hnext : NotReliable t'.pendingMessages := by
      rw [hframe]
      exact hpending
    refine ⟨hleaves, hnext, fun o ho => ?_⟩
    cases ho
    exact NotReliable.append (fun x hx => hq x (List.mem_append_left _ hx)) hnext
  | @handed m r t₁ _ hp =>
    obtain ⟨hleaves, hnew⟩ := processControl_leaves w t m
    have hframe := (processControl_frame w t m).1.pending
    rw [← hone m rfl, hp] at hleaves hframe hnew
    have hnext : NotReliable t₁.pendingMessages := by
      rw [hframe]
      exact hpending
    cases toReturn with
    | none =>
      refine ⟨hleaves, hnext, fun o ho => ?_⟩
      cases ho
      exact NotReliable.append hnew hnext
    | some first =>
      have hmore := NotReliable.append hnext hnew
      refine ⟨hleaves.trans ⟨⟨rfl, rfl, rfl, rfl, rfl⟩, rfl, rfl⟩, hmore, fun o ho => ?_⟩
      cases ho
      exact NotReliable.append (fun x hx => hq x (List.mem_append_left _ hx)) hmore

/-- A datagram without data messages. -/
theorem receiveBatch_control {w : World} {toReturn : Option Received} {t : UdpTransport}
    {items : List (Except MessageDecodeError QunetMessageMeta)} (hitems : ∀ m, .ok m ∈ items → m.type ≠ msgData)
    (hq : NotReliable (queue toReturn t)) :
    LeavesStores t (receiveBatch w toReturn t items).2 ∧
      NotReliable (handed (receiveBatch w toReturn t items).1 ++ (receiveBatch w toReturn t items).2.pendingMessages) := by
  induction items generalizing toReturn t with
  | nil =>
    refine ⟨.refl t, ?_⟩
    cases toReturn <;> exact hq
  | cons item items ih =>
    have hfirst : ∀ m, item = .ok m → m.type ≠ msgData := fun m hm => hitems m (hm ▸ List.mem_cons_self)
    obtain ⟨hleaves, hpending, hnext⟩ := receiveItem_control (w := w) hfirst hq
    unfold receiveBatch
    rcases hr : receiveItem w toReturn t item with ⟨e | o, t₁⟩
    · rw [hr] at hleaves hpending
      exact ⟨hleaves, hpending⟩
    · rw [hr] at hleaves hnext
      obtain ⟨hrest, hids⟩ := ih (fun m hm => hitems m (List.mem_cons_of_mem item hm)) (hnext o rfl)
      exact ⟨hleaves.trans hrest, hids⟩

/-- A datagram with one data message. -/
theorem receiveBatch_single (w : World) (t : UdpTransport) {m : QunetMessageMeta} (hdata : m.type = msgData) :
    receiveBatch w none t [.ok m] = processData w t m := by
  have hpad : m.type ≠ msgPadding := by
    rw [hdata]
    decide
  unfold receiveBatch receiveItem
  dsimp only
  rw [if_neg hpad]
  unfold processOne
  rw [if_neg (not_not.mpr hdata)]
  rcases processData w t m with ⟨e | _ | r, t₁⟩ <;> rfl

/-- What a genuine datagram brings: a message that is put together and goes to the reliable store, or nothing reliable. -/
inductive ReadStep (sent : List ReliableData) (w : World) (t : UdpTransport) :
    Except TransportError (Option Received) → UdpTransport → Prop where
  | quiet {r : Except TransportError (Option Received)} {t' : UdpTransport} (hs : t'.relStore = t.relStore)
      (hids : NotReliable (handed r ++ t'.pendingMessages)) : ReadStep sent w t r t'
  | whole {m : QunetMessageMeta} {t₁ t' : UdpTransport} {r : Except TransportError (Option Received)}
      (hfrom : FromPeer sent m) (hset : SameSettings t t₁) (hs : t₁.relStore = t.relStore)
      (hp : t₁.pendingMessages = t.pendingMessages) (h : handleWhole w t₁ m = (r, t')) : ReadStep sent w t r t'

omit [Dbuf] in
/-- What one data message brings, once `defragment` has answered. -/
theorem processData_read {sent : List ReliableData} {wholes : UInt16 → Option Whole} {w : World} {t t₁ : UdpTransport}
    {m : QunetMessageMeta} {f : Except TransportError (Option QunetMessageMeta)} (hp : t.pendingMessages = [])
    (hd : defragment w t m = (f, t₁)) (hf : f = .ok none ∨ ∃ m', f = .ok (some m') ∧ FromPeer sent m')
    (hnext : t₁.fragStore.nextId = t.fragStore.nextId) (hparts : Partials wholes t₁.fragStore) :
    ReadStep sent w t (processData w t m).1 (processData w t m).2 ∧ KeepsOutgoing t (processData w t m).2 ∧
      Partials wholes (processData w t m).2.fragStore := by
  obtain ⟨fs, hfs⟩ := defragment_eq w t m
  rw [hd] at hfs
  change t₁ = _ at hfs
  have hset : SameSettings t t₁ := by
    rw [hfs]
    exact ⟨rfl, rfl, rfl, rfl, rfl⟩
  have hstore : t₁.relStore = t.relStore := by rw [hfs]
  have hpend : t₁.pendingMessages = t.pendingMessages := by rw [hfs]
  have hkeeps : KeepsOutgoing t t₁ := ⟨hset, hnext, by rw [hstore], by rw [hstore]⟩
  rcases hf with rfl | ⟨m', rfl, hfrom⟩
  · have heq : processData w t m = (.ok none, t₁) := by
      unfold processData
      rw [hd]
    rw [heq]
    refine ⟨.quiet hstore ?_, hkeeps, hparts⟩
    rw [hpend, hp]
    rintro x ⟨⟩
  · obtain ⟨hkeeps', hfrag⟩ := handleWhole_keeps w t₁ m'
    rw [processData_whole hd]
    refine ⟨.whole hfrom hset hstore hpend rfl, hkeeps.trans hkeeps', ?_⟩
    rw [hfrag]
    exact hparts

omit [Dbuf] in
/-- What came before does not matter, as long as it left the stores alone. -/
theorem ReadStep.after {sent : List ReliableData} {w : World} {t t₀ t' : UdpTransport}
    {r : Except TransportError (Option Received)} (h : ReadStep sent w t₀ r t') (hl : LeavesStores t t₀)
    (hp : t₀.pendingMessages = t.pendingMessages) : ReadStep sent w t r t' := by
  cases h with
  | quiet hs hids => exact .quiet (hs.trans hl.relStore) hids
  | whole hfrom hset hs hp' h =>
    exact .whole hfrom (hl.toSameSettings.trans hset) (hs.trans hl.relStore) (hp'.trans hp) h

end

end UdpTransport

section
variable [Dbuf]
open UdpTransport

/-- **A genuine datagram.** -/
theorem Genuine.read {sent : List ReliableData} {wholes : UInt16 → Option Whole} {datagram : Bytes}
    (h : Genuine sent wholes datagram) (hwholes : ∀ k whole, wholes k = some whole → FromPeer sent whole.assembled)
    (w : World) {t : UdpTransport} (hp : t.pendingMessages = []) (hparts : Partials wholes t.fragStore) :
    let r := receiveBatch w none (countDownPacket w t (receiveBuffer datagram))
      (datagramItems (receiveBuffer datagram) false)
    ReadStep sent w t r.1 r.2 ∧ KeepsOutgoing t r.2 ∧ Partials wholes r.2.fragStore := by
  dsimp only
  have hcount := countDownPacket_leaves w t (receiveBuffer datagram)
  have hp₀ : (countDownPacket w t (receiveBuffer datagram)).pendingMessages = t.pendingMessages := rfl
  have hparts₀ : Partials wholes (countDownPacket w t (receiveBuffer datagram)).fragStore := hparts
  generalize countDownPacket w t (receiveBuffer datagram) = t₀ at *
  cases h with
  | @message m hitems hdata hwhole hfrom =>
    have hd : defragment w t₀ m = (.ok (some m), t₀) := by
      unfold defragment
      rw [HeaderMeta.of?_eq_none.mpr hwhole]
    rw [hitems, receiveBatch_single w t₀ hdata]
    obtain ⟨hstep, hkeeps, hparts'⟩ := processData_read (hp₀.trans hp) hd (.inr ⟨m, rfl, hfrom⟩) rfl hparts₀
    exact ⟨hstep.after hcount hp₀, hcount.keeps.trans hkeeps, hparts'⟩
  | @fragment m whole hitems hdata hw hm =>
    have hd : defragment w t₀ m.toQunetMessageMeta = ((t₀.fragStore.step ⟨w.order, w.now, m⟩).1,
        { t₀ with fragStore := (t₀.fragStore.step ⟨w.order, w.now, m⟩).2 }) := by
      unfold defragment
      rw [HeaderMeta.of?_eq_some.mpr rfl]
      rfl
    obtain ⟨hparts₁, hnext, hres⟩ := hparts₀.step ⟨w.order, w.now, m⟩ hw hm
    have hf : (t₀.fragStore.step ⟨w.order, w.now, m⟩).1 = .ok none ∨
        ∃ m', (t₀.fragStore.step ⟨w.order, w.now, m⟩).1 = .ok (some m') ∧ FromPeer sent m' :=
      hres.imp id fun hsome => ⟨_, hsome, hwholes _ _ hw⟩
    rw [hitems, receiveBatch_single w t₀ hdata]
    obtain ⟨hstep, hkeeps, hparts'⟩ := processData_read (hp₀.trans hp) hd hf hnext hparts₁
    exact ⟨hstep.after hcount hp₀, hcount.keeps.trans hkeeps, hparts'⟩
  | control hitems =>
    have hq : NotReliable (queue none t₀) := by
      have hnil : queue none t₀ = [] := hp₀.trans hp
      rw [hnil]
      rintro x ⟨⟩
    obtain ⟨hleaves, hids⟩ := receiveBatch_control (w := w) hitems hq
    refine ⟨.quiet (hleaves.relStore.trans hcount.relStore) hids, hcount.keeps.trans hleaves.keeps, ?_⟩
    rw [hleaves.fragStore]
    exact hparts₀

/-! ## The rounds of a call -/

/-- One round of `receiveMessage`: something that waited is returned, a datagram is read, or reading fails. -/
inductive Round (Arrives : World → Bytes → Prop) (w : World) (t : UdpTransport) :
    Except TransportError (Option Received) → UdpTransport → Prop where
  | pending {r : Received} {rest : List Received} (hp : t.pendingMessages = r :: rest) :
      Round Arrives w t (.ok (some r)) { t with pendingMessages := rest }
  | delayed {m : ReliableMeta} {rest : List ReliableMeta} (hp : t.pendingMessages = [])
      (hd : t.relStore.remoteDelayedQueue = m :: rest) :
      Round Arrives w t (finishData w (t.withDelayed rest) m.toQunetMessageMeta).1
        (finishData w (t.withDelayed rest) m.toQunetMessageMeta).2
  | failed (e : TransportError) : Round Arrives w t (.error e) t
  | read {w' : World} {datagram : Bytes} (hp : t.pendingMessages = []) (hd : t.relStore.remoteDelayedQueue = [])
      (ha : Arrives w' datagram) {r : Except TransportError (Option Received) × UdpTransport}
      (hr : receiveBatch w' none (countDownPacket w' t (receiveBuffer datagram))
        (datagramItems (receiveBuffer datagram) false) = r) : Round Arrives w t r.1 r.2

/-- The datagrams among the inputs arrive. -/
def AllArrive (Arrives : World → Bytes → Prop) (sock : SocketInput) : Prop :=
  ∀ w datagram, (w, RecvResult.datagram datagram) ∈ sock → Arrives w datagram

theorem receiveMessageInner_round {Arrives : World → Bytes → Prop} {w : World} {t t' : UdpTransport}
    {sock sock' : SocketInput} {r : Except TransportError (Option Received)} (hsock : AllArrive Arrives sock)
    (h : receiveMessageInner w t sock = some (r, t', sock')) :
    Round Arrives w t r t' ∧ AllArrive Arrives sock' := by
  unfold receiveMessageInner at h
  have hstep := receiveQueued_step w t
  generalize receiveQueued w t = q at h hstep
  cases hstep with
  | pending hp =>
    cases h
    exact ⟨.pending hp, hsock⟩
  | delayed hp hd =>
    cases h
    exact ⟨.delayed hp hd, hsock⟩
  | empty hp hd =>
    cases sock with
    | nil => cases h
    | cons input sock =>
      have hrest : AllArrive Arrives sock := fun w d hmem => hsock w d (List.mem_cons_of_mem input hmem)
      obtain ⟨w', e | bytes⟩ := input
      · cases h
        exact ⟨.failed e, hrest⟩
      · have harrives := hsock w' bytes List.mem_cons_self
        cases h
        refine ⟨?_, hrest⟩
        unfold receiveDatagram
        dsimp only
        split
        · exact .failed _
        · exact .read hp hd harrives rfl

/-- What a call has returned. -/
def returnedBy : Except TransportError Received → List Received
  | .ok r => [r]
  | .error _ => []

/-- **What every round keeps, a call keeps.** `Inv t rs` speaks of the transport and of all that was returned. -/
theorem receiveMessage_invariant {Arrives : World → Bytes → Prop} {w : World}
    (Inv : UdpTransport → List Received → Prop)
    (hround : ∀ t rs r t', Inv t rs → Round Arrives w t r t' → Inv t' (rs ++ handed r)) {t t' : UdpTransport}
    {sock sock' : SocketInput} {r : Except TransportError Received} {rs : List Received}
    (hsock : AllArrive Arrives sock) (h : UdpTransport.receiveMessage w t sock = some (r, t', sock')) (hinv : Inv t rs) :
    Inv t' (rs ++ returnedBy r) := by
  unfold UdpTransport.receiveMessage at h
  generalize sock.length + 1 = rounds at h
  induction rounds generalizing t sock with
  | zero => cases h
  | succ rounds ih =>
    unfold receiveMessageLoop at h
    rcases hm : receiveMessageInner w t sock with _ | ⟨e | _ | r₁, t₁, sock₁⟩
    · rw [hm] at h
      cases h
    · rw [hm] at h
      cases h
      exact hround t rs _ _ hinv (receiveMessageInner_round hsock hm).1
    · rw [hm] at h
      obtain ⟨hstep, hsock₁⟩ := receiveMessageInner_round hsock hm
      have hinv₁ := hround t rs _ _ hinv hstep
      change Inv t₁ (rs ++ []) at hinv₁
      rw [List.append_nil] at hinv₁
      exact ih hsock₁ hinv₁ h
    · rw [hm] at h
      cases h
      exact hround t rs _ _ hinv (receiveMessageInner_round hsock hm).1

end

end Qunet
