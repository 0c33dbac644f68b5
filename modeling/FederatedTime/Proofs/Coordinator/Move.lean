import FederatedTime.Proofs.Coordinator.Run
import FederatedTime.Proofs.Coordinator.Sends
import FederatedTime.Proofs.Coordinator.Sweep
import FederatedTime.Proofs.Coordinator.Transition

/-!
# What an event does to the records

`Registry.Change` lists the ways in which one record changes, with the federates whose bounds the
change may raise, and `Coordinator.Move` is the complete description of what an event does to the
sessions and the records, and of the grants that follow. Where `Transition` has a case for every
message, this has one for every effect: the negotiations, the directory and the clocks do not show
in it, but for the stop tag that the grants are clamped to.
-/

namespace FederatedTime

/-! ## Grants among actions -/

namespace Action

/-- The grant that an action sends. -/
def grant? : Action → Option (ConnectionId × Tag)
  | send c (.timeAdvanceGrant tag) => some (c, tag)
  | _ => none

def grants (actions : List Action) : List (ConnectionId × Tag) := actions.filterMap grant?

@[simp] theorem grants_append (first second : List Action) :
    grants (first ++ second) = grants first ++ grants second :=
  List.filterMap_append

theorem grant?_eq_some_iff {action : Action} {c : ConnectionId} {tag : Tag} :
    action.grant? = some (c, tag) ↔ action = .send c (.timeAdvanceGrant tag) := by
  unfold grant?
  split <;> simp_all

theorem mem_grants {actions : List Action} {c : ConnectionId} {tag : Tag} :
    (c, tag) ∈ grants actions ↔ .send c (.timeAdvanceGrant tag) ∈ actions := by
  unfold grants
  rw [List.mem_filterMap]
  constructor
  · rintro ⟨action, haction, hgrant⟩
    rw [← grant?_eq_some_iff.1 hgrant]
    exact haction
  · intro haction
    exact ⟨_, haction, rfl⟩

theorem SendsOnly.grants_eq_nil {P : Message → Prop} {actions : List Action}
    (h : SendsOnly P actions) (hP : ∀ tag, ¬ P (.timeAdvanceGrant tag)) : grants actions = [] := by
  refine List.eq_nil_iff_forall_not_mem.2 fun ⟨c, tag⟩ hmem => ?_
  exact hP tag (h c _ (mem_grants.1 hmem))

end Action

namespace Coordinator

open FederatedTime.Action (grants)

variable {s : Coordinator} {f : FederateId} {c : ConnectionId}

/-- The messages in which grants go out to the federates that are joined. -/
def sent (s : Coordinator) (gs : List Grant) : List (ConnectionId × Tag) :=
  gs.filterMap fun g => (s.registry.connection? g.federate).map fun c => (c, g.tag)

theorem mem_sent {gs : List Grant} {tag : Tag} : (c, tag) ∈ s.sent gs ↔
    ∃ f, ⟨f, tag⟩ ∈ gs ∧ s.registry.connection? f = some c := by
  unfold sent
  rw [List.mem_filterMap]
  constructor
  · rintro ⟨g, hg, hc⟩
    obtain ⟨c', hc', heq⟩ := Option.map_eq_some_iff.1 hc
    obtain ⟨rfl, rfl⟩ := Prod.mk.inj heq
    exact ⟨g.federate, hg, hc'⟩
  · rintro ⟨f, hf, hc⟩
    exact ⟨⟨f, tag⟩, hf, Option.map_eq_some_iff.2 ⟨c, hc, rfl⟩⟩

theorem grants_sendTo_grant (s : Coordinator) (g : Grant) :
    grants (s.sendTo g.federate (.timeAdvanceGrant g.tag)) = s.sent [g] := by
  unfold sendTo sent
  rw [List.filterMap_cons]
  cases s.registry.connection? g.federate <;> rfl

theorem grants_advance (s : Coordinator) (seeds : List FederateId) :
    grants (s.advance seeds).2 =
      (s.advance seeds).1.sent (s.registry.sweep s.stopTag seeds).2 := by
  have flatMap (s : Coordinator) (gs : List Grant) :
      grants (gs.flatMap fun g => s.sendTo g.federate (.timeAdvanceGrant g.tag)) = s.sent gs := by
    induction gs with
    | nil => rfl
    | cons g gs ih =>
      rw [List.flatMap_cons, Action.grants_append, ih, grants_sendTo_grant]
      exact List.filterMap_append.symm
  exact flatMap _ _

theorem grants_settleStop (s : Coordinator) (result : StopNegotiation × StopOutcome) :
    grants (s.settleStop result).2 = [] :=
  (sendsOnly_settleStop s result).grants_eq_nil (by simp)

theorem grants_settleStart (s : Coordinator) (f : FederateId)
    (result : StartNegotiation × StartOutcome) : grants (s.settleStart f result).2 = [] :=
  (sendsOnly_settleStart s f result).grants_eq_nil (by simp)

theorem grants_finishIfDone (s : Coordinator) : grants s.finishIfDone.2 = [] :=
  (offline_finishIfDone s).silent.grants_eq_nil fun _ => id

theorem grants_contribute (s : Coordinator) (f : FederateId)
    (result : StopNegotiation × StopOutcome) : grants (s.contribute f result).2 = [] := by
  unfold contribute
  split
  · rfl
  · exact grants_settleStop _ result

theorem grants_depart {record : FederateRecord} (h : s.registry.get? f = some record) :
    grants (s.depart f c).2 = (s.depart f c).1.sent ((s.registry.modify f (·.leave)).sweep
      (s.stop.departure f record.completed).1.stopTag (s.registry.topology.downstream f)).2 := by
  -- the end of a departure has no part in whom a grant goes to
  have hsent {a b : Coordinator} (hab : a.registry = b.registry) (gs : List Grant) :
      a.sent gs = b.sent gs := by
    unfold sent
    rw [hab]
  unfold depart
  rw [h]
  simp only [Step.andThen_snd, Step.andThen_fst, Action.grants_append, grants_settleStop,
    grants_settleStart, grants_finishIfDone, List.nil_append, List.append_nil]
  rw [grants_advance, finishIfDone_fst, settleStart_fst, settleStop_fst]
  exact hsent rfl _

end Coordinator

/-! ## Changes of a record -/

namespace FederateRecord

/-- The records differ in nothing that membership or time advance reads. -/
structure Alike (a b : FederateRecord) : Prop where
  id : b.id = a.id
  state : b.state = a.state
  completed : b.completed = a.completed
  nextEvent : b.nextEvent = a.nextEvent
  lastGranted : b.lastGranted = a.lastGranted
  connection : b.connection = a.connection

/-- Whose record it is, and whether and where that federate is joined. -/
def membership (record : FederateRecord) : FederateId × Option ConnectionId × Bool :=
  (record.id, record.connection, record.isConnected)

theorem Alike.isConnected {a b : FederateRecord} (h : a.Alike b) :
    b.isConnected = a.isConnected := by
  unfold FederateRecord.isConnected
  rw [h.state]

theorem Alike.effectiveCompleted {a b : FederateRecord} (h : a.Alike b) :
    b.effectiveCompleted = a.effectiveCompleted := by
  unfold FederateRecord.effectiveCompleted
  rw [h.state, h.completed]

theorem Alike.membership {a b : FederateRecord} (h : a.Alike b) :
    b.membership = a.membership := by
  unfold FederateRecord.membership
  rw [h.id, h.connection, h.isConnected]

theorem alike_registerClock (record : FederateRecord) (address : SocketAddress) :
    record.Alike (Coordinator.registerClock address record) := by
  unfold Coordinator.registerClock
  split <;> exact ⟨rfl, rfl, rfl, rfl, rfl, rfl⟩

end FederateRecord

namespace Registry

/-- The record of `f` changes, and with it perhaps the bounds of the seeds. -/
inductive Change (t : Topology) (f : FederateId) (record : FederateRecord) :
    (FederateRecord → FederateRecord) → List FederateId → Prop
  | marked {change : FederateRecord → FederateRecord} (h : record.Alike (change record)) :
    Change t f record change []
  | nextEvent {tag : Tag} (h : record.isConnected) (htag : ¬ tag < record.completed) :
    Change t f record ({ · with nextEvent := tag }) [f]
  | completed {tag : Tag} (h : record.isConnected) (htag : ¬ tag ≤ record.completed) :
    Change t f record (Coordinator.completing tag) (t.downstream f)
  | joined (h : ¬ record.isConnected) (c : ConnectionId) (host : IpAddress) :
    Change t f record (·.join c host) []
  | left (h : record.isConnected) : Change t f record (·.leave) (t.downstream f)

/-- At most one record changes, and the grants that follow are made. -/
inductive Update (stop : Option Tag) (r r' : Registry) (gs : List Grant) : Prop
  | idle (hr : r' = r) (hgs : gs = [])
  | change {f : FederateId} {record : FederateRecord} {change : FederateRecord → FederateRecord}
      {seeds : List FederateId} (hf : r.get? f = some record)
      (hchange : Change r.topology f record change seeds)
      (hr : r' = ((r.modify f change).sweep stop seeds).1)
      (hgs : gs = ((r.modify f change).sweep stop seeds).2)

theorem Update.topology_eq {stop : Option Tag} {r r' : Registry} {gs : List Grant}
    (h : r.Update stop r' gs) : r'.topology = r.topology := by
  cases h with
  | idle hr => rw [hr]
  | change hf hchange hr => rw [hr, topology_sweep, topology_modify]

theorem Update.size_eq {stop : Option Tag} {r r' : Registry} {gs : List Grant}
    (h : r.Update stop r' gs) : r'.size = r.size := by
  cases h with
  | idle hr => rw [hr]
  | change hf hchange hr => rw [hr, size_sweep, size_modify]

end Registry

namespace Coordinator

open FederatedTime.Action (grants)

variable {s s' : Coordinator} {e : Event} {f : FederateId} {c : ConnectionId}

/-- What an event does to the sessions and the records, and the grants that follow. -/
inductive Move (s : Coordinator) (e : Event) (s' : Coordinator) : List Grant → Prop
  | idle (hsessions : s'.sessions = s.sessions) (hregistry : s'.registry = s.registry) :
    Move s e s' []
  | opened {c : ConnectionId} {peer : SocketAddress} (he : e.opens? = some c)
      (hsessions : s'.sessions = s.sessions.put c (.handshaking peer))
      (hregistry : s'.registry = s.registry) : Move s e s' []
  | closed {c : ConnectionId} {peer : SocketAddress}
      (h : s.sessions.get? c = some (.handshaking peer))
      (hsessions : s'.sessions = s.sessions.remove c) (hregistry : s'.registry = s.registry) :
    Move s e s' []
  | joined {c : ConnectionId} {peer : SocketAddress} {f : FederateId} {record : FederateRecord}
      (h : s.sessions.get? c = some (.handshaking peer)) (hf : s.registry.get? f = some record)
      (hrecord : ¬ record.isConnected) (host : IpAddress)
      (hsessions : s'.sessions = s.sessions.put c (.joined f))
      (hregistry : s'.registry = s.registry.modify f (·.join c host)) : Move s e s' []
  | progressed {f : FederateId} {record : FederateRecord}
      {change : FederateRecord → FederateRecord} {seeds : List FederateId} {gs : List Grant}
      (hf : s.registry.get? f = some record)
      (hchange : Registry.Change s.registry.topology f record change seeds)
      (hmembership : (change record).membership = record.membership)
      (hsessions : s'.sessions = s.sessions)
      (hregistry : s'.registry = ((s.registry.modify f change).sweep s'.stopTag seeds).1)
      (hgs : gs = ((s.registry.modify f change).sweep s'.stopTag seeds).2) :
    Move s e s' gs
  | departed {c : ConnectionId} {f : FederateId} {record : FederateRecord} {gs : List Grant}
      (h : s.Joined c f record) (hsessions : s'.sessions = s.sessions.remove c)
      (hregistry : s'.registry = ((s.registry.modify f (·.leave)).sweep s'.stopTag
        (s.registry.topology.downstream f)).1)
      (hgs : gs = ((s.registry.modify f (·.leave)).sweep s'.stopTag
        (s.registry.topology.downstream f)).2) : Move s e s' gs

theorem Move.update {gs : List Grant} (h : Move s e s' gs) :
    s.registry.Update s'.stopTag s'.registry gs := by
  cases h with
  | idle _ hregistry | opened _ _ hregistry | closed _ _ hregistry => exact .idle hregistry rfl
  | @joined c _ _ _ _ hf hrecord host _ hregistry =>
    refine .change hf (.joined hrecord c host) ?_ ?_
    · rw [Registry.sweep_nil, hregistry]
    · rw [Registry.sweep_nil]
  | progressed hf hchange _ _ hregistry hgs => exact .change hf hchange hregistry hgs
  | departed h _ hregistry hgs => exact .change h.get?_eq (.left h.connected) hregistry hgs

theorem contribute_move {record : FederateRecord} (hf : s.registry.get? f = some record)
    (e : Event) (result : StopNegotiation × StopOutcome) :
    Move s e (s.contribute f result).1 [] := by
  rcases contribute_fst s f result with h | h | h
  · exact .idle (by rw [h]) (by rw [h])
  · exact .idle (by rw [h]) (by rw [h])
  · have hchange : Registry.Change s.registry.topology f record
        ({ · with stopCounted := true }) [] := .marked ⟨rfl, rfl, rfl, rfl, rfl, rfl⟩
    refine .progressed hf hchange rfl (by rw [h]) ?_ ?_
    · rw [h, Registry.sweep_nil]
    · rw [Registry.sweep_nil]

theorem onClockSyncProbe_move {record : FederateRecord} (hf : s.registry.get? f = some record)
    (e : Event) (address : SocketAddress) : Move s e (s.onClockSyncProbe f address).1 [] := by
  rcases onClockSyncProbe_fst s f address with h | ⟨clock, h⟩
  · exact .idle (by rw [h]) (by rw [h])
  · have halike := FederateRecord.alike_registerClock record address
    refine .progressed hf (.marked halike) halike.membership (by rw [h]) ?_ ?_
    · rw [h, Registry.sweep_nil]
    · rw [Registry.sweep_nil]

theorem advance_move {record : FederateRecord} {change : FederateRecord → FederateRecord}
    {seeds : List FederateId} (hf : s.registry.get? f = some record)
    (hchange : Registry.Change s.registry.topology f record change seeds)
    (hmembership : (change record).membership = record.membership) (e : Event) :
    ∃ gs, Move s e ({ s with registry := s.registry.modify f change }.advance seeds).1 gs ∧
      grants ({ s with registry := s.registry.modify f change }.advance seeds).2 =
        ({ s with registry := s.registry.modify f change }.advance seeds).1.sent gs := by
  refine ⟨((s.registry.modify f change).sweep s.stopTag seeds).2, ?_, ?_⟩
  · exact .progressed hf hchange hmembership rfl rfl rfl
  · rw [grants_advance]
    rfl

theorem depart_move {record : FederateRecord} (h : s.Joined c f record) (e : Event) :
    ∃ gs, Move s e (s.depart f c).1 gs ∧ grants (s.depart f c).2 = (s.depart f c).1.sent gs := by
  refine ⟨_, ?_, grants_depart h.get?_eq⟩
  refine .departed h ?_ ?_ ?_
  · rw [depart_fst h.get?_eq]
    rfl
  · rw [depart_fst h.get?_eq]
    rfl
  · rw [depart_fst h.get?_eq]
    rfl

/-- Every transition is a move, and sends the grants of the move to those who are still joined. -/
theorem Transition.move {out : Step} (h : Transition s e out) :
    ∃ gs, Move s e out.1 gs ∧ grants out.2 = out.1.sent gs := by
  cases h with
  | opened c peer => exact ⟨[], .opened rfl rfl rfl, rfl⟩
  | ignored | closed => exact ⟨[], .idle rfl rfl, rfl⟩
  | refused reason he h | abandoned he h => exact ⟨[], .closed h rfl rfl, rfl⟩
  | admitted h _ hf hrecord => exact ⟨[], .joined h hf hrecord _ rfl rfl, rfl⟩
  | proposed proposal h =>
    refine ⟨[], .idle ?_ ?_, grants_settleStart _ _ _⟩
    · rw [onTimestamp, settleStart_fst]
    · rw [onTimestamp, settleStart_fst]
  | nextEvent h htag => exact advance_move h.get?_eq (.nextEvent h.connected htag) rfl _
  | completed h htag => exact advance_move h.get?_eq (.completed h.connected htag) rfl _
  | requested time h => exact ⟨[], contribute_move h.get?_eq _ _, grants_contribute _ _ _⟩
  | replied time h => exact ⟨[], contribute_move h.get?_eq _ _, grants_contribute _ _ _⟩
  | forwardedUntimed m h | forwardedTimed m h =>
    exact ⟨[], .idle rfl rfl, (sendsOnly_sendTo _ _ _).grants_eq_nil (by simp)⟩
  | queried target h =>
    refine ⟨[], .idle rfl rfl, (sendsOnly_sendTo _ _ _).grants_eq_nil fun tag heq => ?_⟩
    unfold Directory.reply at heq
    split at heq <;> cases heq
  | @advertised c f _ port h =>
    obtain ⟨directory, hdirectory⟩ := onAddressAd_eq s f port
    rw [hdirectory]
    exact ⟨[], .idle rfl rfl, rfl⟩
  | departed h he => exact depart_move h _
  | expelled he h => exact depart_move h _
  | probed address h hf =>
    exact ⟨[], onClockSyncProbe_move h _ _,
      (offline_onClockSyncProbe _ _ _).silent.grants_eq_nil fun _ => id⟩
  | timer =>
    exact ⟨[], .idle rfl rfl, (ClockSchedule.offline_timer _ _ _).silent.grants_eq_nil fun _ => id⟩

/-! ## The stop tag -/

theorem stop_fold (stop : StopNegotiation) (f : FederateId) (tag : Tag) :
    stop.stopTag = none ∨ (stop.fold f tag).1 = stop := by
  cases stop with
  | idle => exact Or.inl rfl
  | negotiating candidate pending => exact Or.inl rfl
  | granted tag => exact Or.inr rfl

theorem stop_request (stop : StopNegotiation) (f : FederateId) (proposal : Tag)
    (connected : List FederateId) :
    stop.stopTag = none ∨ (stop.request f proposal connected).1 = stop := by
  cases stop with
  | idle => exact Or.inl rfl
  | negotiating candidate pending => exact Or.inl rfl
  | granted tag => exact Or.inr rfl

theorem stop_contribute (s : Coordinator) (f : FederateId)
    (result : StopNegotiation × StopOutcome) :
    (s.contribute f result).1.stop = s.stop ∨ (s.contribute f result).1.stop = result.1 := by
  rcases contribute_fst s f result with h | h | h
  · exact Or.inl (congrArg stop h)
  · exact Or.inr (congrArg stop h)
  · exact Or.inr (congrArg stop h)

/-- A stop tag that is agreed stays. -/
theorem Transition.stopTag {out : Step} (h : Transition s e out) :
    s.stopTag = none ∨ out.1.stopTag = s.stopTag := by
  -- an event that goes through the negotiation leaves it as it was once a tag is agreed
  have of_stop {stop : StopNegotiation} (hstop : s.stop.stopTag = none ∨ stop = s.stop)
      (hout : out.1.stop = s.stop ∨ out.1.stop = stop) :
      s.stopTag = none ∨ out.1.stopTag = s.stopTag := by
    rcases hout with hout | hout
    · exact Or.inr (congrArg StopNegotiation.stopTag hout)
    · refine hstop.imp_right fun heq => ?_
      rw [heq] at hout
      exact congrArg StopNegotiation.stopTag hout
  cases h with
  | opened | ignored | closed | refused | abandoned | admitted | nextEvent | completed
  | forwardedUntimed | forwardedTimed | queried | timer => exact Or.inr rfl
  | proposed proposal h =>
    rw [onTimestamp, settleStart_fst]
    exact Or.inr rfl
  | @requested c f _ time h =>
    exact of_stop (stop_request s.stop f (.ofTime time) s.registry.connected)
      (stop_contribute s f _)
  | @replied c f _ time h =>
    exact of_stop (stop_fold s.stop f (.ofTime time)) (stop_contribute s f _)
  | @advertised c f _ port h =>
    obtain ⟨directory, hdirectory⟩ := onAddressAd_eq s f port
    rw [hdirectory]
    exact Or.inr rfl
  | @departed _ c f record h he =>
    refine of_stop (stop_fold s.stop f record.completed) (Or.inr ?_)
    rw [depart_fst h.get?_eq]
    rfl
  | @expelled _ c f record he h =>
    refine of_stop (stop_fold s.stop f record.completed) (Or.inr ?_)
    rw [expel, Step.andThen_fst, depart_fst h.get?_eq]
    rfl
  | @probed f _ address h hf =>
    rcases onClockSyncProbe_fst s f address with h | ⟨clock, h⟩
    · rw [h]
      exact Or.inr rfl
    · rw [h]
      exact Or.inr rfl

end Coordinator

end FederatedTime
