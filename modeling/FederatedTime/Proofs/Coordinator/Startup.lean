import FederatedTime.Proofs.Coordinator.Membership

/-!
# Starting a federation

A federation starts up when every federate joins and tells its next event, in whatever order, and
nothing else happens on any connection (`StartUp`). On its own connection each federate goes through
four stages (`Stage`), and whatever part of a start-up has happened, every federate is at the stage
that its own events say, nobody has completed anything, and nobody has left (`Run.starting`).
-/

namespace FederatedTime

/-! ## Events of a start-up -/

/-- The events on a connection. -/
def eventsOn (c : ConnectionId) (events : List Event) : List Event :=
  events.filter (·.connection? = some c)

theorem eventsOn_append (c : ConnectionId) (first second : List Event) :
    eventsOn c (first ++ second) = eventsOn c first ++ eventsOn c second :=
  List.filter_append ..

theorem eventsOn_of_eq {c : ConnectionId} {e : Event} (h : e.connection? = some c) :
    eventsOn c [e] = [e] := by
  simp [eventsOn, h]

theorem eventsOn_of_ne {c : ConnectionId} {e : Event} (h : e.connection? ≠ some c) :
    eventsOn c [e] = [] := by
  simp [eventsOn, h]

/-- Every federate of `t` joins once on a connection of its own and tells its next event once, and
nothing else happens on any connection. -/
structure StartUp (t : Topology) (conn : FederateId → ConnectionId) (next : FederateId → Tag)
    (events : List Event) : Prop where
  script : ∀ f, t.contains f → ∃ peer, eventsOn (conn f) events =
    [.connectionOpened (conn f) peer, .messageReceived (conn f) (.join f t.federationId),
      .messageReceived (conn f) (.nextEventTag (next f))]
  connection : ∀ e ∈ events, ∀ c ∈ e.connection?, ∃ f, t.contains f ∧ conn f = c
  next_ne : ∀ f, t.contains f → next f ≠ .never

theorem StartUp.conn_injective {t : Topology} {conn : FederateId → ConnectionId}
    {next : FederateId → Tag} {events : List Event} {f g : FederateId}
    (h : StartUp t conn next events) (hf : t.contains f) (hg : t.contains g)
    (heq : conn f = conn g) : f = g := by
  obtain ⟨peer, hscript⟩ := h.script f hf
  obtain ⟨peer', hscript'⟩ := h.script g hg
  rw [heq, hscript'] at hscript
  simp only [List.cons.injEq, Event.messageReceived.injEq, Message.join.injEq] at hscript
  exact hscript.2.1.2.1.symm

/-! ## Records during a start-up -/

namespace Registry

variable {r : Registry} {f g : FederateId} {change : FederateRecord → FederateRecord}

/-- Nobody has completed anything, or left. -/
def Unstarted (r : Registry) : Prop :=
  ∀ f record, r.get? f = some record → record.effectiveCompleted = .never

theorem Unstarted.modify (hr : r.Unstarted)
    (h : ∀ record, r.get? f = some record → (change record).effectiveCompleted = .never) :
    (r.modify f change).Unstarted := by
  intro g record hg
  rw [get?_modify] at hg
  split at hg
  · rename_i hfg
    subst hfg
    obtain ⟨earlier, hearlier, rfl⟩ := Option.map_eq_some_iff.1 hg
    exact h earlier hearlier
  · exact hr g record hg

theorem Unstarted.sweep (hr : r.Unstarted) (stop : Option Tag) (seeds : List FederateId) :
    (r.sweep stop seeds).1.Unstarted := by
  intro g record hg
  obtain ⟨earlier, hearlier, hswept⟩ := swept_of_get? hg
  rw [hswept.effectiveCompleted]
  exact hr g earlier hearlier

theorem completed_of_effectiveCompleted {record : FederateRecord}
    (h : record.effectiveCompleted = .never) : record.completed = .never := by
  unfold FederateRecord.effectiveCompleted at h
  split at h
  · cases h
  · exact h

/-- What the change of one record leaves alone, read off all records at once. -/
theorem map_get?_modify {α : Type} {field : FederateRecord → α}
    (h : f = g → ∀ record, field (change record) = field record) :
    ((r.modify f change).get? g).map field = (r.get? g).map field := by
  rw [get?_modify]
  split
  · rename_i hfg
    rw [Option.map_map]
    exact congrArg (fun field => (r.get? g).map field) (funext (h hfg))
  · rfl

end Registry

namespace Coordinator

variable {s s' : Coordinator} {t : Topology} {f : FederateId} {c : ConnectionId} {tag : Tag}
variable {own : List Event} {e : Event}

/-! ## Stages -/

/-- How far a federate has come on its connection, given what has happened there. -/
inductive Stage (s : Coordinator) (t : Topology) (f : FederateId) (c : ConnectionId) (tag : Tag) :
    List Event → Prop
  | away (hsession : s.sessions.get? c = none) (hf : s.registry.isConnected f = false) :
    Stage s t f c tag []
  | opened {peer : SocketAddress} (hsession : s.sessions.get? c = some (.handshaking peer))
      (hf : s.registry.isConnected f = false) :
    Stage s t f c tag [.connectionOpened c peer]
  | joined {peer : SocketAddress} (hsession : s.sessions.get? c = some (.joined f)) :
    Stage s t f c tag [.connectionOpened c peer, .messageReceived c (.join f t.federationId)]
  | waiting {peer : SocketAddress} (hsession : s.sessions.get? c = some (.joined f))
      (hnext : ∀ record, s.registry.get? f = some record → record.nextEvent = tag) :
    Stage s t f c tag [.connectionOpened c peer, .messageReceived c (.join f t.federationId),
      .messageReceived c (.nextEventTag tag)]

/-- What a stage reads of a record. -/
def outlook (record : FederateRecord) : Bool × Tag := (record.isConnected, record.nextEvent)

/-- The stage of `f` on `c` is left alone. -/
structure Leaves (s s' : Coordinator) (f : FederateId) (c : ConnectionId) : Prop where
  session : s'.sessions.get? c = s.sessions.get? c
  outlook : (s'.registry.get? f).map outlook = (s.registry.get? f).map outlook

theorem Leaves.isConnected (h : s.Leaves s' f c) :
    s'.registry.isConnected f = s.registry.isConnected f := by
  have houtlook := congrArg (Option.map (·.1)) h.outlook
  rw [Option.map_map, Option.map_map] at houtlook
  exact congrArg (Option.getD · false) houtlook

theorem Leaves.nextEvent (h : s.Leaves s' f c)
    (hnext : ∀ record, s.registry.get? f = some record → record.nextEvent = tag) :
    ∀ record, s'.registry.get? f = some record → record.nextEvent = tag := by
  intro record hrecord
  have houtlook := h.outlook
  rw [hrecord] at houtlook
  obtain ⟨earlier, hearlier, heq⟩ := Option.map_eq_some_iff.1 houtlook.symm
  rw [← hnext earlier hearlier]
  exact (congrArg (·.2) heq).symm

theorem Stage.of_leaves (h : s.Stage t f c tag own) (hleaves : s.Leaves s' f c) :
    s'.Stage t f c tag own := by
  cases h with
  | away hsession hf =>
    exact .away (hleaves.session.trans hsession) (hleaves.isConnected.trans hf)
  | opened hsession hf =>
    exact .opened (hleaves.session.trans hsession) (hleaves.isConnected.trans hf)
  | joined hsession => exact .joined (hleaves.session.trans hsession)
  | waiting hsession hnext =>
    exact .waiting (hleaves.session.trans hsession) (hleaves.nextEvent hnext)

/-! ## Steps of one federate -/

/-- A step of the start-up of `f` on `c`, which shows nowhere else. -/
structure Touches (s s' : Coordinator) (f : FederateId) (c : ConnectionId) : Prop where
  leaves : ∀ g d, g ≠ f → d ≠ c → s.Leaves s' g d
  unstarted : s'.registry.Unstarted
  stopTag : s'.stopTag = s.stopTag

theorem touches_open (h : s.registry.Unstarted) (f : FederateId) (c : ConnectionId)
    (peer : SocketAddress) : s.Touches (s.handle (.connectionOpened c peer)).1 f c where
  leaves g d _ hd := by
    refine ⟨?_, rfl⟩
    show (s.sessions.put c (.handshaking peer)).get? d = s.sessions.get? d
    rw [Sessions.get?_put_of_ne _ _ hd]
  unstarted := h
  stopTag := rfl

theorem touches_admitted (h : s.registry.Unstarted) (f : FederateId) (c : ConnectionId)
    (peer : SocketAddress) : s.Touches (s.admitted c peer f) f c where
  leaves g d hg hd := by
    refine ⟨?_, Registry.map_get?_modify fun hfg => absurd hfg.symm hg⟩
    show (s.sessions.put c (.joined f)).get? d = s.sessions.get? d
    rw [Sessions.get?_put_of_ne _ _ hd]
  unstarted := h.modify fun _ _ => rfl
  stopTag := rfl

/-- The state after `f` has told its next event. -/
def told (s : Coordinator) (f : FederateId) (tag : Tag) : Coordinator :=
  { s with
    registry := ((s.registry.modify f ({ · with nextEvent := tag })).sweep s.stopTag [f]).1 }

theorem touches_told (h : s.registry.Unstarted) (f : FederateId) (c : ConnectionId) (tag : Tag) :
    s.Touches (s.told f tag) f c where
  leaves g d hg _ := by
    refine ⟨rfl, ?_⟩
    have hsettle (granted : Option Tag) (record : FederateRecord) :
        outlook (Registry.settle granted record) = outlook record := by
      simp [outlook]
    exact (Registry.map_get?_sweep hsettle g).trans
      (Registry.map_get?_modify fun hfg => absurd hfg.symm hg)
  unstarted := by
    refine Registry.Unstarted.sweep (h.modify fun record hrecord => ?_) s.stopTag [f]
    exact h f record hrecord
  stopTag := rfl

theorem handle_join {peer : SocketAddress} (hsession : s.sessions.get? c = some (.handshaking peer))
    (hcontains : s.registry.topology.contains f) (hf : s.registry.isConnected f = false) :
    s.handle (.messageReceived c (.join f s.registry.topology.federationId)) =
      (s.admitted c peer f, [.send c (.ack s.settings.advertisedUdpPort)]) := by
  have hfault : s.joinFault? f s.registry.topology.federationId = none :=
    joinFault?_eq_none_iff.2 ⟨rfl, of_decide_eq_true hcontains, ne_true_of_eq_false hf⟩
  rw [handle_handshake hsession, onHandshake, hfault]

theorem Joined.handle_nextEvent {record : FederateRecord} (h : s.Joined c f record)
    (hcompleted : record.completed = .never) (tag : Tag) :
    (s.handle (.messageReceived c (.nextEventTag tag))).1 = s.told f tag := by
  have htag : ¬ tag < record.completed := by
    rw [hcompleted]
    exact not_lt.2 (Tag.never_le tag)
  rw [h.handle_message]
  unfold onMessage
  dsimp only
  unfold onNextEvent
  rw [h.get?_eq]
  dsimp only
  rw [if_neg htag]
  rfl

/-- The next event on its connection takes a federate to the next stage. -/
theorem Stage.step (h : s.Stage t f c tag own) (hs : s.Consistent) (hr : s.registry.Unstarted)
    (htopology : s.registry.topology = t) (hf : t.contains f) {peer : SocketAddress}
    {rest : List Event} (hscript : own ++ e :: rest =
      [.connectionOpened c peer, .messageReceived c (.join f t.federationId),
        .messageReceived c (.nextEventTag tag)]) :
    s.Touches (s.handle e).1 f c ∧ (s.handle e).1.Stage t f c tag (own ++ [e]) := by
  subst htopology
  cases h with
  | away hsession hconnected =>
    obtain ⟨rfl, -⟩ := List.cons.inj hscript
    refine ⟨touches_open hr f c peer, .opened ?_ hconnected⟩
    show (s.sessions.put c (.handshaking peer)).get? c = _
    rw [Sessions.get?_put_self]
  | @opened peer' hsession hconnected =>
    obtain ⟨rfl, -⟩ := List.cons.inj (List.cons.inj hscript).2
    rw [handle_join hsession hf hconnected]
    refine ⟨touches_admitted hr f c peer', .joined ?_⟩
    show (s.sessions.put c (.joined f)).get? c = _
    rw [Sessions.get?_put_self]
  | joined hsession =>
    obtain ⟨rfl, -⟩ := List.cons.inj (List.cons.inj (List.cons.inj hscript).2).2
    obtain ⟨record, hjoined⟩ := hs.exists_joined hsession
    have hcompleted := Registry.completed_of_effectiveCompleted (hr f record hjoined.get?_eq)
    rw [hjoined.handle_nextEvent hcompleted]
    refine ⟨touches_told hr f c tag, .waiting hsession fun record' hrecord' => ?_⟩
    obtain ⟨middle, hmiddle, hswept⟩ := Registry.swept_of_get? hrecord'
    rcases Registry.get?_modify_cases hjoined.get?_eq hmiddle with ⟨-, rfl⟩ | ⟨hne, -⟩
    · exact hswept.nextEvent
    · exact absurd rfl hne
  | waiting => simp at hscript

/-- Timers and datagrams have no part in a start-up. -/
theorem leaves_of_connection?_eq_none (hr : s.registry.Unstarted) (he : e.connection? = none) :
    (∀ f c, s.Leaves (s.handle e).1 f c) ∧ (s.handle e).1.registry.Unstarted ∧
      (s.handle e).1.stopTag = s.stopTag := by
  cases e with
  | clockSyncTimer => exact ⟨fun _ _ => ⟨rfl, rfl⟩, hr, rfl⟩
  | clockSyncProbe g address =>
    have hhandle : s.handle (.clockSyncProbe g address) = s.onClockSyncProbe g address := rfl
    rw [hhandle]
    rcases onClockSyncProbe_fst s g address with h | ⟨clock, h⟩
    · rw [h]
      exact ⟨fun _ _ => ⟨rfl, rfl⟩, hr, rfl⟩
    · rw [h]
      have halike := fun record => FederateRecord.alike_registerClock record address
      have houtlook (record : FederateRecord) :
          outlook (registerClock address record) = outlook record := by
        rw [outlook, outlook, (halike record).isConnected, (halike record).nextEvent]
      refine ⟨fun f c => ⟨rfl, Registry.map_get?_modify fun _ => houtlook⟩,
        hr.modify fun record hrecord => ?_, rfl⟩
      rw [(halike record).effectiveCompleted]
      exact hr g record hrecord
  | _ => cases he

/-! ## All federates at once -/

variable {conn : FederateId → ConnectionId} {next : FederateId → Tag} {events : List Event}

/-- The state after the given events, which are part of a start-up. -/
structure Starting (s : Coordinator) (t : Topology) (conn : FederateId → ConnectionId)
    (next : FederateId → Tag) (events : List Event) : Prop where
  stage : ∀ f, t.contains f → s.Stage t f (conn f) (next f) (eventsOn (conn f) events)
  unstarted : s.registry.Unstarted
  stopTag : s.stopTag = none

theorem starting_ofTopology (t : Topology) (settings : CoordinatorSettings)
    (conn : FederateId → ConnectionId) (next : FederateId → Tag) :
    (ofTopology t settings).Starting t conn next [] where
  stage f _ := by
    refine .away rfl (eq_false_of_ne_true fun hconnected => ?_)
    obtain ⟨record, hf, hconnected⟩ := Registry.exists_of_isConnected hconnected
    rw [get?_ofTopology hf] at hconnected
    cases hconnected
  unstarted f record hf := by
    rw [get?_ofTopology hf]
    rfl
  stopTag := rfl

theorem Starting.step (h : s.Starting t conn next events) (hs : s.Consistent)
    (htopology : s.registry.topology = t) {later : List Event}
    (hstart : StartUp t conn next (events ++ e :: later)) :
    (s.handle e).1.Starting t conn next (events ++ [e]) := by
  cases hconnection : e.connection? with
  | none =>
    obtain ⟨hleaves, hunstarted, hstop⟩ := leaves_of_connection?_eq_none h.unstarted hconnection
    refine ⟨fun f hf => ?_, hunstarted, hstop.trans h.stopTag⟩
    have hnone : e.connection? ≠ some (conn f) := by
      rw [hconnection]
      nofun
    rw [eventsOn_append, eventsOn_of_ne hnone, List.append_nil]
    exact (h.stage f hf).of_leaves (hleaves f (conn f))
  | some c =>
    have hmem : e ∈ events ++ e :: later := List.mem_append_right _ List.mem_cons_self
    obtain ⟨g, hg, rfl⟩ := hstart.connection e hmem c hconnection
    obtain ⟨peer, hscript⟩ := hstart.script g hg
    have hown := eventsOn_of_eq hconnection
    rw [List.append_cons, eventsOn_append, eventsOn_append, hown, ← List.append_cons] at hscript
    obtain ⟨htouches, hstage⟩ := (h.stage g hg).step hs h.unstarted htopology hg hscript
    refine ⟨fun f hf => ?_, htouches.unstarted, htouches.stopTag.trans h.stopTag⟩
    rw [eventsOn_append]
    by_cases hfg : f = g
    · subst hfg
      rw [hown]
      exact hstage
    · have hne : conn f ≠ conn g := fun heq => hfg (hstart.conn_injective hf hg heq)
      have hother : e.connection? ≠ some (conn f) := by
        rw [hconnection]
        exact fun heq => hne (Option.some.inj heq).symm
      rw [eventsOn_of_ne hother, List.append_nil]
      exact (h.stage f hf).of_leaves (htouches.leaves f (conn f) hfg hne)

end Coordinator

namespace Run

variable {t : Topology} {settings : CoordinatorSettings} {history : List Moment} {s : Coordinator}
variable {conn : FederateId → ConnectionId} {next : FederateId → Tag}

/-- Every part of a start-up leaves each federate at the stage that its events say. -/
theorem starting (run : Run t settings history s) {later : List Event}
    (hstart : StartUp t conn next (history.map (·.event) ++ later)) :
    s.Starting t conn next (history.map (·.event)) := by
  induction run generalizing later with
  | start => exact Coordinator.starting_ofTopology t settings conn next
  | @event history s run now e fresh ih =>
    have hevents : (history ++ [(s.setTime now).moment e]).map (·.event) =
        history.map (·.event) ++ [e] := by
      rw [List.map_append]
      rfl
    rw [hevents, List.append_assoc] at hstart
    rw [hevents]
    have hbefore := ih hstart
    have hsetTime : (s.setTime now).Starting t conn next (history.map (·.event)) :=
      ⟨fun f hf => (hbefore.stage f hf).of_leaves ⟨rfl, rfl⟩, hbefore.unstarted, hbefore.stopTag⟩
    exact hsetTime.step (consistent_setTime run.consistent now) run.topology_eq hstart

end Run

end FederatedTime
