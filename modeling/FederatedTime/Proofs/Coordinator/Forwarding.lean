import FederatedTime.Proofs.Coordinator.History
import FederatedTime.Proofs.Coordinator.Membership

/-!
# Passing messages on

What a joined federate sends to another goes out on the connection that the other is joined on, as
it is, and nowhere else; if the other is not joined, it is dropped. Apart from that the coordinator
sends only messages of its own (`Transition.sends`). So on each connection exactly what has come for
whoever was joined there goes out, in order (`Run.forwardedOn_eq_addressedOn`).
-/

namespace FederatedTime

open FederatedTime.Action (SendsOnly)

/-! ## Messages that are passed on -/

namespace Message

/-- The federate that a message is to be passed on to. -/
def destination? : Message → Option FederateId
  | untimed m => some m.federate
  | timed m => some m.federate
  | _ => none

/-- Whether the coordinator sends a message of its own accord, rather than passing it on. -/
def isOwn : Message → Bool
  | reject _ | ack _ | timestamp _ | timeAdvanceGrant _ | stopRequest _ | stopGranted _
  | addressQueryReply _ _ => true
  | _ => false

theorem destination?_eq_none_of_isOwn {message : Message} (h : message.isOwn) :
    message.destination? = none := by
  cases message with
  | untimed | timed => cases h
  | _ => rfl

end Message

/-- The messages among actions that are passed on to a connection. -/
def Action.forwardedTo (c : ConnectionId) (actions : List Action) : List Message :=
  (actions.filterMap (messageTo? c)).filter (·.destination?.isSome)

/-- The messages passed on to a connection in a history. -/
def forwardedOn (c : ConnectionId) (history : List Moment) : List Message :=
  history.flatMap fun m => Action.forwardedTo c m.actions

/-- The message that a joined federate sends in a moment to the one that is joined on `c`. -/
def Moment.addressedTo? (c : ConnectionId) (m : Moment) (before : Coordinator) :
    Option Message := do
  let _ ← before.origin? m.event
  let message ← m.event.message?
  let f ← message.destination?
  if before.federateOf c = some f then pure message else none

/-- The messages that joined federates have sent in a history from `s` on to whoever was joined on
`c` at the time. -/
def addressedOn (c : ConnectionId) (s : Coordinator) (history : List Moment) : List Message :=
  gather (·.addressedTo? c) s history

namespace Action

variable {actions : List Action} {c : ConnectionId} {message : Message}

theorem messageTo?_eq_some_iff {action : Action} :
    action.messageTo? c = some message ↔ action = .send c message := by
  cases action with
  | send d message' =>
    by_cases hd : d = c <;> simp [messageTo?, hd]
  | closeConnection | sendClockSync | federationFinished => simp [messageTo?]

theorem SendsOnly.forwardedTo_eq_nil {P : Message → Prop} (h : SendsOnly P actions)
    (hP : ∀ message, P message → message.destination? = none) (c : ConnectionId) :
    forwardedTo c actions = [] := by
  refine List.filter_eq_nil_iff.2 fun message hmem => ?_
  obtain ⟨action, haction, hmessage⟩ := List.mem_filterMap.1 hmem
  obtain rfl := messageTo?_eq_some_iff.1 hmessage
  rw [hP message (h c message haction)]
  exact Bool.false_ne_true

end Action

/-! ## What the coordinator sends -/

namespace Coordinator

variable {s : Coordinator} {e : Event} {f g : FederateId} {c d : ConnectionId}
variable {record : FederateRecord} {message : Message}

theorem sends_settleStop (s : Coordinator) (result : StopNegotiation × StopOutcome) :
    SendsOnly (·.isOwn) (s.settleStop result).2 := by
  refine (sendsOnly_settleStop s result).mono fun message h => ?_
  rcases h with ⟨time, rfl | rfl⟩ <;> rfl

theorem sends_settleStart (s : Coordinator) (f : FederateId)
    (result : StartNegotiation × StartOutcome) :
    SendsOnly (·.isOwn) (s.settleStart f result).2 := by
  refine (sendsOnly_settleStart s f result).mono fun message h => ?_
  obtain ⟨time, rfl⟩ := h
  rfl

theorem sends_advance (s : Coordinator) (seeds : List FederateId) :
    SendsOnly (·.isOwn) (s.advance seeds).2 := by
  refine (sendsOnly_advance s seeds).mono fun message h => ?_
  obtain ⟨tag, rfl⟩ := h
  rfl

theorem sends_contribute (s : Coordinator) (f : FederateId)
    (result : StopNegotiation × StopOutcome) : SendsOnly (·.isOwn) (s.contribute f result).2 := by
  unfold contribute
  split
  · exact Action.silent_nil.mono fun _ => False.elim
  · exact sends_settleStop _ result

theorem sends_depart (s : Coordinator) (f : FederateId) (c : ConnectionId) :
    SendsOnly (·.isOwn) (s.depart f c).2 := by
  have hclose : SendsOnly (·.isOwn) [.closeConnection c] := by simp [SendsOnly]
  unfold depart
  split
  · exact hclose
  · simp only [Step.andThen_snd]
    refine Action.sendsOnly_append hclose (Action.sendsOnly_append (sends_settleStop _ _) ?_)
    refine Action.sendsOnly_append (sends_settleStart _ f _) ?_
    refine Action.sendsOnly_append (sends_advance _ _) ?_
    exact (offline_finishIfDone _).silent.mono fun _ => False.elim

/-- Whatever comes of an event, the coordinator sends messages of its own, or passes on the one that
has come from a joined federate. -/
theorem Transition.sends {out : Step} (h : Transition s e out) :
    SendsOnly (fun message => message.isOwn ∨ message.destination?.isSome ∧
      e.message? = some message ∧ ∃ f, s.origin? e = some f) out.2 := by
  have own {actions : List Action} (h : SendsOnly (·.isOwn) actions) :
      SendsOnly (fun message => message.isOwn ∨ message.destination?.isSome ∧
        e.message? = some message ∧ ∃ f, s.origin? e = some f) actions :=
    h.mono fun _ => Or.inl
  have silent {actions : List Action} (h : Action.Silent actions) :=
    own (h.mono fun _ => False.elim)
  cases h with
  | opened | ignored | closed | abandoned | advertised => exact silent (by simp [SendsOnly])
  | refused reason => exact own (by simp [SendsOnly, refuse, Message.isOwn])
  | admitted => exact own (by simp [SendsOnly, Message.isOwn])
  | proposed => exact own (sends_settleStart _ _ _)
  | nextEvent | completed => exact own (sends_advance _ _)
  | requested | replied => exact own (sends_contribute _ _ _)
  | forwardedUntimed m h | forwardedTimed m h =>
    refine (sendsOnly_sendTo _ _ _).mono fun message hmessage => Or.inr ?_
    subst hmessage
    exact ⟨rfl, rfl, _, h.origin?_eq rfl⟩
  | queried target h =>
    refine own ((sendsOnly_sendTo _ _ _).mono fun message hmessage => ?_)
    subst hmessage
    unfold Directory.reply
    split <;> rfl
  | departed h he => exact own (sends_depart _ _ _)
  | expelled he h =>
    refine own ?_
    rw [expel, Step.andThen_snd]
    exact Action.sendsOnly_append (by simp [SendsOnly, Message.isOwn]) (sends_depart _ _ _)
  | probed address h hf => exact silent (offline_onClockSyncProbe _ _ _).silent
  | timer => exact silent (ClockSchedule.offline_timer _ _ _).silent

/-! ## Passing one message on -/

theorem Consistent.federateOf_eq_some_iff (hs : s.Consistent) :
    s.federateOf c = some f ↔ s.registry.connection? f = some c := by
  rw [Coordinator.federateOf_eq_some_iff, hs.joined_iff]

/-- What a joined federate sends to another changes nothing, and is sent to the other. -/
theorem Joined.handle_addressed (h : s.Joined d g record) (hf : message.destination? = some f) :
    s.handle (.messageReceived d message) = (s, s.sendTo f message) := by
  rw [h.handle_message]
  cases message with
  | untimed | timed =>
    obtain rfl := Option.some.inj hf
    rfl
  | _ => cases hf

theorem Consistent.sendTo_eq (hs : s.Consistent) (hc : s.federateOf c = some f)
    (message : Message) : s.sendTo f message = [.send c message] := by
  rw [hs.federateOf_eq_some_iff] at hc
  rw [sendTo, hc]
  rfl

theorem Consistent.sendTo_eq_nil (hs : s.Consistent) (hf : ∀ c, s.federateOf c ≠ some f)
    (message : Message) : s.sendTo f message = [] := by
  have hnone : s.registry.connection? f = none :=
    Option.eq_none_iff_forall_ne_some.2 fun c hc => hf c (hs.federateOf_eq_some_iff.2 hc)
  rw [sendTo, hnone]
  rfl

theorem Consistent.forwardedTo_sendTo (hs : s.Consistent) (hf : message.destination?.isSome)
    (c : ConnectionId) : Action.forwardedTo c (s.sendTo f message) =
      (if s.federateOf c = some f then some message else none).toList := by
  by_cases hjoined : ∃ d, s.federateOf d = some f
  · obtain ⟨d, hd⟩ := hjoined
    have hcd : s.federateOf c = some f ↔ d = c := by
      rw [hs.federateOf_eq_some_iff, hs.federateOf_eq_some_iff.1 hd, Option.some_inj]
    rw [hs.sendTo_eq hd]
    by_cases hdc : d = c
    · simp [Action.forwardedTo, Action.messageTo?, hdc, hcd.2 hdc, hf]
    · simp [Action.forwardedTo, Action.messageTo?, hdc, hcd]
  · rw [hs.sendTo_eq_nil (not_exists.1 hjoined), if_neg (not_exists.1 hjoined c)]
    rfl

/-- What is passed on to a connection in one event. -/
theorem Consistent.forwardedTo_handle (hs : s.Consistent) (e : Event) (c : ConnectionId) :
    Action.forwardedTo c (s.handle e).2 = ((s.moment e).addressedTo? c s).toList := by
  by_cases haddressed : ∃ f message, e.message? = some message ∧
      message.destination?.isSome ∧ s.origin? e = some f
  · obtain ⟨f, message, hmessage, hdestination, horigin⟩ := haddressed
    obtain ⟨g, hg⟩ := Option.isSome_iff_exists.1 hdestination
    obtain ⟨d, hd, hfederate⟩ := Option.bind_eq_some_iff.1 horigin
    obtain rfl := Event.eq_messageReceived hd hmessage
    obtain ⟨record, hjoined⟩ := hs.exists_joined_of_federateOf hfederate
    rw [hjoined.handle_addressed hg, hs.forwardedTo_sendTo hdestination]
    simp [Moment.addressedTo?, moment, horigin, Event.message?, hg]
  · have hnone : (s.moment e).addressedTo? c s = none := by
      refine Option.eq_none_iff_forall_ne_some.2 fun message h => haddressed ?_
      obtain ⟨f, hf, h⟩ := Option.bind_eq_some_iff.1 h
      obtain ⟨message', hmessage', h⟩ := Option.bind_eq_some_iff.1 h
      obtain ⟨g, hg, -⟩ := Option.bind_eq_some_iff.1 h
      exact ⟨f, message', hmessage', by rw [hg]; rfl, hf⟩
    rw [hnone]
    refine (handle_transition hs e).sends.forwardedTo_eq_nil (fun message h => ?_) c
    rcases h with hown | ⟨hdestination, hmessage, f, hf⟩
    · exact Message.destination?_eq_none_of_isOwn hown
    · exact absurd ⟨f, message, hmessage, hdestination, hf⟩ haddressed

end Coordinator

/-! ## A whole run -/

namespace Run

variable {t : Topology} {settings : CoordinatorSettings} {history : List Moment} {s : Coordinator}

/-- On each connection goes out what joined federates have sent to whoever was joined there at the
time, as it was and in order. Each message goes out once, on no other connection, and changes
nothing. -/
theorem forwardedOn_eq_addressedOn (run : Run t settings history s) :
    (∀ c, forwardedOn c history = addressedOn c (.ofTopology t settings) history) ∧
    ∀ now d message g f, s.federateOf d = some g → message.destination? = some f →
      let out := (s.setTime now).handle (.messageReceived d message)
      out.1 = s.setTime now ∧
      (∀ c, s.federateOf c = some f → out.2 = [.send c message]) ∧
      ((∀ c, s.federateOf c ≠ some f) → out.2 = []) := by
  constructor
  · intro c
    induction run with
    | start => rfl
    | @event history s run now e fresh ih =>
      have hs := consistent_setTime run.consistent now
      have hstep : Action.forwardedTo c ((s.setTime now).handle e).2 =
          (((s.setTime now).moment e).addressedTo? c s).toList := hs.forwardedTo_handle e c
      unfold forwardedOn addressedOn at ih ⊢
      rw [run.gather_append_singleton, ← hstep, List.flatMap_append, ih, List.flatMap_singleton]
      rfl
  · intro now d message g f hg hf
    have hs := consistent_setTime run.consistent now
    obtain ⟨record, hjoined⟩ := hs.exists_joined_of_federateOf hg
    rw [hjoined.handle_addressed hf]
    exact ⟨rfl, fun c hc => hs.sendTo_eq hc message, fun hc => hs.sendTo_eq_nil hc message⟩

end Run

namespace Relay

/-- The source sends to the sink, to itself and to nobody; then the sink leaves, misses a message,
and joins again on another connection. -/
def mailEvents : List Event :=
  events ++ [.messageReceived ⟨0⟩ (.timed ⟨⟨7⟩, ⟨1⟩, ⟨20, 3⟩, [1, 2]⟩),
    .messageReceived ⟨0⟩ (.untimed ⟨⟨7⟩, ⟨0⟩, [3]⟩),
    .messageReceived ⟨0⟩ (.untimed ⟨⟨7⟩, ⟨500⟩, [4]⟩),
    .messageReceived ⟨0⟩ (.untimed ⟨⟨8⟩, ⟨1⟩, []⟩),
    .messageReceived ⟨1⟩ .resign,
    .messageReceived ⟨0⟩ (.untimed ⟨⟨8⟩, ⟨1⟩, [5]⟩),
    .connectionOpened ⟨2⟩ default, .messageReceived ⟨2⟩ (.join ⟨1⟩ "relay"),
    .messageReceived ⟨0⟩ (.untimed ⟨⟨8⟩, ⟨1⟩, [6]⟩)]

def mailHistory : List Moment := (Coordinator.ofTopology plan.graph {}).trace mailEvents

def mailState : Coordinator := ((Coordinator.ofTopology plan.graph {}).handleAll mailEvents).1

theorem run_mail : Run plan.graph {} mailHistory mailState := .run_trace (by decide)

end Relay

namespace Run

theorem forwardedOn_eq_addressedOn_relay :
    forwardedOn ⟨0⟩ Relay.mailHistory = [.untimed ⟨⟨7⟩, ⟨0⟩, [3]⟩] ∧
    forwardedOn ⟨1⟩ Relay.mailHistory =
      [.timed ⟨⟨7⟩, ⟨1⟩, ⟨20, 3⟩, [1, 2]⟩, .untimed ⟨⟨8⟩, ⟨1⟩, []⟩] ∧
    forwardedOn ⟨2⟩ Relay.mailHistory = [.untimed ⟨⟨8⟩, ⟨1⟩, [6]⟩] ∧
    Relay.mailState.federateOf ⟨0⟩ = some ⟨0⟩ ∧ Relay.mailState.federateOf ⟨2⟩ = some ⟨1⟩ ∧
    (let out := (Relay.mailState.setTime 0).handle
      (.messageReceived ⟨0⟩ (.untimed ⟨⟨9⟩, ⟨1⟩, [7]⟩))
    out.1 = Relay.mailState.setTime 0 ∧ out.2 = [.send ⟨2⟩ (.untimed ⟨⟨9⟩, ⟨1⟩, [7]⟩)]) := by
  have hsource : Relay.mailState.federateOf ⟨0⟩ = some ⟨0⟩ := by decide +kernel
  have hsink : Relay.mailState.federateOf ⟨2⟩ = some ⟨1⟩ := by decide +kernel
  obtain ⟨hforwarded, hexact⟩ := Relay.run_mail.forwardedOn_eq_addressedOn
  obtain ⟨hstate, hsent, -⟩ := hexact 0 ⟨0⟩ (.untimed ⟨⟨9⟩, ⟨1⟩, [7]⟩) ⟨0⟩ ⟨1⟩ hsource rfl
  refine ⟨?_, ?_, ?_, hsource, hsink, hstate, hsent ⟨2⟩ hsink⟩
  · rw [hforwarded]
    decide +kernel
  · rw [hforwarded]
    decide +kernel
  · rw [hforwarded]
    decide +kernel

end Run

end FederatedTime
