import FederatedTime.Proofs.Coordinator.StopRound
import FederatedTime.Proofs.Simulation.Links

/-!
# What a delivery comes to

A delivery starts a federate, or is an event that the coordinator answers, or a message that a
federate answers. `Turn` lists these, with what each of them takes from the links and puts on them,
and `Orderly.turn` is that nothing else comes of a step that no check objects to.
-/

namespace FederatedTime

namespace Simulation

/-! ## What is sent -/

/-- The event by which an output of `f` reaches the coordinator. -/
def Output.event (f : FederateId) : Output → Event
  | send message => .messageReceived (connectionOf f) message
  | disconnect => .connectionLost (connectionOf f)

/-- The delivery by which an action reaches a federate. -/
def delivery? : Action → Option Delivery
  | .send c message => some (.toFederate (federateOn c) message)
  | _ => none

/-- The messages that actions send to `f`, in order. -/
def messagesFor (f : FederateId) (actions : List Action) : List Message :=
  actions.filterMap fun a => (delivery? a).bind (Delivery.messageTo? f)

def Delivery.event? : Delivery → Option Event
  | toCoordinator e => some e
  | _ => none

/-- What `f` proposes for a stop in some of its events. -/
def proposalsIn (f : FederateId) (events : List Event) : List (FederateId × Tag) :=
  events.filterMap fun e => e.stopTime?.map fun time => (f, .ofTime time)

/-- The events under way to the coordinator. -/
def events (s : Simulation) : List Event := s.underWay Delivery.event?

theorem mem_messagesFor {f : FederateId} {message : Message} {actions : List Action} :
    message ∈ messagesFor f actions ↔ ∃ c, federateOn c = f ∧ .send c message ∈ actions := by
  unfold messagesFor
  rw [List.mem_filterMap]
  constructor
  · rintro ⟨a, ha, hmessage⟩
    cases a with
    | send c message' =>
      have hif : (if federateOn c = f then some message' else none) = some message := hmessage
      split at hif
      · rename_i hc
        exact ⟨c, hc, Option.some.inj hif ▸ ha⟩
      · cases hif
    | closeConnection | sendClockSync | federationFinished => cases hmessage
  · rintro ⟨c, hc, ha⟩
    exact ⟨_, ha, if_pos hc⟩

namespace Output

variable (f : FederateId) (output : Output)

@[simp] theorem connection?_event : (output.event f).connection? = some (connectionOf f) := by
  cases output <;> rfl

@[simp] theorem opens?_event : (output.event f).opens? = none := by
  cases output <;> rfl

end Output

theorem link?_toCoordinator {f : FederateId} {e : Event}
    (h : e.connection? = some (connectionOf f)) :
    (Delivery.toCoordinator e).link? = some (.toCoordinator f) := by
  rw [Delivery.link?, h, Option.map_some, federateOn_connectionOf]

theorem eventOf?_toCoordinator {f : FederateId} {e : Event}
    (h : e.connection? = some (connectionOf f)) (g : FederateId) :
    Delivery.eventOf? g (.toCoordinator e) = if g = f then some e else none := by
  have hiff : connectionOf f = connectionOf g ↔ g = f :=
    ⟨fun heq => (connectionOf_injective heq).symm, fun heq => by rw [heq]⟩
  unfold Delivery.eventOf?
  dsimp only
  rw [h]
  simp only [Option.some.injEq, hiff]

/-- Whatever is picked travels over one link. -/
def OnOneLink {β : Type} (pick : Delivery → Option β) : Prop :=
  ∀ d d', (pick d).isSome → (pick d').isSome → d'.link? = d.link?

theorem onOneLink_eventOf? (f : FederateId) : OnOneLink (Delivery.eventOf? f) := fun _ _ h h' => by
  rw [Delivery.link?_of_eventOf? h, Delivery.link?_of_eventOf? h']

theorem onOneLink_messageTo? (f : FederateId) : OnOneLink (Delivery.messageTo? f) :=
  fun _ _ h h' => by
    rw [Delivery.link?_of_messageTo? h, Delivery.link?_of_messageTo? h']

theorem onOneLink_start? : OnOneLink Delivery.start? := by
  intro d d' h h'
  cases d <;> cases h
  cases d' <;> cases h'
  rfl

variable {s s' : Simulation} {e : Event} {f g : FederateId} {l : Link} {d : Delivery}
variable {β : Type} {pick : Delivery → Option β}

theorem Orderly.underWay_send (h : s.Orderly) (hlink : d.link? = some l) (hpick : OnOneLink pick) :
    (s.transmit l d).underWay pick = s.underWay pick ++ (pick d).toList :=
  h.underWay_transmit fun hd d' hd' => (hpick d d' hd hd').trans hlink

theorem Orderly.send (h : s.Orderly) (hlink : d.link? = some l) : (s.transmit l d).Orderly := by
  refine h.transmit fun l' hl' => ?_
  rw [hlink] at hl'
  exact (Option.some.inj hl').symm

/-- What one item leaves alone, a list of them leaves alone. -/
theorem foldl_keeps {α γ : Type} {step : Simulation → α → Simulation} (field : Simulation → γ)
    (h : ∀ s a, field (step s a) = field s) (s : Simulation) (items : List α) :
    field (items.foldl step s) = field s := by
  induction items generalizing s with
  | nil => rfl
  | cons a items ih => exact (ih (step s a)).trans (h s a)

/-! ## What the coordinator sends -/

/-- The simulation after an action that no check objects to. -/
def carryOut (s : Simulation) : Action → Simulation
  | .send c message =>
    (s.noteMessage (federateOn c) message).sendToFederate (federateOn c) message
  | _ => s

theorem Checked.andThen_eq_none {first : Checked} {next : Simulation → Checked} :
    first.andThen next = (s', none) ↔ ∃ s, first = (s, none) ∧ next s = (s', none) := by
  obtain ⟨s, violation⟩ := first
  cases violation <;> simp [Checked.andThen]

theorem perform_eq_none {a : Action} (h : s.perform a = (s', none)) : s' = s.carryOut a := by
  cases a with
  | send c message =>
    unfold perform at h
    dsimp only at h
    split at h
    · cases h
    · exact (Prod.mk.inj h).1.symm
  | closeConnection | sendClockSync | federationFinished => exact (Prod.mk.inj h).1.symm

theorem performAll_eq_none {actions : List Action} (h : s.performAll actions = (s', none)) :
    s' = actions.foldl carryOut s := by
  induction actions generalizing s with
  | nil => exact (Prod.mk.inj h).1.symm
  | cons a actions ih =>
    obtain ⟨middle, hmiddle, hrest⟩ := Checked.andThen_eq_none.1 h
    rw [ih hrest, perform_eq_none hmiddle, List.foldl_cons]

/-- The same is under way in both simulations. -/
structure SameTraffic (s s' : Simulation) : Prop where
  queue : s'.queue = s.queue
  network : s'.network = s.network

theorem SameTraffic.orderly (h : SameTraffic s s') (hs : s.Orderly) : s'.Orderly where
  sorted := h.queue ▸ hs.sorted
  le_lastArrival := h.queue ▸ h.network ▸ hs.le_lastArrival

theorem SameTraffic.underWay_eq (h : SameTraffic s s') (pick : Delivery → Option β) :
    s'.underWay pick = s.underWay pick := by
  unfold underWay
  rw [h.queue]

theorem sameTraffic_noteMessage (s : Simulation) (f : FederateId) (message : Message) :
    SameTraffic s (s.noteMessage f message) := by
  cases message <;> exact ⟨rfl, rfl⟩

theorem Orderly.carryOut (h : s.Orderly) (a : Action) : (s.carryOut a).Orderly := by
  cases a with
  | send c message => exact ((sameTraffic_noteMessage s _ message).orderly h).send rfl
  | closeConnection | sendClockSync | federationFinished => exact h

theorem Orderly.underWay_carryOut (h : s.Orderly) (hpick : OnOneLink pick) (a : Action) :
    (s.carryOut a).underWay pick = s.underWay pick ++ ((delivery? a).bind pick).toList := by
  cases a with
  | send c message =>
    have hnoted := sameTraffic_noteMessage s (federateOn c) message
    refine ((hnoted.orderly h).underWay_send rfl hpick).trans ?_
    rw [hnoted.underWay_eq]
    rfl
  | closeConnection | sendClockSync | federationFinished => exact (List.append_nil _).symm

theorem events_carryOut_perm (s : Simulation) (a : Action) :
    (s.carryOut a).events.Perm s.events := by
  cases a with
  | send c message =>
    refine (underWay_transmit_perm _ _ _ Delivery.event?).trans (.of_eq ?_)
    exact (sameTraffic_noteMessage s _ message).underWay_eq Delivery.event?
  | closeConnection | sendClockSync | federationFinished => exact .refl _

theorem coordinator_carryOut (s : Simulation) (a : Action) :
    (s.carryOut a).coordinator = s.coordinator := by
  cases a with
  | send c message => cases message <;> rfl
  | closeConnection | sendClockSync | federationFinished => rfl

theorem federates_carryOut (s : Simulation) (a : Action) :
    (s.carryOut a).federates = s.federates := by
  cases a with
  | send c message => cases message <;> rfl
  | closeConnection | sendClockSync | federationFinished => rfl

theorem proposals_carryOut (s : Simulation) (a : Action) :
    (s.carryOut a).proposals = s.proposals := by
  cases a with
  | send c message => cases message <;> rfl
  | closeConnection | sendClockSync | federationFinished => rfl

section Actions

variable (actions : List Action)

theorem Orderly.foldl_carryOut (h : s.Orderly) :
    (actions.foldl Simulation.carryOut s).Orderly := by
  induction actions generalizing s with
  | nil => exact h
  | cons a actions ih => exact ih (h.carryOut a)

theorem Orderly.underWay_foldl_carryOut (h : s.Orderly) (hpick : OnOneLink pick) :
    (actions.foldl Simulation.carryOut s).underWay pick =
      s.underWay pick ++ actions.filterMap fun a => (delivery? a).bind pick := by
  induction actions generalizing s with
  | nil => exact (List.append_nil _).symm
  | cons a actions ih =>
    rw [List.foldl_cons, ih (h.carryOut a), h.underWay_carryOut hpick, List.append_assoc,
      List.filterMap_cons]
    cases (delivery? a).bind pick <;> rfl

theorem events_foldl_carryOut_perm (s : Simulation) :
    (actions.foldl carryOut s).events.Perm s.events := by
  induction actions generalizing s with
  | nil => exact .refl _
  | cons a actions ih => exact (ih (s.carryOut a)).trans (events_carryOut_perm s a)

/-- Nothing that the coordinator sends is of another kind. -/
theorem filterMap_delivery?_eq_nil (hpick : ∀ f message, pick (.toFederate f message) = none) :
    (actions.filterMap fun a => (delivery? a).bind pick) = [] := by
  refine List.filterMap_eq_nil_iff.2 fun a _ => ?_
  cases a with
  | send c message => exact hpick _ message
  | closeConnection | sendClockSync | federationFinished => rfl

end Actions

/-! ## What a federate sends -/

/-- The simulation with what `f` is about to send remembered, if it proposes a stop. -/
def noteOutput (s : Simulation) (f : FederateId) : Output → Simulation
  | .send message => s.noteProposal f message
  | .disconnect => s

theorem emit_eq (s : Simulation) (f : FederateId) (output : Output) :
    s.emit f output = (s.noteOutput f output).sendToCoordinator f (output.event f) := by
  cases output <;> rfl

theorem sameTraffic_noteOutput (s : Simulation) (f : FederateId) (output : Output) :
    SameTraffic s (s.noteOutput f output) := by
  cases output with
  | send message => cases message <;> exact ⟨rfl, rfl⟩
  | disconnect => exact ⟨rfl, rfl⟩

theorem Orderly.emit (h : s.Orderly) (f : FederateId) (output : Output) :
    (s.emit f output).Orderly := by
  rw [emit_eq]
  exact ((sameTraffic_noteOutput s f output).orderly h).send
    (link?_toCoordinator (output.connection?_event f))

theorem Orderly.underWay_emit (h : s.Orderly) (hpick : OnOneLink pick) (f : FederateId)
    (output : Output) : (s.emit f output).underWay pick =
      s.underWay pick ++ (pick (.toCoordinator (output.event f))).toList := by
  have hnoted := sameTraffic_noteOutput s f output
  rw [emit_eq, ← hnoted.underWay_eq]
  exact (hnoted.orderly h).underWay_send (link?_toCoordinator (output.connection?_event f)) hpick

theorem events_emit_perm (s : Simulation) (f : FederateId) (output : Output) :
    (s.emit f output).events.Perm (output.event f :: s.events) := by
  rw [emit_eq]
  refine (underWay_transmit_perm _ _ _ Delivery.event?).trans (.of_eq ?_)
  rw [(sameTraffic_noteOutput s f output).underWay_eq]
  rfl

theorem proposals_emit (s : Simulation) (f : FederateId) (output : Output) :
    (s.emit f output).proposals = s.proposals ++ proposalsIn f [output.event f] := by
  cases output with
  | send message => cases message <;> first | rfl | exact (List.append_nil _).symm
  | disconnect => exact (List.append_nil _).symm

section Outputs

variable (outputs : List Output)

theorem Orderly.foldl_emit (h : s.Orderly) (f : FederateId) :
    (outputs.foldl (·.emit f ·) s).Orderly := by
  induction outputs generalizing s with
  | nil => exact h
  | cons output outputs ih => exact ih (h.emit f output)

theorem Orderly.underWay_foldl_emit (h : s.Orderly) (hpick : OnOneLink pick) (f : FederateId) :
    (outputs.foldl (·.emit f ·) s).underWay pick =
      s.underWay pick ++
        outputs.filterMap fun output => pick (.toCoordinator (output.event f)) := by
  induction outputs generalizing s with
  | nil => exact (List.append_nil _).symm
  | cons output outputs ih =>
    rw [List.foldl_cons, ih (h.emit f output), h.underWay_emit hpick, List.append_assoc,
      List.filterMap_cons]
    cases pick (.toCoordinator (output.event f)) <;> rfl

theorem events_foldl_emit_perm (s : Simulation) (f : FederateId) :
    (outputs.foldl (·.emit f ·) s).events.Perm (outputs.map (·.event f) ++ s.events) := by
  induction outputs generalizing s with
  | nil => exact .refl _
  | cons output outputs ih =>
    refine (ih (s.emit f output)).trans ?_
    rw [List.map_cons, List.cons_append]
    exact ((events_emit_perm s f output).append_left _).trans List.perm_middle

theorem proposals_foldl_emit (s : Simulation) (f : FederateId) :
    (outputs.foldl (·.emit f ·) s).proposals =
      s.proposals ++ proposalsIn f (outputs.map (·.event f)) := by
  induction outputs generalizing s with
  | nil => exact (List.append_nil _).symm
  | cons output outputs ih =>
    rw [List.foldl_cons, ih, proposals_emit, List.append_assoc, List.map_cons, proposalsIn,
      proposalsIn, ← List.filterMap_append]
    rfl

end Outputs

/-! ## Turns -/

/-- The last grants after actions that no check objects to. -/
def noteGrant (granted : Roster Tag) : Action → Roster Tag
  | .send c (.timeAdvanceGrant tag) => granted.set (federateOn c) tag
  | _ => granted

theorem granted_foldl_carryOut (s : Simulation) (actions : List Action) :
    (actions.foldl carryOut s).granted = actions.foldl noteGrant s.granted := by
  induction actions generalizing s with
  | nil => rfl
  | cons a actions ih =>
    have hfirst : (s.carryOut a).granted = noteGrant s.granted a := by
      cases a with
      | send c message => cases message <;> rfl
      | closeConnection | sendClockSync | federationFinished => rfl
    rw [List.foldl_cons, List.foldl_cons, ih, hfirst]

/-- The federate `f` starts: it opens its connection and joins. -/
structure Started (s s' : Simulation) (f : FederateId) : Prop where
  starting : s.starting = f :: s'.starting
  events : s'.events.Perm (.connectionOpened (connectionOf f) (peerOf f) ::
    .messageReceived (connectionOf f) (.join f s.federationId) :: s.events)
  sentBy : ∀ g, s'.sentBy g = s.sentBy g ++ if g = f
    then [.connectionOpened (connectionOf f) (peerOf f),
      .messageReceived (connectionOf f) (.join f s.federationId)] else []
  sentTo : ∀ g, s'.sentTo g = s.sentTo g
  coordinator : s'.coordinator = s.coordinator
  federates : s'.federates = s.federates
  granted : s'.granted = s.granted
  proposals : s'.proposals = s.proposals

/-- The coordinator answers an event. -/
structure Answered (s s' : Simulation) (now : Duration) (e : Event) : Prop where
  starting : s'.starting = s.starting
  events : s.events.Perm (e :: s'.events)
  sentBy : ∀ g, s.sentBy g =
    (if e.connection? = some (connectionOf g) then [e] else []) ++ s'.sentBy g
  sentTo : ∀ g, s'.sentTo g =
    s.sentTo g ++ messagesFor g ((s.coordinator.setTime now).handle e).2
  coordinator : s'.coordinator = ((s.coordinator.setTime now).handle e).1
  federates : s'.federates = s.federates
  granted : s'.granted = ((s.coordinator.setTime now).handle e).2.foldl noteGrant s.granted
  proposals : s'.proposals = s.proposals

/-- The federate `f` answers a message. -/
structure Heard (s s' : Simulation) (f : FederateId) (federate : ScriptedFederate)
    (message : Message) (now : Int64) : Prop where
  get?_eq : s.federates.get? f = some federate
  starting : s'.starting = s.starting
  events : s'.events.Perm ((federate.onMessage message now).2.map (·.event f) ++ s.events)
  sentBy : ∀ g, s'.sentBy g = s.sentBy g ++
    if g = f then (federate.onMessage message now).2.map (·.event f) else []
  sentTo : ∀ g, s.sentTo g = (if g = f then [message] else []) ++ s'.sentTo g
  coordinator : s'.coordinator = s.coordinator
  federates : s'.federates = s.federates.set f (federate.onMessage message now).1
  granted : s'.granted = s.granted
  proposals : s'.proposals =
    s.proposals ++ proposalsIn f ((federate.onMessage message now).2.map (·.event f))

/-- There is nobody who could answer a message. -/
structure Missed (s s' : Simulation) (f : FederateId) (message : Message) : Prop where
  get?_eq : s.federates.get? f = none
  starting : s'.starting = s.starting
  events : s'.events = s.events
  sentBy : ∀ g, s'.sentBy g = s.sentBy g
  sentTo : ∀ g, s.sentTo g = (if g = f then [message] else []) ++ s'.sentTo g
  coordinator : s'.coordinator = s.coordinator
  federates : s'.federates = s.federates
  granted : s'.granted = s.granted
  proposals : s'.proposals = s.proposals

/-- What a delivery comes to. -/
inductive Turn (s s' : Simulation) : Prop
  | started {f : FederateId} (h : Started s s' f)
  | answered {now : Duration} {e : Event} (h : Answered s s' now e)
  | heard {f : FederateId} {federate : ScriptedFederate} {message : Message} {now : Int64}
      (h : Heard s s' f federate message now)
  | missed {f : FederateId} {message : Message} (h : Missed s s' f message)

theorem Turn.size_federates_eq (h : Turn s s') : s'.federates.size = s.federates.size := by
  cases h with
  | started h | answered h | missed h => rw [h.federates]
  | heard h => rw [h.federates, Roster.size_set]

section Own

variable {f : FederateId} {federate : ScriptedFederate} {message : Message} {now : Int64}

theorem Heard.get?_self (h : Heard s s' f federate message now) :
    s'.federates.get? f = some (federate.onMessage message now).1 := by
  rw [h.federates]
  exact Roster.get?_set_self (Roster.index_lt_of_get? h.get?_eq)

theorem Heard.sentTo_self (h : Heard s s' f federate message now) :
    s.sentTo f = message :: s'.sentTo f := by
  rw [h.sentTo, if_pos rfl]
  rfl

theorem Heard.sentBy_self (h : Heard s s' f federate message now) :
    s'.sentBy f = s.sentBy f ++ (federate.onMessage message now).2.map (·.event f) := by
  rw [h.sentBy, if_pos rfl]

theorem Answered.sentBy_self {now : Duration} {e : Event} (h : Answered s s' now e)
    (he : e.connection? = some (connectionOf f)) : s.sentBy f = e :: s'.sentBy f := by
  rw [h.sentBy, he, if_pos rfl]
  rfl

end Own

/-- The simulation in which the first delivery has left the queue. -/
def taken (s : Simulation) (entry : Scheduled Delivery) (rest : List (Scheduled Delivery)) :
    Simulation :=
  { s with
    queue := { s.queue with entries := rest }
    now := entry.time
    delivered := s.delivered + 1 }

variable {entry : Scheduled Delivery} {rest : List (Scheduled Delivery)}

theorem step?_eq_some {checked : Checked} (h : s.step? = some checked) : ∃ entry rest,
    s.queue.entries = entry :: rest ∧ checked = (s.taken entry rest).deliver entry.event := by
  unfold step? Queue.pop? at h
  cases hentries : s.queue.entries with
  | nil =>
    rw [hentries] at h
    cases h
  | cons entry rest =>
    rw [hentries] at h
    exact ⟨entry, rest, rfl, (Option.some.inj h).symm⟩

theorem step?_eq_none_iff : s.step? = none ↔ s.queue.entries = [] := by
  unfold step? Queue.pop?
  cases s.queue.entries <;> simp

theorem Orderly.taken (h : s.Orderly) (hentries : s.queue.entries = entry :: rest) :
    (s.taken entry rest).Orderly where
  sorted := (List.pairwise_cons.1 (hentries ▸ h.sorted)).2
  le_lastArrival d hd := h.le_lastArrival d (hentries ▸ List.mem_cons_of_mem entry hd)

theorem underWay_eq_taken (hentries : s.queue.entries = entry :: rest) (hevent : entry.event = d)
    (pick : Delivery → Option β) :
    s.underWay pick = (pick d).toList ++ (s.taken entry rest).underWay pick := by
  unfold underWay Simulation.taken
  rw [hentries, List.filterMap_cons, hevent]
  cases pick d <;> rfl

/-- The simulation in which the coordinator has answered an event, and has not acted on it. -/
def answering (s : Simulation) (e : Event) : Simulation :=
  { s.countReceived e with coordinator := ((s.coordinator.setTime s.now).handle e).1 }

theorem deliverToCoordinator_eq (s : Simulation) (e : Event) : s.deliverToCoordinator e =
    ((s.answering e).performAll ((s.coordinator.setTime s.now).handle e).2).andThen
      fun s => (s, s.recordsFault?) := by
  cases e <;> rfl

theorem sameTraffic_answering (s : Simulation) (e : Event) : SameTraffic s (s.answering e) := by
  cases e <;> exact ⟨rfl, rfl⟩

/-- The simulation after `f` has answered a message. -/
def hearing (s : Simulation) (f : FederateId) (federate : ScriptedFederate) (message : Message) :
    Simulation :=
  (federate.onMessage message s.clockReading).2.foldl (·.emit f ·)
    { s with federates := s.federates.set f (federate.onMessage message s.clockReading).1 }

theorem deliverToFederate_eq {federate : ScriptedFederate} (hf : s.federates.get? f = some federate)
    (message : Message) : s.deliverToFederate f message =
      (s.hearing f federate message, (s.hearing f federate message).startFault?) := by
  unfold deliverToFederate
  rw [hf]
  rfl

theorem deliverToFederate_eq_of_none (hf : s.federates.get? f = none) (message : Message) :
    s.deliverToFederate f message = (s, none) := by
  unfold deliverToFederate
  rw [hf]

theorem noteOutput_keeps (s : Simulation) (f : FederateId) (output : Output) :
    (s.noteOutput f output).coordinator = s.coordinator ∧
      (s.noteOutput f output).federates = s.federates ∧
        (s.noteOutput f output).granted = s.granted := by
  cases output with
  | send message => cases message <;> exact ⟨rfl, rfl, rfl⟩
  | disconnect => exact ⟨rfl, rfl, rfl⟩

/-- What a federate says changes nothing but what is under way. -/
theorem emit_keeps (s : Simulation) (f : FederateId) (output : Output) :
    (s.emit f output).coordinator = s.coordinator ∧
      (s.emit f output).federates = s.federates ∧ (s.emit f output).granted = s.granted := by
  rw [emit_eq]
  exact noteOutput_keeps s f output

section Turn

variable (h : s.Orderly) (hentries : s.queue.entries = entry :: rest)
include h hentries

theorem Orderly.turn_start (hevent : entry.event = .start f) :
    ((s.taken entry rest).startFederate f).Orderly ∧
      Started s ((s.taken entry rest).startFederate f) f := by
  have htaken := h.taken hentries
  have hbefore {β : Type} (pick : Delivery → Option β) := underWay_eq_taken hentries hevent pick
  let opened : Event := .connectionOpened (connectionOf f) (peerOf f)
  let join : Event := .messageReceived (connectionOf f) (.join f s.federationId)
  have hopened := link?_toCoordinator (e := opened) (f := f) rfl
  have hjoin := link?_toCoordinator (e := join) (f := f) rfl
  have hmiddle := htaken.send hopened
  have hafter {β : Type} {pick : Delivery → Option β} (hpick : OnOneLink pick) :
      ((s.taken entry rest).startFederate f).underWay pick =
        (s.taken entry rest).underWay pick ++ ((pick (.toCoordinator opened)).toList ++
          (pick (.toCoordinator join)).toList) := by
    rw [← List.append_assoc, ← htaken.underWay_send hopened hpick]
    exact hmiddle.underWay_send hjoin hpick
  refine ⟨hmiddle.send hjoin, ?_, ?_, fun g => ?_, fun g => ?_, rfl, rfl, rfl, rfl⟩
  · refine (hbefore Delivery.start?).trans (congrArg (f :: ·) ?_)
    exact ((hafter onOneLink_start?).trans (List.append_nil _)).symm
  · refine (underWay_transmit_perm _ _ _ Delivery.event?).trans ?_
    refine (List.Perm.append_left _ (underWay_transmit_perm _ _ _ Delivery.event?)).trans ?_
    rw [events, hbefore]
    exact .swap opened join _
  · rw [sentBy, sentBy, hafter (onOneLink_eventOf? g), hbefore,
      eventOf?_toCoordinator (e := opened) (f := f) rfl,
      eventOf?_toCoordinator (e := join) (f := f) rfl]
    split <;> rfl
  · rw [sentTo, sentTo, hafter (onOneLink_messageTo? g), hbefore]
    exact List.append_nil _

/-- Whatever the checks have to say, this is what it comes to if all is done that the coordinator
wants done. -/
theorem Orderly.answered (hevent : entry.event = .toCoordinator e) :
    let s' := ((s.coordinator.setTime entry.time).handle e).2.foldl Simulation.carryOut
      ((s.taken entry rest).answering e)
    s'.Orderly ∧ Answered s s' entry.time e := by
  intro s'
  have hbefore {β : Type} (pick : Delivery → Option β) := underWay_eq_taken hentries hevent pick
  have htraffic := sameTraffic_answering (s.taken entry rest) e
  have hanswering := htraffic.orderly (h.taken hentries)
  have hafter {β : Type} {pick : Delivery → Option β} (hpick : OnOneLink pick) :
      s'.underWay pick = _ :=
    hanswering.underWay_foldl_carryOut ((s.coordinator.setTime entry.time).handle e).2 hpick
  refine ⟨hanswering.foldl_carryOut _, ?_, ?_, fun g => ?_, fun g => ?_, ?_, ?_, ?_, ?_⟩
  · rw [starting, starting, hafter onOneLink_start?, htraffic.underWay_eq, hbefore,
      filterMap_delivery?_eq_nil _ fun _ _ => rfl, List.append_nil]
    rfl
  · refine .trans (.of_eq ?_) ((events_foldl_carryOut_perm _ _).symm.cons e)
    rw [events, events, htraffic.underWay_eq, hbefore]
    rfl
  · rw [sentBy, sentBy, hafter (onOneLink_eventOf? g), htraffic.underWay_eq, hbefore,
      filterMap_delivery?_eq_nil _ fun _ _ => rfl, List.append_nil]
    congr 1
    show (if e.connection? = some (connectionOf g) then some e else none).toList = _
    split <;> rfl
  · rw [sentTo, sentTo, hafter (onOneLink_messageTo? g), htraffic.underWay_eq, hbefore]
    rfl
  · exact foldl_keeps coordinator coordinator_carryOut _ _
  · refine (foldl_keeps federates federates_carryOut _ _).trans ?_
    cases e <;> rfl
  · refine (granted_foldl_carryOut _ _).trans ?_
    cases e <;> rfl
  · refine (foldl_keeps proposals proposals_carryOut _ _).trans ?_
    cases e <;> rfl

theorem Orderly.turn_event (hevent : entry.event = .toCoordinator e)
    (hstep : (s.taken entry rest).deliverToCoordinator e = (s', none)) :
    s'.Orderly ∧ Answered s s' entry.time e := by
  rw [deliverToCoordinator_eq] at hstep
  obtain ⟨last, hlast, hfault⟩ := Checked.andThen_eq_none.1 hstep
  obtain rfl : last = s' := (Prod.mk.inj hfault).1
  obtain rfl := performAll_eq_none hlast
  exact h.answered hentries hevent

omit h in
theorem turn_missed {message : Message} (hevent : entry.event = .toFederate f message)
    (hf : s.federates.get? f = none) : Missed s (s.taken entry rest) f message := by
  have hbefore {β : Type} (pick : Delivery → Option β) := underWay_eq_taken hentries hevent pick
  refine ⟨hf, (hbefore Delivery.start?).symm, (hbefore Delivery.event?).symm,
    fun g => (hbefore (Delivery.eventOf? g)).symm, fun g => ?_, rfl, rfl, rfl, rfl⟩
  rw [sentTo, sentTo, hbefore]
  by_cases hg : g = f
  · simp [Delivery.messageTo?, hg]
  · simp [Delivery.messageTo?, hg, Ne.symm hg]

theorem Orderly.turn_message {message : Message} {federate : ScriptedFederate}
    (hevent : entry.event = .toFederate f message) (hf : s.federates.get? f = some federate) :
    ((s.taken entry rest).hearing f federate message).Orderly ∧
      Heard s ((s.taken entry rest).hearing f federate message) f federate message
        (s.taken entry rest).clockReading := by
  have hbefore {β : Type} (pick : Delivery → Option β) := underWay_eq_taken hentries hevent pick
  have htaken := h.taken hentries
  unfold hearing
  generalize hanswer : federate.onMessage message (s.taken entry rest).clockReading = answer
  generalize htold : ({ s.taken entry rest with
    federates := (s.taken entry rest).federates.set f answer.1 } : Simulation) = told
  have htraffic : SameTraffic (s.taken entry rest) told := by
    rw [← htold]
    exact ⟨rfl, rfl⟩
  have horderly := htraffic.orderly htaken
  have hafter {β : Type} {pick : Delivery → Option β} (hpick : OnOneLink pick) :=
    horderly.underWay_foldl_emit answer.2 hpick f
  have hnone : (answer.2.filterMap fun output =>
      Delivery.start? (.toCoordinator (output.event f))) = [] :=
    List.filterMap_eq_nil_iff.2 fun _ _ => rfl
  refine ⟨horderly.foldl_emit _ f, hf, ?_, ?_, fun g => ?_, fun g => ?_, ?_, ?_, ?_, ?_⟩
  · rw [starting, starting, hafter onOneLink_start?, htraffic.underWay_eq, hbefore, hnone]
    exact List.append_nil _
  · refine (events_foldl_emit_perm _ _ f).trans (.of_eq ?_)
    rw [events, events, htraffic.underWay_eq, hbefore, hanswer]
    rfl
  · rw [sentBy, sentBy, hafter (onOneLink_eventOf? g), htraffic.underWay_eq, hbefore, hanswer]
    congr 1
    simp only [eventOf?_toCoordinator (Output.connection?_event f _)]
    by_cases hg : g = f
    · simp [hg]
    · simp [hg]
  · rw [sentTo, sentTo, hafter (onOneLink_messageTo? g), htraffic.underWay_eq, hbefore]
    by_cases hg : g = f
    · simp [Delivery.messageTo?, hg]
    · simp [Delivery.messageTo?, hg, Ne.symm hg]
  · rw [foldl_keeps coordinator (fun s output => (emit_keeps s f output).1), ← htold]
    rfl
  · rw [foldl_keeps federates (fun s output => (emit_keeps s f output).2.1), ← htold,
      hanswer]
    rfl
  · rw [foldl_keeps granted (fun s output => (emit_keeps s f output).2.2), ← htold]
    rfl
  · rw [proposals_foldl_emit, ← htold, hanswer]
    rfl

end Turn

/-- Nothing else comes of a step that no check objects to. -/
theorem Orderly.turn (h : s.Orderly) (hstep : s.step? = some (s', none)) :
    s'.Orderly ∧ Turn s s' := by
  obtain ⟨entry, rest, hentries, hdeliver⟩ := step?_eq_some hstep
  cases hevent : entry.event with
  | start f =>
    rw [hevent] at hdeliver
    obtain rfl := (Prod.mk.inj hdeliver).1
    exact (h.turn_start hentries hevent).imp_right .started
  | toCoordinator e =>
    rw [hevent] at hdeliver
    exact (h.turn_event hentries hevent hdeliver.symm).imp_right .answered
  | toFederate f message =>
    rw [hevent] at hdeliver
    cases hf : s.federates.get? f with
    | none =>
      rw [deliver, deliverToFederate_eq_of_none (s := s.taken entry rest) hf] at hdeliver
      obtain rfl := (Prod.mk.inj hdeliver).1
      exact ⟨h.taken hentries, .missed (turn_missed hentries hevent hf)⟩
    | some federate =>
      rw [deliver, deliverToFederate_eq (s := s.taken entry rest) hf] at hdeliver
      obtain rfl := (Prod.mk.inj hdeliver).1
      exact (h.turn_message hentries hevent hf).imp_right .heard

/-! ## Runs -/

/-- What steps preserve holds of the last state of a run, and what is known of a violation that a
step can meet is known of the violation that ends it. -/
theorem runWithin_induct {I : Simulation → Prop} {P : Violation → Prop}
    (hkeep : ∀ s s', I s → s.step? = some (s', none) → I s')
    (hfault : ∀ s s' violation, I s → s.step? = some (s', some violation) → P violation)
    (hs : I s) (fuel : Nat) :
    (∀ violation, (s.runWithin fuel).2 = some violation → P violation) ∧
      ((s.runWithin fuel).2 = none → I (s.runWithin fuel).1) := by
  induction fuel generalizing s with
  | zero => exact ⟨nofun, fun _ => hs⟩
  | succ fuel ih =>
    rw [runWithin]
    cases hstep : s.step? with
    | none => exact ⟨nofun, fun _ => hs⟩
    | some checked =>
      obtain ⟨s', violation⟩ := checked
      cases violation with
      | none => exact ih (hkeep s s' hs hstep)
      | some violation =>
        refine ⟨fun violation' heq => ?_, nofun⟩
        obtain rfl := Option.some.inj heq
        exact hfault s s' violation hs hstep

end Simulation

end FederatedTime
