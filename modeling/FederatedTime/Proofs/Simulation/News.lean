import FederatedTime.Proofs.Coordinator.Bystander
import FederatedTime.Proofs.Coordinator.Ending
import FederatedTime.Proofs.Simulation.Sound

/-!
# What one federate is told, and what it reports

While nobody asks for a stop, a federate that is joined hears news only, and the last grant in its
record is the last of those under way to it (`Sound.lastGranted_eq`). Its reports in turn are all
that changes what the coordinator knows of its progress (`Joined.exists_of_report`), until it leaves
(`Joined.exists_of_departure`).
-/

namespace FederatedTime

namespace Message

/-- Whether a message is neither a verdict nor about stopping. -/
def isNews (message : Message) : Bool := !message.isVerdict && !message.isAboutStop

/-- Whether a message says how far a federate is, or proposes a start time. -/
def isReport : Message → Bool
  | timestamp _ | nextEventTag _ | logicalTagComplete _ => true
  | _ => false

end Message

/-! ## Progress -/

/-- What a federate has completed, and what it has announced to come next. -/
structure Progress where
  completed : Tag
  next : Tag
deriving DecidableEq

namespace Progress

/-- The progress that the coordinator notes when it receives a message. -/
def note (p : Progress) : Message → Progress
  | .nextEventTag tag => if tag < p.completed then p else { p with next := tag }
  | .logicalTagComplete tag => if tag ≤ p.completed then p else ⟨tag, max p.next tag⟩
  | _ => p

/-- A federate completes tags from the one that it has announced on, and announces another. -/
theorem foldl_note {p : Progress} {tags : List Tag} {next : Tag}
    (h : (p.completed :: tags ++ [next]).Pairwise (· < ·)) :
    (tags.map Message.logicalTagComplete ++ [Message.nextEventTag next]).foldl note p =
      ⟨tags.getLast?.getD p.completed, next⟩ := by
  induction tags generalizing p with
  | nil =>
    have hlt : p.completed < next := (List.pairwise_cons.1 h).1 next List.mem_cons_self
    exact if_neg (not_lt.2 (le_of_lt hlt))
  | cons tag tags ih =>
    obtain ⟨hcompleted, hrest⟩ := List.pairwise_cons.1 h
    have hlt : p.completed < tag := hcompleted tag List.mem_cons_self
    have hnote : p.note (.logicalTagComplete tag) = ⟨tag, max p.next tag⟩ :=
      if_neg (not_le.2 hlt)
    rw [List.map_cons, List.cons_append, List.foldl_cons, hnote, ih hrest, List.getLast?_cons]
    rfl

end Progress

/-- How far a federate is, for all that its record shows. -/
def FederateRecord.progress (record : FederateRecord) : Progress :=
  ⟨record.completed, record.nextEvent⟩

namespace FederateRecord.Spared

variable {a b : FederateRecord}

theorem progress_eq (h : a.Spared b) : b.progress = a.progress := by
  rw [h.eq]
  rfl

theorem connection_eq (h : a.Spared b) : b.connection = a.connection := by
  rw [h.eq]

theorem isConnected_eq (h : a.Spared b) : b.isConnected = a.isConnected := by
  unfold isConnected
  rcases h.state with heq | ⟨ha, hb⟩ | ⟨ha, hb⟩
  · rw [heq]
  · rw [ha, hb]
    rfl
  · rw [ha, hb]
    rfl

theorem resigned (h : a.Spared b) (ha : a.state = .resigned) : b.state = .resigned := by
  rcases h.state with heq | ⟨heq, -⟩ | ⟨heq, -⟩
  · rw [heq, ha]
  · rw [ha] at heq
    cases heq
  · rw [ha] at heq
    cases heq

end FederateRecord.Spared

namespace Coordinator

variable {s : Coordinator} {c : ConnectionId} {f : FederateId} {record : FederateRecord}
variable {message : Message}

theorem exists_of_advance {change : FederateRecord → FederateRecord}
    (hf : s.registry.get? f = some record) (seeds : List FederateId)
    (hchange : (change record).isConnected = record.isConnected) :
    ∃ record', ({ s with registry := s.registry.modify f change }.advance seeds).1.registry.get? f =
        some record' ∧ record'.progress = (change record).progress ∧
      record'.isConnected = record.isConnected := by
  have hmiddle : (s.registry.modify f change).get? f = some (change record) := by
    rw [Registry.get?_modify, if_pos rfl, hf]
    rfl
  obtain ⟨record', hrecord', hspared, -⟩ :=
    Registry.exists_spared_sweep s.stopTag seeds hmiddle
  exact ⟨record', hrecord', hspared.progress_eq, hspared.isConnected_eq.trans hchange⟩

/-- A report changes the progress of the federate that it comes from. -/
theorem Joined.exists_of_report (h : s.Joined c f record) (hmessage : message.isReport = true) :
    (s.handle (.messageReceived c message)).1.sessions = s.sessions ∧
      ∃ record', (s.handle (.messageReceived c message)).1.registry.get? f = some record' ∧
        record'.progress = record.progress.note message ∧
        record'.isConnected = record.isConnected := by
  rw [h.handle_message]
  cases message with
  | timestamp proposal =>
    have hstep : s.onMessage f (.timestamp proposal) = s.onTimestamp f proposal := rfl
    rw [hstep, onTimestamp, settleStart_fst]
    exact ⟨rfl, record, h.get?_eq, rfl, rfl⟩
  | nextEventTag tag =>
    unfold onMessage onNextEvent
    dsimp only
    rw [h.get?_eq]
    dsimp only
    by_cases htag : tag < record.completed
    · have hnote : record.progress.note (.nextEventTag tag) = record.progress := if_pos htag
      rw [if_pos htag, hnote]
      exact ⟨rfl, record, h.get?_eq, rfl, rfl⟩
    · have hnote : record.progress.note (.nextEventTag tag) =
          ({ record with nextEvent := tag } : FederateRecord).progress := if_neg htag
      rw [if_neg htag, hnote]
      exact ⟨rfl, exists_of_advance h.get?_eq [f] rfl⟩
  | logicalTagComplete tag =>
    unfold onMessage onCompleted
    dsimp only
    rw [h.get?_eq]
    dsimp only
    by_cases htag : tag ≤ record.completed
    · have hnote : record.progress.note (.logicalTagComplete tag) = record.progress :=
        if_pos htag
      rw [if_pos htag, hnote]
      exact ⟨rfl, record, h.get?_eq, rfl, rfl⟩
    · have hnote : record.progress.note (.logicalTagComplete tag) =
          (completing tag record).progress := if_neg htag
      rw [if_neg htag, hnote]
      exact ⟨rfl, exists_of_advance h.get?_eq _ rfl⟩
  | _ => cases hmessage

/-- A federate that resigns, or whose connection is lost, has left for good. -/
theorem Joined.exists_of_departure (h : s.Joined c f record) {e : Event}
    (he : e = .connectionLost c ∨ e = .messageReceived c .resign) :
    (s.handle e).1.sessions.get? c = none ∧
      ∃ record', (s.handle e).1.registry.get? f = some record' ∧ record'.state = .resigned := by
  rw [h.handle_departure he, depart_fst h.get?_eq]
  refine ⟨Sessions.get?_remove_self _ c, ?_⟩
  have hmiddle : (s.forget f c).registry.get? f = some record.leave := by
    refine (Registry.get?_modify _ _ _ _).trans ?_
    rw [if_pos rfl, h.get?_eq]
    rfl
  obtain ⟨record', hrecord', hspared, -⟩ := Registry.exists_spared_sweep
    (s.stop.departure f record.completed).1.stopTag (s.registry.topology.downstream f) hmiddle
  exact ⟨record', hrecord', hspared.resigned rfl⟩

end Coordinator

namespace Simulation

/-! ## Last grants -/

/-- The last grant of a federate after a message. -/
def heed (granted : Tag) : Message → Tag
  | .timeAdvanceGrant tag => tag
  | _ => granted

/-- The last grant of a federate after several messages. -/
def lastGrant (granted : Tag) (messages : List Message) : Tag := messages.foldl heed granted

theorem lastGrant_append (granted : Tag) (first second : List Message) :
    lastGrant granted (first ++ second) = lastGrant (lastGrant granted first) second :=
  List.foldl_append

/-- Where all grants are the same, the last one is that. -/
theorem lastGrant_eq {granted last : Tag} {messages : List Message}
    (hall : ∀ tag, .timeAdvanceGrant tag ∈ messages → tag = last)
    (h : granted = last ∨ ∃ tag, .timeAdvanceGrant tag ∈ messages) :
    lastGrant granted messages = last := by
  induction messages generalizing granted with
  | nil =>
    rcases h with h | ⟨tag, htag⟩
    · exact h
    · cases htag
  | cons message messages ih =>
    refine ih (fun tag htag => hall tag (List.mem_cons_of_mem message htag)) ?_
    rcases h with rfl | ⟨tag, htag⟩
    · left
      cases message with
      | timeAdvanceGrant tag => exact hall tag List.mem_cons_self
      | _ => rfl
    · rcases List.mem_cons.1 htag with rfl | htag
      · exact Or.inl (hall tag List.mem_cons_self)
      · exact Or.inr ⟨tag, htag⟩

variable {t : Topology} {history : List Moment} {s : Simulation} {e : Event} {f : FederateId}
variable {p : Topology.Plan} {record record' : FederateRecord} {message : Message}

namespace Sound

section Event

variable (hbuild : p.build = .ok t) (h : Sound t history s) (he : e ∈ s.events) (now : Duration)
include hbuild h he

/-- Whatever is sent goes to a federate on its own connection. -/
theorem connection_of_sent {c : ConnectionId}
    (hsent : .send c message ∈ ((s.coordinator.setTime now).handle e).2) :
    c = connectionOf (federateOn c) := by
  have seated {f : FederateId} (hc : c = connectionOf f) : c = connectionOf (federateOn c) := by
    rw [hc, federateOn_connectionOf]
  have hmem : Action.send c message ∈ Action.on c ((s.coordinator.setTime now).handle e).2 :=
    Action.mem_on.2 ⟨hsent, rfl⟩
  have hexchange := h.run.exchange hbuild now e c
  generalize hbefore : s.coordinator.sessions.get? c = before at hexchange
  generalize hafter : ((s.coordinator.setTime now).handle e).1.sessions.get? c = after at hexchange
  generalize Action.on c ((s.coordinator.setTime now).handle e).2 = actions at hexchange hmem
  cases hexchange with
  | @told _ messages _ hjoined =>
    obtain ⟨message', hmessage', -⟩ := List.mem_map.1 hmem
    obtain ⟨g, hg⟩ := hjoined (List.ne_nil_of_mem hmessage')
    exact seated (h.seated c g (hbefore.trans hg))
  | admitted peer port g => exact seated (h.seated_event he now c g hafter)
  | refused peer reason hc =>
    obtain ⟨g, hown⟩ := h.own e he
    exact seated (Option.some.inj (hc.symm.trans hown.connection?))
  | expelled g => exact seated (h.seated c g hbefore)
  | opened | ended | closed => simp at hmem

theorem mem_messagesFor_iff :
    message ∈ messagesFor f ((s.coordinator.setTime now).handle e).2 ↔
      .send (connectionOf f) message ∈ ((s.coordinator.setTime now).handle e).2 := by
  rw [mem_messagesFor]
  constructor
  · rintro ⟨c, rfl, hsent⟩
    rw [← h.connection_of_sent hbuild he now hsent]
    exact hsent
  · exact fun hsent => ⟨connectionOf f, federateOn_connectionOf f, hsent⟩

/-- A federate that keeps its session hears news, if it is joined, and nothing otherwise. -/
theorem news (hidle : s.coordinator.stop = .idle) (hmute : e.stopTime? = none)
    (hsession : ((s.coordinator.setTime now).handle e).1.sessions.get? (connectionOf f) =
      s.coordinator.sessions.get? (connectionOf f))
    (hown : e.connection? = some (connectionOf f) →
      ∃ g, s.coordinator.sessions.get? (connectionOf f) = some (.joined g)) :
    (∀ message ∈ messagesFor f ((s.coordinator.setTime now).handle e).2,
      message.isNews = true) ∧
      (messagesFor f ((s.coordinator.setTime now).handle e).2 ≠ [] →
        ∃ g, s.coordinator.sessions.get? (connectionOf f) = some (.joined g)) := by
  have hexchange := h.run.exchange hbuild now e (connectionOf f)
  rw [hsession] at hexchange
  obtain ⟨messages, hmessages, hverdict, hjoined⟩ := hexchange.exists_told hown
  have hmem {message : Message}
      (hmessage : message ∈ messagesFor f ((s.coordinator.setTime now).handle e).2) :
      message ∈ messages := by
    have hsent := (h.mem_messagesFor_iff hbuild he now).1 hmessage
    have hon := Action.mem_on.2 ⟨hsent, rfl⟩
    rw [hmessages] at hon
    obtain ⟨message', hmessage', heq⟩ := List.mem_map.1 hon
    rwa [← (Action.send.inj heq).2]
  have htransition := Coordinator.handle_transition (Run.consistent_setTime h.run.consistent now) e
  refine ⟨fun message hmessage => ?_, fun hne => ?_⟩
  · have hstop := (htransition.idle hidle hmute).2 _ _
      ((h.mem_messagesFor_iff hbuild he now).1 hmessage)
    have hverdict' := hverdict message (hmem hmessage)
    unfold Message.isNews
    rw [hstop, Bool.and_true, Bool.not_eq_true']
    exact eq_false_of_ne_true hverdict'
  · obtain ⟨message, hmessage⟩ := List.exists_mem_of_ne_nil _ hne
    exact hjoined (List.ne_nil_of_mem (hmem hmessage))

/-- The last grant in a record is the last of those that have been sent. -/
theorem lastGranted_eq (hf : s.coordinator.registry.get? f = some record)
    (hf' : ((s.coordinator.setTime now).handle e).1.registry.get? f = some record')
    (hjoin : record'.isConnected → record.isConnected) :
    record'.lastGranted =
      lastGrant record.lastGranted (messagesFor f ((s.coordinator.setTime now).handle e).2) := by
  have hs' := (h.run_event he now).consistent
  obtain ⟨gs, hupdate, hgrants⟩ := h.run.update now e
  have hmem (tag : Tag) :
      .timeAdvanceGrant tag ∈ messagesFor f ((s.coordinator.setTime now).handle e).2 ↔
        ⟨f, tag⟩ ∈ gs := by
    rw [h.mem_messagesFor_iff hbuild he now, ← Action.mem_grants, hgrants, Coordinator.mem_sent]
    constructor
    · rintro ⟨g, hg, hconnection⟩
      have hc := h.seated_event he now _ g ((hs'.joined_iff _ g).2 hconnection)
      rwa [connectionOf_injective hc]
    · intro hg
      refine ⟨f, hg, ?_⟩
      have hconnected := (hupdate.lastGranted_of_grant hg hf').1
      obtain ⟨c, hc⟩ := Option.isSome_iff_exists.1 ((hs'.connected_iff f record' hf').1 hconnected)
      have hconnection : ((s.coordinator.setTime now).handle e).1.registry.connection? f =
          some c := by
        rw [Registry.connection?, hf']
        exact hc
      rw [hconnection, h.seated_event he now c f ((hs'.joined_iff c f).2 hconnection)]
  refine (lastGrant_eq (fun tag htag => ?_) ?_).symm
  · exact (hupdate.lastGranted_of_grant ((hmem tag).1 htag) hf').2.symm
  · by_cases hgrant : ∃ tag, ⟨f, tag⟩ ∈ gs
    · obtain ⟨tag, hg⟩ := hgrant
      exact Or.inr ⟨tag, (hmem tag).2 hg⟩
    · exact Or.inl (hupdate.lastGranted_of_not_grant hf hf' hjoin (not_exists.1 hgrant)).symm

end Event

end Sound

end Simulation

end FederatedTime
