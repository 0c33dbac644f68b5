import FederatedTime.Proofs.Coordinator.Bearing
import FederatedTime.Proofs.Coordinator.Proposals

/-!
# What an event does to the start negotiation

An event leaves the negotiation alone, or a federate is told what has been fixed before, or the
negotiation notes what the event brings to it and looks whether a time is due. `StartStep` lists
these, and `startStep` is that nothing else happens: a time may become due by a proposal or by a
departure, and the registry that the negotiation looks at has the members of the one that the event
leaves behind.
-/

namespace FederatedTime

theorem Action.SendsOnly.timestamp_not_mem {P : Message → Prop} {actions : List Action}
    (h : Action.SendsOnly P actions) (hP : ∀ time, ¬ P (.timestamp time)) (c : ConnectionId)
    (time : Int64) : .send c (.timestamp time) ∉ actions :=
  fun hmem => hP time (h c _ hmem)

namespace Coordinator

/-- What an event does to the start negotiation. -/
inductive StartStep (s : Coordinator) (m : Moment) : Prop
  /-- The event is not about starting; if somebody leaves, then the time has been fixed before. -/
  | kept (hproposal : m.startProposal? s = none) (hstart : m.after.start = s.start)
      (hleft : s.startTime = none → ∀ f, m.after.registry.hasLeft f → s.registry.hasLeft f)
      (hsent : ∀ c time, .send c (.timestamp time) ∉ m.actions)
  /-- The proposer is told the time that has been fixed before. -/
  | late {proposal : StartProposal} {time : Int64}
      (hproposal : m.startProposal? s = some proposal) (htime : s.startTime = some time)
      (hstart : m.after.start = s.start)
      (hsent : ∀ c time', .send c (.timestamp time') ∈ m.actions ↔
        c = proposal.connection ∧ time' = time)
  /-- The negotiation takes stock, and everybody is told if a time is due. -/
  | weighed (hopen : s.startTime = none)
      (hstart : m.after.start =
        ((s.start.noteAll (m.startProposal? s).toList).tryFix m.after.registry).1)
      (hsent : ∀ c time, .send c (.timestamp time) ∈ m.actions ↔
        (s.start.noteAll (m.startProposal? s).toList).due? m.after.registry = some time ∧
          c ∈ m.after.registry.connections)

variable {s : Coordinator} {e : Event} {m : Moment} {f : FederateId} {c : ConnectionId}
variable {record : FederateRecord} {proposal : StartProposal} {time : Int64}

/-! ## Proposals -/

theorem Joined.startProposal?_eq (h : s.Joined c f record) (time : Int64) :
    (s.moment (.messageReceived c (.timestamp time))).startProposal? s = some ⟨f, c, time⟩ := by
  have hfederate : s.federateOf c = some f := federateOf_eq_some_iff.2 h.session
  simp [Moment.startProposal?, moment, Event.connection?, Event.startTime?, hfederate]

/-- Who proposes is joined on the connection that the proposal comes from. -/
theorem Consistent.exists_of_startProposal? (hs : s.Consistent)
    (h : m.startProposal? s = some proposal) :
    m.event = .messageReceived proposal.connection (.timestamp proposal.time) ∧
      ∃ record, s.Joined proposal.connection proposal.federate record := by
  obtain ⟨c, hc, h⟩ := Option.bind_eq_some_iff.1 h
  obtain ⟨f, hf, h⟩ := Option.bind_eq_some_iff.1 h
  obtain ⟨time, htime, h⟩ := Option.bind_eq_some_iff.1 h
  obtain rfl := Option.some.inj h
  refine ⟨?_, hs.exists_joined_of_federateOf hf⟩
  unfold Event.startTime? at htime
  split at htime
  · rename_i hevent
    rw [hevent] at hc ⊢
    rw [Option.some.inj hc, Option.some.inj htime]
  · cases htime

/-! ## Sending the time -/

/-- Everybody who is joined is told the time that is due. -/
theorem timestamp_mem_settleStart_tryFix_iff {n : StartNegotiation} {r : Registry} :
    .send c (.timestamp time) ∈ (s.settleStart f (n.tryFix r)).2 ↔
      n.due? r = some time ∧ c ∈ s.registry.connections := by
  rw [StartNegotiation.tryFix_eq]
  cases n.due? r with
  | none => simp [settleStart, idle]
  | some due =>
    simp only [settleStart, broadcast, List.mem_map, Action.send.injEq, Message.timestamp.injEq,
      Option.some.injEq]
    constructor
    · rintro ⟨c', hc', rfl, rfl⟩
      exact ⟨rfl, hc'⟩
    · rintro ⟨rfl, hc⟩
      exact ⟨c, hc, rfl, rfl⟩

/-- A proposal is answered at once, or goes into the negotiation. -/
theorem Joined.startStep_of_proposal (h : s.Joined c f record) (time : Int64) :
    StartStep s (s.moment (.messageReceived c (.timestamp time))) := by
  have hproposal := h.startProposal?_eq time
  have hhandle : s.handle (.messageReceived c (.timestamp time)) = s.onTimestamp f time :=
    h.handle_message _
  unfold onTimestamp StartNegotiation.propose at hhandle
  cases hstartTime : s.start.startTime with
  | some fixed =>
    rw [hstartTime] at hhandle
    have hafter : (s.moment (.messageReceived c (.timestamp time))).after = s :=
      congrArg Prod.fst hhandle
    have hactions : (s.moment (.messageReceived c (.timestamp time))).actions =
        s.sendTo f (.timestamp fixed) := congrArg Prod.snd hhandle
    refine .late hproposal hstartTime (by rw [hafter]) fun c' time' => ?_
    rw [hactions, sendTo, h.connection?_eq]
    simp
  | none =>
    rw [hstartTime] at hhandle
    have hafter : (s.moment (.messageReceived c (.timestamp time))).after =
        { s with start := ((s.start.note f time).tryFix s.registry).1 } :=
      (congrArg Prod.fst hhandle).trans (settleStart_fst s f _)
    refine .weighed hstartTime ?_ fun c' time' => ?_
    · rw [hproposal, hafter]
      rfl
    · rw [hproposal, hafter]
      have hactions : (s.moment (.messageReceived c (.timestamp time))).actions =
          (s.settleStart f ((s.start.note f time).tryFix s.registry)).2 :=
        congrArg Prod.snd hhandle
      rw [hactions]
      exact timestamp_mem_settleStart_tryFix_iff

/-! ## Departures -/

/-- In a departure nothing but the start negotiation tells anybody a time. -/
theorem timestamp_mem_depart_iff (h : s.registry.get? f = some record) {c' : ConnectionId} :
    .send c' (.timestamp time) ∈ (s.depart f c).2 ↔ .send c' (.timestamp time) ∈
      (Coordinator.settleStart
        { s.forget f c with stop := (s.stop.departure f record.completed).1 } f
        (s.start.departure (s.forget f c).registry)).2 := by
  have hstop := (sendsOnly_settleStop (s.forget f c)
    (s.stop.departure f record.completed)).timestamp_not_mem (by simp) c' time
  unfold depart
  rw [h]
  simp only [Step.andThen_snd, List.mem_append]
  rw [settleStop_fst]
  have hadvance (s : Coordinator) (seeds : List FederateId) :=
    (sendsOnly_advance s seeds).timestamp_not_mem (by simp) c' time
  have hfinish (s : Coordinator) :=
    (offline_finishIfDone s).silent.timestamp_not_mem (fun _ => id) c' time
  simp only [hadvance, hfinish, or_false]
  constructor
  · rintro (hclose | hstop' | hstart)
    · simp at hclose
    · exact absurd hstop' hstop
    · exact hstart
  · intro hstart
    exact Or.inr (Or.inr hstart)

/-- A departure is no news once the time is fixed; before that the negotiation takes stock. -/
theorem Joined.startStep_of_departure (h : s.Joined c f record)
    (hsize : s.registry.size ≤ Topology.maxFederates) (hproposal : m.startProposal? s = none)
    (hafter : m.after = (s.depart f c).1)
    (hactions : ∀ c' time, .send c' (.timestamp time) ∈ m.actions ↔
      .send c' (.timestamp time) ∈ (s.depart f c).2) : StartStep s m := by
  have hleft : (s.forget f c).registry.size ≤ Topology.maxFederates :=
    le_of_eq_of_le (Registry.size_modify s.registry f _) hsize
  have hstart : m.after.start = (s.start.departure (s.forget f c).registry).1 := by
    rw [hafter, depart_fst h.get?_eq]
  have hregistry : ∃ stop seeds,
      m.after.registry = ((s.forget f c).registry.sweep stop seeds).1 := by
    rw [hafter, depart_fst h.get?_eq]
    exact ⟨_, _, rfl⟩
  obtain ⟨stop, seeds, hregistry⟩ := hregistry
  have hsent (c' : ConnectionId) (time : Int64) :=
    (hactions c' time).trans (timestamp_mem_depart_iff h.get?_eq)
  unfold StartNegotiation.departure at hstart hsent
  cases hopen : s.start.startTime with
  | some fixed =>
    simp only [hopen] at hstart hsent
    refine .kept hproposal hstart (fun hnone => ?_) fun c' time hmem => ?_
    · rw [startTime, hopen] at hnone
      cases hnone
    · simpa [settleStart, idle] using (hsent c' time).1 hmem
  | none =>
    simp only [hopen] at hstart hsent
    have hdue : s.start.due? m.after.registry = s.start.due? (s.forget f c).registry := by
      rw [hregistry]
      exact s.start.due?_sweep hleft stop seeds
    have hnone : s.start.noteAll (m.startProposal? s).toList = s.start := by
      rw [hproposal]
      rfl
    refine .weighed hopen ?_ fun c' time => ?_
    · rw [hnone, hstart, StartNegotiation.tryFix_eq, StartNegotiation.tryFix_eq, hdue]
    · have hmembers := Registry.sameMembers_sweep (s.forget f c).registry stop seeds
      rw [hnone, hsent, timestamp_mem_settleStart_tryFix_iff, hdue, hregistry,
        hmembers.connections hleft]

/-! ## Every event -/

/-- The negotiation is kept where nobody proposes or leaves. -/
theorem KeepsStart.startStep (h : KeepsStart s (m.after, m.actions))
    (hproposal : m.startProposal? s = none) : StartStep s m :=
  .kept hproposal h.start_eq (fun _ => h.hasLeft)
    (h.sends.timestamp_not_mem fun time => by simp [Message.isAboutStart])

/-- An event brings a proposal, ends a session, or says nothing about starting. -/
theorem startStep (hs : s.Consistent) (hsize : s.registry.size ≤ Topology.maxFederates)
    (e : Event) : StartStep s (s.moment e) := by
  cases hproposal : (s.moment e).startProposal? s with
  | some proposal =>
    obtain ⟨he, record, h⟩ := hs.exists_of_startProposal? hproposal
    have he : e = .messageReceived proposal.connection (.timestamp proposal.time) := he
    rw [he]
    exact h.startStep_of_proposal proposal.time
  | none =>
    have hbearing := (handle_transition hs e).bearing
    unfold moment at hproposal ⊢
    generalize s.handle e = out at hbearing hproposal ⊢
    cases hbearing with
    | plain hstop hstart => exact hstart.startStep hproposal
    | contributed h he hstart => exact hstart.startStep hproposal
    | proposed h he hstop =>
      have hsome := h.startProposal?_eq
      rw [he] at hproposal
      cases (hsome _).symm.trans hproposal
    | left h hplain =>
      refine h.startStep_of_departure hsize hproposal rfl fun c' time => ?_
      have htimestamp (time : Int64) : ¬ (Message.timestamp time).isPlain := Bool.false_ne_true
      exact List.mem_append.trans (or_iff_right (hplain.timestamp_not_mem htimestamp c' time))

end Coordinator

end FederatedTime
