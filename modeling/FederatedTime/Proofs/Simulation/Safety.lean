import FederatedTime.Proofs.Simulation.Sound
import FederatedTime.Random.ChaCha

/-!
# The checks on grants, records and start times

In a simulation that is `Sound`, a check can only object to the announcement of a stop
(`Sound.stopFault_of_fault`). So whatever the scripts say, in whatever order messages arrive, no
grant goes back or too far, no federate has completed more than its next event, and all federates
are told the same start time (`run_safe`).
-/

namespace FederatedTime

namespace Simulation

variable {t : Topology} {history : List Moment} {s s' u : Simulation} {e : Event} {f : FederateId}
variable {violation : Violation} {actions first later : List Action} {c : ConnectionId}
variable {tag : Tag} {message : Message}

/-! ## Which check it was -/

/-- A check objects to one of the messages, when all before it have been sent. -/
theorem performAll_eq_some (h : s.performAll actions = (s', some violation)) :
    ∃ first c message later, actions = first ++ .send c message :: later ∧
      (first.foldl carryOut s).messageFault? (federateOn c) message = some violation := by
  induction actions generalizing s with
  | nil => cases h
  | cons a actions ih =>
    rw [performAll] at h
    cases hperform : s.perform a with
    | mk middle fault =>
      rw [hperform] at h
      cases fault with
      | none =>
        obtain ⟨first, c, message, later, rfl, hfault⟩ := ih h
        rw [perform_eq_none hperform] at hfault
        exact ⟨a :: first, c, message, later, rfl, hfault⟩
      | some violation' =>
        obtain rfl : violation' = violation := Option.some.inj (Prod.mk.inj h).2
        cases a with
        | send c message =>
          unfold perform at hperform
          dsimp only at hperform
          split at hperform
          · rename_i fault hfault
            obtain rfl := Option.some.inj (Prod.mk.inj hperform).2
            exact ⟨[], c, message, actions, rfl, hfault⟩
          · cases hperform
        | closeConnection | sendClockSync | federationFinished => cases hperform

theorem startFault?_eq_none {time : Option Int64}
    (h : ∀ federate ∈ s.federates.toList, ∀ told, federate.startTime = some told →
      time = some told) : s.startFault? = none := by
  unfold startFault?
  cases htold : s.federates.toList.filterMap (·.startTime) with
  | nil => rfl
  | cons first others =>
    have hall (told : Int64) (hmem : told ∈ first :: others) : time = some told := by
      rw [← htold] at hmem
      obtain ⟨federate, hfederate, hstart⟩ := List.mem_filterMap.1 hmem
      exact h federate hfederate told hstart
    have hfirst := hall first List.mem_cons_self
    refine Option.map_eq_none_iff.2 (List.find?_eq_none.2 fun told hmem => ?_)
    have hsame := hfirst.symm.trans (hall told (List.mem_cons_of_mem first hmem))
    simpa using (Option.some.inj hsame).symm

theorem recordsFault?_eq_none (hsize : s.coordinator.registry.size ≤ Topology.maxFederates)
    (h : s.coordinator.registry.Ordered) : s.recordsFault? = none := by
  refine List.findSome?_eq_none_iff.2 fun record hrecord => ?_
  rw [Roster.toList_eq_filterMap hsize] at hrecord
  obtain ⟨f, -, hf⟩ := List.mem_filterMap.1 hrecord
  have hle : ¬ record.nextEvent < record.completed := not_lt.2 (h f record hf)
  unfold recordFault?
  rw [decide_eq_false hle, Bool.and_false]
  rfl

namespace Sound

/-! ## Grants -/

/-- A grant that comes behind the first actions of an answer is beyond all that have been sent to
its federate before. -/
theorem le_of_grant (h : Sound t history s) (he : e ∈ s.events) (now : Duration)
    (hactions : ((s.coordinator.setTime now).handle e).2 =
      first ++ .send c (.timeAdvanceGrant tag) :: later) :
    (first.foldl noteGrant s.granted).getD (federateOn c) .never ≤ tag := by
  have hmem : .send c (.timeAdvanceGrant tag) ∈ ((s.coordinator.setTime now).handle e).2 := by
    rw [hactions]
    exact List.mem_append_right _ List.mem_cons_self
  have hc := (h.exists_bound_of_grant he now hmem).1
  have hincreasing := ((h.run_event he now).rising c).increasing
  have hgrants : Action.grantsTo c ((s.coordinator.setTime now).moment e).actions =
      Action.grantsTo c first ++ tag :: Action.grantsTo c later := by
    show Action.grantsTo c ((s.coordinator.setTime now).handle e).2 = _
    rw [hactions]
    simp [Action.grantsTo, Action.grants, Action.grant?]
  rw [grantsOn_append_singleton, hgrants, ← List.append_assoc] at hincreasing
  have hbefore : ∀ tag' ∈ grantsOn c history ++ Action.grantsTo c first, tag' < tag :=
    fun tag' htag' => (List.pairwise_append.1 hincreasing).2.2 tag' htag' tag List.mem_cons_self
  refine getD_foldl_noteGrant (P := (· ≤ tag)) (Tag.never_le tag) ?_ fun c' tag' hc' htag' => ?_
  · rcases h.granted (federateOn c) with hnever | hgranted
    · rw [hnever]
      exact Tag.never_le tag
    · rw [← hc] at hgranted
      exact le_of_lt (hbefore _ (List.mem_append_left _ hgranted))
  · have hmem' : .send c' (.timeAdvanceGrant tag') ∈
        ((s.coordinator.setTime now).handle e).2 := by
      rw [hactions]
      exact List.mem_append_left _ htag'
    have hcc : c' = c := by rw [(h.exists_bound_of_grant he now hmem').1, hc', ← hc]
    rw [hcc] at htag'
    have hsent := Action.mem_grantsTo.2 (Action.mem_grants.2 htag')
    exact le_of_lt (hbefore _ (List.mem_append_right _ hsent))

/-- No check objects to a grant. -/
theorem grantFault?_eq_none (h : Sound t history s) (he : e ∈ s.events) (now : Duration)
    (hactions : ((s.coordinator.setTime now).handle e).2 =
      first ++ .send c (.timeAdvanceGrant tag) :: later)
    (hcoordinator : u.coordinator = ((s.coordinator.setTime now).handle e).1)
    (hgranted : u.granted = first.foldl noteGrant s.granted) :
    u.grantFault? (federateOn c) tag = none := by
  have hmem : .send c (.timeAdvanceGrant tag) ∈ ((s.coordinator.setTime now).handle e).2 := by
    rw [hactions]
    exact List.mem_append_right _ List.mem_cons_self
  obtain ⟨-, b, hbound, htag⟩ := h.exists_bound_of_grant he now hmem
  have hback : ¬ tag < u.granted.getD (federateOn c) .never := by
    rw [hgranted]
    exact not_lt.2 (h.le_of_grant he now hactions)
  rw [← hcoordinator] at hbound htag
  have hle : tag ≤ b := htag ▸ b.clamp_le_left _
  unfold grantFault?
  dsimp only
  rw [if_neg hback, hbound]
  cases hstop : u.coordinator.stopTag with
  | none => simp [hle]
  | some stop =>
    have hstop' : ¬ stop < tag := not_lt.2 (htag ▸ Tag.clamp_le_of_mem hstop)
    simp [hle, hstop']

/-! ## Deliveries -/

section Answer

variable {last : Simulation} (h : Sound t history s) (he : e ∈ s.events) (now : Duration)
variable (hcoordinator : u.coordinator = ((s.coordinator.setTime now).handle e).1)
include h he hcoordinator

/-- If a check objects to what the coordinator sends, it is to the announcement of a stop. -/
theorem stopFault_of_performAll (hgranted : u.granted = s.granted)
    (hproposals : u.proposals = s.proposals)
    (hperform : u.performAll ((s.coordinator.setTime now).handle e).2 = (last, some violation)) :
    ∃ c time, .send c (.stopGranted time) ∈ ((s.coordinator.setTime now).handle e).2 ∧
      s.stopFault? (.ofTime time) = some violation := by
  obtain ⟨first, c, message, later, hactions, hfault⟩ := performAll_eq_some hperform
  cases message with
  | timeAdvanceGrant tag =>
    have hnone := h.grantFault?_eq_none he now hactions
      ((foldl_keeps coordinator coordinator_carryOut u first).trans hcoordinator)
      ((granted_foldl_carryOut u first).trans (congrArg (first.foldl noteGrant ·) hgranted))
    cases hnone.symm.trans hfault
  | stopGranted time =>
    refine ⟨c, time, ?_, ?_⟩
    · rw [hactions]
      exact List.mem_append_right _ List.mem_cons_self
    · rw [← hfault]
      unfold messageFault? stopFault?
      rw [foldl_keeps proposals proposals_carryOut, hproposals]
  | _ => cases hfault

/-- When the coordinator has answered, no check objects to its records. -/
theorem recordsFault?_of_performAll {p : Topology.Plan} (hbuild : p.build = .ok t)
    (hperform : u.performAll ((s.coordinator.setTime now).handle e).2 = (last, none)) :
    last.recordsFault? = none := by
  have hrun := h.run_event he now
  have hlast : last.coordinator = ((s.coordinator.setTime now).handle e).1 := by
    rw [performAll_eq_none hperform, foldl_keeps coordinator coordinator_carryOut, hcoordinator]
  exact recordsFault?_eq_none (hlast ▸ hrun.size_le hbuild) (hlast ▸ hrun.ordered)

end Answer

/-- If a check objects to a delivery, the coordinator announces a stop then, and it is to that. -/
theorem exists_entry_of_fault {p : Topology.Plan} (hbuild : p.build = .ok t)
    (h : Sound t history s) (hstep : s.step? = some (s', some violation)) :
    ∃ entry rest e c time, s.queue.entries = entry :: rest ∧ entry.event = .toCoordinator e ∧
      .send c (.stopGranted time) ∈ ((s.coordinator.setTime entry.time).handle e).2 ∧
        s.stopFault? (.ofTime time) = some violation := by
  obtain ⟨entry, rest, hentries, hdeliver⟩ := step?_eq_some hstep
  cases hevent : entry.event with
  | start f =>
    rw [hevent] at hdeliver
    cases (Prod.mk.inj hdeliver).2
  | toFederate f message =>
    rw [hevent] at hdeliver
    cases hf : s.federates.get? f with
    | none =>
      rw [deliver, deliverToFederate_eq_of_none (s := s.taken entry rest) hf] at hdeliver
      cases (Prod.mk.inj hdeliver).2
    | some federate =>
      rw [deliver, deliverToFederate_eq (s := s.taken entry rest) hf] at hdeliver
      obtain ⟨ho, hturn⟩ := h.orderly.turn_message hentries hevent hf
      have hfault := startFault?_eq_none (h.heard_message ho hturn).heard
      rw [hfault] at hdeliver
      cases (Prod.mk.inj hdeliver).2
  | toCoordinator e =>
    rw [hevent] at hdeliver
    have he : e ∈ s.events :=
      mem_underWay.2 ⟨entry, hentries ▸ List.mem_cons_self, by rw [hevent]; rfl⟩
    have hcoordinator : ((s.taken entry rest).answering e).coordinator =
        ((s.coordinator.setTime entry.time).handle e).1 := rfl
    have hgranted : ((s.taken entry rest).answering e).granted = s.granted := by
      cases e <;> rfl
    have hproposals : ((s.taken entry rest).answering e).proposals = s.proposals := by
      cases e <;> rfl
    rw [deliver, deliverToCoordinator_eq] at hdeliver
    cases hperform : ((s.taken entry rest).answering e).performAll
        (((s.taken entry rest).coordinator.setTime (s.taken entry rest).now).handle e).2 with
    | mk last fault =>
      rw [hperform] at hdeliver
      cases fault with
      | none =>
        have hfault := h.recordsFault?_of_performAll he entry.time hcoordinator hbuild hperform
        rw [Checked.andThen, hfault] at hdeliver
        cases (Prod.mk.inj hdeliver).2
      | some fault =>
        obtain rfl := Option.some.inj (Prod.mk.inj hdeliver).2
        obtain ⟨c, time, hsent, hfault⟩ :=
          h.stopFault_of_performAll he entry.time hcoordinator hgranted hproposals hperform
        exact ⟨entry, rest, e, c, time, hentries, hevent, hsent, hfault⟩

/-- If a check objects to a delivery, it is to the announcement of a stop. -/
theorem stopFault_of_fault {p : Topology.Plan} (hbuild : p.build = .ok t) (h : Sound t history s)
    (hstep : s.step? = some (s', some violation)) :
    ∃ now, ∃ e ∈ s.events, ∃ c time,
      .send c (.stopGranted time) ∈ ((s.coordinator.setTime now).handle e).2 ∧
        s.stopFault? (.ofTime time) = some violation := by
  obtain ⟨entry, rest, e, c, time, hentries, hevent, hsent, hfault⟩ :=
    h.exists_entry_of_fault hbuild hstep
  have he : e ∈ s.events :=
    mem_underWay.2 ⟨entry, hentries ▸ List.mem_cons_self, by rw [hevent]; rfl⟩
  exact ⟨entry.time, e, he, c, time, hsent, hfault⟩

end Sound

/-- Whatever ends a simulation of an accepted federation is a stop below a proposal, or that the
federation stalls: all other checks pass at every delivery, for as long as it runs. -/
theorem run_safe {p : Topology.Plan} (hbuild : p.build = .ok t) {scripts : List Script}
    (hscripts : scripts.length ≤ t.size) (latency : Latency) (drawing : Drawing)
    (random : RandomStream) (link : UInt64 → RandomStream) :
    (∀ fuel violation,
      ((ofScripts t scripts latency drawing random link).runWithin fuel).2 = some violation →
        ∃ f proposal stop, violation = .stopBelowProposal f proposal stop) ∧
    ∀ violation, (ofScripts t scripts latency drawing random link).run.2 = some violation →
      (∃ f proposal stop, violation = .stopBelowProposal f proposal stop) ∨
        ∃ time federates, violation = .stalled time federates := by
  have hwithin (fuel : Nat) : ∀ violation,
      ((ofScripts t scripts latency drawing random link).runWithin fuel).2 = some violation →
        ∃ f proposal stop, violation = .stopBelowProposal f proposal stop := by
    refine (runWithin_induct (I := fun s => ∃ history, Sound t history s) ?_ ?_
      ⟨[], sound_ofScripts hbuild hscripts latency drawing random link⟩ fuel).1
    · rintro s s' ⟨history, h⟩ hstep
      obtain ⟨-, later, h'⟩ := h.turn hbuild hstep
      exact ⟨_, h'⟩
    · rintro s s' violation ⟨history, h⟩ hstep
      obtain ⟨now, e, -, c, time, -, hfault⟩ := h.stopFault_of_fault hbuild hstep
      obtain ⟨⟨f, proposal⟩, -, rfl⟩ := Option.map_eq_some_iff.1 hfault
      exact ⟨f, proposal, _, rfl⟩
  refine ⟨hwithin, fun violation hrun => ?_⟩
  unfold run at hrun
  cases hlast : (ofScripts t scripts latency drawing random link).runWithin
      (ofScripts t scripts latency drawing random link).potential with
  | mk last fault =>
    rw [hlast] at hrun
    cases fault with
    | none =>
      have hstall : last.stallFault? = some violation := hrun
      unfold stallFault? at hstall
      split at hstall
      · cases hstall
      · exact Or.inr ⟨_, _, (Option.some.inj hstall).symm⟩
    | some fault =>
      obtain rfl : fault = violation := Option.some.inj hrun
      exact Or.inl (hwithin _ fault (congrArg Prod.snd hlast))

end Simulation

namespace Relay

/-- A script for the source alone. -/
def loneScript : List Simulation.Script := [{ tags := [.ofTime 10, .ofTime 20] }]

/-- Nobody plays the sink, which the federation waits for in vain. -/
def abandoned : Simulation :=
  .ofScripts plan.graph loneScript {} (RandomStream.below .double) (ChaCha.stream 7) ChaCha.stream

end Relay

namespace Simulation

theorem run_safe_relay : ∃ violation, Relay.abandoned.run.2 = some violation ∧
    ((∃ f proposal stop, violation = .stopBelowProposal f proposal stop) ∨
      ∃ time federates, violation = .stalled time federates) := by
  have hfault : Relay.abandoned.run.2.isSome := by decide +kernel
  obtain ⟨violation, hviolation⟩ := Option.isSome_iff_exists.1 hfault
  have hscripts : Relay.loneScript.length ≤ Relay.plan.graph.size := by decide
  have hsafe := run_safe Relay.build_eq hscripts {} (RandomStream.below .double)
    (ChaCha.stream 7) ChaCha.stream
  exact ⟨violation, hviolation, hsafe.2 violation hviolation⟩

end Simulation

end FederatedTime
