import FederatedTime.Proofs.Coordinator.Bearing
import FederatedTime.Proofs.Coordinator.History
import FederatedTime.Proofs.Coordinator.Negotiation
import FederatedTime.Proofs.Coordinator.Notices

/-!
# What an event does to the stop negotiation

An event brings at most one contribution to the negotiation: a request, or the answer of the
federate that the event comes from. `Verdict` is what the negotiation makes of it, beside what the
history shows of the same event, and `Adopts` that the step goes by it. `exists_verdict` is that
every event has a verdict that is gone by.
-/

namespace FederatedTime

open FederatedTime.Action (notices SendsOnly Silent)

/-! ## Verdicts -/

namespace Coordinator

/-- What the negotiation makes of an event, beside what a history shows of it. -/
inductive Verdict (s : Coordinator) (m : Moment) : StopNegotiation × StopOutcome → Prop
  /-- The event is not about stopping. -/
  | silent (hrequest : m.request? s = none) (hanswer : ∀ g, m.answer? s g = none) :
    Verdict s m (s.stop, .ignored)
  /-- The federate has contributed before. -/
  | passedOver {f : FederateId} (hcounted : s.isCounted f = true)
      (hother : ∀ g, g ≠ f → m.answer? s g = none) : Verdict s m (s.stop, .ignored)
  | requested {f : FederateId} {time : Int64} (hrequest : m.request? s = some (f, time))
      (hanswer : m.answer? s f = some (.named time))
      (hother : ∀ g, g ≠ f → m.answer? s g = none) :
    Verdict s m (s.stop.request f (.ofTime time) s.registry.connected)
  | answered {f : FederateId} {answer : StopAnswer} (hrequest : m.request? s = none)
      (hanswer : m.answer? s f = some answer) (hother : ∀ g, g ≠ f → m.answer? s g = none) :
    Verdict s m (s.stop.fold f answer.tag)

/-- The step goes by a result of the negotiation, and marks nobody but whose contribution counts. -/
structure Adopts (s : Coordinator) (m : Moment) (result : StopNegotiation × StopOutcome) :
    Prop where
  stop_eq : m.after.stop = result.1
  notices_eq : notices m.actions = result.2.notices m.after.registry
  isCounted : ∀ g, m.after.isCounted g = true →
    s.isCounted g = true ∨ result.2 ≠ .ignored ∧ m.answer? s g ≠ none

end Coordinator

namespace Coordinator

variable {s : Coordinator} {e : Event} {m : Moment} {f : FederateId} {c : ConnectionId}
variable {record : FederateRecord}

/-! ## Events that are not about stopping -/

/-- The event says nothing about stopping, or nobody who is joined says it. -/
def IsMute (s : Coordinator) (e : Event) : Prop := e.stopTime? = none ∨ s.origin? e = none

theorem IsMute.request?_eq (h : s.IsMute m.event) : m.request? s = none := by
  unfold Moment.request?
  rcases h with h | h
  · have hrequest : m.event.stopRequest? = none := by
      unfold Event.stopTime? at h
      unfold Event.stopRequest?
      split <;> simp_all
    rw [hrequest]
    cases s.origin? m.event <;> rfl
  · rw [h]
    rfl

theorem IsMute.named?_eq (h : s.IsMute m.event) (g : FederateId) : m.named? s g = none := by
  unfold Moment.named?
  rcases h with h | h
  · rw [h, ite_self]
  · rw [h]
    exact if_neg (Option.some_ne_none g).symm

theorem left?_of_isConnected {g : FederateId}
    (h : s.registry.isConnected g = true → m.after.registry.isConnected g = true) :
    m.left? s g = none := by
  unfold Moment.left?
  refine if_neg fun hleft => ?_
  simp only [Bool.and_eq_true, Bool.not_eq_true'] at hleft
  rw [h hleft.1] at hleft
  cases hleft.2

theorem KeepsStop.exists_verdict (h : KeepsStop s (m.after, m.actions)) (he : s.IsMute m.event) :
    ∃ result, Verdict s m result ∧ Adopts s m result := by
  have hnotices : notices m.actions = [] :=
    h.sends.notices_eq_nil fun time => by simp [Message.isAboutStop]
  refine ⟨(s.stop, .ignored), .silent he.request?_eq fun g => ?_, h.stop_eq, hnotices,
    fun g hg => Or.inl (h.isCounted g hg)⟩
  unfold Moment.answer?
  rw [he.named?_eq, left?_of_isConnected (h.isConnected g)]
  rfl

/-! ## Departures -/

theorem notices_depart (hsize : s.registry.size ≤ Topology.maxFederates)
    (h : s.registry.get? f = some record) : notices (s.depart f c).2 =
      (s.stop.departure f record.completed).2.notices (s.depart f c).1.registry := by
  have hmembers : (s.registry.modify f (·.leave)).SameMembers (s.depart f c).1.registry := by
    rw [depart_fst h]
    exact Registry.sameMembers_sweep _ _ _
  rw [StopOutcome.notices_congr hmembers (by rwa [Registry.size_modify])]
  unfold depart
  rw [h]
  simp only [Step.andThen_snd, Action.notices_append, notices_settleStop]
  rw [(sendsOnly_settleStart _ _ _).notices_eq_nil (by simp),
    (sendsOnly_advance _ _).notices_eq_nil (by simp),
    (offline_finishIfDone _).silent.notices_eq_nil (by simp)]
  simp [notices, Action.notice?, forget]

theorem Joined.isConnected_depart (h : s.Joined c f record) (g : FederateId) :
    (s.depart f c).1.registry.isConnected g =
      if f = g then false else s.registry.isConnected g := by
  rw [depart_fst h.get?_eq, Registry.isConnected_eq_flag,
    Registry.flag_sweep Registry.isConnected_settle]
  exact Registry.flag_modify h.get?_eq g

theorem Joined.left?_eq (h : s.Joined c f record)
    (hafter : m.after.registry.isConnected f = false) : m.left? s f = some record.completed := by
  unfold Moment.left?
  rw [h.isConnected, hafter, h.get?_eq]
  rfl

/-- Who leaves answers with what it has completed. -/
theorem Joined.exists_verdict_of_departure (h : s.Joined c f record)
    (hsize : s.registry.size ≤ Topology.maxFederates) (he : s.IsMute m.event)
    (hafter : m.after = (s.depart f c).1) (hactions : notices m.actions = notices (s.depart f c).2) :
    ∃ result, Verdict s m result ∧ Adopts s m result := by
  have hconnected (g : FederateId) : m.after.registry.isConnected g =
      if f = g then false else s.registry.isConnected g := by
    rw [hafter]
    exact h.isConnected_depart g
  refine ⟨s.stop.fold f (StopAnswer.left record.completed).tag,
    .answered he.request?_eq ?_ fun g hg => ?_, ?_, ?_, fun g hg => ?_⟩
  · unfold Moment.answer?
    rw [he.named?_eq, h.left?_eq (by rw [hconnected f, if_pos rfl])]
    rfl
  · unfold Moment.answer?
    rw [he.named?_eq, left?_of_isConnected fun hjoined => ?_]
    · rfl
    · rw [hconnected g, if_neg (Ne.symm hg)]
      exact hjoined
  · rw [hafter, depart_fst h.get?_eq]
    rfl
  · rw [hactions, notices_depart hsize h.get?_eq, hafter]
    rfl
  · rw [hafter, depart_fst h.get?_eq, isCounted_eq_flag,
      Registry.flag_sweep Registry.stopCounted_settle] at hg
    have hkept : (s.registry.modify f (·.leave)).flag (·.stopCounted) g =
        s.registry.flag (·.stopCounted) g := Registry.flag_modify_of_eq h.get?_eq rfl g
    exact Or.inl (hkept.symm.trans hg)

/-! ## Messages about stopping -/

theorem Joined.isCounted_of_markCounted {outcome : StopOutcome} {g : FederateId}
    (h : s.Joined c f record) (hg : (s.markCounted f outcome).isCounted g = true) :
    s.isCounted g = true ∨ outcome ≠ .ignored ∧ f = g := by
  unfold markCounted at hg
  split at hg
  · exact Or.inl hg
  · rename_i hcounts
    have hflag : (s.registry.modify f ({ · with stopCounted := true })).flag (·.stopCounted) g =
        if f = g then true else s.registry.flag (·.stopCounted) g :=
      Registry.flag_modify h.get?_eq g
    by_cases hfg : f = g
    · exact Or.inr ⟨hcounts, hfg⟩
    · rw [if_neg hfg] at hflag
      exact Or.inl (hflag.symm.trans hg)

theorem Joined.isConnected_contribute (h : s.Joined c f record)
    (result : StopNegotiation × StopOutcome) (g : FederateId) :
    (s.contribute f result).1.registry.isConnected g = s.registry.isConnected g := by
  rcases contribute_fst s f result with heq | heq | heq
  · rw [heq]
  · rw [heq]
  · rw [heq]
    exact Registry.flag_modify_of_eq h.get?_eq rfl g

/-- Who says something about stopping contributes that, unless it has contributed before. -/
theorem Joined.exists_verdict_of_contribute {time : Int64}
    {result : StopNegotiation × StopOutcome} (h : s.Joined c f record)
    (he : m.event.connection? = some c) (htime : m.event.stopTime? = some time)
    (hafter : m.after = (s.contribute f result).1) (hactions : m.actions = (s.contribute f result).2)
    (hresult : m.answer? s f = some (.named time) → (∀ g, g ≠ f → m.answer? s g = none) →
      Verdict s m result) :
    ∃ result, Verdict s m result ∧ Adopts s m result := by
  have hkept (g : FederateId) : m.after.registry.isConnected g = s.registry.isConnected g := by
    rw [hafter]
    exact h.isConnected_contribute result g
  -- a contribution ends no session, so nobody answers by leaving
  have hanswer (g : FederateId) :
      m.answer? s g = if f = g then some (.named time) else none := by
    unfold Moment.answer? Moment.named?
    rw [h.origin?_eq he, left?_of_isConnected fun hjoined => (hkept g).trans hjoined, htime]
    by_cases hfg : f = g <;> simp [hfg]
  have hother (g : FederateId) (hg : g ≠ f) : m.answer? s g = none := by
    rw [hanswer, if_neg (Ne.symm hg)]
  unfold contribute at hafter hactions
  cases hcounted : s.isCounted f with
  | true =>
    rw [hcounted, if_pos rfl] at hafter hactions
    refine ⟨(s.stop, .ignored), .passedOver hcounted hother, ?_, ?_, fun g hg => Or.inl ?_⟩
    · rw [hafter]
      rfl
    · rw [hactions]
      rfl
    · rw [hafter] at hg
      exact hg
  | false =>
    rw [hcounted, if_neg Bool.false_ne_true] at hafter hactions
    have hown : m.answer? s f = some (.named time) := by rw [hanswer, if_pos rfl]
    refine ⟨result, hresult hown hother, ?_, ?_, fun g hg => ?_⟩
    · rw [hafter, settleStop_fst]
    · rw [hactions, notices_settleStop, hafter, settleStop_fst]
    · rw [hafter, settleStop_fst] at hg
      rcases h.isCounted_of_markCounted hg with hg | ⟨hcounts, rfl⟩
      · exact Or.inl hg
      · exact Or.inr ⟨hcounts, by rw [hown]; exact Option.some_ne_none _⟩

theorem Joined.exists_verdict_of_stopRequest (h : s.Joined c f record) (time : Int64) :
    ∃ result, Verdict s (s.moment (.messageReceived c (.stopRequest time))) result ∧
      Adopts s (s.moment (.messageReceived c (.stopRequest time))) result := by
  have hhandle : s.handle (.messageReceived c (.stopRequest time)) = s.contribute f
      (s.stop.request f (.ofTime time) s.registry.connected) := h.handle_message _
  refine h.exists_verdict_of_contribute rfl rfl (congrArg Prod.fst hhandle)
    (congrArg Prod.snd hhandle) ?_
  intro hanswer hother
  refine .requested ?_ hanswer hother
  unfold Moment.request? moment
  rw [h.origin?_eq rfl]
  rfl

theorem Joined.exists_verdict_of_stopRequestReply (h : s.Joined c f record) (time : Int64) :
    ∃ result, Verdict s (s.moment (.messageReceived c (.stopRequestReply time))) result ∧
      Adopts s (s.moment (.messageReceived c (.stopRequestReply time))) result := by
  have hhandle : s.handle (.messageReceived c (.stopRequestReply time)) = s.contribute f
      (s.stop.fold f (StopAnswer.named time).tag) := h.handle_message _
  refine h.exists_verdict_of_contribute rfl rfl (congrArg Prod.fst hhandle)
    (congrArg Prod.snd hhandle) ?_
  intro hanswer hother
  refine .answered ?_ hanswer hother
  unfold Moment.request? moment
  rw [h.origin?_eq rfl]
  rfl

/-! ## Every event -/

theorem eq_stopRequest_or_eq_stopRequestReply {time : Int64} (h : e.stopTime? = some time) :
    ∃ c, e = .messageReceived c (.stopRequest time) ∨
      e = .messageReceived c (.stopRequestReply time) := by
  unfold Event.stopTime? at h
  split at h <;> simp_all

theorem Joined.answer?_eq_named (h : s.Joined c f record) {time : Int64}
    (he : e = .messageReceived c (.stopRequest time) ∨
      e = .messageReceived c (.stopRequestReply time)) :
    (s.moment e).answer? s f = some (.named time) := by
  have hnamed : (s.moment e).named? s f = some time := by
    unfold Moment.named? moment
    rcases he with rfl | rfl
    · exact if_pos (h.origin?_eq rfl)
    · exact if_pos (h.origin?_eq rfl)
  unfold Moment.answer?
  rw [hnamed]
  rfl

/-- Saying something about stopping costs nobody its session. -/
theorem isConnected_of_stopTime? {time : Int64} (hs : s.Consistent)
    (htime : e.stopTime? = some time) (horigin : s.origin? e = some f) (g : FederateId) :
    (s.handle e).1.registry.isConnected g = s.registry.isConnected g := by
  have hcontribute : ∃ c record result, s.Joined c f record ∧ s.handle e = s.contribute f result := by
    obtain ⟨c, he⟩ := eq_stopRequest_or_eq_stopRequestReply htime
    have hfederate : s.federateOf c = some f := by
      rcases he with rfl | rfl <;> exact horigin
    obtain ⟨record, h⟩ := hs.exists_joined_of_federateOf hfederate
    rcases he with rfl | rfl <;> exact ⟨c, record, _, h, h.handle_message _⟩
  obtain ⟨c, record, result, h, hhandle⟩ := hcontribute
  rw [hhandle]
  exact h.isConnected_contribute result g

theorem Joined.answer?_eq_left (h : s.Joined c f record) (hs : s.Consistent)
    (hafter : (s.handle e).1.registry.isConnected f = false) :
    (s.moment e).answer? s f = some (.left record.completed) := by
  have hnamed : (s.moment e).named? s f = none := by
    unfold Moment.named? moment
    by_cases horigin : s.origin? e = some f
    · rw [if_pos horigin]
      by_contra hne
      obtain ⟨time, htime⟩ := Option.ne_none_iff_exists'.1 hne
      rw [isConnected_of_stopTime? hs htime horigin, h.isConnected] at hafter
      cases hafter
    · exact if_neg horigin
  have hleft : (s.moment e).left? s f = some record.completed := h.left?_eq hafter
  unfold Moment.answer?
  rw [hnamed, hleft]
  rfl

theorem Joined.isConnected_of_departure (h : s.Joined c f record)
    (he : e = .connectionLost c ∨ e = .messageReceived c .resign) :
    (s.handle e).1.registry.isConnected f = false := by
  rw [h.handle_departure he]
  exact (h.isConnected_depart f).trans (if_pos rfl)

theorem exists_verdict_of_isMute (hs : s.Consistent)
    (hsize : s.registry.size ≤ Topology.maxFederates) (he : s.IsMute e) :
    ∃ result, Verdict s (s.moment e) result ∧ Adopts s (s.moment e) result := by
  have hbearing := (handle_transition hs e).bearing
  unfold moment
  generalize s.handle e = out at hbearing
  cases hbearing with
  | plain hstop | proposed _ _ hstop => exact hstop.exists_verdict he
  | contributed h hmessage =>
    rcases he with he | he <;> rcases hmessage with rfl | rfl
    · cases he
    · cases he
    · rw [h.origin?_eq rfl] at he
      cases he
    · rw [h.origin?_eq rfl] at he
      cases he
  | left h hplain =>
    refine h.exists_verdict_of_departure hsize he rfl ?_
    rw [Action.notices_append, hplain.notices_eq_nil fun time => by
      simp [Message.isPlain, Message.isAboutStop]]
    rfl

/-- Every event has a verdict, and the step goes by it. -/
theorem exists_verdict (hs : s.Consistent) (hsize : s.registry.size ≤ Topology.maxFederates)
    (e : Event) : ∃ result, Verdict s (s.moment e) result ∧ Adopts s (s.moment e) result := by
  cases htime : e.stopTime? with
  | none => exact exists_verdict_of_isMute hs hsize (Or.inl htime)
  | some time =>
    cases horigin : s.origin? e with
    | none => exact exists_verdict_of_isMute hs hsize (Or.inr horigin)
    | some f =>
      obtain ⟨c, rfl | rfl⟩ := eq_stopRequest_or_eq_stopRequestReply htime
      · obtain ⟨record, h⟩ := hs.exists_joined_of_federateOf horigin
        exact h.exists_verdict_of_stopRequest time
      · obtain ⟨record, h⟩ := hs.exists_joined_of_federateOf horigin
        exact h.exists_verdict_of_stopRequestReply time

/-! ## What a verdict comes to -/

section Verdict

variable {result : StopNegotiation × StopOutcome} {candidate : Tag} {pending : FederateSet}
variable {g : FederateId} {answer : StopAnswer}

/-- An event brings the answer of one federate at most. -/
theorem Verdict.answer?_eq_none (h : s.Verdict m result) (hanswer : m.answer? s f = some answer)
    (g : FederateId) (hg : g ≠ f) : m.answer? s g = none := by
  cases h with
  | silent hrequest hnone => exact hnone g
  | passedOver hcounted hother | requested hrequest hown hother | answered hrequest hown hother =>
    exact hother g (Moment.eq_of_answer? hother hanswer ▸ hg)

/-- The answer of a federate that is still to answer counts, and closes its part of the round. -/
theorem Verdict.fst_of_answered (h : s.Verdict m result) (hstop : s.stop = .awaiting candidate pending)
    (hf : f ∈ pending) (hcounted : s.isCounted f = false) (hanswer : m.answer? s f = some answer) :
    result.1 = .awaiting (max candidate answer.tag) (pending.erase f) := by
  cases h with
  | silent hrequest hnone => simp [hnone f] at hanswer
  | passedOver hbefore hother => simp [← Moment.eq_of_answer? hother hanswer, hcounted] at hbefore
  | @requested f' time hrequest hown hother =>
    -- a round that is open takes a request as it takes any other answer
    obtain rfl := Moment.eq_of_answer? hother hanswer
    obtain rfl := Option.some.inj (hown.symm.trans hanswer)
    have hidle : s.stop ≠ .idle := by
      rw [hstop]
      exact StopNegotiation.awaiting_ne_idle
    rw [StopNegotiation.request_eq_fold hidle, hstop]
    exact StopNegotiation.fold_awaiting_of_mem hf _
  | answered hrequest hown hother =>
    obtain rfl := Moment.eq_of_answer? hother hanswer
    obtain rfl := Option.some.inj (hown.symm.trans hanswer)
    rw [hstop]
    exact StopNegotiation.fold_awaiting_of_mem hf _

/-- Nothing else moves a round. -/
theorem Verdict.fst_of_unanswered (h : s.Verdict m result)
    (hstop : s.stop = .awaiting candidate pending) (hnone : ∀ g ∈ pending, m.answer? s g = none) :
    result.1 = s.stop := by
  have hfold {f : FederateId} {answer : StopAnswer} (hown : m.answer? s f = some answer)
      (tag : Tag) : (s.stop.fold f tag).1 = s.stop := by
    have hf : f ∉ pending := fun hf => by
      rw [hnone f hf] at hown
      cases hown
    rw [hstop, StopNegotiation.fold_awaiting_of_not_mem hf]
  cases h with
  | silent | passedOver => rfl
  | requested hrequest hown hother =>
    have hidle : s.stop ≠ .idle := by
      rw [hstop]
      exact StopNegotiation.awaiting_ne_idle
    rw [StopNegotiation.request_eq_fold hidle]
    exact hfold hown _
  | answered hrequest hown hother => exact hfold hown _

theorem Verdict.ne_forward (hverdict : s.Verdict m result) (hstop : s.stop ≠ .idle)
    (l : List FederateId) (proposal : Tag) : result.2 ≠ .forward l proposal := by
  cases hverdict with
  | silent | passedOver => simp
  | requested =>
    rw [StopNegotiation.request_eq_fold hstop]
    exact StopNegotiation.fold_ne_forward _ _ _ l proposal
  | answered => exact StopNegotiation.fold_ne_forward _ _ _ l proposal

theorem Verdict.eq_agreed_iff (h : s.Verdict m result) (agreed : Tag) :
    result.2 = .agreed agreed ↔ s.stop.stopTag = none ∧ result.1.stopTag = some agreed := by
  cases h with
  | silent | passedOver =>
    refine iff_of_false (by simp) ?_
    rintro ⟨hnone, hsome⟩
    rw [hnone] at hsome
    cases hsome
  | requested => exact StopNegotiation.request_eq_agreed_iff _ _ _ _ _
  | answered => exact StopNegotiation.fold_eq_agreed_iff _ _ _ _

end Verdict

end Coordinator

end FederatedTime
