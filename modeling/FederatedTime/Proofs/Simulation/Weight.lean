import FederatedTime.Proofs.Coordinator.Negotiation
import FederatedTime.Proofs.Coordinator.Notices
import FederatedTime.Proofs.Simulation.Response
import FederatedTime.Proofs.Simulation.Turn

/-!
# A run comes to an end

Every delivery weighs more than all that comes of it: more than what the coordinator sends in answer
to an event (`Transition.cost_lt`), and together with the federate more than what the federate
sends in answer to a message and what is left of the federate
(`ScriptedFederate.load_onMessage_lt`). So a step lowers the potential (`potential_step_lt`), and
as many deliveries as the potential says are all there are (`step?_eq_none_of_run`).
-/

namespace FederatedTime

/-! ## Several things -/

namespace Simulation

section TotalWeight

variable {α : Type} (weight : α → Nat)

theorem totalWeight_cons (a : α) (items : List α) :
    totalWeight weight (a :: items) = weight a + totalWeight weight items := rfl

theorem totalWeight_append (first second : List α) :
    totalWeight weight (first ++ second) =
      totalWeight weight first + totalWeight weight second := by
  induction first with
  | nil => exact (Nat.zero_add _).symm
  | cons a first ih => rw [List.cons_append, totalWeight_cons, totalWeight_cons, ih, Nat.add_assoc]

theorem totalWeight_perm {first second : List α} (h : first.Perm second) :
    totalWeight weight first = totalWeight weight second := by
  induction h with
  | nil => rfl
  | cons a _ ih => exact congrArg (weight a + ·) ih
  | swap a b rest => exact Nat.add_left_comm _ _ _
  | trans _ _ ih ih' => exact ih.trans ih'

variable {weight}

theorem totalWeight_le {items : List α} {k : Nat} (h : ∀ a ∈ items, weight a ≤ k) :
    totalWeight weight items ≤ items.length * k := by
  induction items with
  | nil => exact Nat.zero_le _
  | cons a items ih =>
    obtain ⟨ha, hitems⟩ := List.forall_mem_cons.1 h
    rw [List.length_cons, Nat.add_mul, Nat.one_mul, Nat.add_comm]
    exact Nat.add_le_add ha (ih hitems)

variable (weight)

/-- Replacing one of several things. -/
theorem totalWeight_set_add {items : List α} {i : Nat} {old : α} (h : items[i]? = some old)
    (new : α) :
    totalWeight weight (items.set i new) + weight old = totalWeight weight items + weight new := by
  induction items generalizing i with
  | nil => cases h
  | cons a items ih =>
    cases i with
    | zero =>
      obtain rfl := Option.some.inj h
      rw [List.set_cons_zero, totalWeight_cons, totalWeight_cons]
      omega
    | succ i =>
      have ih := ih (i := i) h
      rw [List.set_cons_succ, totalWeight_cons, totalWeight_cons]
      omega

end TotalWeight

/-- The weight of what an action puts on a link. -/
def actionWeight (n : Nat) : Action → Nat
  | .send _ message => messageWeight n message
  | _ => 0

/-- The weight of what an output puts on a link. -/
def outputWeight (n : Nat) : Output → Nat
  | .send message => requestWeight n message
  | .disconnect => plainWeight n

theorem weight_event (n : Nat) (f : FederateId) (output : Output) :
    (Delivery.toCoordinator (output.event f)).weight n = outputWeight n output := by
  cases output <;> rfl

theorem plainWeight_le_requestWeight (n : Nat) (message : Message) :
    plainWeight n ≤ requestWeight n message := by
  unfold requestWeight
  split
  · exact Nat.le_add_right _ _
  · exact Nat.le_add_right _ _
  · exact le_refl _

theorem plainWeight_le_weight (n : Nat) (e : Event) :
    plainWeight n ≤ (Delivery.toCoordinator e).weight n := by
  cases e with
  | messageReceived c message => exact plainWeight_le_requestWeight n message
  | _ => exact le_refl _

theorem messageWeight_pos (n : Nat) (message : Message) : 0 < messageWeight n message := by
  unfold messageWeight
  split <;> omega

theorem Delivery.weight_pos (n : Nat) (d : Delivery) : 0 < d.weight n := by
  cases d with
  | start f =>
    refine Nat.lt_of_lt_of_le Nat.zero_lt_two ?_
    exact (Nat.le_add_right 2 _).trans (Nat.le_add_right _ _)
  | toCoordinator e => exact (Nat.succ_pos _).trans_le (plainWeight_le_weight n e)
  | toFederate f message => exact messageWeight_pos n message

end Simulation

open Simulation

/-! ## What the coordinator sends -/

theorem StopNegotiation.length_le_of_forward {n n' : StopNegotiation} {f : FederateId}
    {tag proposal : Tag} {l federates : List FederateId}
    (h : n.request f tag l = (n', .forward federates proposal)) :
    federates.length ≤ l.length := by
  by_cases hidle : n = .idle
  · subst hidle
    unfold request at h
    dsimp only at h
    split at h
    · cases h
    · obtain ⟨rfl, -⟩ := StopOutcome.forward.inj (Prod.mk.inj h).2
      have hnodup := (FederateSet.ofList (l.filter (· ≠ f))).nodup_toList
      have hsub : (FederateSet.ofList (l.filter (· ≠ f))).toList ⊆ l := fun g hg =>
        List.mem_of_mem_filter (FederateSet.mem_ofList.1 hg)
      exact (List.subperm_of_subset hnodup hsub).length_le
  · rw [request_eq_fold hidle] at h
    exact absurd (congrArg Prod.snd h) (fold_ne_forward n f tag federates proposal)

namespace Registry

theorem length_grants_le (r : Registry) (stop : Option Tag) (seeds : List FederateId) :
    (r.sweep stop seeds).2.length ≤ r.size := by
  have hsub : (r.sweep stop seeds).2.map (·.federate) ⊆ FederateId.firstIds r.size := by
    intro f hf
    obtain ⟨g, hg, rfl⟩ := List.mem_map.1 hf
    obtain ⟨record, hrecord, -⟩ := raise?_eq_some_iff.1 (mem_grants_sweep.1 hg).2
    exact FederateId.mem_firstIds (Roster.index_lt_of_get? hrecord)
  have hle := (List.subperm_of_subset (nodup_federates_sweep r stop seeds) hsub).length_le
  simpa [FederateId.firstIds] using hle

end Registry

namespace Coordinator

variable {s : Coordinator} {e : Event} {f : FederateId} {c : ConnectionId}
variable {record : FederateRecord} {message : Message}

/-- The weight of all that actions put on links. -/
def cost (n : Nat) (actions : List Action) : Nat := totalWeight (actionWeight n) actions

theorem cost_append (n : Nat) (first second : List Action) :
    cost n (first ++ second) = cost n first + cost n second :=
  totalWeight_append _ first second

theorem cost_of_offline {n : Nat} {actions : List Action} (h : Action.Offline actions) :
    cost n actions = 0 := by
  refine Nat.le_zero.1 ((totalWeight_le (k := 0) fun a ha => ?_).trans (le_of_eq (Nat.mul_zero _)))
  cases a with
  | send c message => cases h _ ha
  | closeConnection | sendClockSync | federationFinished => exact le_refl 0

theorem cost_sendTo_le (n : Nat) (s : Coordinator) (f : FederateId) (message : Message) :
    cost n (s.sendTo f message) ≤ messageWeight n message := by
  unfold sendTo
  cases s.registry.connection? f with
  | none => exact Nat.zero_le _
  | some c => exact le_refl _

theorem cost_flatMap_sendTo_le {α : Type} (n : Nat) (s : Coordinator) (items : List α)
    (receiver : α → FederateId) (message : α → Message) {k : Nat}
    (h : ∀ a ∈ items, messageWeight n (message a) ≤ k) :
    cost n (items.flatMap fun a => s.sendTo (receiver a) (message a)) ≤ items.length * k := by
  induction items with
  | nil => exact Nat.zero_le _
  | cons a items ih =>
    obtain ⟨ha, hitems⟩ := List.forall_mem_cons.1 h
    have hfirst := (cost_sendTo_le n s (receiver a) (message a)).trans ha
    rw [List.flatMap_cons, cost_append, List.length_cons, Nat.add_mul, Nat.one_mul,
      Nat.add_comm]
    exact Nat.add_le_add (ih hitems) hfirst

theorem cost_broadcast_le (n : Nat) (s : Coordinator) {message : Message}
    (h : messageWeight n message = 1) : cost n (s.broadcast message) ≤ s.registry.size := by
  have hlength : s.registry.connections.length ≤ s.registry.size :=
    (List.length_filterMap_le _ _).trans (le_of_eq Array.length_toList)
  have hle : cost n (s.broadcast message) ≤ (s.broadcast message).length * 1 := by
    refine totalWeight_le fun a ha => ?_
    obtain ⟨c, -, rfl⟩ := List.mem_map.1 ha
    exact le_of_eq h
  rw [broadcast, List.length_map, Nat.mul_one] at hle
  exact hle.trans hlength

theorem cost_advance_le (n : Nat) (s : Coordinator) (seeds : List FederateId) :
    cost n (s.advance seeds).2 ≤ s.registry.size := by
  have hle : cost n (s.advance seeds).2 ≤ (s.registry.sweep s.stopTag seeds).2.length * 1 :=
    cost_flatMap_sendTo_le n _ _ _ _ fun _ _ => le_refl 1
  rw [Nat.mul_one] at hle
  exact hle.trans (s.registry.length_grants_le s.stopTag seeds)

theorem cost_settleStop_le (n : Nat) (s : Coordinator) (result : StopNegotiation × StopOutcome)
    (h : ∀ federates proposal, result.2 ≠ .forward federates proposal) :
    cost n (s.settleStop result).2 ≤ s.registry.size := by
  obtain ⟨stop, outcome⟩ := result
  cases outcome with
  | ignored | waiting => exact Nat.zero_le _
  | forward federates proposal => exact absurd rfl (h federates proposal)
  | agreed tag => exact cost_broadcast_le n { s with stop := stop } rfl

theorem cost_settleStart_le (n : Nat) (s : Coordinator) (f : FederateId)
    (result : StartNegotiation × StartOutcome) (h : 0 < s.registry.size) :
    cost n (s.settleStart f result).2 ≤ s.registry.size := by
  obtain ⟨start, outcome⟩ := result
  cases outcome with
  | waiting => exact Nat.zero_le _
  | fixed time => exact cost_broadcast_le n { s with start := start } rfl
  | late time => exact (cost_sendTo_le n { s with start := start } f _).trans h

theorem cost_finishIfDone (n : Nat) (s : Coordinator) : cost n s.finishIfDone.2 = 0 := by
  unfold finishIfDone
  split <;> rfl

theorem Joined.size_pos (h : s.Joined c f record) : 0 < s.registry.size :=
  (Nat.zero_le _).trans_lt (Roster.index_lt_of_get? h.get?_eq)

theorem Joined.cost_depart_le (n : Nat) (h : s.Joined c f record) :
    cost n (s.depart f c).2 ≤ 3 * s.registry.size := by
  have hsize : (s.forget f c).registry.size = s.registry.size := Registry.size_modify _ _ _
  have hstop := cost_settleStop_le n (s.forget f c)
    ((s.forget f c).stop.departure f record.completed) (StopNegotiation.fold_ne_forward _ _ _)
  unfold depart
  rw [h.get?_eq]
  simp only [Step.andThen_snd, cost_append, cost_finishIfDone, Nat.add_zero]
  generalize hs₁ : s.forget f c = s₁ at hsize hstop
  generalize hs₂ : (s₁.settleStop _).1 = s₂
  have hsize₂ : s₂.registry.size = s.registry.size := by rw [← hs₂, settleStop_fst, hsize]
  have hstart := cost_settleStart_le n s₂ f (s₂.start.departure s₂.registry)
    (hsize₂ ▸ h.size_pos)
  generalize hs₃ : (s₂.settleStart f _).1 = s₃
  have hsize₃ : s₃.registry.size = s.registry.size := by rw [← hs₃, settleStart_fst, hsize₂]
  have hadvance := cost_advance_le n s₃ (s₃.registry.topology.downstream f)
  have hclose : cost n [.closeConnection c] = 0 := rfl
  omega

theorem cost_contribute_le (n : Nat) (s : Coordinator) (f : FederateId)
    (result : StopNegotiation × StopOutcome)
    (h : ∀ federates proposal, result.2 ≠ .forward federates proposal) :
    cost n (s.contribute f result).2 ≤ s.registry.size := by
  unfold contribute
  split
  · exact Nat.zero_le _
  · refine (cost_settleStop_le n _ result h).trans (le_of_eq ?_)
    unfold markCounted
    split
    · rfl
    · exact Registry.size_modify _ _ _

/-- A request is passed on to others, each at most once. -/
theorem cost_onStopRequest_le (n : Nat) (s : Coordinator) (f : FederateId) (proposal : Tag) :
    cost n (s.onStopRequest f proposal).2 ≤ s.registry.size * messageWeight n (.stopRequest 0) := by
  have hsize : s.registry.size ≤ s.registry.size * messageWeight n (.stopRequest 0) :=
    Nat.le_mul_of_pos_right _ (messageWeight_pos _ _)
  have hconnected : s.registry.connected.length ≤ s.registry.size := by
    rw [Registry.connected, List.length_map]
    exact (List.length_filter_le _ _).trans (le_of_eq Array.length_toList)
  unfold onStopRequest
  cases hresult : s.stop.request f proposal s.registry.connected with
  | mk stop outcome =>
    by_cases hforward : ∃ federates proposal', outcome = .forward federates proposal'
    · obtain ⟨federates, proposal', rfl⟩ := hforward
      have hlength := (StopNegotiation.length_le_of_forward hresult).trans hconnected
      unfold contribute
      split
      · exact Nat.zero_le _
      · refine (cost_flatMap_sendTo_le n _ federates id _ fun _ _ => le_refl _).trans ?_
        exact Nat.mul_le_mul_right _ hlength
    · refine (cost_contribute_le n s f _ fun federates proposal' heq => ?_).trans hsize
      exact hforward ⟨federates, proposal', heq⟩

/-- An event weighs more than all that the coordinator sends in answer to it. -/
theorem Transition.cost_lt {out : Step} (h : Transition s e out) :
    cost s.registry.size out.2 < (Delivery.toCoordinator e).weight s.registry.size := by
  have hplain := plainWeight_le_weight s.registry.size e
  -- most answers are light enough for any event
  have light (hle : cost s.registry.size out.2 ≤ 3 * s.registry.size + 1) :
      cost s.registry.size out.2 < (Delivery.toCoordinator e).weight s.registry.size :=
    lt_of_lt_of_le (Nat.lt_succ_of_le hle) hplain
  have one {f : FederateId} {message : Message}
      (hmessage : messageWeight s.registry.size message = 1) :
      cost s.registry.size (s.sendTo f message) ≤ 1 :=
    (cost_sendTo_le _ s f message).trans (le_of_eq hmessage)
  cases h with
  | opened | ignored | closed | abandoned => exact light (Nat.zero_le _)
  | refused => exact light (Nat.le_add_left 1 _)
  | admitted =>
    have hpos : 0 < plainWeight s.registry.size := Nat.succ_pos _
    exact Nat.lt_add_of_pos_left hpos
  | @proposed _ f _ proposal h =>
    refine light ((cost_settleStart_le _ s f _ h.size_pos).trans ?_)
    omega
  | nextEvent h | completed h =>
    refine light ((cost_advance_le _ _ _).trans ?_)
    rw [Registry.size_modify]
    omega
  | requested time h =>
    refine lt_of_le_of_lt (cost_onStopRequest_le _ s _ (.ofTime time)) ?_
    have hpos : 0 < plainWeight s.registry.size := Nat.succ_pos _
    exact Nat.lt_add_of_pos_left hpos
  | replied time h =>
    refine light ((cost_contribute_le _ s _ _ (StopNegotiation.fold_ne_forward _ _ _)).trans ?_)
    omega
  | forwardedUntimed | forwardedTimed => exact light ((one rfl).trans (by omega))
  | queried =>
    refine light ((one ?_).trans (by omega))
    unfold Directory.reply
    split <;> rfl
  | advertised => exact light (Nat.zero_le _)
  | departed h => exact light ((h.cost_depart_le _).trans (Nat.le_succ _))
  | expelled he h =>
    refine light ?_
    rw [expel, Step.andThen_snd, cost_append, Nat.add_comm]
    exact Nat.add_le_add (h.cost_depart_le _) (le_refl 1)
  | probed =>
    refine light (le_trans (le_of_eq ?_) (Nat.zero_le _))
    exact cost_of_offline (offline_onClockSyncProbe _ _ _)
  | timer =>
    refine light ((le_of_eq (cost_of_offline ?_)).trans (Nat.zero_le _))
    exact ClockSchedule.offline_timer _ _ _

end Coordinator

namespace Simulation

/-! ## What a federate sends -/

namespace ScriptedFederate

variable (n : Nat) (f : ScriptedFederate)

/-- The weight of what a federate may still say together with what it says now. -/
def load (answer : ScriptedFederate × List Output) : Nat :=
  answer.1.weight n + totalWeight (outputWeight n) answer.2

/-- The weight of a tag in a script. -/
abbrev tagWeight : Nat := 2 * plainWeight n + requestWeight n (.stopRequest 0)

variable {f}

theorem weight_eq (h : f.done = false) :
    f.weight n = f.pending.length * tagWeight n + 2 * plainWeight n := by
  rw [weight, h]
  rfl

/-- What a federate says as it leaves weighs no more than it could still have said. -/
theorem totalWeight_outputs_le (ending : Ending) :
    totalWeight (outputWeight n) ending.outputs ≤ 2 * plainWeight n := by
  cases ending <;> simp [Ending.outputs, totalWeight, outputWeight, requestWeight] <;> omega

/-- A federate that waits or leaves weighs no more than before, and an announcement comes on top. -/
theorem Closing.load_le {closing : List Output} {spare : Nat} (h : Closing f closing)
    (hspare : ∀ next, closing = [.send (.nextEventTag next)] → plainWeight n ≤ spare) :
    load n (f, closing) ≤ f.pending.length * tagWeight n + 2 * plainWeight n + spare := by
  unfold load
  cases h with
  | waits hpresent => exact (Nat.le_of_eq (weight_eq n hpresent)).trans (Nat.le_add_right _ _)
  | announces next rest hpresent =>
    dsimp only
    rw [weight_eq n hpresent]
    exact Nat.add_le_add_left (hspare next rfl) _
  | leaves hgone =>
    have hnothing : f.weight n = 0 := if_pos hgone
    have hending := totalWeight_outputs_le n f.ending
    dsimp only
    omega

theorem totalWeight_reports_le (f : ScriptedFederate) (tags : List Tag) :
    totalWeight (outputWeight n) (f.reports tags) ≤
      tags.length * (plainWeight n + requestWeight n (.stopRequest 0)) := by
  rw [reports, ← List.length_zipIdx (l := tags) (i := f.processed + 1)]
  generalize tags.zipIdx (f.processed + 1) = counted
  induction counted with
  | nil => exact Nat.zero_le _
  | cons first counted ih =>
    have hfirst : totalWeight (outputWeight n) (f.report first.1 first.2) ≤
        plainWeight n + requestWeight n (.stopRequest 0) := by
      unfold report
      split
      · exact le_refl _
      · exact Nat.le_add_right _ _
    rw [List.flatMap_cons, totalWeight_append, List.length_cons, Nat.add_mul, Nat.one_mul,
      Nat.add_comm]
    exact Nat.add_le_add ih hfirst

theorem totalWeight_remarks_lt (f : ScriptedFederate) (message : Message) (now : Int64) :
    totalWeight (outputWeight n) (f.remarks message now) < messageWeight n message := by
  cases message with
  | ack port =>
    show plainWeight n + 0 < 1 + 2 * plainWeight n
    omega
  | stopRequest time =>
    show plainWeight n + 0 < 1 + plainWeight n
    omega
  | _ => exact Nat.zero_lt_one

/-- A message and a federate weigh more than all that the federate then says, and what is left of
it. -/
theorem load_onMessage_lt (message : Message) (now : Int64) :
    load n (f.onMessage message now) < messageWeight n message + f.weight n := by
  cases hdone : f.done with
  | true =>
    rw [onMessage_of_done hdone]
    exact Nat.lt_add_of_pos_left (messageWeight_pos n message)
  | false =>
    obtain ⟨closing, h⟩ := exists_response hdone message now
    obtain ⟨left, hpending, hkept⟩ := h.pending
    have hremarks := totalWeight_remarks_lt n f message now
    have hreports := totalWeight_reports_le n f (f.due message)
    -- What an announcement weighs is left over from a tag that is reported, or from the join.
    have hspare : ∀ next, closing = [.send (.nextEventTag next)] → plainWeight n ≤
        (f.due message).length * plainWeight n +
          (messageWeight n message - 1 - totalWeight (outputWeight n) (f.remarks message now)) := by
      intro next hnext
      rcases h.prompted next hnext with hsome | ⟨port, rfl⟩
      · exact (Nat.le_mul_of_pos_left _ (List.length_pos_iff.2 hsome)).trans (Nat.le_add_right _ _)
      · show _ ≤ _ + (1 + 2 * plainWeight n - 1 - (plainWeight n + 0))
        omega
    have hclosing := h.closing.load_le n hspare
    have hleft : (f.onMessage message now).1.pending.length * tagWeight n ≤
        left.length * tagWeight n := by
      rw [hkept]
      exact Nat.mul_le_mul_right _ (List.length_filter_le _ _)
    have hdue : (f.due message).length * tagWeight n = (f.due message).length * plainWeight n +
        (f.due message).length * (plainWeight n + requestWeight n (.stopRequest 0)) := by
      rw [← Nat.mul_add]
      congr 1
      unfold tagWeight
      omega
    unfold load at hclosing ⊢
    rw [h.outputs, totalWeight_append, totalWeight_append, weight_eq n hdone, hpending,
      List.length_append, Nat.add_mul, hdue]
    dsimp only at hclosing
    omega

end ScriptedFederate

/-! ## Steps -/

variable {s s' : Simulation} {e : Event} {f : FederateId}
variable {entry : Scheduled Delivery} {rest : List (Scheduled Delivery)}

/-- The weight of all that is under way. -/
def traffic (n : Nat) (s : Simulation) : Nat :=
  totalWeight (·.event.weight n) s.queue.entries

theorem traffic_transmit (n : Nat) (s : Simulation) (l : Link) (d : Delivery) :
    traffic n (s.transmit l d) = d.weight n + traffic n s :=
  totalWeight_perm _ (Queue.perm_insert _ _)

theorem SameTraffic.traffic_eq (h : SameTraffic s s') (n : Nat) :
    traffic n s' = traffic n s := by
  unfold traffic
  rw [h.queue]

theorem traffic_carryOut (n : Nat) (s : Simulation) (a : Action) :
    traffic n (s.carryOut a) = actionWeight n a + traffic n s := by
  cases a with
  | send c message =>
    refine (traffic_transmit n _ _ _).trans ?_
    rw [(sameTraffic_noteMessage s _ message).traffic_eq]
    rfl
  | closeConnection | sendClockSync | federationFinished => exact (Nat.zero_add _).symm

theorem traffic_foldl_carryOut (n : Nat) (s : Simulation) (actions : List Action) :
    traffic n (actions.foldl carryOut s) = Coordinator.cost n actions + traffic n s := by
  induction actions generalizing s with
  | nil => exact (Nat.zero_add _).symm
  | cons a actions ih =>
    have hcost : Coordinator.cost n (a :: actions) =
        actionWeight n a + Coordinator.cost n actions := rfl
    rw [List.foldl_cons, ih, traffic_carryOut, hcost]
    omega

theorem traffic_foldl_emit (n : Nat) (s : Simulation) (f : FederateId) (outputs : List Output) :
    traffic n (outputs.foldl (·.emit f ·) s) =
      totalWeight (outputWeight n) outputs + traffic n s := by
  induction outputs generalizing s with
  | nil => exact (Nat.zero_add _).symm
  | cons output outputs ih =>
    have hfirst : traffic n (s.emit f output) = outputWeight n output + traffic n s := by
      rw [emit_eq, sendToCoordinator, traffic_transmit, weight_event,
        (sameTraffic_noteOutput s f output).traffic_eq]
    rw [List.foldl_cons, ih, hfirst, totalWeight_cons]
    omega

theorem traffic_eq_taken (n : Nat) (hentries : s.queue.entries = entry :: rest) :
    traffic n s = entry.event.weight n + traffic n (s.taken entry rest) := by
  unfold traffic
  rw [hentries]
  rfl

theorem traffic_startFederate (n : Nat) (s : Simulation) (f : FederateId) :
    traffic n (s.startFederate f) + 2 = (Delivery.start f).weight n + traffic n s := by
  have hweight : (Delivery.start f).weight n = 2 + (Delivery.toCoordinator
      (.connectionOpened (connectionOf f) (peerOf f))).weight n + (Delivery.toCoordinator
        (.messageReceived (connectionOf f) (.join f s.federationId))).weight n := rfl
  rw [hweight, startFederate, sendToCoordinator, traffic_transmit, sendToCoordinator,
    traffic_transmit]
  omega

theorem traffic_deliverToCoordinator_lt (hs : s.coordinator.Consistent)
    (hstep : s.deliverToCoordinator e = (s', none)) :
    s'.coordinator.registry.size = s.coordinator.registry.size ∧ s'.federates = s.federates ∧
      traffic s.coordinator.registry.size s' <
        (Delivery.toCoordinator e).weight s.coordinator.registry.size +
          traffic s.coordinator.registry.size s := by
  rw [deliverToCoordinator_eq] at hstep
  obtain ⟨last, hlast, hfault⟩ := Checked.andThen_eq_none.1 hstep
  obtain rfl : last = s' := (Prod.mk.inj hfault).1
  obtain rfl := performAll_eq_none hlast
  have htransition := Coordinator.handle_transition (Run.consistent_setTime hs s.now) e
  obtain ⟨gs, hmove, -⟩ := htransition.move
  refine ⟨?_, ?_, ?_⟩
  · rw [foldl_keeps coordinator coordinator_carryOut]
    exact hmove.update.size_eq
  · rw [foldl_keeps federates federates_carryOut]
    cases e <;> rfl
  · rw [traffic_foldl_carryOut, (sameTraffic_answering s e).traffic_eq]
    exact Nat.add_lt_add_right htransition.cost_lt _

theorem traffic_hearing_lt (n : Nat) {federate : ScriptedFederate} {message : Message}
    (hf : s.federates.get? f = some federate) :
    traffic n (s.hearing f federate message) +
        totalWeight (·.weight n) (s.hearing f federate message).federates.toList <
      messageWeight n message + traffic n s + totalWeight (·.weight n) s.federates.toList := by
  have hload := federate.load_onMessage_lt n message s.clockReading
  have hget : s.federates.toList[f.index]? = some federate := by
    rw [← hf]
    exact Array.getElem?_toList
  have hset := totalWeight_set_add (·.weight n) hget (federate.onMessage message s.clockReading).1
  have hfederates : (s.hearing f federate message).federates.toList =
      s.federates.toList.set f.index (federate.onMessage message s.clockReading).1 := by
    rw [hearing, foldl_keeps federates fun s output => (emit_keeps s f output).2.1]
    exact Roster.toList_set _ _ _
  rw [hfederates, hearing, traffic_foldl_emit]
  unfold ScriptedFederate.load at hload
  have htraffic : traffic n { s with
      federates := s.federates.set f (federate.onMessage message s.clockReading).1 } =
      traffic n s := rfl
  omega

/-- Every step that no check objects to lowers the potential. -/
theorem potential_step_lt (hs : s.coordinator.Consistent) (hstep : s.step? = some (s', none)) :
    s'.potential < s.potential := by
  obtain ⟨entry, rest, hentries, hdeliver⟩ := step?_eq_some hstep
  generalize hn : s.coordinator.registry.size = n
  have hbefore : s.potential = entry.event.weight n + traffic n (s.taken entry rest) +
      totalWeight (·.weight n) s.federates.toList := by
    rw [← traffic_eq_taken n hentries, ← hn]
    rfl
  have hafter (hsize : s'.coordinator.registry.size = n) : s'.potential =
      traffic n s' + totalWeight (·.weight n) s'.federates.toList := by
    rw [← hsize]
    rfl
  cases hevent : entry.event with
  | start f =>
    rw [hevent] at hdeliver hbefore
    obtain rfl := (Prod.mk.inj hdeliver).1
    have htraffic := traffic_startFederate n (s.taken entry rest) f
    have hfederates : ((s.taken entry rest).startFederate f).federates = s.federates := rfl
    rw [hafter hn, hbefore, hfederates]
    omega
  | toCoordinator e =>
    rw [hevent] at hdeliver hbefore
    obtain ⟨hsize, hfederates, htraffic⟩ :=
      traffic_deliverToCoordinator_lt (s := s.taken entry rest) hs hdeliver.symm
    have hn' : (s.taken entry rest).coordinator.registry.size = n := hn
    rw [hn'] at hsize htraffic
    rw [hafter hsize, hbefore, hfederates]
    exact Nat.add_lt_add_right htraffic _
  | toFederate f message =>
    rw [hevent] at hdeliver hbefore
    cases hf : s.federates.get? f with
    | none =>
      rw [deliver, deliverToFederate_eq_of_none (s := s.taken entry rest) hf] at hdeliver
      obtain rfl := (Prod.mk.inj hdeliver).1
      have hpos : 0 < (Delivery.toFederate f message).weight n := messageWeight_pos n message
      rw [hafter hn, hbefore]
      show traffic n (s.taken entry rest) + totalWeight (·.weight n) s.federates.toList < _
      omega
    | some federate =>
      rw [deliver, deliverToFederate_eq (s := s.taken entry rest) hf] at hdeliver
      obtain rfl := (Prod.mk.inj hdeliver).1
      have hsize : ((s.taken entry rest).hearing f federate message).coordinator.registry.size =
          n := by
        rw [hearing, foldl_keeps coordinator fun s output => (emit_keeps s f output).1]
        exact hn
      rw [hafter hsize, hbefore]
      exact traffic_hearing_lt (s := s.taken entry rest) n hf

/-! ## Runs -/

theorem potential_pos (h : s.queue.entries ≠ []) : 0 < s.potential := by
  obtain ⟨entry, rest, hentries⟩ := List.exists_cons_of_ne_nil h
  have hweight := entry.event.weight_pos s.coordinator.registry.size
  have htraffic := traffic_eq_taken s.coordinator.registry.size hentries
  have hpotential : s.potential = traffic s.coordinator.registry.size s +
      totalWeight (·.weight s.coordinator.registry.size) s.federates.toList := rfl
  omega

/-- Where every step lowers the potential, nothing is under way after as many steps as the potential
says, unless a check fails. -/
theorem step?_eq_none_of_run {I : Simulation → Prop}
    (hkeep : ∀ s s', I s → s.step? = some (s', none) → I s')
    (hlower : ∀ s s', I s → s.step? = some (s', none) → s'.potential < s.potential)
    (hs : I s) {fuel : Nat} (hfuel : s.potential ≤ fuel) (hnone : (s.runWithin fuel).2 = none) :
    (s.runWithin fuel).1.step? = none := by
  induction fuel generalizing s with
  | zero =>
    refine step?_eq_none_iff.2 (List.eq_nil_iff_forall_not_mem.2 fun entry hentry => ?_)
    have hpos : 0 < s.potential := potential_pos (List.ne_nil_of_mem hentry)
    omega
  | succ fuel ih =>
    rw [runWithin] at hnone ⊢
    cases hstep : s.step? with
    | none => exact hstep
    | some checked =>
      obtain ⟨s', violation⟩ := checked
      rw [hstep] at hnone
      cases violation with
      | none =>
        have hlt := hlower s s' hs hstep
        exact ih (hkeep s s' hs hstep) (by omega) hnone
      | some violation => cases hnone

end Simulation

end FederatedTime
