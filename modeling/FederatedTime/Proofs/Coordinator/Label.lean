import FederatedTime.Proofs.Coordinator.Completion
import FederatedTime.Proofs.Coordinator.Confluence

/-!
# The state of a joined federate

A joined federate is granted or pending, which is to say whether it may go on to its next event
(`FederateRecord.Truthful`). Whenever a sweep meets a federate, its state is brought up to date. But
a federate that completes more than it has announced moves its next event, and the sweep that
follows meets the federates downstream of it only. So the state may be that of an earlier next event
(`Run.label_of_earlier`).
-/

namespace FederatedTime

namespace FederateRecord

variable {a b record : FederateRecord}

/-- The state says whether the federate may go on to its next event. -/
def Truthful (record : FederateRecord) : Prop :=
  record.state = if record.nextEvent ≠ .never ∧ record.nextEvent ≤ record.lastGranted then .granted
    else .pending

/-- The state, what it is about, and the connection are the same, and no less is completed. -/
structure Keeps (a b : FederateRecord) : Prop where
  state : b.state = a.state
  nextEvent : b.nextEvent = a.nextEvent
  lastGranted : b.lastGranted = a.lastGranted
  connection : b.connection = a.connection
  completed : a.completed ≤ b.completed

theorem Keeps.refl (a : FederateRecord) : a.Keeps a := ⟨rfl, rfl, rfl, rfl, le_refl _⟩

theorem Alike.keeps (h : a.Alike b) : a.Keeps b :=
  ⟨h.state, h.nextEvent, h.lastGranted, h.connection, le_of_eq h.completed.symm⟩

theorem Keeps.isConnected (h : a.Keeps b) : b.isConnected = a.isConnected := by
  unfold FederateRecord.isConnected
  rw [h.state]

theorem truthful_granted (record : FederateRecord) (tag : Tag) : (record.granted tag).Truthful :=
  rfl

theorem truthful_join (record : FederateRecord) (c : ConnectionId) (host : IpAddress) :
    (record.join c host).Truthful := by
  simp [Truthful, join]

/-- A completion of no more than what was announced leaves the next event where it is. -/
theorem keeps_completing {tag : Tag} (htag : ¬ tag ≤ record.completed)
    (hle : tag ≤ record.nextEvent) : record.Keeps (Coordinator.completing tag record) :=
  ⟨rfl, max_eq_left hle, rfl, rfl, le_of_lt (not_le.1 htag)⟩

end FederateRecord

namespace Registry

variable {r : Registry} {stop : Option Tag} {seeds : List FederateId} {f : FederateId}
variable {record : FederateRecord}

theorem truthful_settle {granted : Option Tag} (h : (settle granted record).isConnected) :
    (settle granted record).Truthful := by
  rw [isConnected_settle] at h
  rw [settle_eq_granted _ h]
  exact record.truthful_granted _

/-- A sweep leaves a joined federate a state that is up to date, or its record as it is. -/
theorem truthful_or_of_sweep (h : (r.sweep stop seeds).1.get? f = some record)
    (hconnected : record.isConnected) : record.Truthful ∨ r.get? f = some record := by
  obtain ⟨old, hold, rfl | ⟨-, rfl⟩⟩ := get?_sweep_eq_some h
  · exact Or.inr hold
  · exact Or.inl (truthful_settle hconnected)

/-- A sweep brings the state of a seed up to date. -/
theorem truthful_of_mem_seeds (hf : f ∈ seeds) (h : (r.sweep stop seeds).1.get? f = some record)
    (hconnected : record.isConnected) : record.Truthful := by
  have hlt : f.index < r.size := by
    rw [← size_sweep r stop seeds]
    exact Roster.index_lt_of_get? h
  have hmem : f ∈ r.concerned stop seeds := Graph.mem_reach hlt hf
  rw [get?_sweep, if_pos hmem] at h
  obtain ⟨old, -, rfl⟩ := Option.map_eq_some_iff.1 h
  exact truthful_settle hconnected

end Registry

namespace Coordinator

variable {s : Coordinator} {e : Event} {out : Step} {f g : FederateId} {c : ConnectionId}
variable {record old : FederateRecord} {change : FederateRecord → FederateRecord}

/-- What has come of the state of `f` by an event after which it is joined. -/
inductive Relabels (s : Coordinator) (e : Event) (f : FederateId) (record : FederateRecord) : Prop
  | truthful (h : record.Truthful)
  | kept {old : FederateRecord} (hold : s.registry.get? f = some old) (hkeeps : old.Keeps record)
  /-- The federate has completed more than it had announced. -/
  | passed {c : ConnectionId} {old : FederateRecord} {tag : Tag}
      (he : e = .messageReceived c (.logicalTagComplete tag)) (hold : s.Joined c f old)
      (hlt : old.nextEvent < tag) (heq : record = completing tag old)

theorem relabels_of_registry_eq {r : Registry} (hregistry : r = s.registry)
    (hf : r.get? f = some record) : s.Relabels e f record :=
  .kept (hregistry ▸ hf) (.refl record)

theorem relabels_of_modify (hg : s.registry.get? g = some old)
    (hself : g = f → (change old).isConnected → s.Relabels e f (change old))
    (hf : (s.registry.modify g change).get? f = some record) (hconnected : record.isConnected) :
    s.Relabels e f record := by
  rcases Registry.get?_modify_cases hg hf with ⟨hgf, rfl⟩ | ⟨-, hf⟩
  · exact hself hgf hconnected
  · exact .kept hf (.refl record)

theorem relabels_of_sweep {stop : Option Tag} {seeds : List FederateId}
    (hg : s.registry.get? g = some old)
    (hself : g = f → (change old).isConnected → s.Relabels e f (change old))
    (hf : ((s.registry.modify g change).sweep stop seeds).1.get? f = some record)
    (hconnected : record.isConnected) : s.Relabels e f record := by
  rcases Registry.truthful_or_of_sweep hf hconnected with htruthful | hf
  · exact .truthful htruthful
  · exact relabels_of_modify hg hself hf hconnected

theorem relabels_depart (h : s.Joined c g old)
    (hf : (s.depart g c).1.registry.get? f = some record) (hconnected : record.isConnected) :
    s.Relabels e f record := by
  rw [depart_fst h.get?_eq] at hf
  refine relabels_of_sweep h.get?_eq (fun _ hleft => ?_) hf hconnected
  cases hleft

/-- A change to the record of `g` that has nothing to do with its state. -/
theorem relabels_of_keeps (hg : s.registry.get? g = some old) (hkeeps : old.Keeps (change old))
    (hf : (s.registry.modify g change).get? f = some record) (hconnected : record.isConnected) :
    s.Relabels e f record :=
  relabels_of_modify hg (fun hgf _ => .kept (hgf ▸ hg) hkeeps) hf hconnected

theorem relabels_contribute (hg : s.registry.get? g = some old)
    (result : StopNegotiation × StopOutcome)
    (hf : (s.contribute g result).1.registry.get? f = some record)
    (hconnected : record.isConnected) : s.Relabels e f record := by
  rcases contribute_fst s g result with heq | heq | heq
  · exact relabels_of_registry_eq (by rw [heq]) hf
  · exact relabels_of_registry_eq (by rw [heq]) hf
  · rw [heq] at hf
    exact relabels_of_keeps hg ⟨rfl, rfl, rfl, rfl, le_refl _⟩ hf hconnected

/-- The state of a joined federate is up to date after an event, or left as it was. -/
theorem Transition.relabels (h : Transition s e out) (hf : out.1.registry.get? f = some record)
    (hconnected : record.isConnected) : s.Relabels e f record := by
  cases h with
  | opened | ignored | closed | refused | abandoned | forwardedUntimed | forwardedTimed | queried
  | timer => exact relabels_of_registry_eq rfl hf
  | proposed =>
    refine relabels_of_registry_eq ?_ hf
    rw [onTimestamp, settleStart_fst]
  | advertised => exact relabels_of_registry_eq (registry_onAddressAd _ _ _) hf
  | @admitted _ _ g _ old _ _ hg =>
    exact relabels_of_modify hg (fun _ _ => .truthful (old.truthful_join _ _)) hf hconnected
  | @nextEvent _ g old tag hjoined =>
    by_cases hgf : g = f
    · exact .truthful (Registry.truthful_of_mem_seeds (List.mem_singleton.2 hgf.symm) hf hconnected)
    · exact relabels_of_sweep hjoined.get?_eq (fun heq => absurd heq hgf) hf hconnected
  | @completed _ g old tag hjoined htag =>
    refine relabels_of_sweep hjoined.get?_eq (fun hgf _ => ?_) hf hconnected
    by_cases hle : tag ≤ old.nextEvent
    · exact .kept (hgf ▸ hjoined.get?_eq) (FederateRecord.keeps_completing htag hle)
    · exact .passed rfl (hgf ▸ hjoined) (not_le.1 hle) rfl
  | requested _ hjoined | replied _ hjoined =>
    exact relabels_contribute hjoined.get?_eq _ hf hconnected
  | departed hjoined => exact relabels_depart hjoined hf hconnected
  | expelled _ hjoined => exact relabels_depart hjoined hf hconnected
  | probed address hg =>
    rcases onClockSyncProbe_fst s _ address with heq | ⟨clock, heq⟩
    · exact relabels_of_registry_eq (by rw [heq]) hf
    · rw [heq] at hf
      exact relabels_of_keeps hg (FederateRecord.alike_registerClock _ address).keeps hf hconnected

end Coordinator

namespace Run

variable {t : Topology} {settings : CoordinatorSettings} {history : List Moment} {s : Coordinator}
variable {f : FederateId} {record : FederateRecord}

/-- The state of a joined federate says whether it might go on to the next event that it had at an
earlier moment, since when nothing has been granted to it. Its next event is the same now, unless it
has since then completed more than it had announced. -/
theorem label_of_earlier (run : Run t settings history s) (hf : s.registry.get? f = some record)
    (hconnected : record.isConnected) : ∃ earlier later old, history = earlier ++ later ∧
      (lastState (.ofTopology t settings) earlier).registry.get? f = some old ∧
      old.connection = record.connection ∧ old.lastGranted = record.lastGranted ∧
      record.state = (if old.nextEvent ≠ .never ∧ old.nextEvent ≤ record.lastGranted then .granted
        else .pending) ∧
      (old.nextEvent = record.nextEvent ∨
        old.nextEvent < record.nextEvent ∧ record.completed = record.nextEvent ∧
          ∃ m ∈ later, ∃ c, record.connection = some c ∧
            m.event = .messageReceived c (.logicalTagComplete record.nextEvent)) := by
  induction run generalizing record with
  | start =>
    rw [Coordinator.get?_ofTopology hf] at hconnected
    cases hconnected
  | @event history s run now e fresh ih =>
    have hs := consistent_setTime run.consistent now
    have hrun := run.event now e fresh
    cases (Coordinator.handle_transition hs e).relabels hf hconnected with
    | truthful h =>
      refine ⟨_, [], record, (List.append_nil _).symm, ?_, rfl, rfl, h, Or.inl rfl⟩
      rw [hrun.lastState_eq]
      exact hf
    | @kept before hold hkeeps =>
      rw [hkeeps.isConnected] at hconnected
      obtain ⟨earlier, later, old, rfl, hearlier, hconnection, hgranted, hstate, hnext⟩ :=
        ih hold hconnected
      refine ⟨earlier, later ++ [_], old, List.append_assoc _ _ _, hearlier,
        hconnection.trans hkeeps.connection.symm, hgranted.trans hkeeps.lastGranted.symm, ?_, ?_⟩
      · rw [hkeeps.state, hkeeps.lastGranted]
        exact hstate
      · rw [hkeeps.nextEvent, hkeeps.connection]
        refine hnext.imp_right fun ⟨hlt, hcompleted, m, hm, hevent⟩ =>
          ⟨hlt, ?_, m, List.mem_append_left _ hm, hevent⟩
        refine le_antisymm ?_ (hcompleted ▸ hkeeps.completed)
        rw [← hkeeps.nextEvent]
        exact hrun.ordered f record hf
    | @passed c before tag he hold hlt heq =>
      subst heq
      obtain ⟨earlier, later, old, rfl, hearlier, hconnection, hgranted, hstate, hnext⟩ :=
        ih hold.get?_eq hold.connected
      have htag : (Coordinator.completing tag before).nextEvent = tag := max_eq_right (le_of_lt hlt)
      have hle : old.nextEvent ≤ before.nextEvent := hnext.elim le_of_eq fun h => le_of_lt h.1
      refine ⟨earlier, later ++ [_], old, List.append_assoc _ _ _, hearlier, hconnection, hgranted,
        hstate, Or.inr ?_⟩
      rw [htag]
      exact ⟨lt_of_le_of_lt hle hlt, rfl, _, List.mem_append_right _ List.mem_cons_self, c,
        hold.connection, he⟩

end Run

namespace Relay

/-- The source has announced 20, and been granted it, and now completes 25. -/
def overtakingEvents : List Event := [.messageReceived ⟨0⟩ (.logicalTagComplete (.ofTime 25))]

def overtakingHistory : List Moment := history ++ state.trace overtakingEvents

def overtakingState : Coordinator := (state.handleAll overtakingEvents).1

theorem run_overtaking : Run plan.graph {} overtakingHistory overtakingState :=
  run.append_trace overtakingEvents (by decide)

theorem get?_overtaking : ∃ record, overtakingState.registry.get? ⟨0⟩ = some record ∧
    record.isConnected ∧ record.connection = some ⟨0⟩ ∧ record.state = .granted ∧
    record.nextEvent = .ofTime 25 ∧ record.lastGranted = .ofTime 20 := by
  have hrecord : ∀ record ∈ overtakingState.registry.get? ⟨0⟩, record.isConnected ∧
      record.connection = some ⟨0⟩ ∧ record.state = .granted ∧ record.nextEvent = .ofTime 25 ∧
      record.lastGranted = .ofTime 20 := by
    decide +kernel
  obtain ⟨record, hf⟩ := run_overtaking.exists_record (f := ⟨0⟩) (by decide)
  exact ⟨record, hf, hrecord record hf⟩

end Relay

namespace Run

theorem label_of_earlier_relay : Run Relay.plan.graph {} Relay.overtakingHistory
      Relay.overtakingState ∧
    ∃ record, Relay.overtakingState.registry.get? ⟨0⟩ = some record ∧ record.isConnected ∧
      ∃ earlier later old, Relay.overtakingHistory = earlier ++ later ∧
        (lastState (.ofTopology Relay.plan.graph {}) earlier).registry.get? ⟨0⟩ = some old ∧
        old.nextEvent ≤ .ofTime 20 ∧ record.nextEvent = .ofTime 25 ∧ ∃ m ∈ later,
          m.event = .messageReceived ⟨0⟩ (.logicalTagComplete (.ofTime 25)) := by
  obtain ⟨record, hf, hconnected, hconnection, hgranted, hnext, hlast⟩ := Relay.get?_overtaking
  obtain ⟨earlier, later, old, heq, hold, -, -, hstate, hcases⟩ :=
    Relay.run_overtaking.label_of_earlier hf hconnected
  have hle : old.nextEvent ≤ .ofTime 20 := by
    by_contra hnot
    rw [hgranted, hlast, if_neg fun h => hnot h.2] at hstate
    cases hstate
  refine ⟨Relay.run_overtaking, record, hf, hconnected, earlier, later, old, heq, hold, hle, hnext,
    ?_⟩
  rw [hnext] at hcases
  rcases hcases with hsame | ⟨-, -, m, hm, c, hc, hevent⟩
  · rw [hsame] at hle
    exact absurd hle (by decide)
  · obtain rfl := Option.some.inj (hconnection.symm.trans hc)
    exact ⟨m, hm, hevent⟩

/-- The source is granted in a state in which it may not go on to its next event. -/
theorem not_label_truthful : Run Relay.plan.graph {} Relay.overtakingHistory
      Relay.overtakingState ∧
    ∃ record, Relay.overtakingState.registry.get? ⟨0⟩ = some record ∧ record.isConnected ∧
      record.state = .granted ∧
      ¬ (record.nextEvent ≠ .never ∧ record.nextEvent ≤ record.lastGranted) := by
  obtain ⟨record, hf, hconnected, -, hgranted, hnext, hlast⟩ := Relay.get?_overtaking
  refine ⟨Relay.run_overtaking, record, hf, hconnected, hgranted, ?_⟩
  rw [hnext, hlast]
  decide

end Run

end FederatedTime
