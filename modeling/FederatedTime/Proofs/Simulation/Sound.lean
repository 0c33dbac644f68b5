import FederatedTime.Proofs.Coordinator.Completion
import FederatedTime.Proofs.Coordinator.GrantSafety
import FederatedTime.Proofs.Coordinator.StartAgreement
import FederatedTime.Proofs.Simulation.Response
import FederatedTime.Proofs.Simulation.Setup

/-!
# A simulation runs the coordinator

The coordinator of a simulation is in a run: whatever reaches it has been sent by a federate on the
connection of that federate, which is opened once, when the federate starts. What the checks
remember is what the history of that run shows (`Sound`), and every delivery keeps it so
(`Sound.turn`).
-/

namespace FederatedTime

namespace Simulation

/-! ## Events of federates -/

/-- The event comes from `f`, which joins in no name but its own. -/
structure Own (f : FederateId) (e : Event) : Prop where
  connection? : e.connection? = some (connectionOf f)
  join : ∀ c g federationId, e = .messageReceived c (.join g federationId) → g = f

theorem own_event {f : FederateId} {federate : ScriptedFederate} {message : Message} {now : Int64}
    {output : Output} (h : output ∈ (federate.onMessage message now).2) :
    Own f (output.event f) where
  connection? := Output.connection?_event f output
  join c g federationId heq := by
    cases output with
    | send message' =>
      obtain ⟨-, rfl⟩ := Event.messageReceived.inj heq
      exact absurd h (federate.join_not_mem message now g federationId)
    | disconnect => cases heq

/-! ## Last grants -/

/-- What holds of the last grant to `f` and of every grant that is sent to `f` holds of the last
grant afterwards. -/
theorem getD_foldl_noteGrant {P : Tag → Prop} {granted : Roster Tag} {actions : List Action}
    {f : FederateId} (hnever : P .never) (hlast : P (granted.getD f .never))
    (hsent : ∀ c tag, federateOn c = f → .send c (.timeAdvanceGrant tag) ∈ actions → P tag) :
    P ((actions.foldl noteGrant granted).getD f .never) := by
  induction actions generalizing granted with
  | nil => exact hlast
  | cons a actions ih =>
    refine ih ?_ fun c tag hc hmem => hsent c tag hc (List.mem_cons_of_mem a hmem)
    unfold noteGrant
    split
    · rename_i c tag
      rw [Roster.getD, Roster.get?_set]
      split
      · rename_i hc
        cases granted.get? f with
        | none => exact hnever
        | some old => exact hsent c tag hc List.mem_cons_self
      · exact hlast
    · exact hlast

/-! ## The invariant -/

/-- The coordinator is in a run, with the given history, and what the checks remember is what the
history shows. -/
structure Sound (t : Topology) (history : List Moment) (s : Simulation) : Prop where
  run : Run t { clockSync := .disabled } history s.coordinator
  orderly : s.Orderly
  /-- A connection is opened after its federate has started, and once. -/
  fresh : (s.starting.map connectionOf ++ (s.events.filterMap (·.opens?) ++ opened history)).Nodup
  own : ∀ e ∈ s.events, ∃ f, Own f e
  /-- Every federate is joined on its own connection. -/
  seated : ∀ c f, s.coordinator.sessions.get? c = some (.joined f) → c = connectionOf f
  granted : ∀ f, s.granted.getD f .never = .never ∨
    s.granted.getD f .never ∈ grantsOn (connectionOf f) history
  told : ∀ f time, .timestamp time ∈ s.sentTo f → s.coordinator.startTime = some time
  heard : ∀ federate ∈ s.federates.toList, ∀ time, federate.startTime = some time →
    s.coordinator.startTime = some time

variable {t : Topology} {history : List Moment} {s s' : Simulation} {e : Event} {f : FederateId}

namespace Sound

/-! ### An event under way -/

section Event

variable (h : Sound t history s) (he : e ∈ s.events)
include h he

theorem not_mem_opened : ∀ c ∈ e.opens?, c ∉ opened history := by
  intro c hc hmem
  have hnodup := (List.nodup_append.1 h.fresh).2.1
  exact (List.nodup_append.1 hnodup).2.2 c (List.mem_filterMap.2 ⟨e, he, hc⟩) c hmem rfl

theorem run_event (now : Duration) : Run t { clockSync := .disabled }
    (history ++ [(s.coordinator.setTime now).moment e]) ((s.coordinator.setTime now).handle e).1 :=
  h.run.event now e (h.not_mem_opened he)

theorem seated_event (now : Duration) : ∀ c f,
    ((s.coordinator.setTime now).handle e).1.sessions.get? c = some (.joined f) →
      c = connectionOf f := by
  intro c f hjoined
  have htransition := Coordinator.handle_transition (Run.consistent_setTime h.run.consistent now) e
  rcases htransition.sessions with
    heq | ⟨d, heq⟩ | ⟨d, peer, heq⟩ | ⟨d, g, federationId, hjoin, heq⟩
  · rw [heq] at hjoined
    exact h.seated c f hjoined
  · rw [heq, Sessions.get?_remove] at hjoined
    split at hjoined
    · cases hjoined
    · exact h.seated c f hjoined
  · rw [heq, Sessions.get?_put] at hjoined
    split at hjoined
    · cases hjoined
    · exact h.seated c f hjoined
  · rw [heq, Sessions.get?_put] at hjoined
    split at hjoined
    · rename_i hc
      obtain rfl := Session.joined.inj (Option.some.inj hjoined)
      obtain ⟨f, hown⟩ := h.own e he
      have hconnection := hown.connection?
      rw [hjoin] at hconnection
      rw [hc, hown.join d g federationId hjoin]
      exact Option.some.inj hconnection
    · exact h.seated c f hjoined

/-- A grant goes to a federate on its own connection, and is its bound clamped to the stop tag. -/
theorem exists_bound_of_grant (now : Duration) {c : ConnectionId} {tag : Tag}
    (hgrant : .send c (.timeAdvanceGrant tag) ∈ ((s.coordinator.setTime now).handle e).2) :
    c = connectionOf (federateOn c) ∧
      ∃ b, ((s.coordinator.setTime now).handle e).1.registry.admissibleBound (federateOn c) =
        some b ∧ tag = b.clamp ((s.coordinator.setTime now).handle e).1.stopTag := by
  obtain ⟨g, record, hjoined, -, hbound⟩ :=
    h.run.exists_bound_of_grant now e (h.not_mem_opened he) hgrant
  have hc := h.seated_event he now c g hjoined.session
  have hg : federateOn c = g := by rw [hc, federateOn_connectionOf]
  rw [hg]
  exact ⟨hc, hbound⟩

end Event

/-! ### Deliveries -/

/-- What the coordinator has no part in leaves the run as it is. -/
theorem of_coordinator_eq (h : Sound t history s) (ho : s'.Orderly)
    (hcoordinator : s'.coordinator = s.coordinator) (hgranted : s'.granted = s.granted)
    (hfresh : (s'.starting.map connectionOf ++
      (s'.events.filterMap (·.opens?) ++ opened history)).Nodup)
    (hown : ∀ e ∈ s'.events, ∃ f, Own f e)
    (htold : ∀ f, ∀ message ∈ s'.sentTo f, message ∈ s.sentTo f)
    (hheard : ∀ federate ∈ s'.federates.toList, ∀ time, federate.startTime = some time →
      s.coordinator.startTime = some time) : Sound t history s' where
  run := hcoordinator ▸ h.run
  orderly := ho
  fresh := hfresh
  own := hown
  seated := hcoordinator ▸ h.seated
  granted := hgranted ▸ h.granted
  told f time hmem := by
    rw [hcoordinator]
    exact h.told f time (htold f _ hmem)
  heard := hcoordinator ▸ hheard

theorem started (h : Sound t history s) (ho : s'.Orderly) (hturn : Started s s' f) :
    Sound t history s' := by
  refine h.of_coordinator_eq ho hturn.coordinator hturn.granted ?_ (fun e he => ?_)
    (fun g message hmessage => hturn.sentTo g ▸ hmessage) (hturn.federates ▸ h.heard)
  · refine (List.Perm.nodup_iff ?_).1 h.fresh
    have hopens := hturn.events.filterMap (·.opens?)
    rw [hturn.starting, List.map_cons]
    refine List.perm_middle.symm.trans (.append_left _ ?_)
    exact (hopens.symm.append_right (opened history))
  · rcases List.mem_cons.1 (hturn.events.mem_iff.1 he) with rfl | he
    · exact ⟨f, rfl, nofun⟩
    rcases List.mem_cons.1 he with rfl | he
    · refine ⟨f, rfl, fun c g federationId heq => ?_⟩
      exact (Message.join.inj (Event.messageReceived.inj heq).2).1.symm
    · exact h.own e he

theorem answered {p : Topology.Plan} (hbuild : p.build = .ok t) (h : Sound t history s)
    (ho : s'.Orderly) {now : Duration} (hturn : Answered s s' now e) :
    Sound t (history ++ [(s.coordinator.setTime now).moment e]) s' := by
  have he : e ∈ s.events := hturn.events.mem_iff.2 List.mem_cons_self
  have hstart := h.run.startStep hbuild now e
  refine ⟨?_, ho, ?_, fun e' he' => ?_, ?_, fun g => ?_, fun g time htold => ?_, ?_⟩
  · rw [hturn.coordinator]
    exact h.run_event he now
  · refine (List.Perm.nodup_iff ?_).1 h.fresh
    have hopens := hturn.events.filterMap (·.opens?)
    rw [hturn.starting, Run.opened_append, Run.opened_moment]
    refine .append_left _ ((hopens.append_right _).trans ?_)
    rw [← List.append_assoc]
    refine .trans ?_ List.perm_append_comm
    rw [← List.append_assoc, List.filterMap_cons]
    cases e.opens? <;> exact .refl _
  · exact h.own e' (hturn.events.mem_iff.2 (List.mem_cons_of_mem e he'))
  · rw [hturn.coordinator]
    exact h.seated_event he now
  · rw [hturn.granted, grantsOn_append_singleton]
    apply getD_foldl_noteGrant (P := fun tag => tag = .never ∨
      tag ∈ grantsOn (connectionOf g) history ++ Action.grantsTo (connectionOf g)
        ((s.coordinator.setTime now).handle e).2) (Or.inl rfl)
    · exact (h.granted g).imp_right (List.mem_append_left _)
    intro c tag hc htag
    refine Or.inr (List.mem_append_right _ ?_)
    rw [← hc, ← (h.exists_bound_of_grant he now htag).1]
    exact Action.mem_grantsTo.2 (Action.mem_grants.2 htag)
  · rw [hturn.coordinator]
    rw [hturn.sentTo, List.mem_append] at htold
    rcases htold with htold | htold
    · exact hstart.startTime_eq (h.told g time htold)
    · obtain ⟨c, -, hsent⟩ := mem_messagesFor.1 htold
      exact hstart.startTime_eq_of_sent hsent
  · rw [hturn.coordinator, hturn.federates]
    exact fun federate hfederate time htime =>
      hstart.startTime_eq (h.heard federate hfederate time htime)

theorem heard_message (h : Sound t history s) (ho : s'.Orderly) {federate : ScriptedFederate}
    {message : Message} {now : Int64} (hturn : Heard s s' f federate message now) :
    Sound t history s' := by
  refine h.of_coordinator_eq ho hturn.coordinator hturn.granted ?_ (fun e he => ?_)
    (fun g message hmessage => ?_) fun federate' hfederate' time htime => ?_
  · have hopens := hturn.events.filterMap (·.opens?)
    have hnone : ((federate.onMessage message now).2.map (·.event f)).filterMap
        (·.opens?) = [] := by
      rw [List.filterMap_map]
      exact List.filterMap_eq_nil_iff.2 fun output _ => Output.opens?_event f output
    rw [List.filterMap_append, hnone, List.nil_append] at hopens
    rw [hturn.starting]
    exact (List.Perm.nodup_iff ((hopens.append_right _).append_left _)).2 h.fresh
  · rcases List.mem_append.1 (hturn.events.mem_iff.1 he) with he | he
    · obtain ⟨output, houtput, rfl⟩ := List.mem_map.1 he
      exact ⟨f, own_event houtput⟩
    · exact h.own e he
  · rw [hturn.sentTo]
    exact List.mem_append_right _ hmessage
  · rw [hturn.federates, Roster.toList_set] at hfederate'
    rcases List.mem_or_eq_of_mem_set hfederate' with hold | rfl
    · exact h.heard federate' hold time htime
    · rcases ScriptedFederate.startTime_onMessage htime with hold | rfl
      · exact h.heard federate (Roster.mem_toList_of_get? hturn.get?_eq) time hold
      · refine h.told f time ?_
        rw [hturn.sentTo, if_pos rfl]
        exact List.mem_append_left _ List.mem_cons_self

theorem missed (h : Sound t history s) (ho : s'.Orderly) {message : Message}
    (hturn : Missed s s' f message) : Sound t history s' := by
  refine h.of_coordinator_eq ho hturn.coordinator hturn.granted ?_ (hturn.events ▸ h.own)
    (fun g message hmessage => ?_) (hturn.federates ▸ h.heard)
  · rw [hturn.starting, hturn.events]
    exact h.fresh
  · rw [hturn.sentTo]
    exact List.mem_append_right _ hmessage

/-- A simulation goes on as it should. -/
theorem turn {p : Topology.Plan} (hbuild : p.build = .ok t) (h : Sound t history s)
    (hstep : s.step? = some (s', none)) : Turn s s' ∧ ∃ later, Sound t (history ++ later) s' := by
  obtain ⟨ho, hturn⟩ := h.orderly.turn hstep
  refine ⟨hturn, ?_⟩
  cases hturn with
  | started hturn => exact ⟨[], (List.append_nil history).symm ▸ h.started ho hturn⟩
  | answered hturn => exact ⟨_, h.answered hbuild ho hturn⟩
  | heard hturn => exact ⟨[], (List.append_nil history).symm ▸ h.heard_message ho hturn⟩
  | missed hturn => exact ⟨[], (List.append_nil history).symm ▸ h.missed ho hturn⟩

end Sound

/-! ### The beginning -/

theorem sound_ofScripts {p : Topology.Plan} (hbuild : p.build = .ok t) {scripts : List Script}
    (hscripts : scripts.length ≤ t.size) (latency : Latency) (drawing : Drawing)
    (random : RandomStream) (link : UInt64 → RandomStream) :
    Sound t [] (ofScripts t scripts latency drawing random link) where
  run := .start
  orderly := orderly_ofScripts t scripts latency drawing random link
  fresh := by
    have hevents : (ofScripts t scripts latency drawing random link).events = [] :=
      underWay_ofScripts_eq_nil t scripts latency drawing random link fun _ => rfl
    have hsize := (Topology.Plan.wellFormed_of_build hbuild).size_le
    have hids : (FederateId.firstIds scripts.length).Nodup :=
      FederateId.nodup_firstIds (hscripts.trans hsize)
    rw [hevents]
    have hstarting :=
      (starting_ofScripts_perm t scripts latency drawing random link).nodup_iff.2 hids
    have hopening := hstarting.map fun _ _ => connectionOf_injective
    simpa [opened] using hopening
  own e he := by
    have hevents : (ofScripts t scripts latency drawing random link).events = [] :=
      underWay_ofScripts_eq_nil t scripts latency drawing random link fun _ => rfl
    rw [hevents] at he
    cases he
  seated c f h := by cases h
  granted f := by
    refine Or.inl ?_
    show ((Roster.replicate t.size Tag.never).get? f).getD .never = .never
    rw [Roster.get?_replicate]
    split <;> rfl
  told f time h := by
    have hsent : (ofScripts t scripts latency drawing random link).sentTo f = [] :=
      underWay_ofScripts_eq_nil t scripts latency drawing random link fun _ => rfl
    rw [hsent] at h
    cases h
  heard federate hfederate time htime := by
    have hmem : federate ∈ scripts.mapIdx fun i script =>
      ScriptedFederate.ofScript (.ofNat i) script := hfederate
    obtain ⟨i, hi, rfl⟩ := List.mem_mapIdx.1 hmem
    cases htime

end Simulation

end FederatedTime
