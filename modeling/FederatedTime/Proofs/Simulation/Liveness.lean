import FederatedTime.Proofs.Coordinator.GrantLiveness
import FederatedTime.Proofs.Simulation.Course
import FederatedTime.Proofs.Simulation.Safety
import FederatedTime.Proofs.Simulation.Traffic
import FederatedTime.Proofs.Simulation.Weight

/-!
# A simulation runs to its end

Where all scripts are steady, every federate goes through its phases and nobody asks for a stop
(`Lively`); so no check can object to anything, and the potential falls until nothing is under way.
By then every federate is through: along dependencies that lead from lower numbers to higher ones,
the first federate that was not would depend on federates that have left alone, and so would have
been granted its next event (`Lively.gone_of_rest`). Thus no simulation stalls (`run_completes`).
-/

namespace FederatedTime

namespace Simulation

/-- The federate `f` has no part in a simulation. -/
structure Absent (s : Simulation) (f : FederateId) : Prop where
  starting : f ∉ s.starting
  sentBy : s.sentBy f = []
  federate : s.federates.get? f = none

/-- The federate `f` has processed its script, and the coordinator knows that it has left. -/
structure Gone (s : Simulation) (f : FederateId) (script : Script) : Prop where
  federate : ∃ federate, s.federates.get? f = some federate ∧ Through script federate
  record : ∃ record, s.coordinator.registry.get? f = some record ∧ record.state = .resigned

/-- Every federate is in a phase of its script, and nobody has asked for a stop. -/
structure Lively (t : Topology) (scripts : List Script) (s : Simulation) : Prop where
  sound : ∃ history, Sound t history s
  size_eq : s.federates.size = scripts.length
  idle : s.coordinator.stop = .idle
  phase : ∀ f script, scripts[f.index]? = some script → Phase t s f script
  absent : ∀ f, scripts[f.index]? = none → Absent s f

variable {t : Topology} {history : List Moment} {s s' : Simulation} {e : Event} {f : FederateId}
variable {scripts : List Script} {script : Script} {p : Topology.Plan} {more : List Message}

theorem Overhears.absent (h : Overhears s s' f more) (ha : Absent s f) : Absent s' f where
  starting := mt h.starting.1 ha.starting
  sentBy := h.sentBy.trans ha.sentBy
  federate := h.federate.trans ha.federate

theorem mem_sentBy_of_own (he : e ∈ s.events) (hown : Own f e) : e ∈ s.sentBy f := by
  obtain ⟨d, hd, hevent⟩ := mem_underWay.1 he
  refine mem_underWay.2 ⟨d, hd, ?_⟩
  cases hdelivery : d.event with
  | toCoordinator e' =>
    rw [hdelivery] at hevent
    obtain rfl := Option.some.inj hevent
    rw [eventOf?_toCoordinator hown.connection?, if_pos rfl]
  | start | toFederate =>
    rw [hdelivery] at hevent
    cases hevent

namespace Lively

/-! ### Deliveries -/

/-- Whatever reaches the coordinator comes from a federate that has a script. -/
theorem exists_phase (h : Lively t scripts s) (he : e ∈ s.events) : ∃ f script,
    scripts[f.index]? = some script ∧ Own f e ∧ Phase t s f script ∧ e.stopTime? = none := by
  obtain ⟨history, hsound⟩ := h.sound
  obtain ⟨f, hown⟩ := hsound.own e he
  have hsent := mem_sentBy_of_own he hown
  cases hscript : scripts[f.index]? with
  | none =>
    rw [(h.absent f hscript).sentBy] at hsent
    cases hsent
  | some script =>
    have hphase := h.phase f script hscript
    exact ⟨f, script, hscript, hown, hphase, hphase.stopTime?_eq_none e hsent⟩

/-- One federate may act, and all others overhear it. -/
theorem next (h : Lively t scripts s) (hsound : ∃ history, Sound t history s')
    (hsize : s'.federates.size = s.federates.size) (hidle : s'.coordinator.stop = .idle)
    (hphase : ∀ script, scripts[f.index]? = some script → Phase t s' f script)
    (habsent : scripts[f.index]? = none → Absent s' f)
    (hothers : ∀ g, g ≠ f → ∃ more, Overhears s s' g more) : Lively t scripts s' where
  sound := hsound
  size_eq := hsize.trans h.size_eq
  idle := hidle
  phase g script hscript := by
    by_cases hgf : g = f
    · subst hgf
      exact hphase script hscript
    · obtain ⟨more, hmore⟩ := hothers g hgf
      exact (h.phase g script hscript).overhears hmore
  absent g hscript := by
    by_cases hgf : g = f
    · subst hgf
      exact habsent hscript
    · obtain ⟨more, hmore⟩ := hothers g hgf
      exact hmore.absent (h.absent g hscript)

theorem turn (hbuild : p.build = .ok t) (hscripts : ∀ script ∈ scripts, script.Steady)
    (h : Lively t scripts s) (hstep : s.step? = some (s', none)) : Lively t scripts s' := by
  obtain ⟨history, hsound⟩ := h.sound
  obtain ⟨hturn, later, hsound'⟩ := hsound.turn hbuild hstep
  have hsize := hturn.size_federates_eq
  cases hturn with
  | @started f hturn =>
    refine h.next ⟨_, hsound'⟩ hsize (hturn.coordinator.symm ▸ h.idle) ?_ ?_
      fun g hne => ⟨[], hturn.overhears hne⟩
    · exact fun script hscript => (h.phase f script hscript).started hsound hturn
    · intro hnone
      exact absurd (hturn.starting ▸ List.mem_cons_self) (h.absent f hnone).starting
  | @answered now e hturn =>
    have he := hturn.events.mem_iff.2 (List.mem_cons_self (l := s'.events))
    obtain ⟨f, script, hscript, hown, hphase, hmute⟩ := h.exists_phase he
    have hs := Run.consistent_setTime hsound.run.consistent now
    refine h.next ⟨_, hsound'⟩ hsize ?_ (fun script' hscript' => ?_) (fun hnone => ?_)
      fun g hne => ⟨_, hsound.overhears hbuild hturn h.idle hmute hown hne⟩
    · rw [hturn.coordinator]
      exact ((Coordinator.handle_transition hs e).idle h.idle hmute).1
    · exact (h.phase f script' hscript').answered hbuild hsound h.idle hturn hown
    · rw [hscript] at hnone
      cases hnone
  | @heard f federate message now hturn =>
    refine h.next ⟨_, hsound'⟩ hsize (hturn.coordinator.symm ▸ h.idle) ?_ (fun hnone => ?_)
      fun g hne => ⟨[], hturn.overhears hne⟩
    · intro script hscript
      have hsteady := hscripts script (List.mem_of_getElem? hscript)
      exact (h.phase f script hscript).heard hsteady hturn
    · have hfederate := (h.absent f hnone).federate
      rw [hturn.get?_eq] at hfederate
      cases hfederate
  | @missed f message hturn =>
    refine h.next ⟨_, hsound'⟩ hsize (hturn.coordinator.symm ▸ h.idle) (fun script hscript => ?_)
      (fun hnone => ?_) fun g hne => ⟨[], hturn.overhears hne⟩
    · obtain ⟨federate, hfederate⟩ := (h.phase f script hscript).exists_federate
      rw [hturn.get?_eq] at hfederate
      cases hfederate
    · obtain ⟨hstarting, hsent, hfederate⟩ := h.absent f hnone
      exact ⟨hturn.starting ▸ hstarting, (hturn.sentBy f).trans hsent,
        hturn.federates ▸ hfederate⟩

/-- No check objects to anything. -/
theorem not_fault (hbuild : p.build = .ok t) (h : Lively t scripts s) {violation : Violation} :
    s.step? ≠ some (s', some violation) := by
  intro hstep
  obtain ⟨history, hsound⟩ := h.sound
  obtain ⟨now, e, he, c, time, hsent, -⟩ := hsound.stopFault_of_fault hbuild hstep
  obtain ⟨f, script, -, -, -, hmute⟩ := h.exists_phase he
  have hs := Run.consistent_setTime hsound.run.consistent now
  have hmessage := ((Coordinator.handle_transition hs e).idle h.idle hmute).2 _ _ hsent
  cases hmessage

/-! ### At rest -/

section Rest

variable (h : Lively t scripts s) (hrest : s.step? = none)
include h hrest

/-- When nothing is under way, a federate that is not through has not been granted its next
event. -/
theorem works_or_gone (hscript : scripts[f.index]? = some script) :
    (∃ federate next record, AtWork script federate next ∧
      s.coordinator.Joined (connectionOf f) f record ∧
      record.progress = ⟨federate.completed, next⟩ ∧ record.lastGranted < next) ∨
    Gone s f script := by
  have hnothing {β : Type} (pick : Delivery → Option β) : s.underWay pick = [] := by
    unfold underWay
    rw [step?_eq_none_iff.1 hrest]
    rfl
  have hsentBy : s.sentBy f = [] := hnothing _
  have hsentTo : s.sentTo f = [] := hnothing _
  cases h.phase f script hscript with
  | asleep hstarting =>
    have hstarting' : s.starting = [] := hnothing _
    rw [hstarting'] at hstarting
    cases hstarting
  | opens _ _ _ hsent | joins _ _ _ _ hsent =>
    rw [hsentBy] at hsent
    cases hsent
  | admitted _ _ _ _ _ _ _ _ htold =>
    rw [hsentTo] at htold
    cases htold
  | works _ federate next _ h record hjoined reports hsent _ hprogress _ hgranted =>
    rw [hsentBy] at hsent
    obtain rfl := List.map_eq_nil_iff.1 hsent.symm
    rw [hsentTo] at hgranted
    exact Or.inl ⟨federate, next, record, h, hjoined, hprogress, hgranted ▸ h.lastGrant_lt⟩
  | leaves _ _ _ _ _ _ _ ending hsent =>
    rw [hsentBy] at hsent
    have hfarewell := (List.append_eq_nil_iff.1 hsent.symm).2
    cases ending with
    | resign | disconnect => cases hfarewell
  | gone _ federate hfederate h _ hrecord => exact Or.inr ⟨⟨federate, hfederate, h⟩, hrecord⟩

section Forward

variable (hbuild : p.build = .ok t) (hforward : ∀ u f, t.Feeds u f → u.index < f.index)
variable (hlength : scripts.length = t.size) (hscripts : ∀ script ∈ scripts, script.Steady)
include hbuild hforward hlength hscripts

/-- When nothing is under way, every federate is through. -/
theorem gone_of_rest (hscript : scripts[f.index]? = some script) : Gone s f script := by
  -- the federates that `f` depends on have lower numbers, and so are through already
  induction hindex : f.index using Nat.strongRecOn generalizing f script with
  | ind i ih =>
    subst hindex
    refine (h.works_or_gone hrest hscript).resolve_left ?_
    rintro ⟨federate, next, record, hwork, hjoined, hprogress, hlast⟩
    obtain ⟨history, hsound⟩ := h.sound
    have hcompleted : record.completed = federate.completed := congrArg (·.completed) hprogress
    have hnext : record.nextEvent = next := congrArg (·.next) hprogress
    have hsteady := hscripts script (List.mem_of_getElem? hscript)
    have hpending : record.completed < record.nextEvent := by
      rw [hcompleted, hnext]
      exact hwork.completed_lt hsteady
    have hstop : s.coordinator.stopTag = none := congrArg StopNegotiation.stopTag h.idle
    have hgranted : record.nextEvent ≤ record.lastGranted := by
      refine hsound.run.nextEvent_le_lastGranted hbuild hjoined.get?_eq hjoined.connected hpending
        hstop fun d hd => ?_
      have hlt := hforward d.federate f ⟨d, hd, rfl⟩
      have hsize := (Topology.Plan.wellFormed_of_build hbuild).upstream_lt f d hd
      have hscript' := List.getElem?_eq_getElem (l := scripts) (hsize.trans_eq hlength.symm)
      exact (ih d.federate.index hlt hscript' rfl).record
    rw [hnext] at hgranted
    exact absurd hlast (not_lt.2 hgranted)

theorem finished_of_rest : s.coordinator.finished = true := by
  obtain ⟨history, hsound⟩ := h.sound
  refine hsound.run.finished_of_allResigned hbuild ?_
  refine (Registry.allResigned_iff (hsound.run.size_le hbuild)).2 fun f record hrecord => ?_
  have hlt : f.index < scripts.length := by
    rw [hlength, ← hsound.run.registry_size_eq]
    exact Roster.index_lt_of_get? hrecord
  obtain ⟨record', hrecord', hresigned⟩ :=
    (h.gone_of_rest hrest hbuild hforward hlength hscripts (List.getElem?_eq_getElem hlt)).record
  obtain rfl := Option.some.inj (hrecord.symm.trans hrecord')
  exact hresigned

theorem waiting_of_rest : s.waiting = [] := by
  have hsize : s.federates.size ≤ Topology.maxFederates := by
    rw [h.size_eq, hlength]
    exact (Topology.Plan.wellFormed_of_build hbuild).size_le
  refine List.map_eq_nil_iff.2 (List.filter_eq_nil_iff.2 fun federate hfederate => ?_)
  rw [Roster.toList_eq_filterMap hsize] at hfederate
  obtain ⟨f, -, hf⟩ := List.mem_filterMap.1 hfederate
  have hlt : f.index < scripts.length := h.size_eq ▸ Roster.index_lt_of_get? hf
  obtain ⟨federate', hf', hthrough⟩ :=
    (h.gone_of_rest hrest hbuild hforward hlength hscripts (List.getElem?_eq_getElem hlt)).federate
  obtain rfl := Option.some.inj (hf.symm.trans hf')
  rw [hthrough.done]
  exact Bool.false_ne_true

theorem stallFault?_of_rest : s.stallFault? = none := by
  unfold stallFault?
  rw [h.waiting_of_rest hrest hbuild hforward hlength hscripts,
    h.finished_of_rest hrest hbuild hforward hlength hscripts]
  rfl

end Forward

end Rest

/-- A lively simulation comes to rest. -/
theorem exists_rest (hbuild : p.build = .ok t) (hscripts : ∀ script ∈ scripts, script.Steady)
    (h : Lively t scripts s) : ∃ last, s.runWithin s.potential = (last, none) ∧
      Lively t scripts last ∧ last.step? = none := by
  have hkeep (s s' : Simulation) (h : Lively t scripts s) (hstep : s.step? = some (s', none)) :=
    h.turn hbuild hscripts hstep
  obtain ⟨hfault, hlast⟩ := runWithin_induct (P := fun _ => False) hkeep
    (fun s s' violation h hstep => h.not_fault hbuild hstep) h s.potential
  have hnone : (s.runWithin s.potential).2 = none := Option.eq_none_iff_forall_not_mem.2 hfault
  have hrest : (s.runWithin s.potential).1.step? = none := by
    refine step?_eq_none_of_run hkeep (fun s s' h hstep => ?_) h (le_refl _) hnone
    obtain ⟨history, hsound⟩ := h.sound
    exact potential_step_lt hsound.run.consistent hstep
  exact ⟨_, Prod.ext rfl hnone, hlast hnone, hrest⟩

end Lively

/-! ## The beginning -/

theorem lively_ofScripts (hbuild : p.build = .ok t) (hlength : scripts.length = t.size)
    (latency : Latency) (drawing : Drawing) (random : RandomStream) (link : UInt64 → RandomStream) :
    Lively t scripts (ofScripts t scripts latency drawing random link) := by
  have hsound := sound_ofScripts hbuild (le_of_eq hlength) latency drawing random link
  have hsize := (Topology.Plan.wellFormed_of_build hbuild).size_le
  have hstarting {f : FederateId} :=
    mem_starting_ofScripts t scripts latency drawing random link (hlength.trans_le hsize) (f := f)
  have hsent (f : FederateId) : (ofScripts t scripts latency drawing random link).sentBy f = [] :=
    underWay_ofScripts_eq_nil t scripts latency drawing random link fun _ => rfl
  refine ⟨⟨[], hsound⟩, size_federates_ofScripts t scripts latency drawing random link, rfl,
    fun f script hscript => ?_, fun f hscript => ⟨?_, hsent f, ?_⟩⟩
  · have hlt : f.index < scripts.length := (List.getElem?_eq_some_iff.1 hscript).1
    obtain ⟨record, hrecord⟩ := hsound.run.exists_record (f := f) (hlength ▸ hlt)
    refine .asleep (hstarting.2 hlt) ⟨?_, ?_, record, hrecord, ?_⟩
      rfl (hsent f)
    · rw [get?_federates_ofScripts, hscript]
      rfl
    · exact underWay_ofScripts_eq_nil t scripts latency drawing random link fun _ => rfl
    · rw [Coordinator.get?_ofTopology hrecord]
      exact Bool.false_ne_true
  · intro hmem
    exact (List.getElem?_eq_none_iff.1 hscript).not_gt (hstarting.1 hmem)
  · rw [get?_federates_ofScripts, hscript]
    rfl

/-- A simulation in which every federate has a steady script, and dependencies lead from lower
numbers to higher ones, comes to its end without a violation: nothing is under way any more, the
federation has ended, and every federate has left when it had completed the last tag of its
script. -/
theorem run_completes (hbuild : p.build = .ok t)
    (hforward : ∀ u f, t.Feeds u f → u.index < f.index) (hlength : scripts.length = t.size)
    (hscripts : ∀ script ∈ scripts, script.Steady) (latency : Latency) (drawing : Drawing)
    (random : RandomStream) (link : UInt64 → RandomStream) :
    ∃ s, (ofScripts t scripts latency drawing random link).run = (s, none) ∧ s.step? = none ∧
      s.statistics.finished = true ∧
      ∀ f script, scripts[f.index]? = some script → ∃ federate,
        s.federates.get? f = some federate ∧ federate.done = true ∧
        federate.completed = script.tags.getLast?.getD .never := by
  have hlively := lively_ofScripts hbuild hlength latency drawing random link
  obtain ⟨s, hrun, hlast, hrest⟩ := hlively.exists_rest hbuild hscripts
  refine ⟨s, ?_, hrest, hlast.finished_of_rest hrest hbuild hforward hlength hscripts,
    fun f script hscript => ?_⟩
  · unfold run
    rw [hrun]
    exact congrArg (Prod.mk s)
      (hlast.stallFault?_of_rest hrest hbuild hforward hlength hscripts)
  · obtain ⟨federate, hfederate, hthrough⟩ :=
      (hlast.gone_of_rest hrest hbuild hforward hlength hscripts hscript).federate
    exact ⟨federate, hfederate, hthrough.done, hthrough.completed⟩

end Simulation

namespace Relay

theorem forward (u f : FederateId) (h : plan.graph.Feeds u f) : u.index < f.index := by
  have hall : ∀ i < plan.graph.size,
      ∀ d ∈ plan.graph.upstream (.ofNat i), d.federate.index < i := by decide
  obtain ⟨d, hd, rfl⟩ := h
  have hid : FederateId.ofNat f.index = f :=
    FederateId.index_injective (FederateId.index_ofNat f.number.toNat_lt)
  by_cases hf : f.index < plan.graph.size
  · exact hall f.index hf d (hid.symm ▸ hd)
  · rw [Topology.upstream_eq_nil (not_lt.1 hf)] at hd
    cases hd

end Relay

namespace Simulation

theorem run_completes_relay : ∃ s,
    (ofScripts Relay.plan.graph Relay.scripts {} (RandomStream.below .double) (ChaCha.stream 7)
      ChaCha.stream).run = (s, none) ∧ s.step? = none ∧ s.statistics.finished = true ∧
    ∀ f script, Relay.scripts[f.index]? = some script → ∃ federate,
      s.federates.get? f = some federate ∧ federate.done = true ∧
      federate.completed = script.tags.getLast?.getD .never :=
  run_completes Relay.build_eq Relay.forward rfl (by decide) {} (RandomStream.below .double)
    (ChaCha.stream 7) ChaCha.stream

end Simulation

end FederatedTime
