import FederatedTime.Proofs.Simulation.Safety
import FederatedTime.Proofs.Simulation.StopHearing
import FederatedTime.Proofs.Simulation.Traffic

/-!
# The coordinator consults the federates

Over the states of a run the coordinator has a history (`historyOf`). At each of them it has
consulted the federates on a stop, so far as they have said anything about it (`Consulting`).
-/

namespace FederatedTime

namespace Simulation

/-! ## The history of a run -/

/-- The moment in which the coordinator answers the next delivery, if that is an event. -/
def moment? (s : Simulation) : Option Moment :=
  match s.due? with
  | some ⟨time, .toCoordinator e⟩ => some ((s.coordinator.setTime time).moment e)
  | _ => none

/-- The history of the coordinator over the states of a run. -/
def historyOf (past : List Simulation) : List Moment := past.filterMap moment?

variable {t : Topology} {history : List Moment} {s s' start : Simulation} {e : Event}
variable {f g : FederateId} {p : Topology.Plan} {now : Duration} {r : Round} {m : Moment}
variable {entry : Scheduled Delivery} {rest : List (Scheduled Delivery)} {c : ConnectionId}
variable {time : Int64} {violation : Violation}

section Moment

variable (hentries : s.queue.entries = entry :: rest)
include hentries

theorem moment?_of_event (hevent : entry.event = .toCoordinator e) :
    s.moment? = some ((s.coordinator.setTime entry.time).moment e) := by
  rw [moment?, due?_of_entries hentries, hevent]

theorem moment?_of_start (hevent : entry.event = .start f) : s.moment? = none := by
  rw [moment?, due?_of_entries hentries, hevent]

theorem moment?_of_message {message : Message} (hevent : entry.event = .toFederate f message) :
    s.moment? = none := by
  rw [moment?, due?_of_entries hentries, hevent]

end Moment

theorem exists_of_moment? (h : s.moment? = some m) : ∃ entry rest e,
    s.queue.entries = entry :: rest ∧ entry.event = .toCoordinator e ∧
      m = (s.coordinator.setTime entry.time).moment e := by
  cases hentries : s.queue.entries with
  | nil =>
    rw [moment?, due?, hentries] at h
    cases h
  | cons entry rest =>
    cases hevent : entry.event with
    | start f =>
      rw [moment?_of_start hentries hevent] at h
      cases h
    | toFederate f message =>
      rw [moment?_of_message hentries hevent] at h
      cases h
    | toCoordinator e =>
      rw [moment?_of_event hentries hevent] at h
      exact ⟨entry, rest, e, rfl, hevent, (Option.some.inj h).symm⟩

/-! ## The invariant -/

/-- The coordinator is in a run with the given history, and has consulted the federates so far as
they have said anything about stopping. -/
structure Consulting (t : Topology) (start : Simulation) (history : List Moment)
    (s : Simulation) : Prop where
  sound : Sound t history s
  size_le : s.federates.size ≤ t.size
  attendance : ∀ f, Attendance t s f
  tallied : Tallied start history s
  consulted : Consulted history s (Round.ofHistory (.ofTopology t { clockSync := .disabled }) history)

/-- While those who have left stay away, it is the same to the coordinator. -/
theorem Consulted.of_departed {round : Option Round} (h : Consulted history s round)
    (hdeparted : ∀ f, Departed s f → Departed s' f) : Consulted history s' round := by
  cases h with
  | unopened hheard => exact .unopened hheard
  | opened hrequester hasked hseated =>
    refine .opened hrequester (fun f hf => ?_) hseated
    cases hasked f hf with
    | silent hanswer hheard => exact .silent hanswer hheard
    | named time hanswer hheard => exact .named time hanswer hheard
    | left completed hanswer hheard h => exact .left completed hanswer hheard (hdeparted f h)

namespace Consulting

/-! ### Steps -/

theorem started (hbuild : p.build = .ok t) (h : Consulting t start history s) (ho : s'.Orderly)
    (hturn : Started s s' f) : Consulting t start history s' where
  sound := h.sound.started ho hturn
  size_le := hturn.federates ▸ h.size_le
  attendance g := h.sound.attendance hbuild h.size_le (.started hturn) (h.attendance g)
  tallied := h.tallied.started hturn
  consulted := h.consulted.of_departed fun g => Departed.started (h.attendance g) hturn

theorem heard (hbuild : p.build = .ok t) (h : Consulting t start history s) (ho : s'.Orderly)
    {federate : ScriptedFederate} {message : Message} {now : Int64}
    (hturn : Heard s s' f federate message now) : Consulting t start history s' where
  sound := h.sound.heard_message ho hturn
  size_le := by
    rw [hturn.federates, Roster.size_set]
    exact h.size_le
  attendance g := h.sound.attendance hbuild h.size_le (.heard hturn) (h.attendance g)
  tallied := h.tallied.heard hturn
  consulted := h.consulted.of_departed fun _ => Departed.heard hturn

theorem missed (hbuild : p.build = .ok t) (h : Consulting t start history s) (ho : s'.Orderly)
    {message : Message} (hturn : Missed s s' f message) : Consulting t start history s' where
  sound := h.sound.missed ho hturn
  size_le := hturn.federates ▸ h.size_le
  attendance g := h.sound.attendance hbuild h.size_le (.missed hturn) (h.attendance g)
  tallied := h.tallied.missed hturn
  consulted := h.consulted.of_departed fun _ => Departed.missed hturn

theorem answered (hbuild : p.build = .ok t) (h : Consulting t start history s) (ho : s'.Orderly)
    (hturn : Answered s s' now e) :
    Consulting t start (history ++ [(s.coordinator.setTime now).moment e]) s' where
  sound := h.sound.answered hbuild ho hturn
  size_le := hturn.federates ▸ h.size_le
  attendance g := h.sound.attendance hbuild h.size_le (.answered hturn) (h.attendance g)
  tallied := h.tallied.answered hbuild h.sound hturn
  consulted := h.consulted.answered h.sound hturn hbuild h.attendance h.tallied

theorem step (hbuild : p.build = .ok t) (h : Consulting t start history s)
    (hstep : s.step? = some (s', none)) : Consulting t start (history ++ s.moment?.toList) s' := by
  obtain ⟨entry, rest, hentries, hdeliver⟩ := step?_eq_some hstep
  cases hevent : entry.event with
  | start f =>
    rw [hevent] at hdeliver
    obtain rfl := (Prod.mk.inj hdeliver).1
    obtain ⟨ho, hturn⟩ := h.sound.orderly.turn_start hentries hevent
    rw [moment?_of_start hentries hevent, Option.toList_none, List.append_nil]
    exact h.started hbuild ho hturn
  | toCoordinator e =>
    rw [hevent] at hdeliver
    obtain ⟨ho, hturn⟩ := h.sound.orderly.turn_event hentries hevent hdeliver.symm
    rw [moment?_of_event hentries hevent]
    exact h.answered hbuild ho hturn
  | toFederate f message =>
    rw [hevent] at hdeliver
    rw [moment?_of_message hentries hevent, Option.toList_none, List.append_nil]
    cases hf : s.federates.get? f with
    | none =>
      rw [deliver, deliverToFederate_eq_of_none (s := s.taken entry rest) hf] at hdeliver
      obtain rfl := (Prod.mk.inj hdeliver).1
      exact h.missed hbuild (h.sound.orderly.taken hentries) (turn_missed hentries hevent hf)
    | some federate =>
      rw [deliver, deliverToFederate_eq (s := s.taken entry rest) hf] at hdeliver
      obtain rfl := (Prod.mk.inj hdeliver).1
      obtain ⟨ho, hturn⟩ := h.sound.orderly.turn_message hentries hevent hf
      exact h.heard hbuild ho hturn

/-- At every state of a run the coordinator has consulted the federates. -/
theorem of_visited (hbuild : p.build = .ok t) (h : Consulting t start history s) {fuel : Nat}
    {past later : List Simulation} (hvisited : s.visited fuel = past ++ s' :: later) :
    Consulting t start (history ++ historyOf past) s' := by
  induction fuel generalizing s history past with
  | zero => simp [visited] at hvisited
  | succ fuel ih =>
    cases hstep : s.step? with
    | none => simp [visited, hstep] at hvisited
    | some checked =>
      obtain ⟨next, violation⟩ := checked
      rw [visited_succ hstep] at hvisited
      cases past with
      | nil =>
        obtain rfl := (List.cons.inj hvisited).1
        exact (List.append_nil history).symm ▸ h
      | cons first past =>
        cases violation with
        | some violation => simp at hvisited
        | none =>
          obtain ⟨rfl, hrest⟩ := List.cons.inj hvisited
          have hlater := ih (h.step hbuild hstep) hrest
          have hhistory : historyOf (s :: past) = s.moment?.toList ++ historyOf past := by
            unfold historyOf
            rw [List.filterMap_cons]
            cases s.moment? <;> rfl
          rw [hhistory, ← List.append_assoc]
          exact hlater

end Consulting

/-! ### The beginning -/

section OfScripts

variable {scripts : List Script} (hbuild : p.build = .ok t) (hscripts : scripts.length ≤ t.size)
variable (latency : Latency) (drawing : Drawing)
variable (random : RandomStream) (link : UInt64 → RandomStream)
include hbuild hscripts

theorem attendance_ofScripts (f : FederateId) :
    Attendance t (ofScripts t scripts latency drawing random link) f := by
  have hsize := (Topology.Plan.wellFormed_of_build hbuild).size_le
  have hstarting :=
    mem_starting_ofScripts t scripts latency drawing random link (hscripts.trans hsize)
    (f := f)
  have hfederate := get?_federates_ofScripts t scripts latency drawing random link f
  have hsent : (ofScripts t scripts latency drawing random link).sentBy f = [] :=
    underWay_ofScripts_eq_nil t scripts latency drawing random link fun _ => rfl
  have htold : (ofScripts t scripts latency drawing random link).sentTo f = [] :=
    underWay_ofScripts_eq_nil t scripts latency drawing random link fun _ => rfl
  cases hscript : scripts[f.index]? with
  | none =>
    rw [hscript] at hfederate
    refine .absent (fun hmem => ?_) hfederate rfl hsent
    exact (List.getElem?_eq_none_iff.1 hscript).not_gt (hstarting.1 hmem)
  | some script =>
    rw [hscript] at hfederate
    have hlt := (List.getElem?_eq_some_iff.1 hscript).1
    exact .asleep (hstarting.2 hlt) ⟨⟨_, hfederate, rfl⟩, htold⟩ rfl hsent

omit hbuild hscripts in
theorem tallied_ofScripts (t : Topology) (scripts : List Script) :
    Tallied (ofScripts t scripts latency drawing random link) []
      (ofScripts t scripts latency drawing random link) := by
  have hsaid (f : FederateId) : said [] (ofScripts t scripts latency drawing random link) f = [] :=
    underWay_ofScripts_eq_nil t scripts latency drawing random link fun _ => rfl
  have htold (f : FederateId) : (ofScripts t scripts latency drawing random link).sentTo f = [] :=
    underWay_ofScripts_eq_nil t scripts latency drawing random link fun _ => rfl
  refine ⟨fun f => ?_, fun f => ?_, fun f => ?_⟩
  · rw [hsaid]
    rfl
  · rw [hsaid, htold]
    exact le_refl 0
  · rw [hsaid]
    exact Nat.le_of_eq (Nat.zero_add _)

theorem consulting_ofScripts : Consulting t (ofScripts t scripts latency drawing random link) []
    (ofScripts t scripts latency drawing random link) where
  sound := sound_ofScripts hbuild hscripts latency drawing random link
  size_le := (size_federates_ofScripts t scripts latency drawing random link).trans_le hscripts
  attendance := attendance_ofScripts hbuild hscripts latency drawing random link
  tallied := tallied_ofScripts latency drawing random link t scripts
  consulted := .unopened fun _ => rfl

end OfScripts

end Simulation

end FederatedTime
