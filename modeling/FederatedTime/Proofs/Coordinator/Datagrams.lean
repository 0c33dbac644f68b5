import FederatedTime.Proofs.Coordinator.Contact
import FederatedTime.Proofs.Coordinator.Notices

/-!
# Datagrams of clock synchronisation

Only a federate that asks for the time and the timer bring about datagrams
(`Transition.datagrams_eq_nil`). The timer writes to its targets, which are joined and have told
where their clocks are synchronised (`mem_clockTargets`), and it opens cycles with nobody else.
-/

namespace FederatedTime

namespace Action

/-- The federate that a datagram is for, and where it goes. -/
def datagram? : Action → Option (FederateId × SocketAddress)
  | sendClockSync f address _ => some (f, address)
  | _ => none

def datagrams (actions : List Action) : List (FederateId × SocketAddress) :=
  actions.filterMap datagram?

variable {actions : List Action}

@[simp] theorem datagrams_append (first second : List Action) :
    datagrams (first ++ second) = datagrams first ++ datagrams second :=
  List.filterMap_append

theorem mem_datagrams {f : FederateId} {address : SocketAddress} :
    (f, address) ∈ datagrams actions ↔ ∃ kind, .sendClockSync f address kind ∈ actions := by
  unfold datagrams
  rw [List.mem_filterMap]
  constructor
  · rintro ⟨action, haction, hdatagram⟩
    cases action with
    | sendClockSync g address' kind =>
      obtain ⟨rfl, rfl⟩ := Prod.mk.inj (Option.some.inj hdatagram)
      exact ⟨kind, haction⟩
    | _ => cases hdatagram
  · rintro ⟨kind, hmem⟩
    exact ⟨_, hmem, rfl⟩

theorem datagrams_flatMap {α : Type} {l : List α} {part : α → List Action}
    (h : ∀ a ∈ l, datagrams (part a) = []) : datagrams (l.flatMap part) = [] := by
  induction l with
  | nil => rfl
  | cons a l ih =>
    rw [List.flatMap_cons, datagrams_append, h a List.mem_cons_self,
      ih fun b hb => h b (List.mem_cons_of_mem a hb)]
    rfl

end Action

open FederatedTime.Action (datagrams datagrams_append)

namespace Coordinator

variable {s : Coordinator} {e : Event} {out : Step} {f : FederateId} {c : ConnectionId}

@[simp] theorem datagrams_sendTo (s : Coordinator) (f : FederateId) (message : Message) :
    datagrams (s.sendTo f message) = [] := by
  unfold sendTo
  cases s.registry.connection? f <;> rfl

@[simp] theorem datagrams_broadcast (s : Coordinator) (message : Message) :
    datagrams (s.broadcast message) = [] := by
  unfold broadcast
  refine List.filterMap_eq_nil_iff.2 fun action haction => ?_
  obtain ⟨c, -, rfl⟩ := List.mem_map.1 haction
  rfl

theorem datagrams_advance (s : Coordinator) (seeds : List FederateId) :
    datagrams (s.advance seeds).2 = [] :=
  Action.datagrams_flatMap fun g _ => datagrams_sendTo _ g.federate _

theorem datagrams_settleStop (s : Coordinator) (result : StopNegotiation × StopOutcome) :
    datagrams (s.settleStop result).2 = [] := by
  obtain ⟨stop, outcome⟩ := result
  cases outcome with
  | ignored | waiting => rfl
  | forward federates proposal => exact Action.datagrams_flatMap fun g _ => datagrams_sendTo _ g _
  | agreed tag => exact datagrams_broadcast _ _

theorem datagrams_settleStart (s : Coordinator) (f : FederateId)
    (result : StartNegotiation × StartOutcome) : datagrams (s.settleStart f result).2 = [] := by
  obtain ⟨start, outcome⟩ := result
  cases outcome with
  | waiting => rfl
  | fixed time => exact datagrams_broadcast _ _
  | late time => exact datagrams_sendTo _ f _

theorem datagrams_finishIfDone (s : Coordinator) : datagrams s.finishIfDone.2 = [] := by
  unfold finishIfDone
  split <;> rfl

theorem datagrams_contribute (s : Coordinator) (f : FederateId)
    (result : StopNegotiation × StopOutcome) : datagrams (s.contribute f result).2 = [] := by
  unfold contribute
  split
  · rfl
  · exact datagrams_settleStop _ result

theorem datagrams_depart (s : Coordinator) (f : FederateId) (c : ConnectionId) :
    datagrams (s.depart f c).2 = [] := by
  unfold depart
  split
  · rfl
  · simp only [Step.andThen_snd, datagrams_append, datagrams_settleStop, datagrams_settleStart,
      datagrams_advance, datagrams_finishIfDone, List.append_nil]
    rfl

/-- Nobody is written to unless somebody asks for the time, or it is time for a cycle. -/
theorem Transition.datagrams_eq_nil (h : Transition s e out)
    (hprobe : ∀ f address, e ≠ .clockSyncProbe f address) (htimer : e ≠ .clockSyncTimer) :
    datagrams out.2 = [] := by
  cases h with
  | opened | ignored | closed | refused | abandoned | admitted | advertised => rfl
  | proposed => exact datagrams_settleStart _ _ _
  | nextEvent | completed => exact datagrams_advance _ _
  | requested | replied => exact datagrams_contribute _ _ _
  | forwardedUntimed | forwardedTimed | queried => exact datagrams_sendTo _ _ _
  | departed => exact datagrams_depart _ _ _
  | expelled =>
    rw [expel, Step.andThen_snd, datagrams_append, datagrams_depart]
    rfl
  | @probed f _ address => exact absurd rfl (hprobe f address)
  | timer => exact absurd rfl htimer

end Coordinator

namespace ClockSchedule

variable {s : ClockSchedule} {now : Duration} {f g : FederateId} {address : SocketAddress}
variable {targets : List (FederateId × SocketAddress)}

/-- Who asks for the time is answered where it asks from. -/
theorem datagrams_probe_subset (s : ClockSchedule) (now : Duration) (f : FederateId)
    (address : SocketAddress) : datagrams (s.probe now f address).2 ⊆ [(f, address)] := by
  have answer (kind : ClockSyncKind) :
      datagrams [.sendClockSync f address kind] ⊆ [(f, address)] := List.Subset.refl _
  unfold probe
  dsimp only
  split
  · split
    · exact answer _
    · split
      · exact answer _
      · exact List.cons_subset.2 ⟨List.mem_singleton_self _, answer .t1⟩
  · exact List.nil_subset _

theorem datagrams_openCycle_subset (s : ClockSchedule) (now : Duration) (f : FederateId)
    (address : SocketAddress) : datagrams (s.openCycle now f address).2 ⊆ [(f, address)] := by
  unfold openCycle
  extract_lets isFree
  cases isFree
  · exact List.nil_subset _
  · exact List.Subset.refl _

theorem datagrams_openCycles_subset (s : ClockSchedule) (now : Duration)
    (targets : List (FederateId × SocketAddress)) :
    datagrams (s.openCycles now targets).2 ⊆ targets := by
  induction targets generalizing s with
  | nil => exact List.nil_subset _
  | cons target targets ih =>
    rw [openCycles]
    dsimp only
    rw [datagrams_append]
    refine List.append_subset.2 ⟨fun datagram h => ?_, fun datagram h => ?_⟩
    · rw [List.mem_singleton.1 (datagrams_openCycle_subset s now _ _ h)]
      exact List.mem_cons_self
    · exact List.mem_cons_of_mem _ (ih _ h)

theorem datagrams_timer_subset (s : ClockSchedule) (now : Duration)
    (targets : List (FederateId × SocketAddress)) :
    datagrams (s.timer now targets).2 ⊆ targets := by
  unfold timer
  split
  · exact datagrams_openCycles_subset s now targets
  · exact List.nil_subset _

theorem inCycle_openCycle (h : (s.openCycle now g address).1.inCycle f = true) :
    s.inCycle f = true ∨ f = g := by
  by_cases hfg : f = g
  · exact Or.inr hfg
  · refine Or.inl ?_
    unfold openCycle at h
    extract_lets isFree at h
    split at h
    · rwa [inCycle, cycle?_setCycle_of_ne hfg] at h
    · exact h

theorem inCycle_openCycles (h : (s.openCycles now targets).1.inCycle f = true) :
    s.inCycle f = true ∨ ∃ address, (f, address) ∈ targets := by
  induction targets generalizing s with
  | nil => exact Or.inl h
  | cons target targets ih =>
    rcases ih h with hopened | ⟨address, hmem⟩
    · rcases inCycle_openCycle hopened with hbefore | rfl
      · exact Or.inl hbefore
      · exact Or.inr ⟨target.2, List.mem_cons_self⟩
    · exact Or.inr ⟨address, List.mem_cons_of_mem _ hmem⟩

/-- The timer opens cycles with its targets only. -/
theorem inCycle_timer (h : (s.timer now targets).1.inCycle f = true) :
    s.inCycle f = true ∨ ∃ address, (f, address) ∈ targets := by
  unfold timer at h
  split at h
  · exact inCycle_openCycles h
  · exact Or.inl h

end ClockSchedule

namespace Coordinator

variable {s : Coordinator} {e : Event} {f : FederateId} {address : SocketAddress}

theorem mem_clockTargets (hs : s.Consistent) (hsize : s.registry.size ≤ Topology.maxFederates) :
    (f, address) ∈ s.clockTargets ↔ ∃ record, s.registry.get? f = some record ∧
      record.isConnected = true ∧ record.mode = .realtime ∧ record.udpAddress = some address := by
  unfold clockTargets
  rw [Roster.toList_eq_filterMap hsize, List.mem_filterMap]
  constructor
  · rintro ⟨record, hmem, htarget⟩
    obtain ⟨g, -, hg⟩ := List.mem_filterMap.1 hmem
    split at htarget
    · rename_i hsynced
      obtain ⟨hconnected, hmode⟩ := Bool.and_eq_true_iff.1 hsynced
      obtain ⟨address', haddress, heq⟩ := Option.map_eq_some_iff.1 htarget
      obtain ⟨hid, rfl⟩ := Prod.mk.inj heq
      have hrecord : s.registry.get? f = some record := by
        rw [← hid, hs.id_eq g record hg]
        exact hg
      exact ⟨record, hrecord, hconnected, beq_iff_eq.1 hmode, haddress⟩
    · cases htarget
  · rintro ⟨record, hrecord, hconnected, hmode, haddress⟩
    refine ⟨record, List.mem_filterMap.2 ⟨f, Registry.mem_ids_of_get? hrecord, hrecord⟩, ?_⟩
    rw [hconnected, hmode, haddress, hs.id_eq f record hrecord]
    rfl

/-- A datagram goes to a federate that has just asked for the time, where it has asked from, or to
a target of the timer. Without synchronisation there is none. -/
theorem handle_datagrams (hs : s.Consistent)
    (h : (f, address) ∈ datagrams (s.handle e).2) : s.Probes e f address ∨
      e = .clockSyncTimer ∧ s.clock.isEnabled = true ∧ (f, address) ∈ s.clockTargets := by
  by_cases hprobe : ∃ g address', e = .clockSyncProbe g address'
  · obtain ⟨g, address', rfl⟩ := hprobe
    have hprobed : (f, address) ∈ datagrams (s.onClockSyncProbe g address').2 := h
    unfold onClockSyncProbe at hprobed
    split at hprobed
    · rename_i hserved
      obtain ⟨henabled, hconnected⟩ := Bool.and_eq_true_iff.1 hserved
      have hsame := List.mem_singleton.1 (ClockSchedule.datagrams_probe_subset _ _ _ _ hprobed)
      obtain ⟨rfl, rfl⟩ := Prod.mk.inj hsame
      exact Or.inl ⟨rfl, henabled, hconnected⟩
    · cases hprobed
  by_cases htimer : e = .clockSyncTimer
  · subst htimer
    have htimed : (f, address) ∈ datagrams (s.clock.timer s.now s.clockTargets).2 := h
    have htarget := ClockSchedule.datagrams_timer_subset _ _ _ htimed
    unfold ClockSchedule.timer at htimed
    split at htimed
    · rename_i henabled
      exact Or.inr ⟨rfl, henabled.1, htarget⟩
    · cases htimed
  · have hnil := (handle_transition hs e).datagrams_eq_nil
      (fun g address' he => hprobe ⟨g, address', he⟩) htimer
    rw [hnil] at h
    cases h

end Coordinator

end FederatedTime
