import FederatedTime.Proofs.Coordinator.Notices
import FederatedTime.Proofs.Simulation.Turn

/-!
# Before the first delivery

In the beginning every federate is going to start, once, and nothing else is under way.
-/

namespace FederatedTime

namespace Simulation

theorem sorted_scheduleStarts {queue : Queue Delivery}
    (h : queue.entries.Pairwise (·.time ≤ ·.time)) (drawing : Drawing) (random : RandomStream)
    (ids : List FederateId) :
    (scheduleStarts drawing queue random ids).1.entries.Pairwise (·.time ≤ ·.time) := by
  induction ids generalizing queue random with
  | nil => exact h
  | cons f rest ih =>
    rw [scheduleStarts]
    generalize drawing random startSpan = drawn
    exact ih (Queue.pairwise_insert h) drawn.2

theorem events_scheduleStarts_perm (drawing : Drawing) (queue : Queue Delivery)
    (random : RandomStream) (ids : List FederateId) :
    ((scheduleStarts drawing queue random ids).1.entries.map (·.event)).Perm
      (ids.map .start ++ queue.entries.map (·.event)) := by
  induction ids generalizing queue random with
  | nil => exact .refl _
  | cons f rest ih =>
    rw [scheduleStarts]
    generalize drawing random startSpan = drawn
    have hpush := (Queue.perm_insert ⟨.ofMicros drawn.1, queue.scheduled, Delivery.start f⟩
      queue.entries).map (·.event)
    exact ((ih _ drawn.2).trans (hpush.append_left _)).trans List.perm_middle

section OfScripts

variable (t : Topology) (scripts : List Script) (latency : Latency) (drawing : Drawing)
variable (random : RandomStream) (link : UInt64 → RandomStream)

theorem events_ofScripts_perm :
    ((ofScripts t scripts latency drawing random link).queue.entries.map (·.event)).Perm
      ((FederateId.firstIds scripts.length).map .start) := by
  have hsize : (⟨(scripts.mapIdx fun i script => ScriptedFederate.ofScript (.ofNat i)
      script).toArray⟩ : Roster ScriptedFederate).ids = FederateId.firstIds scripts.length := by
    simp [Roster.ids, Roster.size]
  rw [← hsize]
  exact (events_scheduleStarts_perm drawing {} random _).trans (.of_eq (List.append_nil _))

/-- What is under way in the beginning is the start of each federate. -/
theorem underWay_ofScripts_perm {β : Type} (pick : Delivery → Option β) :
    ((ofScripts t scripts latency drawing random link).underWay pick).Perm
      ((FederateId.firstIds scripts.length).filterMap (pick <| .start ·)) := by
  have hperm := (events_ofScripts_perm t scripts latency drawing random link).filterMap pick
  rw [List.filterMap_map, List.filterMap_map] at hperm
  exact hperm

theorem starting_ofScripts_perm :
    (ofScripts t scripts latency drawing random link).starting.Perm
      (FederateId.firstIds scripts.length) := by
  have hperm := underWay_ofScripts_perm t scripts latency drawing random link Delivery.start?
  exact hperm.trans (.of_eq List.filterMap_some)

theorem mem_starting_ofScripts (h : scripts.length ≤ Topology.maxFederates) {f : FederateId} :
    f ∈ (ofScripts t scripts latency drawing random link).starting ↔ f.index < scripts.length := by
  rw [(starting_ofScripts_perm t scripts latency drawing random link).mem_iff]
  refine ⟨fun hf => ?_, FederateId.mem_firstIds⟩
  obtain ⟨i, hi, rfl⟩ := List.mem_map.1 hf
  have hlt := List.mem_range.1 hi
  rwa [FederateId.index_ofNat (hlt.trans_le h)]

/-- Nothing else is under way. -/
theorem underWay_ofScripts_eq_nil {β : Type} {pick : Delivery → Option β}
    (h : ∀ f, pick (.start f) = none) :
    (ofScripts t scripts latency drawing random link).underWay pick = [] := by
  have hperm := underWay_ofScripts_perm t scripts latency drawing random link pick
  exact (hperm.trans (.of_eq (List.filterMap_eq_nil_iff.2 fun f _ => h f))).eq_nil

theorem orderly_ofScripts : (ofScripts t scripts latency drawing random link).Orderly where
  sorted := sorted_scheduleStarts List.Pairwise.nil _ _ _
  le_lastArrival entry hentry l hl := by
    have hevent := (events_ofScripts_perm t scripts latency drawing random link).mem_iff.1
      (List.mem_map_of_mem (f := (·.event)) hentry)
    obtain ⟨f, -, hf⟩ := List.mem_map.1 hevent
    rw [← hf] at hl
    cases hl

theorem get?_federates_ofScripts (f : FederateId) :
    (ofScripts t scripts latency drawing random link).federates.get? f =
      scripts[f.index]?.map (.ofScript f) := by
  have hid : FederateId.ofNat f.index = f :=
    FederateId.index_injective (FederateId.index_ofNat f.number.toNat_lt)
  show (scripts.mapIdx fun i script =>
    ScriptedFederate.ofScript (.ofNat i) script).toArray[f.index]? = _
  rw [List.getElem?_toArray, List.getElem?_mapIdx, hid]

theorem size_federates_ofScripts :
    (ofScripts t scripts latency drawing random link).federates.size = scripts.length := by
  show (scripts.mapIdx fun i script =>
    ScriptedFederate.ofScript (.ofNat i) script).toArray.size = _
  rw [List.size_toArray, List.length_mapIdx]

end OfScripts

end Simulation

end FederatedTime
