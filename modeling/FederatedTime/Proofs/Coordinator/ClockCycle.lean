import FederatedTime.Proofs.Coordinator.Datagrams

/-!
# The exchanges of a cycle

A schedule keeps, for each federate in a cycle, how many exchanges are left and when the present one
was opened. All that a federate gets to see of it are datagrams. `CycleTally` counts them, and the
questions of the federate, since the timer last opened a cycle; `ScheduleRun.tallied` is that the
schedule and the tally agree. So a cycle has as many exchanges as the settings ask for, or fewer if
an answer takes too long or the federate leaves (`ScheduleRun.cycle_exchanges`).
-/

namespace FederatedTime

/-- Something that a schedule is told. -/
inductive ScheduleCall where
  /-- It is time for a cycle with each of the targets. -/
  | timer (now : Duration) (targets : List (FederateId × SocketAddress))
  /-- A federate asks for the time. -/
  | probe (now : Duration) (f : FederateId) (address : SocketAddress)
  /-- A federate has left. -/
  | forget (f : FederateId)

/-- A call of a schedule, with the actions that have answered it. -/
structure ScheduleMoment where
  call : ScheduleCall
  actions : List Action

/-- The answer to a call. -/
def ClockSchedule.answer (s : ClockSchedule) : ScheduleCall → ClockSchedule × List Action
  | .timer now targets => s.timer now targets
  | .probe now f address => s.probe now f address
  | .forget f => (s.forget f, [])

/-- The schedule for `n` federates comes to `s` by the calls in the history, at any times. -/
inductive ScheduleRun (settings : ClockSyncSettings) (n : Nat) :
    List ScheduleMoment → ClockSchedule → Prop
  | start : ScheduleRun settings n [] (.start settings n)
  | call {history : List ScheduleMoment} {s : ClockSchedule}
      (earlier : ScheduleRun settings n history s) (call : ScheduleCall) :
      ScheduleRun settings n (history ++ [⟨call, (s.answer call).2⟩]) (s.answer call).1

/-! ## What a federate sees of its cycles -/

namespace Action

/-- Whether an action opens an exchange with `f`. -/
def opens (f : FederateId) : Action → Bool
  | sendClockSync g _ .t1 => g = f
  | _ => false

/-- The number of exchanges with `f` that are opened. -/
def openings (f : FederateId) (actions : List Action) : Nat := actions.countP (opens f)

theorem openings_append (f : FederateId) (first second : List Action) :
    openings f (first ++ second) = openings f first + openings f second :=
  List.countP_append

theorem openings_t1 (f g : FederateId) (address : SocketAddress) :
    openings f [.sendClockSync g address .t1] = if g = f then 1 else 0 := by
  by_cases h : g = f <;> simp [openings, opens, h]

theorem openings_answer (f g : FederateId) (address : SocketAddress) (actions : List Action) :
    openings f (.sendClockSync g address .t4WithProbe :: actions) = openings f actions :=
  List.countP_cons_of_neg Bool.false_ne_true

end Action

open FederatedTime.Action (openings openings_append openings_t1 openings_answer)

/-- What has happened between the coordinator and a federate since the timer last opened a cycle. -/
structure CycleTally where
  /-- The number of exchanges opened. -/
  opened : Nat
  /-- The number of times that the federate has asked for the time. -/
  asked : Nat
  /-- When the last exchange was opened. -/
  lastOpened : Duration
deriving DecidableEq

namespace CycleTally

/-- One more call, and what it was answered by. -/
def add (f : FederateId) (tally : CycleTally) (m : ScheduleMoment) : CycleTally :=
  let opened := openings f m.actions
  match m.call with
  | .timer now _ => if opened = 0 then tally else ⟨opened, 0, now⟩
  | .probe now g _ =>
    { opened := tally.opened + opened
      asked := if g = f then tally.asked + 1 else tally.asked
      lastOpened := if opened = 0 then tally.lastOpened else now }
  | .forget _ => tally

def ofHistory (f : FederateId) (history : List ScheduleMoment) : CycleTally :=
  history.foldl (add f) ⟨0, 0, 0⟩

theorem ofHistory_append_singleton (f : FederateId) (history : List ScheduleMoment)
    (m : ScheduleMoment) : ofHistory f (history ++ [m]) = (ofHistory f history).add f m :=
  List.foldl_append

end CycleTally

/-! ## What the schedule does -/

namespace ClockSchedule

variable {s : ClockSchedule} {now : Duration} {f g : FederateId} {address : SocketAddress}
variable {targets : List (FederateId × SocketAddress)}

/-- Whether there is no cycle with `f`, or just one that is overdue. -/
def isFree (s : ClockSchedule) (now : Duration) (f : FederateId) : Bool :=
  (s.cycle? f).all (s.isOverdue now)

theorem isOverdue_iff {cycle : ClockCycle} :
    s.isOverdue now cycle = true ↔ s.settings.udpTimeout < now - cycle.sentAt := by
  simp only [isOverdue, decide_eq_true_eq]

theorem index_lt_of_cycle? {cycle : ClockCycle} (h : s.cycle? f = some cycle) :
    f.index < s.cycles.size := by
  refine Nat.lt_of_not_le fun hle => ?_
  rw [cycle?, Roster.getD, Roster.get?_eq_none_iff.2 hle] at h
  cases h

theorem inCycle_eq_true_iff : s.inCycle f = true ↔ ∃ cycle, s.cycle? f = some cycle :=
  Option.isSome_iff_exists

theorem inCycle_eq_false_iff : s.inCycle f = false ↔ s.cycle? f = none := by
  rw [inCycle, Option.isSome_eq_false_iff, Option.isNone_iff_eq_none]

theorem cycle?_setCycle (s : ClockSchedule) (g f : FederateId) (cycle : Option ClockCycle) :
    (s.setCycle g cycle).cycle? f =
      if g = f ∧ f.index < s.cycles.size then cycle else s.cycle? f := by
  unfold setCycle cycle? Roster.getD
  rw [Roster.get?_set]
  by_cases hg : g = f
  · by_cases hf : f.index < s.cycles.size
    · obtain ⟨slot, hslot⟩ := Roster.exists_get?_of_index_lt hf
      simp [hg, hf, hslot]
    · have hnone := Roster.get?_eq_none_iff.2 (Nat.le_of_not_lt hf)
      simp [hg, hf, hnone]
  · simp [hg]

theorem cycle?_forget (s : ClockSchedule) (g f : FederateId) :
    (s.forget g).cycle? f = if g = f then none else s.cycle? f := by
  by_cases h : g = f
  · rw [if_pos h, h, cycle?_forget_self]
  · rw [if_neg h, cycle?_forget_of_ne (Ne.symm h)]

theorem openCycle_eq (s : ClockSchedule) (now : Duration) (f : FederateId)
    (address : SocketAddress) : s.openCycle now f address =
      if f.index < s.cycles.size ∧ s.isFree now f then
        (s.setCycle f (some ⟨s.settings.trials - 1, now⟩), [.sendClockSync f address .t1])
      else (s, []) := by
  unfold openCycle isFree cycle? Roster.getD
  by_cases hf : f.index < s.cycles.size
  · obtain ⟨slot, hslot⟩ := Roster.exists_get?_of_index_lt hf
    cases slot <;> simp [hf, hslot]
  · have hnone := Roster.get?_eq_none_iff.2 (Nat.le_of_not_lt hf)
    simp [hf, hnone]

theorem size_openCycle (s : ClockSchedule) (now : Duration) (f : FederateId)
    (address : SocketAddress) : (s.openCycle now f address).1.cycles.size = s.cycles.size := by
  rw [openCycle_eq]
  split
  · exact Roster.size_set _ _ _
  · rfl

theorem isOverdue_openCycle (s : ClockSchedule) (now later : Duration) (cycle : ClockCycle)
    (f : FederateId) (address : SocketAddress) :
    (s.openCycle now f address).1.isOverdue later cycle = s.isOverdue later cycle := by
  rw [isOverdue, isOverdue, settings_openCycle]

theorem openCycle_spec (s : ClockSchedule) (now : Duration) (g f : FederateId)
    (address : SocketAddress) :
    let opens := g = f ∧ f.index < s.cycles.size ∧ s.isFree now f = true
    (s.openCycle now g address).1.cycle? f =
        (if opens then some ⟨s.settings.trials - 1, now⟩ else s.cycle? f) ∧
      openings f (s.openCycle now g address).2 = if opens then 1 else 0 := by
  intro opens
  rw [openCycle_eq]
  by_cases hg : g = f
  · subst hg
    by_cases hfree : g.index < s.cycles.size ∧ s.isFree now g = true
    · rw [if_pos hfree, if_pos ⟨rfl, hfree⟩, if_pos ⟨rfl, hfree⟩, cycle?_setCycle,
        if_pos ⟨rfl, hfree.1⟩, openings_t1, if_pos rfl]
      exact ⟨rfl, rfl⟩
    · rw [if_neg hfree, if_neg fun h => hfree h.2, if_neg fun h => hfree h.2]
      exact ⟨rfl, rfl⟩
  · have hopens : ¬ opens := fun h => hg h.1
    rw [if_neg hopens, if_neg hopens]
    split
    · rw [cycle?_setCycle, if_neg fun h => hg h.1, openings_t1, if_neg hg]
      exact ⟨rfl, rfl⟩
    · exact ⟨rfl, rfl⟩

/-- A cycle with `f` is opened at most once at a time, however often `f` is a target. -/
theorem openCycles_spec (s : ClockSchedule) (now : Duration)
    (targets : List (FederateId × SocketAddress)) (f : FederateId) :
    let opens := f ∈ targets.map Prod.fst ∧ f.index < s.cycles.size ∧ s.isFree now f = true
    (s.openCycles now targets).1.cycle? f =
        (if opens then some ⟨s.settings.trials - 1, now⟩ else s.cycle? f) ∧
      openings f (s.openCycles now targets).2 = if opens then 1 else 0 := by
  induction targets generalizing s with
  | nil => simp [openCycles, openings]
  | cons target targets ih =>
    obtain ⟨hcycle, hopenings⟩ := s.openCycle_spec now target.1 f target.2
    obtain ⟨hcycles, hmore⟩ := ih (s.openCycle now target.1 target.2).1
    rw [size_openCycle, settings_openCycle] at hcycles
    rw [size_openCycle] at hmore
    dsimp only
    rw [openCycles]
    dsimp only
    rw [hcycles, openings_append, hopenings, hmore]
    by_cases hopens : target.1 = f ∧ f.index < s.cycles.size ∧ s.isFree now f = true
    · -- what has just been opened is not overdue, so it is left alone
      have hbusy : (s.openCycle now target.1 target.2).1.isFree now f = false := by
        rw [isFree, hcycle, if_pos hopens, Option.all_some, isOverdue, Nat.sub_self]
        exact decide_eq_false (Nat.not_lt_zero _)
      have hleft : ¬ (f ∈ targets.map Prod.fst ∧ f.index < s.cycles.size ∧
          (s.openCycle now target.1 target.2).1.isFree now f = true) := fun h => by
        rw [hbusy] at h
        cases h.2.2
      have hmem : f ∈ (target :: targets).map Prod.fst ∧ f.index < s.cycles.size ∧
          s.isFree now f = true := ⟨List.mem_cons.2 (Or.inl hopens.1.symm), hopens.2⟩
      rw [if_neg hleft, if_neg hleft, if_pos hopens, if_pos hmem, if_pos hmem, hcycle,
        if_pos hopens]
      exact ⟨rfl, rfl⟩
    · have hkept : (s.openCycle now target.1 target.2).1.cycle? f = s.cycle? f := by
        rw [hcycle, if_neg hopens]
      have hfree : (s.openCycle now target.1 target.2).1.isFree now f = s.isFree now f := by
        rw [isFree, hkept]
        exact congrArg (s.cycle? f).all
          (funext fun cycle => s.isOverdue_openCycle now now cycle _ _)
      have hmem : (f ∈ (target :: targets).map Prod.fst ∧ f.index < s.cycles.size ∧
          s.isFree now f = true) ↔ f ∈ targets.map Prod.fst ∧ f.index < s.cycles.size ∧
          s.isFree now f = true := by
        rw [List.map_cons, List.mem_cons]
        exact ⟨fun h => ⟨h.1.resolve_left fun heq => hopens ⟨heq.symm, h.2⟩, h.2⟩,
          fun h => ⟨Or.inr h.1, h.2⟩⟩
      simp only [hfree, hkept, hmem, if_neg hopens, Nat.zero_add, and_self]

theorem size_openCycles (s : ClockSchedule) (now : Duration)
    (targets : List (FederateId × SocketAddress)) :
    (s.openCycles now targets).1.cycles.size = s.cycles.size := by
  induction targets generalizing s with
  | nil => rfl
  | cons target targets ih => exact (ih _).trans (size_openCycle s now target.1 target.2)

/-! ### Each call -/

/-- Whether there is anything for the schedule to do. -/
def Active (s : ClockSchedule) : Prop := s.isEnabled = true ∧ s.settings.trials ≠ 0

theorem timer_of_active (h : s.Active) (now : Duration)
    (targets : List (FederateId × SocketAddress)) :
    s.timer now targets = s.openCycles now targets := if_pos h

theorem timer_of_not_active (h : ¬ s.Active) (now : Duration)
    (targets : List (FederateId × SocketAddress)) : s.timer now targets = (s, []) := if_neg h

theorem probe_of_not_isEnabled (h : s.isEnabled = false) (now : Duration) (f : FederateId)
    (address : SocketAddress) : s.probe now f address = (s, []) := by
  rw [probe, if_neg (by rw [h]; exact Bool.false_ne_true)]

theorem probe_of_cycle?_eq_none (henabled : s.isEnabled = true) (h : s.cycle? f = none)
    (now : Duration) (address : SocketAddress) :
    s.probe now f address = (s, [.sendClockSync f address .t4WithProbe]) := by
  rw [probe, if_pos henabled, h]

theorem cycle?_probe_of_none (h : s.cycle? f = none) (now : Duration) (address : SocketAddress) :
    (s.probe now f address).1.cycle? f = s.cycle? f := by
  by_cases henabled : s.isEnabled = true
  · rw [probe_of_cycle?_eq_none henabled h]
  · rw [probe_of_not_isEnabled (Bool.eq_false_iff.2 henabled)]

section Cycle

variable {cycle : ClockCycle}

theorem probe_of_last (henabled : s.isEnabled = true) (h : s.cycle? f = some cycle)
    (hlast : s.isOverdue now cycle = true ∨ cycle.remaining = 0) (address : SocketAddress) :
    s.probe now f address = (s.setCycle f none, [.sendClockSync f address .t4WithProbe]) := by
  rw [probe, if_pos henabled, h]
  exact if_pos hlast

theorem probe_of_next (henabled : s.isEnabled = true) (h : s.cycle? f = some cycle)
    (hnext : ¬ (s.isOverdue now cycle = true ∨ cycle.remaining = 0)) (address : SocketAddress) :
    s.probe now f address = (s.setCycle f (some ⟨cycle.remaining - 1, now⟩),
      [.sendClockSync f address .t4WithProbe, .sendClockSync f address .t1]) := by
  rw [probe, if_pos henabled, h]
  exact if_neg hnext

end Cycle

/-- A question is answered to whom it is from; nobody else hears of it. -/
theorem openings_probe_of_ne (s : ClockSchedule) (now : Duration) (h : g ≠ f)
    (address : SocketAddress) : openings f (s.probe now g address).2 = 0 := by
  by_cases henabled : s.isEnabled = true
  · cases hcycle : s.cycle? g with
    | none => rw [probe_of_cycle?_eq_none henabled hcycle]; rfl
    | some cycle =>
      by_cases hlast : s.isOverdue now cycle = true ∨ cycle.remaining = 0
      · rw [probe_of_last henabled hcycle hlast]; rfl
      · rw [probe_of_next henabled hcycle hlast, openings_answer, openings_t1, if_neg h]
  · rw [probe_of_not_isEnabled (Bool.eq_false_iff.2 henabled)]; rfl

theorem settings_answer (s : ClockSchedule) (call : ScheduleCall) :
    (s.answer call).1.settings = s.settings := by
  cases call with
  | timer now targets => exact settings_timer s now targets
  | probe now g address => exact settings_probe s now g address
  | forget g => rfl

theorem size_answer (s : ClockSchedule) (call : ScheduleCall) :
    (s.answer call).1.cycles.size = s.cycles.size := by
  cases call with
  | timer now targets =>
    show (s.timer now targets).1.cycles.size = _
    unfold timer
    split
    · exact size_openCycles s now targets
    · rfl
  | probe now g address =>
    show (s.probe now g address).1.cycles.size = _
    unfold probe
    dsimp only
    split
    · split
      · rfl
      · split <;> exact Roster.size_set _ _ _
    · rfl
  | forget g => exact Roster.size_set _ _ _

/-! ### Schedule and tally -/

theorem toNat_sub_one_add_one {n : UInt32} (h : n ≠ 0) : (n - 1).toNat + 1 = n.toNat := by
  have hpos : 1 ≤ n.toNat := Nat.one_le_iff_ne_zero.2 fun h0 => h (UInt32.toNat_inj.1 h0)
  have hle : 1 ≤ n := UInt32.le_iff_toNat_le.2 hpos
  rw [UInt32.toNat_sub_of_le _ _ hle]
  exact Nat.sub_add_cancel hpos

/-- What the schedule knows of the cycle with `f` is what the tally shows. -/
structure Tallied (s : ClockSchedule) (f : FederateId) (tally : CycleTally) : Prop where
  le : tally.opened ≤ s.settings.trials.toNat
  remaining : ∀ cycle, s.cycle? f = some cycle →
    tally.opened + cycle.remaining.toNat = s.settings.trials.toNat
  asked : ∀ cycle, s.cycle? f = some cycle → tally.opened = tally.asked + 1
  sentAt : ∀ cycle, s.cycle? f = some cycle → cycle.sentAt = tally.lastOpened

variable {tally tally' : CycleTally} {s' : ClockSchedule}

theorem Tallied.of_cycle?_eq_none (hle : tally.opened ≤ s.settings.trials.toNat)
    (hnone : s.cycle? f = none) : s.Tallied f tally := by
  refine ⟨hle, fun cycle h => ?_, fun cycle h => ?_, fun cycle h => ?_⟩ <;>
    exact nomatch hnone.symm.trans h

theorem Tallied.of_cycle?_eq_some {cycle : ClockCycle} (hcycle : s.cycle? f = some cycle)
    (hremaining : tally.opened + cycle.remaining.toNat = s.settings.trials.toNat)
    (hasked : tally.opened = tally.asked + 1) (hsentAt : cycle.sentAt = tally.lastOpened) :
    s.Tallied f tally := by
  refine ⟨by omega, fun cycle' h => ?_, fun cycle' h => ?_, fun cycle' h => ?_⟩ <;>
    obtain rfl := Option.some.inj (hcycle.symm.trans h)
  · exact hremaining
  · exact hasked
  · exact hsentAt

/-- What leaves the cycle with `f` alone leaves the tally as it is. -/
theorem Tallied.congr (h : s.Tallied f tally) (hcycle : s'.cycle? f = s.cycle? f)
    (hsettings : s'.settings = s.settings) : s'.Tallied f tally where
  le := hsettings ▸ h.le
  remaining cycle hc := hsettings ▸ h.remaining cycle (hcycle ▸ hc)
  asked cycle hc := h.asked cycle (hcycle ▸ hc)
  sentAt cycle hc := h.sentAt cycle (hcycle ▸ hc)

/-- Whether an answer from `f` is still in time, as far as the tally shows. -/
theorem Tallied.isFree_iff (h : s.Tallied f tally) : s.isFree now f = true ↔
    ¬ (s.inCycle f = true ∧ now - tally.lastOpened ≤ s.settings.udpTimeout) := by
  rw [inCycle_eq_true_iff, isFree]
  cases hcycle : s.cycle? f with
  | none => simp
  | some cycle =>
    rw [Option.all_some, isOverdue_iff, h.sentAt cycle hcycle, ← Nat.not_le]
    exact not_congr ⟨fun hle => ⟨⟨cycle, rfl⟩, hle⟩, fun hle => hle.2⟩

/-- Whether an answer within a cycle is the last of it, as far as the tally shows. -/
theorem Tallied.last_iff (h : s.Tallied f tally) {cycle : ClockCycle}
    (hcycle : s.cycle? f = some cycle) : s.isOverdue now cycle = true ∨ cycle.remaining = 0 ↔
      s.settings.udpTimeout < now - tally.lastOpened ∨
        tally.opened = s.settings.trials.toNat := by
  have hremaining := h.remaining cycle hcycle
  rw [isOverdue_iff, h.sentAt cycle hcycle, ← UInt32.toNat_inj, UInt32.toNat_zero]
  exact or_congr_right (by omega)

theorem Tallied.timer (h : s.Tallied f tally) (hactive : s.Active) (now : Duration)
    (targets : List (FederateId × SocketAddress)) :
    (s.timer now targets).1.Tallied f
      (tally.add f ⟨.timer now targets, (s.timer now targets).2⟩) := by
  obtain ⟨hcycle, hopenings⟩ := s.openCycles_spec now targets f
  have hsettings := s.settings_timer now targets
  rw [timer_of_active hactive] at hsettings ⊢
  unfold CycleTally.add
  dsimp only
  split at hopenings
  · rename_i hopens
    rw [if_pos hopens] at hcycle
    rw [hopenings, if_neg one_ne_zero]
    refine .of_cycle?_eq_some hcycle ?_ rfl rfl
    rw [hsettings]
    exact (Nat.add_comm _ _).trans (toNat_sub_one_add_one hactive.2)
  · rename_i hopens
    rw [if_neg hopens] at hcycle
    rw [hopenings, if_pos rfl]
    exact h.congr hcycle hsettings

theorem Tallied.probe (h : s.Tallied f tally) (hactive : s.Active) (now : Duration)
    (g : FederateId) (address : SocketAddress) :
    (s.probe now g address).1.Tallied f
      (tally.add f ⟨.probe now g address, (s.probe now g address).2⟩) := by
  have hsettings := s.settings_probe now g address
  unfold CycleTally.add
  dsimp only
  by_cases hg : g = f
  · subst hg
    rw [if_pos rfl]
    cases hcycle : s.cycle? g with
    | none =>
      rw [probe_of_cycle?_eq_none hactive.1 hcycle]
      exact .of_cycle?_eq_none h.le hcycle
    | some cycle =>
      have hremaining := h.remaining cycle hcycle
      have hasked := h.asked cycle hcycle
      have hrange := index_lt_of_cycle? hcycle
      by_cases hlast : s.isOverdue now cycle = true ∨ cycle.remaining = 0
      · rw [probe_of_last hactive.1 hcycle hlast]
        refine .of_cycle?_eq_none h.le ?_
        rw [cycle?_setCycle, if_pos ⟨rfl, hrange⟩]
      · rw [probe_of_next hactive.1 hcycle hlast, openings_answer, openings_t1, if_pos rfl,
          if_neg one_ne_zero]
        have hpred := toNat_sub_one_add_one fun h0 => hlast (Or.inr h0)
        have hafter : (s.setCycle g (some ⟨cycle.remaining - 1, now⟩)).cycle? g =
            some ⟨cycle.remaining - 1, now⟩ := by
          rw [cycle?_setCycle, if_pos ⟨rfl, hrange⟩]
        refine .of_cycle?_eq_some hafter ?_ ?_ rfl
        · show tally.opened + 1 + (cycle.remaining - 1).toNat = s.settings.trials.toNat
          omega
        · show tally.opened + 1 = tally.asked + 1 + 1
          omega
  · rw [if_neg hg, s.openings_probe_of_ne now hg address, if_pos rfl]
    exact h.congr (cycle?_probe_of_ne (Ne.symm hg) now address) hsettings

theorem Tallied.forget (h : s.Tallied f tally) (g : FederateId) : (s.forget g).Tallied f tally := by
  by_cases hg : g = f
  · refine .of_cycle?_eq_none h.le ?_
    rw [cycle?_forget, if_pos hg]
  · exact h.congr (cycle?_forget_of_ne (Ne.symm hg)) rfl

theorem Tallied.answer (h : s.Tallied f tally) (hactive : s.Active) (call : ScheduleCall) :
    (s.answer call).1.Tallied f (tally.add f ⟨call, (s.answer call).2⟩) := by
  cases call with
  | timer now targets => exact h.timer hactive now targets
  | probe now g address => exact h.probe hactive now g address
  | forget g => exact h.forget g

/-! ### What follows for one call -/

/-- A question is answered, and within a cycle with exchanges left it opens the next one. -/
theorem Tallied.probe_actions (h : s.Tallied f tally) (henabled : s.isEnabled = true)
    (now : Duration) (address : SocketAddress) :
    let next := s.inCycle f = true ∧ now - tally.lastOpened ≤ s.settings.udpTimeout ∧
      tally.opened < s.settings.trials.toNat
    (s.probe now f address).2 = .sendClockSync f address .t4WithProbe ::
        (if next then [.sendClockSync f address .t1] else []) ∧
      ((s.probe now f address).1.inCycle f = true ↔ next) := by
  intro next
  cases hcycle : s.cycle? f with
  | none =>
    have hidle := inCycle_eq_false_iff.2 hcycle
    have hnext : ¬ next := fun hc => Bool.false_ne_true (hidle.symm.trans hc.1)
    rw [probe_of_cycle?_eq_none henabled hcycle, if_neg hnext, hidle]
    exact ⟨rfl, iff_of_false Bool.false_ne_true hnext⟩
  | some cycle =>
    have hrange := index_lt_of_cycle? hcycle
    by_cases hlast : s.isOverdue now cycle = true ∨ cycle.remaining = 0
    · have hnext : ¬ next := fun hc =>
        ((h.last_iff hcycle).1 hlast).elim (Nat.not_lt.2 hc.2.1) hc.2.2.ne
      rw [probe_of_last henabled hcycle hlast, if_neg hnext, inCycle, cycle?_setCycle,
        if_pos ⟨rfl, hrange⟩]
      exact ⟨rfl, iff_of_false Bool.false_ne_true hnext⟩
    · have hbusy := inCycle_eq_true_iff.2 ⟨cycle, hcycle⟩
      obtain ⟨hdue, hopened⟩ := not_or.1 (mt (h.last_iff hcycle).2 hlast)
      have hnext : next := ⟨hbusy, Nat.not_lt.1 hdue, lt_of_le_of_ne h.le hopened⟩
      rw [probe_of_next henabled hcycle hlast, if_pos hnext, inCycle, cycle?_setCycle,
        if_pos ⟨rfl, hrange⟩]
      exact ⟨rfl, iff_of_true rfl hnext⟩

/-- The timer opens one exchange with each target that is not waited for in time, and does nothing
about the others. -/
theorem Tallied.timer_actions (h : s.Tallied f tally) (hactive : s.Active)
    (hrange : f.index < s.cycles.size) (now : Duration)
    (targets : List (FederateId × SocketAddress)) :
    let waiting := s.inCycle f = true ∧ now - tally.lastOpened ≤ s.settings.udpTimeout
    openings f (s.timer now targets).2 =
        (if f ∈ targets.map Prod.fst ∧ ¬ waiting then 1 else 0) ∧
      ((s.timer now targets).1.inCycle f = true ↔
        f ∈ targets.map Prod.fst ∨ s.inCycle f = true) ∧
      (waiting → (s.timer now targets).1.cycle? f = s.cycle? f) := by
  intro waiting
  obtain ⟨hcycle, hopenings⟩ := s.openCycles_spec now targets f
  have hopens_iff : (f ∈ targets.map Prod.fst ∧ f.index < s.cycles.size ∧
      s.isFree now f = true) ↔ f ∈ targets.map Prod.fst ∧ ¬ waiting := by
    rw [h.isFree_iff]
    exact ⟨fun hc => ⟨hc.1, hc.2.2⟩, fun hc => ⟨hc.1, hrange, hc.2⟩⟩
  rw [timer_of_active hactive]
  refine ⟨hopenings.trans (by simp only [hopens_iff]), ?_, fun hwaiting => ?_⟩
  · rw [inCycle, hcycle]
    by_cases hopens : f ∈ targets.map Prod.fst ∧ ¬ waiting
    · rw [if_pos (hopens_iff.2 hopens)]
      exact iff_of_true rfl (Or.inl hopens.1)
    · rw [if_neg (mt hopens_iff.1 hopens)]
      -- a target that is not opened is waited for, so it is in a cycle
      exact ⟨Or.inr, fun hc => hc.elim (fun hmem => (not_not.1 (not_and.1 hopens hmem)).1) id⟩
  · rw [hcycle, if_neg fun hopens => (hopens_iff.1 hopens).2 hwaiting]

/-- Only the timer opens a cycle. -/
theorem eq_timer_of_inCycle (hbefore : s.inCycle f = false) (call : ScheduleCall)
    (hafter : (s.answer call).1.inCycle f = true) : ∃ now targets, call = .timer now targets := by
  rw [inCycle_eq_false_iff] at hbefore
  obtain ⟨cycle, hcycle⟩ := inCycle_eq_true_iff.1 hafter
  cases call with
  | timer now targets => exact ⟨now, targets, rfl⟩
  | probe now g address =>
    have hkept : (s.probe now g address).1.cycle? f = s.cycle? f := by
      by_cases hg : g = f
      · subst hg
        exact cycle?_probe_of_none hbefore now address
      · exact cycle?_probe_of_ne (Ne.symm hg) now address
    exact nomatch hbefore.symm.trans (hkept.symm.trans hcycle)
  | forget g =>
    have hforget : (s.forget g).cycle? f = none := by
      rw [cycle?_forget, hbefore, ite_self]
    exact nomatch hforget.symm.trans hcycle

/-- A cycle ends when its federate leaves, when an answer is overdue, or with its last exchange. -/
theorem Tallied.ends (h : s.Tallied f tally) (hactive : s.Active) (hbefore : s.inCycle f = true)
    (call : ScheduleCall) (hafter : (s.answer call).1.inCycle f = false) :
    call = .forget f ∨ ∃ now address, call = .probe now f address ∧
      (s.settings.udpTimeout < now - tally.lastOpened ∨
        tally.opened = s.settings.trials.toNat ∧
          tally.asked + 1 = s.settings.trials.toNat) := by
  obtain ⟨cycle, hcycle⟩ := inCycle_eq_true_iff.1 hbefore
  rw [inCycle_eq_false_iff] at hafter
  cases call with
  | timer now targets =>
    have hkept := (s.openCycles_spec now targets f).1
    rw [← timer_of_active hactive, hcycle] at hkept
    have hnone : (s.timer now targets).1.cycle? f = none := hafter
    rw [hnone] at hkept
    split at hkept <;> cases hkept
  | probe now g address =>
    have hnone : (s.probe now g address).1.cycle? f = none := hafter
    by_cases hg : g = f
    · subst hg
      refine Or.inr ⟨now, address, rfl, ?_⟩
      have hasked := h.asked cycle hcycle
      by_cases hlast : s.isOverdue now cycle = true ∨ cycle.remaining = 0
      · exact ((h.last_iff hcycle).1 hlast).imp_right fun hopened => ⟨hopened, by omega⟩
      · rw [probe_of_next hactive.1 hcycle hlast, cycle?_setCycle,
          if_pos ⟨rfl, index_lt_of_cycle? hcycle⟩] at hnone
        cases hnone
    · rw [cycle?_probe_of_ne (Ne.symm hg)] at hnone
      exact nomatch hnone.symm.trans hcycle
  | forget g =>
    by_cases hg : g = f
    · exact Or.inl (congrArg _ hg)
    · have hnone : (s.forget g).cycle? f = none := hafter
      rw [cycle?_forget_of_ne (Ne.symm hg)] at hnone
      exact nomatch hnone.symm.trans hcycle

/-- Who has no place in the schedule, or is in one with nothing to do, never hears of a cycle. -/
theorem answer_of_idle (hidle : ¬ s.Active ∨ s.cycles.size ≤ f.index)
    (hnone : s.cycle? f = none) (call : ScheduleCall) :
    (s.answer call).1.cycle? f = none ∧ openings f (s.answer call).2 = 0 := by
  cases call with
  | timer now targets =>
    show (s.timer now targets).1.cycle? f = none ∧ openings f (s.timer now targets).2 = 0
    by_cases hactive : s.Active
    · have hrange := hidle.resolve_left (not_not.2 hactive)
      obtain ⟨hcycle, hopenings⟩ := s.openCycles_spec now targets f
      rw [if_neg fun hc => Nat.not_le.2 hc.2.1 hrange] at hcycle hopenings
      rw [timer_of_active hactive]
      exact ⟨hcycle.trans hnone, hopenings⟩
    · rw [timer_of_not_active hactive]
      exact ⟨hnone, rfl⟩
  | probe now g address =>
    show (s.probe now g address).1.cycle? f = none ∧ openings f (s.probe now g address).2 = 0
    by_cases hg : g = f
    · subst hg
      refine ⟨(cycle?_probe_of_none hnone now address).trans hnone, ?_⟩
      by_cases henabled : s.isEnabled = true
      · rw [probe_of_cycle?_eq_none henabled hnone]; rfl
      · rw [probe_of_not_isEnabled (Bool.eq_false_iff.2 henabled)]; rfl
    · rw [cycle?_probe_of_ne (Ne.symm hg)]
      exact ⟨hnone, s.openings_probe_of_ne now hg address⟩
  | forget g =>
    refine ⟨?_, rfl⟩
    show (s.forget g).cycle? f = none
    rw [cycle?_forget, hnone, ite_self]

end ClockSchedule

/-! ## Every run -/

namespace ScheduleRun

variable {settings : ClockSyncSettings} {n : Nat} {history : List ScheduleMoment}
variable {s : ClockSchedule} {f : FederateId}

theorem settings_eq (run : ScheduleRun settings n history s) : s.settings = settings := by
  induction run with
  | start => rfl
  | call _ call ih => exact (ClockSchedule.settings_answer _ call).trans ih

theorem size_eq (run : ScheduleRun settings n history s) : s.cycles.size = n := by
  induction run with
  | start => exact Roster.size_replicate n none
  | call _ call ih => exact (ClockSchedule.size_answer _ call).trans ih

theorem cycle?_start (settings : ClockSyncSettings) (n : Nat) (f : FederateId) :
    (ClockSchedule.start settings n).cycle? f = none := by
  unfold ClockSchedule.start ClockSchedule.cycle? Roster.getD
  rw [Roster.get?_replicate]
  split <;> rfl

theorem tallied (run : ScheduleRun settings n history s) (henabled : settings.enabled = true)
    (htrials : settings.trials ≠ 0) (f : FederateId) :
    s.Tallied f (.ofHistory f history) := by
  induction run with
  | start => exact .of_cycle?_eq_none (Nat.zero_le _) (cycle?_start settings n f)
  | @call history s earlier call ih =>
    rw [CycleTally.ofHistory_append_singleton]
    have hsettings := earlier.settings_eq
    refine ih.answer ⟨?_, ?_⟩ call
    · rw [ClockSchedule.isEnabled, hsettings, henabled]
    · rwa [hsettings]

theorem idle (run : ScheduleRun settings n history s)
    (h : settings.enabled = false ∨ settings.trials = 0 ∨ n ≤ f.index) :
    s.cycle? f = none ∧ ∀ m ∈ history, openings f m.actions = 0 := by
  induction run with
  | start => exact ⟨cycle?_start settings n f, nofun⟩
  | @call history s earlier call ih =>
    have hidle : ¬ s.Active ∨ s.cycles.size ≤ f.index := by
      rw [ClockSchedule.Active, ClockSchedule.isEnabled, earlier.settings_eq, earlier.size_eq]
      grind
    obtain ⟨hcycle, hopenings⟩ := ClockSchedule.answer_of_idle hidle ih.1 call
    refine ⟨hcycle, fun m hm => ?_⟩
    rcases List.mem_append.1 hm with hm | hm
    · exact ih.2 m hm
    · rw [List.mem_singleton.1 hm]
      exact hopenings

/-- A cycle runs its trials. Within it, each question that comes in time opens the next exchange as
long as there have been fewer than the settings ask for, so there are never more; the last question
ends it. Only the timer opens a cycle, also one in place of a cycle that is overdue, and only an
answer that takes too long or the departure of the federate ends it early. The timer does nothing
about a cycle that is waiting in time. Questions are answered in any case. Without synchronisation,
or for who is not configured, there is no cycle and no exchange. -/
theorem cycle_exchanges (run : ScheduleRun settings n history s) (f : FederateId) :
    (settings.enabled = true → settings.trials ≠ 0 → f.index < n →
      let tally := CycleTally.ofHistory f history
      let inTime (now : Duration) := now - tally.lastOpened ≤ settings.udpTimeout
      (tally.opened ≤ settings.trials.toNat ∧
        (s.inCycle f = true → tally.opened = tally.asked + 1)) ∧
      (∀ now address,
        let next := s.inCycle f = true ∧ inTime now ∧ tally.opened < settings.trials.toNat
        (s.probe now f address).2 = .sendClockSync f address .t4WithProbe ::
            (if next then [.sendClockSync f address .t1] else []) ∧
          ((s.probe now f address).1.inCycle f = true ↔ next)) ∧
      (∀ now targets,
        let waiting := s.inCycle f = true ∧ inTime now
        openings f (s.timer now targets).2 =
            (if f ∈ targets.map Prod.fst ∧ ¬ waiting then 1 else 0) ∧
          ((s.timer now targets).1.inCycle f = true ↔
            f ∈ targets.map Prod.fst ∨ s.inCycle f = true) ∧
          (waiting → (s.timer now targets).1.cycle? f = s.cycle? f)) ∧
      (∀ call, s.inCycle f = false → (s.answer call).1.inCycle f = true →
        ∃ now targets, call = .timer now targets) ∧
      ∀ call, s.inCycle f = true → (s.answer call).1.inCycle f = false →
        call = .forget f ∨ ∃ now address, call = .probe now f address ∧
          (¬ inTime now ∨
            tally.opened = settings.trials.toNat ∧ tally.asked + 1 = settings.trials.toNat)) ∧
    (settings.enabled = false ∨ settings.trials = 0 ∨ n ≤ f.index →
      s.inCycle f = false ∧ ∀ m ∈ history, openings f m.actions = 0) := by
  refine ⟨fun henabled htrials hrange => ?_, fun h => ?_⟩
  · have htallied := run.tallied henabled htrials f
    obtain rfl := run.settings_eq
    have hactive : s.Active := ⟨henabled, htrials⟩
    refine ⟨⟨htallied.le, fun hbusy => ?_⟩, htallied.probe_actions henabled,
      htallied.timer_actions hactive (run.size_eq ▸ hrange),
      fun call hbefore => ClockSchedule.eq_timer_of_inCycle hbefore call,
      fun call hbefore hafter => ?_⟩
    · obtain ⟨cycle, hcycle⟩ := ClockSchedule.inCycle_eq_true_iff.1 hbusy
      exact htallied.asked cycle hcycle
    · simp only [Nat.not_le]
      exact htallied.ends hactive hbefore call hafter
  · obtain ⟨hnone, hopenings⟩ := run.idle h
    exact ⟨ClockSchedule.inCycle_eq_false_iff.2 hnone, hopenings⟩

end ScheduleRun

/-- With two trials: the timer names the source twice and opens one exchange, the first question
opens the other, and the second ends the cycle. Who is not configured hears of none of it. -/
theorem ScheduleRun.cycle_exchanges_relay :
    let settings : ClockSyncSettings := { trials := 2 }
    let timer : ScheduleCall := .timer 0 [(⟨0⟩, default), (⟨0⟩, default)]
    let question : ScheduleCall := .probe 1 ⟨0⟩ default
    let opened := (ClockSchedule.start settings 1).answer timer
    let asked := opened.1.answer question
    let history : List ScheduleMoment := [⟨timer, opened.2⟩, ⟨question, asked.2⟩]
    ScheduleRun settings 1 history asked.1 ∧ asked.1.inCycle ⟨0⟩ = true ∧
      CycleTally.ofHistory ⟨0⟩ history = ⟨2, 1, 1⟩ ∧
      (asked.1.probe 2 ⟨0⟩ default).2 = [.sendClockSync ⟨0⟩ default .t4WithProbe] ∧
      (asked.1.probe 2 ⟨0⟩ default).1.inCycle ⟨0⟩ = false ∧
      ∀ m ∈ history, openings ⟨1⟩ m.actions = 0 := by
  intro settings timer question opened asked history
  have run : ScheduleRun settings 1 history asked.1 := (ScheduleRun.start.call timer).call question
  have hbusy : asked.1.inCycle ⟨0⟩ = true := by decide
  have htally : CycleTally.ofHistory ⟨0⟩ history = ⟨2, 1, 1⟩ := by decide
  obtain ⟨-, hprobe, -⟩ := (run.cycle_exchanges ⟨0⟩).1 rfl (by decide) (by decide)
  obtain ⟨hactions, hafter⟩ := hprobe 2 default
  rw [htally] at hactions hafter
  have hdone : ¬ (2 < settings.trials.toNat) := by decide
  rw [if_neg fun hnext => hdone hnext.2.2] at hactions
  have hidle := (run.cycle_exchanges ⟨1⟩).2 (Or.inr (Or.inr (by decide)))
  exact ⟨run, hbusy, htally, hactions,
    Bool.eq_false_iff.2 fun h => hdone (hafter.1 h).2.2, hidle.2⟩

end FederatedTime
