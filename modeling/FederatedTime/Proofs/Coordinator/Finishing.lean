import FederatedTime.Proofs.Coordinator.Completion
import FederatedTime.Proofs.Coordinator.Ending
import FederatedTime.Proofs.Coordinator.Leaving

/-!
# The announcement of the end

The end of a federation is announced once: by the first event after which every federate has left,
as the last thing that it does (`Run.announced_once`). Only a departure announces anything
(`Transition.exists_ending`), and the coordinator keeps in mind that the federation has ended, so
that it makes no difference who comes back.
-/

namespace FederatedTime

/-! ## Actions that announce nothing -/

namespace Action

/-- The end of the federation is not announced. -/
def Ongoing (actions : List Action) : Prop := federationFinished ∉ actions

theorem ongoing_nil : Ongoing [] := List.not_mem_nil

theorem ongoing_append {first second : List Action} :
    Ongoing (first ++ second) ↔ Ongoing first ∧ Ongoing second := by
  simp [Ongoing]

theorem ongoing_flatMap {α : Type} {l : List α} {part : α → List Action}
    (h : ∀ a, Ongoing (part a)) : Ongoing (l.flatMap part) := by
  intro hmem
  obtain ⟨a, -, hmem⟩ := List.mem_flatMap.1 hmem
  exact h a hmem

end Action

open FederatedTime.Action (Ongoing ongoing_nil ongoing_append ongoing_flatMap)

namespace ClockSchedule

theorem ongoing_openCycles (s : ClockSchedule) (now : Duration)
    (targets : List (FederateId × SocketAddress)) : Ongoing (s.openCycles now targets).2 := by
  induction targets generalizing s with
  | nil => exact ongoing_nil
  | cons target targets ih =>
    have hfirst : Ongoing (s.openCycle now target.1 target.2).2 := by
      unfold openCycle
      extract_lets isFree
      cases isFree <;> simp [Ongoing]
    exact ongoing_append.2 ⟨hfirst, ih _⟩

theorem ongoing_timer (s : ClockSchedule) (now : Duration)
    (targets : List (FederateId × SocketAddress)) : Ongoing (s.timer now targets).2 := by
  unfold timer
  split
  · exact ongoing_openCycles s now targets
  · exact ongoing_nil

theorem ongoing_probe (s : ClockSchedule) (now : Duration) (f : FederateId)
    (address : SocketAddress) : Ongoing (s.probe now f address).2 := by
  unfold probe
  dsimp only
  split
  · split
    · simp [Ongoing]
    · split <;> simp [Ongoing]
  · exact ongoing_nil

end ClockSchedule

namespace Coordinator

variable {s : Coordinator} {e : Event} {out : Step} {f : FederateId} {c : ConnectionId}
variable {record : FederateRecord}

theorem ongoing_sendTo (s : Coordinator) (f : FederateId) (message : Message) :
    Ongoing (s.sendTo f message) := by
  unfold sendTo
  cases s.registry.connection? f <;> simp [Ongoing]

theorem ongoing_broadcast (s : Coordinator) (message : Message) :
    Ongoing (s.broadcast message) := by
  simp [Ongoing, broadcast]

theorem ongoing_advance (s : Coordinator) (seeds : List FederateId) :
    Ongoing (s.advance seeds).2 :=
  ongoing_flatMap fun g => ongoing_sendTo _ g.federate _

theorem ongoing_settleStop (s : Coordinator) (result : StopNegotiation × StopOutcome) :
    Ongoing (s.settleStop result).2 := by
  obtain ⟨stop, outcome⟩ := result
  cases outcome with
  | ignored | waiting => exact ongoing_nil
  | forward federates proposal => exact ongoing_flatMap fun g => ongoing_sendTo _ g _
  | agreed tag => exact ongoing_broadcast _ _

theorem ongoing_settleStart (s : Coordinator) (f : FederateId)
    (result : StartNegotiation × StartOutcome) : Ongoing (s.settleStart f result).2 := by
  obtain ⟨start, outcome⟩ := result
  cases outcome with
  | waiting => exact ongoing_nil
  | fixed time => exact ongoing_broadcast _ _
  | late time => exact ongoing_sendTo _ f _

theorem ongoing_contribute (s : Coordinator) (f : FederateId)
    (result : StopNegotiation × StopOutcome) : Ongoing (s.contribute f result).2 := by
  unfold contribute
  split
  · exact ongoing_nil
  · exact ongoing_settleStop _ result

theorem ongoing_onClockSyncProbe (s : Coordinator) (f : FederateId) (address : SocketAddress) :
    Ongoing (s.onClockSyncProbe f address).2 := by
  unfold onClockSyncProbe
  split
  · exact ClockSchedule.ongoing_probe _ _ _ _
  · exact ongoing_nil

/-! ## The announcement -/

/-- What is announced when the federation has ended in the second state and not in the first. -/
def ending (s s' : Coordinator) : List Action :=
  if !s.finished && s'.finished then [.federationFinished] else []

theorem mem_ending {s' : Coordinator} : .federationFinished ∈ s.ending s' ↔
    s.finished = false ∧ s'.finished = true := by
  unfold ending
  cases s.finished <;> cases s'.finished <;> simp

theorem ending_of_eq {s' : Coordinator} (h : s'.finished = s.finished) : s.ending s' = [] := by
  unfold ending
  rw [h, Bool.not_and_self]
  rfl

theorem finishIfDone_snd (s : Coordinator) : s.finishIfDone.2 = s.ending s.finishIfDone.1 := by
  rw [finishIfDone_fst]
  unfold finishIfDone ending
  cases s.finished <;> cases s.registry.allResigned <;> rfl

theorem exists_ending_depart (h : s.registry.get? f = some record) (c : ConnectionId) :
    ∃ front, Ongoing front ∧ (s.depart f c).2 = front ++ s.ending (s.depart f c).1 := by
  have hlast (s' : Coordinator) (hs' : s'.finished = s.finished) :
      s'.finishIfDone.2 = s.ending s'.finishIfDone.1 := by
    rw [finishIfDone_snd, ending, ending, hs']
  unfold depart
  rw [h]
  simp only [Step.andThen_snd, Step.andThen_fst]
  rw [hlast _ (by rw [advance_fst, settleStart_fst, settleStop_fst]; rfl)]
  simp only [← List.append_assoc]
  refine ⟨_, ?_, rfl⟩
  have hclose : Ongoing [.closeConnection c] := by simp [Ongoing]
  exact ongoing_append.2 ⟨ongoing_append.2 ⟨ongoing_append.2 ⟨hclose, ongoing_settleStop _ _⟩,
    ongoing_settleStart _ _ _⟩, ongoing_advance _ _⟩

/-- The end of the federation is announced by the event that it comes with, after everything
else. -/
theorem Transition.exists_ending (h : Transition s e out) :
    ∃ front, Ongoing front ∧ out.2 = front ++ s.ending out.1 := by
  have of_ongoing (hfinished : out.1.finished = s.finished) (hongoing : Ongoing out.2) :
      ∃ front, Ongoing front ∧ out.2 = front ++ s.ending out.1 :=
    ⟨out.2, hongoing, by rw [ending_of_eq hfinished, List.append_nil]⟩
  cases h with
  | opened | ignored | abandoned | closed | refused | admitted =>
    exact of_ongoing rfl (by simp [Ongoing, refuse])
  | proposed =>
    refine of_ongoing ?_ (ongoing_settleStart _ _ _)
    rw [onTimestamp, settleStart_fst]
  | nextEvent | completed => exact of_ongoing rfl (ongoing_advance _ _)
  | requested | replied =>
    exact of_ongoing (finished_contribute s _ _) (ongoing_contribute _ _ _)
  | forwardedUntimed | forwardedTimed | queried => exact of_ongoing rfl (ongoing_sendTo _ _ _)
  | @advertised _ g _ port =>
    refine of_ongoing ?_ ongoing_nil
    obtain ⟨directory, hdirectory⟩ := onAddressAd_eq s g port
    rw [hdirectory]
  | departed h => exact exists_ending_depart h.get?_eq _
  | @expelled _ c _ _ _ h =>
    obtain ⟨front, hfront, heq⟩ := exists_ending_depart h.get?_eq c
    have hreject : Ongoing (.send c (.reject .unexpectedMessage) :: front) := by
      simpa [Ongoing] using hfront
    rw [expel_eq]
    exact ⟨_, hreject, congrArg _ heq⟩
  | @probed g _ address =>
    refine of_ongoing ?_ (ongoing_onClockSyncProbe s g address)
    rcases onClockSyncProbe_fst s g address with heq | ⟨clock, heq⟩
    all_goals rw [heq]
  | timer => exact of_ongoing rfl (ClockSchedule.ongoing_timer _ _ _)

end Coordinator

/-! ## Who has left -/

namespace Registry

variable {r r' : Registry} {t : Topology} {stop : Option Tag} {gs : List Grant} {f : FederateId}
variable {record : FederateRecord} {change : FederateRecord → FederateRecord}
variable {seeds : List FederateId}

theorem flag_eq_false {field : FederateRecord → Bool}
    (h : ∀ record, r.get? f = some record → field record = false) : r.flag field f = false := by
  unfold flag
  cases hf : r.get? f with
  | none => rfl
  | some record => exact h record hf

/-- Only a joined federate leaves. -/
theorem Change.resigned (h : Change t f record change seeds)
    (hresigned : (change record).state = .resigned) :
    record.state = .resigned ∨ record.isConnected := by
  cases h with
  | marked halike => exact Or.inl (halike.state.symm.trans hresigned)
  | nextEvent h | completed h | left h => exact Or.inr h
  | joined => cases hresigned

theorem Update.hasLeft (h : r.Update stop r' gs) (hleft : r'.hasLeft f = true) :
    r.hasLeft f = true ∨ r.isConnected f = true := by
  cases h with
  | idle heq =>
    rw [heq] at hleft
    exact Or.inl hleft
  | @change g old change seeds hg hchange heq =>
    subst heq
    rw [hasLeft_sweep, Registry.hasLeft, flag_modify hg] at hleft
    split at hleft
    · rename_i hgf
      subst hgf
      rw [Registry.hasLeft, flag_of_get? hg, isConnected_of_get? hg]
      rcases hchange.resigned (of_decide_eq_true hleft) with hresigned | hconnected
      · exact Or.inl (decide_eq_true hresigned)
      · exact Or.inr hconnected
    · exact Or.inl hleft

end Registry

/-- Every federate of the federation has left. -/
def Topology.Deserted (t : Topology) (s : Coordinator) : Prop :=
  ∀ f, f.index < t.size → ∃ record, s.registry.get? f = some record ∧ record.state = .resigned

namespace Run

variable {t : Topology} {settings : CoordinatorSettings} {history : List Moment} {s : Coordinator}
variable {p : Topology.Plan} {f : FederateId}

theorem allResigned_iff (hbuild : p.build = .ok t) (run : Run t settings history s) :
    s.registry.allResigned = true ↔ t.Deserted s := by
  rw [Registry.allResigned_iff (run.size_le hbuild)]
  constructor
  · intro h f hf
    obtain ⟨record, hrecord⟩ := run.exists_record hf
    exact ⟨record, hrecord, h f record hrecord⟩
  · intro h f record hrecord
    have hf : f.index < t.size := run.registry_size_eq ▸ Roster.index_lt_of_get? hrecord
    obtain ⟨record', hrecord', hresigned⟩ := h f hf
    obtain rfl := Option.some.inj (hrecord.symm.trans hrecord')
    exact hresigned

/-! ## The end of a run -/

/-- The federation ends with an event after which everybody has left. -/
theorem finished_event (hbuild : p.build = .ok t) (run : Run t settings history s)
    (now : Duration) (e : Event) :
    ((s.setTime now).handle e).1.finished =
      (s.finished || ((s.setTime now).handle e).1.registry.allResigned) := by
  have hs := consistent_setTime run.consistent now
  have h := Coordinator.handle_transition hs e
  rcases h.finished_eq with heq | heq
  · cases hall : ((s.setTime now).handle e).1.registry.allResigned with
    | false =>
      rw [heq, Bool.or_false]
      rfl
    | true =>
      have hsize : s.registry.size ≤ Topology.maxFederates := run.size_le hbuild
      have hbefore : s.registry.allResigned = true → s.finished = true :=
        run.finished_of_allResigned hbuild
      rw [Bool.or_true]
      exact h.finished (s := s.setTime now) hsize hbefore hall
  · exact heq

/-- A federation has ended if everybody has once left. -/
theorem finished_iff (hbuild : p.build = .ok t) (run : Run t settings history s) :
    s.finished = true ↔ ∃ m ∈ history, t.Deserted m.after := by
  induction run with
  | start => simp [Coordinator.ofTopology]
  | event run now e fresh ih =>
    have hall := (run.event now e fresh).allResigned_iff hbuild
    rw [run.finished_event hbuild, Bool.or_eq_true, hall, ih]
    simp only [List.mem_append, List.mem_singleton, or_and_right, exists_or, exists_eq_left]
    rfl

theorem mem_actions_iff (hbuild : p.build = .ok t) {earlier later : List Moment} {m : Moment}
    (run : Run t settings (earlier ++ m :: later) s) :
    (.federationFinished ∈ m.actions ↔
      t.Deserted m.after ∧ ∀ m' ∈ earlier, ¬ t.Deserted m'.after) ∧
    (.federationFinished ∈ m.actions →
      ∃ front, .federationFinished ∉ front ∧ m.actions = front ++ [.federationFinished]) := by
  obtain ⟨before, now, run', fresh, hm, run''⟩ := run.exists_of_append_cons
  have hs := consistent_setTime run'.consistent now
  obtain ⟨front, hfront, hactions⟩ := (Coordinator.handle_transition hs m.event).exists_ending
  have hm_actions : m.actions = front ++ (before.setTime now).ending m.after := by
    rw [hm]
    exact hactions
  have hmem : .federationFinished ∈ m.actions ↔
      before.finished = false ∧ m.after.finished = true := by
    rw [hm_actions, List.mem_append, or_iff_right hfront, Coordinator.mem_ending]
    rfl
  constructor
  · rw [hmem, ← Bool.not_eq_true, run'.finished_iff hbuild, run''.finished_iff hbuild]
    simp only [List.mem_append, List.mem_singleton, or_and_right, exists_or, exists_eq_left,
      not_exists, not_and]
    constructor
    · rintro ⟨hnone, ⟨m', hm', hdeserted⟩ | hdeserted⟩
      · exact absurd hdeserted (hnone m' hm')
      · exact ⟨hdeserted, hnone⟩
    · rintro ⟨hdeserted, hnone⟩
      exact ⟨hnone, Or.inr hdeserted⟩
  · intro h
    have hending : (before.setTime now).ending m.after = [.federationFinished] := by
      obtain ⟨hbefore, hafter⟩ := hmem.1 h
      unfold Coordinator.ending
      rw [hafter, show (before.setTime now).finished = false from hbefore]
      rfl
    exact ⟨front, hfront, by rw [hm_actions, hending]⟩

/-! ## A federate that never joins -/

theorem not_isConnected_and_not_hasLeft (run : Run t settings history s)
    (hnot : ∀ m ∈ history, ¬ m.Admits f) :
    s.registry.isConnected f = false ∧ s.registry.hasLeft f = false := by
  induction run with
  | start =>
    constructor
    · apply Registry.flag_eq_false
      intro record hf
      rw [Coordinator.get?_ofTopology hf]
      rfl
    · apply Registry.flag_eq_false
      intro record hf
      rw [Coordinator.get?_ofTopology hf]
      rfl
  | event run now e fresh ih =>
    obtain ⟨hconnected, hleft⟩ := ih fun m hm => hnot m (List.mem_append_left _ hm)
    have hlast := hnot _ (List.mem_append_right _ (List.mem_singleton_self _))
    constructor
    · refine eq_false_of_ne_true fun h => ?_
      rw [run.isConnected_of_not_admits now fresh hlast h] at hconnected
      cases hconnected
    · refine eq_false_of_ne_true fun h => ?_
      obtain ⟨gs, hupdate, -⟩ := run.update now e
      rcases hupdate.hasLeft h with h | h
      · rw [h] at hleft
        cases hleft
      · rw [h] at hconnected
        cases hconnected

theorem not_deserted (run : Run t settings history s) (hf : f.index < t.size)
    (hnot : ∀ m ∈ history, ¬ m.Admits f) : ¬ t.Deserted s := by
  intro h
  obtain ⟨record, hrecord, hresigned⟩ := h f hf
  have hleft := (run.not_isConnected_and_not_hasLeft hnot).2
  rw [Registry.hasLeft, Registry.flag_of_get? hrecord, hresigned] at hleft
  cases hleft

/-- The end of the federation is announced by the first event after which every federate has left,
as the last of its actions, and never again, whoever comes back. From that event on the federation
has ended, and not before; as long as one of the federates has never joined, it has not. -/
theorem announced_once (hbuild : p.build = .ok t) (run : Run t settings history s) :
    (∀ earlier m later, history = earlier ++ m :: later →
      (.federationFinished ∈ m.actions ↔
        t.Deserted m.after ∧ ∀ m' ∈ earlier, ¬ t.Deserted m'.after) ∧
      (.federationFinished ∈ m.actions →
        ∃ front, .federationFinished ∉ front ∧ m.actions = front ++ [.federationFinished]) ∧
      (m.after.finished = true ↔ ∃ m' ∈ earlier ++ [m], t.Deserted m'.after)) ∧
    (s.finished = true ↔ ∃ m ∈ history, t.Deserted m.after) ∧
    ∀ f, f.index < t.size → (∀ m ∈ history, ¬ m.Admits f) →
      s.finished = false ∧ ∀ m ∈ history, .federationFinished ∉ m.actions := by
  refine ⟨?_, run.finished_iff hbuild, fun f hf hnot => ?_⟩
  · rintro earlier m later rfl
    obtain ⟨hmem, hlast⟩ := run.mem_actions_iff hbuild
    obtain ⟨before, now, -, -, -, run'⟩ := run.exists_of_append_cons
    exact ⟨hmem, hlast, run'.finished_iff hbuild⟩
  · have hdeserted : ∀ m ∈ history, ¬ t.Deserted m.after := by
      intro m hm
      obtain ⟨earlier, later, rfl⟩ := List.append_of_mem hm
      obtain ⟨before, now, -, -, -, run'⟩ := run.exists_of_append_cons
      refine run'.not_deserted hf fun m' hm' => hnot m' ?_
      simp only [List.mem_append, List.mem_singleton] at hm'
      rcases hm' with hm' | rfl
      · exact List.mem_append_left _ hm'
      · exact List.mem_append_right _ List.mem_cons_self
    constructor
    · rw [← Bool.not_eq_true, run.finished_iff hbuild]
      rintro ⟨m, hm, h⟩
      exact hdeserted m hm h
    · intro m hm h
      obtain ⟨earlier, later, rfl⟩ := List.append_of_mem hm
      exact hdeserted m hm ((run.mem_actions_iff hbuild).1.1 h).1

end Run

namespace Relay

/-- Both leave, and the source comes back to leave once more. -/
def endEvents : List Event :=
  [.messageReceived ⟨0⟩ .resign, .connectionLost ⟨1⟩, .connectionOpened ⟨2⟩ default,
    .messageReceived ⟨2⟩ (.join ⟨0⟩ "relay"), .messageReceived ⟨2⟩ .resign]

def endHistory : List Moment := history ++ state.trace endEvents

def endState : Coordinator := (state.handleAll endEvents).1

theorem run_end : Run plan.graph {} endHistory endState := run.append_trace endEvents (by decide)

end Relay

namespace Run

theorem announced_once_relay : Relay.plan.build = .ok Relay.plan.graph ∧
    Run Relay.plan.graph {} Relay.endHistory Relay.endState ∧
    (∃ m ∈ Relay.endHistory, .federationFinished ∈ m.actions ∧ Relay.plan.graph.Deserted m.after) ∧
    Relay.endState.finished = true ∧ Relay.endState.registry.allResigned = true ∧
    (∀ earlier m later, Relay.endHistory = earlier ++ m :: later →
      (∃ m' ∈ earlier, Relay.plan.graph.Deserted m'.after) → .federationFinished ∉ m.actions) ∧
    (Coordinator.ofTopology Relay.plan.graph {}).finished = false := by
  have hannounced : ∃ m ∈ Relay.endHistory, .federationFinished ∈ m.actions := by decide +kernel
  obtain ⟨hmoments, hfinished, -⟩ := Relay.run_end.announced_once Relay.build_eq
  have hstart : Run Relay.plan.graph {} [] (.ofTopology Relay.plan.graph {}) := .start
  obtain ⟨-, -, hnever⟩ := hstart.announced_once Relay.build_eq
  obtain ⟨m, hm, hmem⟩ := hannounced
  obtain ⟨earlier, later, heq⟩ := List.append_of_mem hm
  have hdeserted := ((hmoments earlier m later heq).1.1 hmem).1
  refine ⟨Relay.build_eq, Relay.run_end, ⟨m, hm, hmem, hdeserted⟩, hfinished.2 ⟨m, hm, hdeserted⟩,
    by decide +kernel, ?_, ?_⟩
  · rintro earlier m later heq ⟨m', hm', hbefore⟩ hmem
    exact ((hmoments earlier m later heq).1.1 hmem).2 m' hm' hbefore
  · exact (hnever ⟨0⟩ (by decide) fun m hm => absurd hm List.not_mem_nil).1

end Run

end FederatedTime
