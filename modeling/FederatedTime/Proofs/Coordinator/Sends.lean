import FederatedTime.Coordinator.Step

/-!
# What the parts of a step send

Each part of a step sends one kind of message, or none at all. `Action.SendsOnly` is that of a list
of actions; what the actions hold of any other kind is then nothing. `Action.Offline` is that they
have nothing to do with any connection.
-/

namespace FederatedTime

namespace Action

variable {P Q : Message → Prop} {actions : List Action}

/-- Every message that the actions send has the property. -/
def SendsOnly (P : Message → Prop) (actions : List Action) : Prop :=
  ∀ c message, .send c message ∈ actions → P message

/-- The actions send nothing. -/
abbrev Silent (actions : List Action) : Prop := SendsOnly (fun _ => False) actions

/-- The connection that an action sends on or closes. -/
def connection? : Action → Option ConnectionId
  | send c _ | closeConnection c => some c
  | sendClockSync _ _ _ | federationFinished => none

@[simp] theorem connection?_send (c : ConnectionId) (message : Message) :
    (send c message).connection? = some c := rfl

@[simp] theorem connection?_closeConnection (c : ConnectionId) :
    (closeConnection c).connection? = some c := rfl

/-- No action sends on a connection or closes one. -/
def Offline (actions : List Action) : Prop := ∀ a ∈ actions, a.connection? = none

theorem Offline.silent (h : Offline actions) : Silent actions :=
  fun _ _ hmem => nomatch h _ hmem

theorem SendsOnly.mono (h : SendsOnly P actions) (hPQ : ∀ message, P message → Q message) :
    SendsOnly Q actions :=
  fun c message hmem => hPQ message (h c message hmem)

theorem silent_nil : Silent [] := by
  simp [SendsOnly]

theorem sendsOnly_append {first second : List Action} (hfirst : SendsOnly P first)
    (hsecond : SendsOnly P second) : SendsOnly P (first ++ second) := by
  intro c message hmem
  rcases List.mem_append.1 hmem with hmem | hmem
  · exact hfirst c message hmem
  · exact hsecond c message hmem

theorem sendsOnly_flatMap {α : Type} {l : List α} {part : α → List Action}
    (h : ∀ a ∈ l, SendsOnly P (part a)) : SendsOnly P (l.flatMap part) := by
  intro c message hmem
  obtain ⟨a, ha, hmem⟩ := List.mem_flatMap.1 hmem
  exact h a ha c message hmem

end Action

open FederatedTime.Action (SendsOnly Offline)

namespace Coordinator

theorem sendsOnly_sendTo (s : Coordinator) (f : FederateId) (message : Message) :
    SendsOnly (· = message) (s.sendTo f message) := by
  intro c message' hmem
  unfold sendTo at hmem
  obtain ⟨c', -, heq⟩ := Option.map_eq_some_iff.1 (Option.mem_toList.1 hmem)
  exact (Action.send.inj heq).2.symm

theorem sendsOnly_broadcast (s : Coordinator) (message : Message) :
    SendsOnly (· = message) (s.broadcast message) := by
  intro c message' hmem
  obtain ⟨c', -, heq⟩ := List.mem_map.1 hmem
  exact (Action.send.inj heq).2.symm

theorem sendsOnly_advance (s : Coordinator) (seeds : List FederateId) :
    SendsOnly (fun message => ∃ tag, message = .timeAdvanceGrant tag) (s.advance seeds).2 := by
  refine Action.sendsOnly_flatMap fun g _ => ?_
  exact (sendsOnly_sendTo _ _ _).mono fun message h => ⟨g.tag, h⟩

theorem sendsOnly_settleStop (s : Coordinator) (result : StopNegotiation × StopOutcome) :
    SendsOnly (fun message => ∃ time, message = .stopRequest time ∨ message = .stopGranted time)
      (s.settleStop result).2 := by
  obtain ⟨stop, outcome⟩ := result
  cases outcome with
  | ignored | waiting => exact Action.silent_nil.mono fun _ => False.elim
  | agreed tag => exact (sendsOnly_broadcast _ _).mono fun message h => ⟨tag.time, Or.inr h⟩
  | forward federates proposal =>
    refine Action.sendsOnly_flatMap fun f _ => ?_
    exact (sendsOnly_sendTo _ _ _).mono fun message h => ⟨proposal.time, Or.inl h⟩

theorem sendsOnly_settleStart (s : Coordinator) (f : FederateId)
    (result : StartNegotiation × StartOutcome) :
    SendsOnly (fun message => ∃ time, message = .timestamp time) (s.settleStart f result).2 := by
  obtain ⟨start, outcome⟩ := result
  cases outcome with
  | waiting => exact Action.silent_nil.mono fun _ => False.elim
  | fixed time => exact (sendsOnly_broadcast _ _).mono fun message h => ⟨time, h⟩
  | late time => exact (sendsOnly_sendTo _ _ _).mono fun message h => ⟨time, h⟩

theorem offline_finishIfDone (s : Coordinator) : Offline s.finishIfDone.2 := by
  unfold finishIfDone
  split <;> simp [Offline, idle, Action.connection?]

end Coordinator

namespace ClockSchedule

theorem offline_openCycles (s : ClockSchedule) (now : Duration)
    (targets : List (FederateId × SocketAddress)) : Offline (s.openCycles now targets).2 := by
  induction targets generalizing s with
  | nil => simp [Offline, openCycles]
  | cons target targets ih =>
    have hfirst : Offline (s.openCycle now target.1 target.2).2 := by
      unfold openCycle
      extract_lets isFree
      cases isFree <;> simp [Offline, Action.connection?]
    exact List.forall_mem_append.2 ⟨hfirst, ih _⟩

theorem offline_timer (s : ClockSchedule) (now : Duration)
    (targets : List (FederateId × SocketAddress)) : Offline (s.timer now targets).2 := by
  unfold timer
  split
  · exact offline_openCycles s now targets
  · simp [Offline]

theorem offline_probe (s : ClockSchedule) (now : Duration) (f : FederateId)
    (address : SocketAddress) : Offline (s.probe now f address).2 := by
  unfold probe
  dsimp only
  split
  · split
    · simp [Offline, Action.connection?]
    · split <;> simp [Offline, Action.connection?]
  · simp [Offline]

end ClockSchedule

namespace Coordinator

theorem offline_onClockSyncProbe (s : Coordinator) (f : FederateId) (address : SocketAddress) :
    Offline (s.onClockSyncProbe f address).2 := by
  unfold onClockSyncProbe
  split
  · exact ClockSchedule.offline_probe _ _ _ _
  · simp [Offline, idle]

end Coordinator

end FederatedTime
