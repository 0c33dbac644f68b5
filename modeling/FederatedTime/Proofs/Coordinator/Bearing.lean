import FederatedTime.Proofs.Coordinator.Move

/-!
# What an event has to do with the negotiations

Most events have nothing to do with stopping or with starting: they say nothing about it, change
nothing of it, and nobody leaves (`KeepsStop`, `KeepsStart`). `Transition.bearing` is that the
others are proposals of a start time, contributions to the stop, and the ends of sessions.
-/

namespace FederatedTime

open FederatedTime.Action (SendsOnly Silent)

namespace Message

/-- Whether the coordinator says something about stopping. -/
def isAboutStop : Message → Bool
  | stopRequest _ | stopGranted _ => true
  | _ => false

/-- Whether the coordinator says something about starting. -/
def isAboutStart : Message → Bool
  | timestamp _ => true
  | _ => false

/-- Whether it says something else. -/
def isPlain (message : Message) : Bool := !message.isAboutStop && !message.isAboutStart

end Message

namespace Coordinator

/-- The step says and changes nothing about stopping, and nobody leaves. -/
structure KeepsStop (s : Coordinator) (out : Step) : Prop where
  stop_eq : out.1.stop = s.stop
  isConnected : ∀ g, s.registry.isConnected g = true → out.1.registry.isConnected g = true
  isCounted : ∀ g, out.1.isCounted g = true → s.isCounted g = true
  sends : SendsOnly (!·.isAboutStop) out.2

/-- The step says and changes nothing about starting, and nobody leaves. -/
structure KeepsStart (s : Coordinator) (out : Step) : Prop where
  start_eq : out.1.start = s.start
  hasLeft : ∀ g, out.1.registry.hasLeft g = true → s.registry.hasLeft g = true
  sends : SendsOnly (!·.isAboutStart) out.2

/-- What an event has to do with the negotiations. -/
inductive Bearing (s : Coordinator) (e : Event) : Step → Prop
  | plain {out : Step} (hstop : KeepsStop s out) (hstart : KeepsStart s out) : Bearing s e out
  | proposed {c : ConnectionId} {f : FederateId} {record : FederateRecord} {proposal : Int64}
      (h : s.Joined c f record) (he : e = .messageReceived c (.timestamp proposal))
      (hstop : KeepsStop s (s.onTimestamp f proposal)) : Bearing s e (s.onTimestamp f proposal)
  | contributed {c : ConnectionId} {f : FederateId} {record : FederateRecord} {time : Int64}
      {result : StopNegotiation × StopOutcome} (h : s.Joined c f record)
      (he : e = .messageReceived c (.stopRequest time) ∨
        e = .messageReceived c (.stopRequestReply time))
      (hstart : KeepsStart s (s.contribute f result)) : Bearing s e (s.contribute f result)
  | left {c : ConnectionId} {f : FederateId} {record : FederateRecord} {actions : List Action}
      (h : s.Joined c f record) (hplain : SendsOnly (·.isPlain) actions) :
    Bearing s e ((s.depart f c).1, actions ++ (s.depart f c).2)

variable {s : Coordinator} {e : Event} {out : Step} {f : FederateId} {record : FederateRecord}

theorem isCounted_eq_flag (s : Coordinator) (g : FederateId) :
    s.isCounted g = s.registry.flag (·.stopCounted) g := rfl

/-! ## Steps that keep a negotiation -/

theorem keepsStop_of_registry_eq (hregistry : out.1.registry = s.registry)
    (hstop : out.1.stop = s.stop) (hsends : SendsOnly (!·.isAboutStop) out.2) :
    KeepsStop s out := by
  refine ⟨hstop, fun g hg => ?_, fun g hg => ?_, hsends⟩
  · rw [hregistry]
    exact hg
  · rw [isCounted_eq_flag, hregistry] at hg
    exact hg

theorem keepsStart_of_registry_eq (hregistry : out.1.registry = s.registry)
    (hstart : out.1.start = s.start) (hsends : SendsOnly (!·.isAboutStart) out.2) :
    KeepsStart s out := by
  refine ⟨hstart, fun g hg => ?_, hsends⟩
  rw [hregistry] at hg
  exact hg

section Change

variable {change : FederateRecord → FederateRecord} {stop : Option Tag} {seeds : List FederateId}

/-- One record changes, but nobody is counted by it. -/
theorem keepsStop_of_change (hf : s.registry.get? f = some record)
    (hconnected : record.isConnected = true → (change record).isConnected = true)
    (hcounted : (change record).stopCounted = true → record.stopCounted = true)
    (hregistry : out.1.registry = ((s.registry.modify f change).sweep stop seeds).1)
    (hstop : out.1.stop = s.stop) (hsends : SendsOnly (!·.isAboutStop) out.2) :
    KeepsStop s out := by
  refine ⟨hstop, fun g hg => ?_, fun g hg => ?_, hsends⟩
  · rw [hregistry, Registry.isConnected_eq_flag, Registry.flag_sweep Registry.isConnected_settle,
      Registry.flag_modify hf]
    split
    · rename_i hfg
      rw [← hfg, Registry.isConnected_eq_flag, Registry.flag_of_get? hf] at hg
      exact hconnected hg
    · exact hg
  · rw [isCounted_eq_flag, hregistry, Registry.flag_sweep Registry.stopCounted_settle,
      Registry.flag_modify hf] at hg
    split at hg
    · rename_i hfg
      rw [← hfg, isCounted_eq_flag, Registry.flag_of_get? hf]
      exact hcounted hg
    · exact hg

theorem keepsStart_of_change (hf : s.registry.get? f = some record)
    (hresigned : (change record).state = .resigned → record.state = .resigned)
    (hregistry : out.1.registry = ((s.registry.modify f change).sweep stop seeds).1)
    (hstart : out.1.start = s.start) (hsends : SendsOnly (!·.isAboutStart) out.2) :
    KeepsStart s out := by
  refine ⟨hstart, fun g hg => ?_, hsends⟩
  rw [hregistry, Registry.hasLeft_sweep, Registry.hasLeft, Registry.flag_modify hf] at hg
  split at hg
  · rename_i hfg
    rw [← hfg, Registry.hasLeft, Registry.flag_of_get? hf]
    exact decide_eq_true (hresigned (of_decide_eq_true hg))
  · exact hg

end Change

theorem keepsStop_onTimestamp (s : Coordinator) (f : FederateId) (proposal : Int64) :
    KeepsStop s (s.onTimestamp f proposal) := by
  refine keepsStop_of_registry_eq (by rw [onTimestamp, settleStart_fst])
    (by rw [onTimestamp, settleStart_fst]) ?_
  refine (sendsOnly_settleStart _ _ _).mono fun message h => ?_
  obtain ⟨time, rfl⟩ := h
  rfl

theorem keepsStart_contribute (hf : s.registry.get? f = some record)
    (result : StopNegotiation × StopOutcome) : KeepsStart s (s.contribute f result) := by
  have hsends : SendsOnly (!·.isAboutStart) (s.contribute f result).2 := by
    unfold contribute
    split
    · exact Action.silent_nil.mono fun _ => False.elim
    · refine (sendsOnly_settleStop _ _).mono fun message h => ?_
      rcases h with ⟨time, rfl | rfl⟩ <;> rfl
  rcases contribute_fst s f result with heq | heq | heq
  · exact keepsStart_of_registry_eq (by rw [heq]) (by rw [heq]) hsends
  · exact keepsStart_of_registry_eq (by rw [heq]) (by rw [heq]) hsends
  · have hresigned : ({ record with stopCounted := true } : FederateRecord).state = .resigned →
        record.state = .resigned := id
    have hregistry : (s.contribute f result).1.registry =
        ((s.registry.modify f ({ · with stopCounted := true })).sweep none []).1 := by
      rw [heq, Registry.sweep_nil]
    exact keepsStart_of_change hf hresigned hregistry (by rw [heq]) hsends

/-! ## Steps that keep both -/

theorem bearing_of_registry_eq (e : Event) (hregistry : out.1.registry = s.registry)
    (hstop : out.1.stop = s.stop) (hstart : out.1.start = s.start)
    (hplain : SendsOnly (·.isPlain) out.2) : Bearing s e out :=
  .plain
    (keepsStop_of_registry_eq hregistry hstop
      (hplain.mono fun _ h => (Bool.and_eq_true_iff.1 h).1))
    (keepsStart_of_registry_eq hregistry hstart
      (hplain.mono fun _ h => (Bool.and_eq_true_iff.1 h).2))

theorem bearing_of_change (e : Event) {change : FederateRecord → FederateRecord} {stop : Option Tag}
    {seeds : List FederateId} (hf : s.registry.get? f = some record)
    (hconnected : record.isConnected = true → (change record).isConnected = true)
    (hcounted : (change record).stopCounted = true → record.stopCounted = true)
    (hresigned : (change record).state = .resigned → record.state = .resigned)
    (hregistry : out.1.registry = ((s.registry.modify f change).sweep stop seeds).1)
    (hstop : out.1.stop = s.stop) (hstart : out.1.start = s.start)
    (hplain : SendsOnly (·.isPlain) out.2) : Bearing s e out :=
  .plain
    (keepsStop_of_change hf hconnected hcounted hregistry hstop
      (hplain.mono fun _ h => (Bool.and_eq_true_iff.1 h).1))
    (keepsStart_of_change hf hresigned hregistry hstart
      (hplain.mono fun _ h => (Bool.and_eq_true_iff.1 h).2))

theorem plain_advance (s : Coordinator) (seeds : List FederateId) :
    SendsOnly (·.isPlain) (s.advance seeds).2 := by
  refine (sendsOnly_advance s seeds).mono fun message h => ?_
  obtain ⟨tag, rfl⟩ := h
  rfl

theorem plain_sendTo (s : Coordinator) (f : FederateId) {message : Message}
    (h : message.isPlain) : SendsOnly (·.isPlain) (s.sendTo f message) := by
  refine (sendsOnly_sendTo s f message).mono fun message' h' => ?_
  rw [h']
  exact h

theorem bearing_of_probe {address : SocketAddress} (hf : s.registry.get? f = some record)
    (e : Event) : Bearing s e (s.onClockSyncProbe f address) := by
  have hplain : SendsOnly (·.isPlain) (s.onClockSyncProbe f address).2 :=
    (offline_onClockSyncProbe s f address).silent.mono fun _ => False.elim
  rcases onClockSyncProbe_fst s f address with heq | ⟨clock, heq⟩
  · exact bearing_of_registry_eq e (by rw [heq]) (by rw [heq]) (by rw [heq]) hplain
  · have halike := FederateRecord.alike_registerClock record address
    have hcounted : (registerClock address record).stopCounted = record.stopCounted := by
      unfold registerClock
      split <;> rfl
    have hregistry : (s.onClockSyncProbe f address).1.registry =
        ((s.registry.modify f (registerClock address)).sweep none []).1 := by
      rw [heq, Registry.sweep_nil]
    exact bearing_of_change e hf (fun h => halike.isConnected.trans h)
      (fun h => hcounted.symm.trans h) (fun h => halike.state.symm.trans h) hregistry
      (by rw [heq]) (by rw [heq]) hplain

/-! ## Every event -/

/-- An event has nothing to do with the negotiations, or it is a proposal of a start time, a
contribution to the stop, or the end of a session. -/
theorem Transition.bearing (h : Transition s e out) : Bearing s e out := by
  have plain_nil : SendsOnly (·.isPlain) [] := Action.silent_nil.mono fun _ => False.elim
  cases h with
  | opened | ignored => exact bearing_of_registry_eq _ rfl rfl rfl plain_nil
  | closed | abandoned => exact bearing_of_registry_eq _ rfl rfl rfl (by simp [SendsOnly])
  | refused =>
    refine bearing_of_registry_eq _ rfl rfl rfl ?_
    simp [SendsOnly, refuse, Message.isPlain, Message.isAboutStop, Message.isAboutStart]
  | @admitted c peer f _ record h hfault hf hrecord =>
    have hpending : (record.join c peer.ip).state ≠ .resigned := FederateState.noConfusion
    have hcounted : (record.join c peer.ip).stopCounted ≠ true := Bool.false_ne_true
    have hregistry : s.registry.modify f (·.join c peer.ip) =
        ((s.registry.modify f (·.join c peer.ip)).sweep none []).1 := by
      rw [Registry.sweep_nil]
    refine bearing_of_change _ hf (fun _ => rfl) (absurd · hcounted) (absurd · hpending) hregistry
      rfl rfl ?_
    simp [SendsOnly, Message.isPlain, Message.isAboutStop, Message.isAboutStart]
  | @proposed c f _ proposal h => exact .proposed h rfl (keepsStop_onTimestamp s f proposal)
  | nextEvent h htag | completed h htag =>
    exact bearing_of_change _ h.get?_eq id id id rfl rfl rfl (plain_advance _ _)
  | requested time h => exact .contributed h (Or.inl rfl) (keepsStart_contribute h.get?_eq _)
  | replied time h => exact .contributed h (Or.inr rfl) (keepsStart_contribute h.get?_eq _)
  | forwardedUntimed m h | forwardedTimed m h =>
    exact bearing_of_registry_eq _ rfl rfl rfl (plain_sendTo _ _ rfl)
  | queried target h =>
    refine bearing_of_registry_eq _ rfl rfl rfl (plain_sendTo _ _ ?_)
    unfold Directory.reply
    split <;> rfl
  | @advertised c f _ port h =>
    obtain ⟨directory, hdirectory⟩ := onAddressAd_eq s f port
    rw [hdirectory]
    exact bearing_of_registry_eq _ rfl rfl rfl plain_nil
  | departed h => exact .left h plain_nil
  | @expelled _ c f record he h =>
    have hout : s.expel f c =
        ((s.depart f c).1, [.send c (.reject .unexpectedMessage)] ++ (s.depart f c).2) := rfl
    rw [hout]
    refine .left h ?_
    simp [SendsOnly, Message.isPlain, Message.isAboutStop, Message.isAboutStart]
  | probed address h hf => exact bearing_of_probe h _
  | timer =>
    exact bearing_of_registry_eq _ rfl rfl rfl
      ((ClockSchedule.offline_timer _ _ _).silent.mono fun _ => False.elim)

end Coordinator

end FederatedTime
