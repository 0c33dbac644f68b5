import FederatedTime.Proofs.Coordinator.Dialogue
import FederatedTime.Proofs.Coordinator.History
import FederatedTime.Proofs.Coordinator.LateJoin

/-!
# Completions

No federate has completed more than its next event, and what it has completed and been granted never
becomes less, until it joins again (`Run.completed_le_and_rises`).
-/

namespace FederatedTime

/-! ## Records -/

/-- Neither what is completed nor what is granted is less in the second record. -/
structure FederateRecord.Rises (a b : FederateRecord) : Prop where
  completed : a.completed ≤ b.completed
  lastGranted : a.lastGranted ≤ b.lastGranted

theorem FederateRecord.Rises.trans {a b c : FederateRecord} (h : a.Rises b) (h' : b.Rises c) :
    a.Rises c :=
  ⟨h.completed.trans h'.completed, h.lastGranted.trans h'.lastGranted⟩

namespace Registry

variable {r r' : Registry} {t : Topology} {stop : Option Tag} {gs : List Grant} {f : FederateId}
variable {record : FederateRecord} {change : FederateRecord → FederateRecord}
variable {seeds : List FederateId}

/-- No federate has completed more than its next event. -/
def Ordered (r : Registry) : Prop :=
  ∀ f record, r.get? f = some record → record.completed ≤ record.nextEvent

theorem Change.completed_le (h : Change t f record change seeds)
    (hle : record.completed ≤ record.nextEvent) :
    (change record).completed ≤ (change record).nextEvent := by
  cases h with
  | marked halike =>
    rw [halike.completed, halike.nextEvent]
    exact hle
  | nextEvent _ htag => exact not_lt.1 htag
  | completed => exact le_max_right _ _
  | joined => exact le_refl _
  | left => exact hle

theorem Update.ordered (hr : r.Ordered) (h : r.Update stop r' gs) : r'.Ordered := by
  cases h with
  | idle heq =>
    rw [heq]
    exact hr
  | change hg hchange heq =>
    subst heq
    intro f record' hf
    obtain ⟨middle, hmiddle, hswept⟩ := swept_of_get? hf
    rw [hswept.completed, hswept.nextEvent]
    rcases get?_modify_cases hg hmiddle with ⟨rfl, rfl⟩ | ⟨-, hf⟩
    · exact hchange.completed_le (hr _ _ hg)
    · exact hr f middle hf

/-- Whatever does not let the federate in leaves it what it has. -/
theorem Change.rises (h : Change t f record change seeds)
    (hjoin : (change record).isConnected → record.isConnected) : record.Rises (change record) := by
  cases h with
  | marked halike => exact ⟨le_of_eq halike.completed.symm, le_of_eq halike.lastGranted.symm⟩
  | nextEvent | left => exact ⟨le_refl _, le_refl _⟩
  | completed _ htag => exact ⟨le_of_lt (not_le.1 htag), le_refl _⟩
  | joined hrecord => exact absurd (hjoin rfl) hrecord

theorem Update.exists_rises (h : r.Update stop r' gs) (hf : r.get? f = some record)
    (hjoin : r'.isConnected f = true → r.isConnected f = true) :
    ∃ record', r'.get? f = some record' ∧ record.Rises record' := by
  cases h with
  | idle heq =>
    rw [heq]
    exact ⟨record, hf, le_refl _, le_refl _⟩
  | @change g old change seeds hg hchange heq =>
    subst heq
    have hmiddle : ∃ middle, (r.modify g change).get? f = some middle ∧ record.Rises middle := by
      rw [get?_modify, hf]
      by_cases hgf : g = f
      · subst hgf
        obtain rfl := Option.some.inj (hg.symm.trans hf)
        refine ⟨_, if_pos rfl, hchange.rises fun hconnected => ?_⟩
        rw [isConnected_eq_flag, flag_sweep isConnected_settle, flag_modify hg, if_pos rfl,
          isConnected_eq_flag, flag_of_get? hg] at hjoin
        exact hjoin hconnected
      · exact ⟨record, if_neg hgf, le_refl _, le_refl _⟩
    obtain ⟨middle, hmiddle, hrises⟩ := hmiddle
    have hafter : ∃ record', ((r.modify g change).sweep stop seeds).1.get? f = some record' := by
      rw [get?_sweep, hmiddle]
      split <;> exact ⟨_, rfl⟩
    obtain ⟨record', hrecord'⟩ := hafter
    obtain ⟨middle', hmiddle', hswept⟩ := swept_of_get? hrecord'
    obtain rfl := Option.some.inj (hmiddle.symm.trans hmiddle')
    refine ⟨record', hrecord', hrises.trans ⟨le_of_eq hswept.completed.symm, ?_⟩⟩
    exact le_lastGranted_sweep hmiddle hrecord'

end Registry

/-! ## Admissions -/

namespace Coordinator

variable {s : Coordinator} {e : Event} {out : Step} {c : ConnectionId} {f : FederateId}

/-- What an event does to the sessions. -/
theorem Transition.sessions (h : Transition s e out) :
    out.1.sessions = s.sessions ∨ (∃ d, out.1.sessions = s.sessions.remove d) ∨
      (∃ d peer, out.1.sessions = s.sessions.put d (.handshaking peer)) ∨
      ∃ d g federationId, e = .messageReceived d (.join g federationId) ∧
        out.1.sessions = s.sessions.put d (.joined g) := by
  cases h with
  | opened d peer => exact Or.inr (Or.inr (Or.inl ⟨d, peer, rfl⟩))
  | refused | abandoned => exact Or.inr (Or.inl ⟨_, rfl⟩)
  | admitted => exact Or.inr (Or.inr (Or.inr ⟨_, _, _, rfl, rfl⟩))
  | departed h | expelled _ h => exact Or.inr (Or.inl ⟨_, sessions_depart h.get?_eq _⟩)
  | ignored | closed | nextEvent | completed | forwardedUntimed | forwardedTimed | queried
  | timer => exact Or.inl rfl
  | proposed =>
    rw [onTimestamp, settleStart_fst]
    exact Or.inl rfl
  | requested | replied => exact Or.inl (sessions_contribute _ _ _)
  | @advertised _ g _ port h =>
    obtain ⟨directory, hdirectory⟩ := onAddressAd_eq s g port
    rw [hdirectory]
    exact Or.inl rfl
  | probed => exact Or.inl (sessions_onClockSyncProbe _ _ _)

/-- A connection on which the first message is awaited becomes joined by that message. -/
theorem Transition.eq_join {peer : SocketAddress} (h : Transition s e out)
    (hpeer : s.sessions.get? c = some (.handshaking peer))
    (hjoined : out.1.sessions.get? c = some (.joined f)) :
    ∃ federationId, e = .messageReceived c (.join f federationId) := by
  rcases h.sessions with heq | ⟨d, heq⟩ | ⟨d, peer', heq⟩ | ⟨d, g, federationId, he, heq⟩
  · rw [heq, hpeer] at hjoined
    cases hjoined
  · rw [heq, Sessions.get?_remove, hpeer] at hjoined
    split at hjoined <;> cases hjoined
  · rw [heq, Sessions.get?_put, hpeer] at hjoined
    split at hjoined <;> cases hjoined
  · rw [heq, Sessions.get?_put, hpeer] at hjoined
    split at hjoined
    · rename_i hc
      obtain rfl := Session.joined.inj (Option.some.inj hjoined)
      exact ⟨federationId, hc ▸ he⟩
    · cases hjoined

end Coordinator

/-- At this moment `f` is let in. -/
def Moment.Admits (m : Moment) (f : FederateId) : Prop :=
  ∃ c federationId, m.event = .messageReceived c (.join f federationId) ∧
    m.after.federateOf c = some f

namespace Run

variable {t : Topology} {settings : CoordinatorSettings} {history : List Moment} {s : Coordinator}
variable {f : FederateId} {record : FederateRecord}

theorem ordered (run : Run t settings history s) : s.registry.Ordered := by
  induction run with
  | start =>
    intro f record hf
    rw [Coordinator.get?_ofTopology hf]
  | event run now e fresh ih =>
    obtain ⟨gs, hupdate, -⟩ := run.update now e
    exact hupdate.ordered ih

/-- A federate that is not let in at a moment is joined after it only if it was joined before. -/
theorem isConnected_of_not_admits (run : Run t settings history s) (now : Duration) {e : Event}
    (fresh : ∀ c ∈ e.opens?, c ∉ opened history)
    (hnot : ¬ ((s.setTime now).moment e).Admits f)
    (h : ((s.setTime now).handle e).1.registry.isConnected f = true) :
    s.registry.isConnected f = true := by
  have hs := consistent_setTime run.consistent now
  have htransition := Coordinator.handle_transition hs e
  obtain ⟨c, record', hjoined'⟩ := (run.event now e fresh).consistent.isConnected_iff.1 h
  obtain ⟨gs, hmove, -⟩ := htransition.move
  rcases hmove.joined_before hs hjoined' with ⟨record, hjoined⟩ | ⟨⟨peer, hpeer⟩, -⟩
  · exact hjoined.isConnected
  · obtain ⟨federationId, he⟩ := htransition.eq_join hpeer hjoined'.session
    exact absurd ⟨c, federationId, he, Coordinator.federateOf_eq_some_iff.2 hjoined'.session⟩ hnot

/-- What a federate has completed and been granted is not taken from it before it joins again. -/
theorem exists_rises {earlier later : List Moment} (run : Run t settings (earlier ++ later) s)
    (hnot : ∀ m ∈ later, ¬ m.Admits f)
    (hf : (lastState (.ofTopology t settings) earlier).registry.get? f = some record) :
    ∃ record', s.registry.get? f = some record' ∧ record.Rises record' := by
  -- on the later moments, since a run grows at its end
  induction later using List.reverseRecOn generalizing s with
  | nil =>
    rw [List.append_nil] at run
    rw [run.lastState_eq] at hf
    exact ⟨record, hf, le_refl _, le_refl _⟩
  | append_singleton later m ih =>
    rw [← List.append_assoc] at run
    obtain ⟨before, now, run', fresh, hm, run''⟩ := run.exists_of_append_cons
    obtain ⟨middle, hmiddle, hrises⟩ := ih run' fun m' hm' => hnot m' (List.mem_append_left _ hm')
    obtain ⟨gs, hupdate, -⟩ := run'.update now m.event
    have hlast : ¬ ((before.setTime now).moment m.event).Admits f :=
      hm ▸ hnot m (List.mem_append_right _ List.mem_cons_self)
    obtain ⟨record', hrecord', hrises'⟩ :=
      hupdate.exists_rises hmiddle (run'.isConnected_of_not_admits now fresh hlast)
    have hs : s = ((before.setTime now).handle m.event).1 := by
      rw [← run.lastState_eq, run''.lastState_eq]
      exact congrArg Moment.after hm
    rw [hs]
    exact ⟨record', hrecord', hrises.trans hrises'⟩

/-- No federate has ever completed more than its next event. From one moment to a later one, what a
federate has completed and the last grant to it never become less, unless it joins in between. -/
theorem completed_le_and_rises (run : Run t settings history s) :
    (∀ f record, s.registry.get? f = some record → record.completed ≤ record.nextEvent) ∧
    ∀ earlier later, history = earlier ++ later → ∀ f, (∀ m ∈ later, ¬ m.Admits f) →
      ∀ record, (lastState (.ofTopology t settings) earlier).registry.get? f = some record →
        ∃ record', s.registry.get? f = some record' ∧
          record.completed ≤ record'.completed ∧ record.lastGranted ≤ record'.lastGranted := by
  refine ⟨run.ordered, ?_⟩
  rintro earlier later rfl f hnot record hf
  obtain ⟨record', hf', hrises⟩ := run.exists_rises hnot hf
  exact ⟨record', hf', hrises.completed, hrises.lastGranted⟩

end Run

namespace Relay

/-- The source takes its next event back as far as it can, and repeats what it has said before. -/
def waveringEvents : List Event :=
  [.messageReceived ⟨0⟩ (.nextEventTag (.ofTime 12)),
    .messageReceived ⟨0⟩ (.logicalTagComplete (.ofTime 5)),
    .messageReceived ⟨0⟩ (.nextEventTag .never), .messageReceived ⟨0⟩ (.nextEventTag (.ofTime 12))]

def waveringState : Coordinator := (state.handleAll waveringEvents).1

theorem run_wavering : Run plan.graph {} (history ++ state.trace waveringEvents) waveringState :=
  run.append_trace waveringEvents (by decide)

end Relay

namespace Run

theorem completed_le_and_rises_relay :
    (∀ m ∈ Relay.state.trace Relay.waveringEvents, ¬ m.Admits ⟨0⟩) ∧
    ∃ record record', Relay.state.registry.get? ⟨0⟩ = some record ∧
      Relay.waveringState.registry.get? ⟨0⟩ = some record' ∧
      record'.nextEvent < record.nextEvent ∧ record'.completed ≤ record'.nextEvent ∧
      record.completed ≤ record'.completed ∧ record.lastGranted ≤ record'.lastGranted := by
  have hnot : ∀ m ∈ Relay.state.trace Relay.waveringEvents, ¬ m.Admits ⟨0⟩ := by
    have hkind : ∀ m ∈ Relay.state.trace Relay.waveringEvents,
        ∀ message ∈ m.event.message?, message.kind ≠ .join := by
      decide +kernel
    rintro m hm ⟨c, federationId, he, -⟩
    exact hkind m hm (.join ⟨0⟩ federationId) (by rw [he]; rfl) rfl
  have hnext : ∀ record ∈ Relay.state.registry.get? ⟨0⟩,
      ∀ record' ∈ Relay.waveringState.registry.get? ⟨0⟩,
        record'.nextEvent < record.nextEvent := by
    decide +kernel
  obtain ⟨hle, hrises⟩ := Relay.run_wavering.completed_le_and_rises
  obtain ⟨record, hrecord⟩ := Relay.run.exists_record (f := ⟨0⟩) (by decide)
  have hlast : lastState (.ofTopology Relay.plan.graph {}) Relay.history = Relay.state :=
    Relay.run.lastState_eq
  obtain ⟨record', hrecord', hcompleted, hgranted⟩ :=
    hrises _ _ rfl ⟨0⟩ hnot record (hlast ▸ hrecord)
  exact ⟨hnot, record, record', hrecord, hrecord', hnext record hrecord record' hrecord',
    hle ⟨0⟩ record' hrecord', hcompleted, hgranted⟩

end Run

end FederatedTime
