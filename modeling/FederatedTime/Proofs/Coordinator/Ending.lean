import FederatedTime.Proofs.Coordinator.Bearing
import FederatedTime.Proofs.Coordinator.Negotiation
import FederatedTime.Proofs.Coordinator.Notices
import FederatedTime.Proofs.Coordinator.StopRound

/-!
# The end of a federation

A federation has ended when every federate has left (`Run.finished_of_allResigned`). As long as
nobody asks for a stop, nothing is said about one (`Transition.idle`), and so a federation only ends
when everybody is through.
-/

namespace FederatedTime

open FederatedTime.Action (SendsOnly)

namespace Registry

variable {r r' : Registry}

theorem allResigned_iff (hsize : r.size ≤ Topology.maxFederates) : r.allResigned = true ↔
    ∀ f record, r.get? f = some record → record.state = .resigned := by
  unfold allResigned
  rw [List.all_eq_true]
  constructor
  · intro h f record hf
    exact of_decide_eq_true (h record (Roster.mem_toList_of_get? hf))
  · intro h record hrecord
    rw [Roster.toList_eq_filterMap hsize] at hrecord
    obtain ⟨f, -, hf⟩ := List.mem_filterMap.1 hrecord
    exact decide_eq_true (h f record hf)

theorem allResigned_of_hasLeft (hsize : r.size ≤ Topology.maxFederates) (hsame : r'.size = r.size)
    (hleft : ∀ f, r'.hasLeft f = true → r.hasLeft f = true) (h : r'.allResigned = true) :
    r.allResigned = true := by
  rw [allResigned_iff (hsame ▸ hsize)] at h
  rw [allResigned_iff hsize]
  intro f record hf
  obtain ⟨record', hf'⟩ := Roster.exists_get?_of_index_lt
    (lt_of_lt_of_eq (Roster.index_lt_of_get? hf) hsame.symm)
  have hleft' := hleft f (by
    rw [hasLeft, flag_of_get? hf']
    exact decide_eq_true (h f record' hf'))
  rw [hasLeft, flag_of_get? hf] at hleft'
  exact of_decide_eq_true hleft'

end Registry

namespace Coordinator

variable {s : Coordinator} {e : Event} {out : Step} {f : FederateId} {c : ConnectionId}
variable {record : FederateRecord}

theorem finished_contribute (s : Coordinator) (f : FederateId)
    (result : StopNegotiation × StopOutcome) : (s.contribute f result).1.finished = s.finished := by
  rcases contribute_fst s f result with heq | heq | heq
  all_goals rw [heq]

theorem finished_depart (h : s.registry.get? f = some record) (c : ConnectionId) :
    (s.depart f c).1.finished = (s.finished || (s.depart f c).1.registry.allResigned) := by
  rw [depart_fst h]

/-- Only the end of a session looks whether the federation has ended. -/
theorem Transition.finished_eq (h : Transition s e out) : out.1.finished = s.finished ∨
    out.1.finished = (s.finished || out.1.registry.allResigned) := by
  cases h with
  | opened | ignored | closed | refused | abandoned | admitted | nextEvent | completed
  | forwardedUntimed | forwardedTimed | queried | timer => exact Or.inl rfl
  | proposed =>
    rw [onTimestamp, settleStart_fst]
    exact Or.inl rfl
  | requested | replied => exact Or.inl (finished_contribute s _ _)
  | @advertised _ g _ port h =>
    obtain ⟨directory, hdirectory⟩ := onAddressAd_eq s g port
    rw [hdirectory]
    exact Or.inl rfl
  | departed h | expelled _ h => exact Or.inr (finished_depart h.get?_eq _)
  | @probed g _ address h =>
    refine Or.inl ?_
    rcases onClockSyncProbe_fst s g address with heq | ⟨clock, heq⟩
    all_goals rw [heq]

/-- When everybody has left after an event, the federation has ended, as it has if everybody had
left before. -/
theorem Transition.finished (hsize : s.registry.size ≤ Topology.maxFederates)
    (h : Transition s e out) (hs : s.registry.allResigned = true → s.finished = true)
    (hall : out.1.registry.allResigned = true) : out.1.finished = true := by
  have hbefore (hleft : ∀ g, out.1.registry.hasLeft g = true → s.registry.hasLeft g = true) :
      out.1.finished = true := by
    obtain ⟨gs, hmove, -⟩ := h.move
    have hfinished := hs (Registry.allResigned_of_hasLeft hsize hmove.update.size_eq hleft hall)
    rcases h.finished_eq with heq | heq
    · rw [heq, hfinished]
    · rw [heq, hfinished, Bool.true_or]
  cases h.bearing with
  | plain _ hstart | contributed _ _ hstart => exact hbefore hstart.hasLeft
  | proposed =>
    refine hbefore fun g hg => ?_
    rw [onTimestamp, settleStart_fst] at hg
    exact hg
  | left hjoined =>
    have hfinished := finished_depart hjoined.get?_eq
    exact (hfinished _).trans (by rw [hall, Bool.or_true])

/-- As long as nobody asks for a stop, nothing is said about one. -/
theorem Transition.idle (h : Transition s e out) (hidle : s.stop = .idle)
    (he : e.stopTime? = none) : out.1.stop = .idle ∧ SendsOnly (!·.isAboutStop) out.2 := by
  cases h.bearing with
  | plain hstop => exact ⟨hstop.stop_eq.trans hidle, hstop.sends⟩
  | proposed _ _ hstop => exact ⟨hstop.stop_eq.trans hidle, hstop.sends⟩
  | contributed _ he' =>
    rcases he' with rfl | rfl
    · cases he
    · cases he
  | @left c f record actions hjoined hplain =>
    refine ⟨?_, Action.sendsOnly_append (hplain.mono fun message hmessage => ?_) ?_⟩
    · rw [depart_fst hjoined.get?_eq]
      dsimp only
      rw [hidle]
      rfl
    · exact (Bool.and_eq_true_iff.1 hmessage).1
    · have hclose : SendsOnly (!·.isAboutStop) [.closeConnection c] := by simp [SendsOnly]
      have hstart (s : Coordinator) : SendsOnly (!·.isAboutStop)
          (s.settleStart f (s.start.departure s.registry)).2 := by
        refine (sendsOnly_settleStart s f _).mono fun message hmessage => ?_
        obtain ⟨time, rfl⟩ := hmessage
        rfl
      have hadvance (s : Coordinator) : SendsOnly (!·.isAboutStop)
          (s.advance (s.registry.topology.downstream f)).2 := by
        refine (sendsOnly_advance s _).mono fun message hmessage => ?_
        obtain ⟨tag, rfl⟩ := hmessage
        rfl
      have hfinish (s : Coordinator) : SendsOnly (!·.isAboutStop) s.finishIfDone.2 :=
        (offline_finishIfDone s).silent.mono fun _ => False.elim
      have hstop : ((s.forget f c).settleStop
          ((s.forget f c).stop.departure f record.completed)).2 = [] := by
        show ((s.forget f c).settleStop (s.stop.departure f record.completed)).2 = []
        rw [hidle]
        rfl
      unfold depart
      rw [hjoined.get?_eq]
      simp only [Step.andThen_snd]
      rw [hstop, List.nil_append]
      exact Action.sendsOnly_append hclose (Action.sendsOnly_append (hstart _)
        (Action.sendsOnly_append (hadvance _) (hfinish _)))

end Coordinator

/-- A federation in which everybody has left has ended. -/
theorem Run.finished_of_allResigned {t : Topology} {settings : CoordinatorSettings}
    {history : List Moment} {s : Coordinator} {p : Topology.Plan} (hbuild : p.build = .ok t)
    (run : Run t settings history s) (hall : s.registry.allResigned = true) :
    s.finished = true := by
  induction run with
  | start =>
    have hstart : Run t settings [] (.ofTopology t settings) := .start
    obtain ⟨record, hrecord⟩ :=
      hstart.exists_record (f := .ofNat 0) (Topology.Plan.size_pos_of_build hbuild)
    have hresigned := (Registry.allResigned_iff (hstart.size_le hbuild)).1 hall _ record hrecord
    rw [Coordinator.get?_ofTopology hrecord] at hresigned
    cases hresigned
  | @event _ s run now e fresh ih =>
    have hs := consistent_setTime run.consistent now
    have hsize := run.size_le hbuild
    exact (Coordinator.handle_transition hs e).finished (s := s.setTime now) hsize ih hall

end FederatedTime
