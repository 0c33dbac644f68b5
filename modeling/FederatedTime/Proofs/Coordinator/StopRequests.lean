import FederatedTime.Proofs.Coordinator.StopAgreement

/-!
# Who is asked to stop

When a round opens, everybody whom it asks is sent one request, on the connection on which it is
joined then, and nobody is sent another one (`Run.proposalsOn_cases`). When a stop is announced, all
who have been asked have answered, and it is the greatest of the tags that count
(`Run.exists_round_of_stopGranted`).
-/

namespace FederatedTime

open FederatedTime.Action (notices)
open FederatedTime.StopNotice (proposalsTo)

theorem Tag.ofTime_le_ofTime_time {time : Int64} {tag : Tag} (h : .ofTime time ≤ tag) :
    .ofTime time ≤ Tag.ofTime tag.time := by
  rw [Tag.le_iff] at *
  rcases h with hlt | ⟨heq, -⟩
  · exact Or.inl hlt
  · exact Or.inr ⟨heq, le_refl _⟩

theorem StopNegotiation.request_idle_eq_forward {f : FederateId} {tag proposal : Tag}
    {l asked : List FederateId} (h : (idle.request f tag l).2 = .forward asked proposal) :
    asked = (FederateSet.ofList (l.filter (· ≠ f))).toList ∧ proposal = tag := by
  unfold request at h
  dsimp only at h
  split at h
  · cases h
  · obtain ⟨rfl, rfl⟩ := StopOutcome.forward.inj h
    exact ⟨rfl, rfl⟩

theorem StopOutcome.proposalsTo_notices_forward_eq_nil {r : Registry} {c : ConnectionId}
    {l : List FederateId} (hc : ∀ f ∈ l, r.connection? f ≠ some c) (proposal : Tag) :
    proposalsTo c ((forward l proposal).notices r) = [] := by
  unfold proposalsTo notices
  dsimp only
  rw [List.filterMap_map, List.filterMap_eq_nil_iff]
  intro d hd
  obtain ⟨f, hf, hfd⟩ := List.mem_filterMap.1 hd
  refine if_neg ?_
  rintro rfl
  exact hc f hf hfd

namespace Coordinator

variable {s : Coordinator} {m : Moment} {result : StopNegotiation × StopOutcome}
variable {f : FederateId} {time : Int64} {c : ConnectionId}

/-- The request that opens a round is passed on to everybody else who is joined. -/
theorem Adopts.proposalsTo_of_opened
    (hadopts : s.Adopts m (StopNegotiation.idle.request f (.ofTime time) s.registry.connected))
    (hs : s.Consistent) (hsize : s.registry.size ≤ Topology.maxFederates)
    (hs' : m.after.Consistent) :
    proposalsTo c (notices m.actions) = [] ∨ ∃ g, g ≠ f ∧ s.registry.isConnected g ∧
      m.after.registry.connection? g = some c ∧ proposalsTo c (notices m.actions) = [time] := by
  rw [hadopts.notices_eq]
  by_cases hforward : ∃ asked proposal,
      (StopNegotiation.idle.request f (.ofTime time) s.registry.connected).2 = .forward asked proposal
  · obtain ⟨asked, proposal, hforward⟩ := hforward
    obtain ⟨rfl, rfl⟩ := StopNegotiation.request_idle_eq_forward hforward
    rw [hforward]
    by_cases hasked : ∃ g ∈ (FederateSet.ofList (s.registry.connected.filter (· ≠ f))).toList,
        m.after.registry.connection? g = some c
    · obtain ⟨g, hg, hconnection⟩ := hasked
      have hc (h : FederateId) : m.after.registry.connection? h = some c ↔ h = g := by
        refine ⟨fun hh => hs'.connection?_injective hh hconnection, ?_⟩
        rintro rfl
        exact hconnection
      obtain ⟨hgf, hconnected⟩ := (hs.mem_pending_iff hsize).1 hg
      refine Or.inr ⟨g, hgf, hconnected, hconnection, ?_⟩
      rw [StopOutcome.proposalsTo_notices_forward hc,
        List.count_eq_one_of_mem (FederateSet.nodup_toList _) hg]
      rfl
    · push Not at hasked
      exact Or.inl (StopOutcome.proposalsTo_notices_forward_eq_nil hasked _)
  · push Not at hforward
    exact Or.inl (StopOutcome.proposalsTo_notices_of_ne_forward hforward _ c)

/-- Nothing but a request is passed on. -/
theorem Verdict.proposalsTo_of_not_request (hverdict : s.Verdict m result)
    (hadopts : s.Adopts m result) (hrequest : m.request? s = none) (c : ConnectionId) :
    proposalsTo c (notices m.actions) = [] := by
  rw [hadopts.notices_eq]
  refine StopOutcome.proposalsTo_notices_of_ne_forward (fun l proposal => ?_) _ c
  cases hverdict with
  | silent | passedOver => simp
  | requested hrequest' =>
    rw [hrequest'] at hrequest
    cases hrequest
  | answered => exact StopNegotiation.fold_ne_forward _ _ _ l proposal

end Coordinator

namespace Run

variable {t : Topology} {settings : CoordinatorSettings} {history : List Moment} {s : Coordinator}
variable {p : Topology.Plan}

theorem Standing.proposalsOn_eq_nil (h : Standing history s none) (c : ConnectionId) :
    proposalsOn c history = [] := by
  cases h with
  | unopened _ _ hnotices =>
    refine List.flatMap_eq_nil_iff.2 fun m hm => ?_
    rw [hnotices m hm]
    rfl

/-- The moment that opens the round passes the request on, to whoever the round asks. -/
theorem proposalsTo_of_first (hbuild : p.build = .ok t) (run : Run t settings history s)
    (now : Duration) (e : Event) (fresh : ∀ c ∈ e.opens?, c ∉ opened history)
    (hround : Round.ofHistory (.ofTopology t settings) history = none) (c : ConnectionId) :
    proposalsTo c (notices ((s.setTime now).moment e).actions) = [] ∨
      ∃ r g, Round.ofHistory s [(s.setTime now).moment e] = some r ∧ r.Asks g ∧
        r.opened.registry.connection? g = some c ∧
        proposalsTo c (notices ((s.setTime now).moment e).actions) = [r.time] := by
  have hs := consistent_setTime run.consistent now
  have hs' := (run.event now e fresh).consistent
  have hsize : s.registry.size ≤ Topology.maxFederates := run.size_le hbuild
  have hstanding := run.standing hbuild
  rw [hround] at hstanding
  have hidle : (s.setTime now).stop = .idle := by
    cases hstanding with
    | unopened hstop => exact hstop
  obtain ⟨result, hverdict, hadopts⟩ := run.exists_verdict hbuild now e
  have hsame : ((s.setTime now).moment e).request? s =
      ((s.setTime now).moment e).request? (s.setTime now) := rfl
  rw [Round.ofHistory, hsame]
  cases hrequest : ((s.setTime now).moment e).request? (s.setTime now) with
  | none => exact Or.inl (hverdict.proposalsTo_of_not_request hadopts hrequest c)
  | some request =>
    cases hverdict with
    | silent hnone | answered hnone =>
      rw [hnone] at hrequest
      cases hrequest
    | passedOver =>
      rw [hadopts.notices_eq]
      exact Or.inl rfl
    | requested hrequest' =>
      obtain rfl := Option.some.inj (hrequest'.symm.trans hrequest)
      rw [hidle] at hadopts
      refine (hadopts.proposalsTo_of_opened hs hsize hs').imp_right ?_
      rintro ⟨g, hgf, hconnected, hconnection, hproposals⟩
      exact ⟨_, g, rfl, ⟨hgf, hconnected⟩, hconnection, hproposals⟩

/-- A request goes out once, to whoever the round asks, and to nobody else. -/
theorem proposalsOn_cases (hbuild : p.build = .ok t) (run : Run t settings history s)
    (c : ConnectionId) : proposalsOn c history = [] ∨
      ∃ r g, Round.ofHistory (.ofTopology t settings) history = some r ∧ r.Asks g ∧
        r.opened.registry.connection? g = some c ∧ proposalsOn c history = [r.time] := by
  induction run with
  | start => exact Or.inl rfl
  | @event history s run now e fresh ih =>
    have hstanding := run.standing hbuild
    rw [proposalsOn_append_singleton, Round.ofHistory_append_singleton, run.lastState_eq]
    cases hround : Round.ofHistory (.ofTopology t settings) history with
    | none =>
      rw [hround] at hstanding
      rw [hstanding.proposalsOn_eq_nil c, List.nil_append, Option.map_none, Option.none_or]
      exact run.proposalsTo_of_first hbuild now e fresh hround c
    | some r =>
      rw [hround] at hstanding ih
      have hopen : (s.setTime now).stop ≠ .idle := by
        cases hstanding with
        | opened hleads => exact hleads.ne_idle
      obtain ⟨result, hverdict, hadopts⟩ := run.exists_verdict hbuild now e
      rw [hadopts.notices_eq, StopOutcome.proposalsTo_notices_of_ne_forward
        (hverdict.ne_forward hopen), List.append_nil]
      refine ih.imp_right ?_
      rintro ⟨r', g, hr', hasks, hconnection, hproposals⟩
      obtain rfl := Option.some.inj hr'
      exact ⟨r.extend _, g, rfl, hasks, hconnection, hproposals⟩

/-- An announced stop is the greatest of what counts, and all who have been asked have answered. -/
theorem exists_round_of_stopGranted (hbuild : p.build = .ok t) (run : Run t settings history s)
    (now : Duration) (e : Event) (fresh : ∀ c ∈ e.opens?, c ∉ opened history) {c : ConnectionId}
    {time : Int64} (hgranted : .send c (.stopGranted time) ∈ ((s.setTime now).moment e).actions) :
    ∃ r tag, Round.ofHistory (.ofTopology t settings) (history ++ [(s.setTime now).moment e]) =
        some r ∧ IsGreatest r.counted tag ∧ (∀ g, ¬ r.Awaits g) ∧ tag.time = time := by
  obtain ⟨result, hverdict, hadopts⟩ := run.exists_verdict hbuild now e
  obtain ⟨tag, -, htag, htime, -⟩ := (hadopts.mem_iff_of_stopGranted hverdict).1 hgranted
  have hstanding := (run.event now e fresh).standing hbuild
  have hstop : ((s.setTime now).handle e).1.stop.stopTag = some tag := htag
  generalize Round.ofHistory (.ofTopology t settings) _ = round at hstanding
  cases hstanding with
  | unopened hidle =>
    rw [hidle] at hstop
    cases hstop
  | @opened r hleads =>
    generalize ((s.setTime now).handle e).1.stop = stop at hleads hstop
    cases hleads with
    | negotiating => cases hstop
    | granted hgreatest hclosed =>
      obtain rfl := Option.some.inj hstop
      exact ⟨r, _, rfl, hgreatest, hclosed, htime⟩

end Run

end FederatedTime
