import FederatedTime.Proofs.Coordinator.StopStep

/-!
# Agreeing on a stop tag

The negotiation is where the round of the history leads it (`Round.Leads`), event by event: an
answer of a federate that is awaited raises the candidate and is awaited no longer, and everything
else leaves the round as it is. Who is awaited stays joined, has contributed nothing, and has been
asked once (`IsAsked`), so that its answer counts when it comes.
-/

namespace FederatedTime

open FederatedTime.Action (notices)

theorem Coordinator.Consistent.mem_pending_iff {s : Coordinator} (hs : s.Consistent)
    (hsize : s.registry.size ≤ Topology.maxFederates) {f g : FederateId} :
    g ∈ FederateSet.ofList (s.registry.connected.filter (· ≠ f)) ↔
      g ≠ f ∧ s.registry.isConnected g := by
  rw [FederateSet.mem_ofList, List.mem_filter, Registry.mem_connected_iff hsize hs.id_eq,
    decide_eq_true_iff, and_comm]

/-! ## The round and the negotiation -/

namespace Round

variable {r : Round} {s : Coordinator} {m : Moment} {now : Duration} {stop : StopNegotiation}
variable {result : StopNegotiation × StopOutcome} {candidate : Tag} {pending : FederateSet}
variable {f g : FederateId} {answer : StopAnswer}

theorem leads_awaiting (hcandidate : IsGreatest r.counted candidate)
    (hpending : ∀ g, g ∈ pending ↔ r.Awaits g) : r.Leads (.awaiting candidate pending) := by
  by_cases hopen : ∃ g, g ∈ pending
  · obtain ⟨g, hg⟩ := hopen
    rw [StopNegotiation.awaiting_of_mem hg]
    exact .negotiating hcandidate hpending ⟨g, (hpending g).1 hg⟩
  · have hclosed (g : FederateId) : g ∉ pending := fun hg => hopen ⟨g, hg⟩
    rw [StopNegotiation.awaiting_of_forall_not_mem hclosed]
    exact .granted hcandidate fun g hg => hclosed g ((hpending g).2 hg)

theorem Leads.exists_awaiting (h : r.Leads stop) : ∃ candidate pending,
    stop = .awaiting candidate pending ∧ IsGreatest r.counted candidate ∧
      ∀ g, g ∈ pending ↔ r.Awaits g := by
  cases h with
  | @negotiating candidate pending hcandidate hpending hopen =>
    obtain ⟨g, hg⟩ := hopen
    have hstop : StopNegotiation.awaiting candidate pending = .negotiating candidate pending :=
      StopNegotiation.awaiting_of_mem ((hpending g).2 hg)
    exact ⟨candidate, pending, hstop.symm, hcandidate, hpending⟩
  | @granted tag htag hclosed =>
    have hempty (g : FederateId) : g ∉ FederateSet.empty := List.not_mem_nil
    have hstop : StopNegotiation.awaiting tag .empty = .granted tag :=
      StopNegotiation.awaiting_of_forall_not_mem hempty
    exact ⟨tag, .empty, hstop.symm, htag, fun g => iff_of_false (hempty g) (hclosed g)⟩

theorem Leads.ne_idle (h : r.Leads stop) : stop ≠ .idle := by
  cases h <;> simp

/-! ## One more moment -/

variable (hlast : s = (lastState r.opened r.later).setTime now)
include hlast

theorem answer?_extend_eq (m : Moment) (g : FederateId) :
    (r.extend m).answer? g = (r.answer? g).or (m.answer? s g) := by
  rw [answer?_extend, hlast]
  rfl

theorem awaits_extend_iff :
    (r.extend m).Awaits g ↔ r.Awaits g ∧ m.answer? s g = none := by
  unfold Awaits
  rw [answer?_extend_eq hlast, Option.or_eq_none_iff]
  exact and_assoc.symm

theorem mem_counted_extend {tag : Tag} : tag ∈ (r.extend m).counted ↔
    tag ∈ r.counted ∨ ∃ g answer, r.Awaits g ∧ m.answer? s g = some answer ∧ tag = answer.tag := by
  have hanswer (g : FederateId) (answer : StopAnswer) :
      (r.extend m).answer? g = some answer ↔
        r.answer? g = some answer ∨ r.answer? g = none ∧ m.answer? s g = some answer := by
    rw [answer?_extend_eq hlast, Option.or_eq_some_iff]
  constructor
  · rintro (htag | ⟨g, answer, hasks, hg, htag⟩)
    · exact Or.inl (Or.inl htag)
    · rcases (hanswer g answer).1 hg with hg | ⟨hnone, hg⟩
      · exact Or.inl (Or.inr ⟨g, answer, hasks, hg, htag⟩)
      · exact Or.inr ⟨g, answer, ⟨hasks, hnone⟩, hg, htag⟩
  · rintro ((htag | ⟨g, answer, hasks, hg, htag⟩) | ⟨g, answer, ⟨hasks, hnone⟩, hg, htag⟩)
    · exact Or.inl htag
    · exact Or.inr ⟨g, answer, hasks, (hanswer g answer).2 (Or.inl hg), htag⟩
    · exact Or.inr ⟨g, answer, hasks, (hanswer g answer).2 (Or.inr ⟨hnone, hg⟩), htag⟩

theorem Leads.extend_of_unanswered (h : r.Leads stop)
    (hnone : ∀ g, r.Awaits g → m.answer? s g = none) : (r.extend m).Leads stop := by
  obtain ⟨candidate, pending, rfl, hcandidate, hpending⟩ := h.exists_awaiting
  have hcounted : (r.extend m).counted = r.counted := by
    ext tag
    rw [mem_counted_extend hlast, or_iff_left]
    rintro ⟨g, answer, hg, hanswer, -⟩
    rw [hnone g hg] at hanswer
    cases hanswer
  refine leads_awaiting (hcounted ▸ hcandidate) fun g => ?_
  rw [awaits_extend_iff hlast, hpending g]
  exact ⟨fun hg => ⟨hg, hnone g hg⟩, fun hg => hg.1⟩

theorem leads_extend_of_answered (hcandidate : IsGreatest r.counted candidate)
    (hpending : ∀ g, g ∈ pending ↔ r.Awaits g) (hf : f ∈ pending)
    (hanswer : m.answer? s f = some answer) (hother : ∀ g, g ≠ f → m.answer? s g = none) :
    (r.extend m).Leads (.awaiting (max candidate answer.tag) (pending.erase f)) := by
  -- the answer is the only tag that is new, so the greatest is the old one or this
  have hcounted : (r.extend m).counted = insert answer.tag r.counted := by
    ext tag
    rw [mem_counted_extend hlast, Set.mem_insert_iff, or_comm]
    refine or_congr_left ⟨?_, ?_⟩
    · rintro ⟨g, answer', -, hg, htag⟩
      obtain rfl := Moment.eq_of_answer? hother hg
      rw [htag, Option.some.inj (hanswer.symm.trans hg)]
    · intro htag
      exact ⟨f, answer, (hpending f).1 hf, hanswer, htag⟩
  refine leads_awaiting ?_ fun g => ?_
  · rw [hcounted, max_comm]
    exact hcandidate.insert answer.tag
  · rw [FederateSet.mem_erase, awaits_extend_iff hlast, hpending g]
    refine and_congr_right fun _ => ⟨hother g, fun hnone heq => ?_⟩
    rw [heq, hanswer] at hnone
    cases hnone

/-- The negotiation goes on as the round does. -/
theorem Leads.extend (h : r.Leads s.stop) (hcounted : ∀ g, r.Awaits g → s.isCounted g = false)
    (hverdict : s.Verdict m result) : (r.extend m).Leads result.1 := by
  obtain ⟨candidate, pending, hstop, hcandidate, hpending⟩ := h.exists_awaiting
  -- who is pending has not contributed, so that nothing keeps its answer from counting
  by_cases hanswered : ∃ g ∈ pending, m.answer? s g ≠ none
  · obtain ⟨g, hg, hne⟩ := hanswered
    obtain ⟨answer, hanswer⟩ := Option.ne_none_iff_exists'.1 hne
    rw [hverdict.fst_of_answered hstop hg (hcounted g ((hpending g).1 hg)) hanswer]
    exact leads_extend_of_answered hlast hcandidate hpending hg hanswer
      (hverdict.answer?_eq_none hanswer)
  · push Not at hanswered
    rw [hverdict.fst_of_unanswered hstop hanswered]
    exact h.extend_of_unanswered hlast fun g hg => hanswered g ((hpending g).2 hg)

omit hlast

/-! ## The first moment -/

/-- The round that a request opens, when it has just been opened. -/
theorem leads_opened {before opened : Coordinator} {time : Int64} (hs : before.Consistent)
    (hsize : before.registry.size ≤ Topology.maxFederates) :
    Leads ⟨before, f, time, opened, []⟩
      (StopNegotiation.idle.request f (.ofTime time) before.registry.connected).1 := by
  rw [StopNegotiation.request_idle]
  refine leads_awaiting ⟨Or.inl rfl, ?_⟩ fun g => ?_
  · rintro tag (htag | ⟨g, answer, -, hanswer, -⟩)
    · exact le_of_eq htag
    · cases hanswer
  · rw [hs.mem_pending_iff hsize]
    exact ⟨fun hg => ⟨hg, rfl⟩, fun hg => hg.1⟩

end Round

/-- The federate that asks to stop in a moment is the only one that is joined. -/
def Moment.IsLoneRequest (m : Moment) (before : Coordinator) : Prop :=
  ∃ f time, m.request? before = some (f, time) ∧ ∀ g, before.registry.isConnected g → g = f

/-! ## Who has been asked -/

namespace StopNotice

def proposal? : StopNotice → Option Int64
  | proposed time => some time
  | agreed _ => none

/-- The proposals among notices that are sent on a connection. -/
def proposalsTo (c : ConnectionId) (notices : List (ConnectionId × StopNotice)) : List Int64 :=
  notices.filterMap fun (d, notice) => if d = c then notice.proposal? else none

end StopNotice

/-- The requests to stop that are sent on a connection in a history. -/
def proposalsOn (c : ConnectionId) (history : List Moment) : List Int64 :=
  history.flatMap fun m => StopNotice.proposalsTo c (notices m.actions)

theorem proposalsOn_append_singleton (c : ConnectionId) (history : List Moment) (m : Moment) :
    proposalsOn c (history ++ [m]) =
      proposalsOn c history ++ StopNotice.proposalsTo c (notices m.actions) := by
  simp [proposalsOn]

/-- A federate is joined and has contributed nothing, and it has been asked once to stop at the
given time. -/
def IsAsked (history : List Moment) (s : Coordinator) (time : Int64) (g : FederateId) : Prop :=
  ∃ c record, s.Joined c g record ∧ record.stopCounted = false ∧ proposalsOn c history = [time]

namespace StopOutcome

open FederatedTime.StopNotice (proposalsTo)

variable {r : Registry} {outcome : StopOutcome} {c : ConnectionId} {g : FederateId}

theorem proposalsTo_notices_of_ne_forward (h : ∀ l proposal, outcome ≠ .forward l proposal)
    (r : Registry) (c : ConnectionId) : proposalsTo c (outcome.notices r) = [] := by
  cases outcome with
  | ignored | waiting => rfl
  | forward l proposal => exact absurd rfl (h l proposal)
  | agreed tag =>
    unfold proposalsTo notices
    rw [List.filterMap_map, List.filterMap_eq_nil_iff]
    intro d _
    exact ite_self none

theorem proposalsTo_notices_forward (hc : ∀ f, r.connection? f = some c ↔ f = g)
    (l : List FederateId) (proposal : Tag) :
    proposalsTo c ((forward l proposal).notices r) = List.replicate (l.count g) proposal.time := by
  -- no two federates share a connection, so the requests on `c` are those for `g`
  have hask (f : FederateId) : (r.connection? f).bind
      (fun d => if d = c then some proposal.time else none) =
        if f = g then some proposal.time else none := by
    by_cases hf : f = g
    · rw [(hc f).2 hf, if_pos hf]
      exact if_pos rfl
    · rw [if_neg hf, Option.bind_eq_none_iff]
      intro d hd
      refine if_neg fun hdc => hf ?_
      rw [← hc, ← hdc]
      exact hd
  have hfilter : proposalsTo c ((forward l proposal).notices r) =
      l.filterMap fun f => if f = g then some proposal.time else none := by
    unfold proposalsTo notices
    dsimp only
    rw [List.filterMap_map, List.filterMap_filterMap]
    exact List.filterMap_congr fun f _ => hask f
  rw [hfilter]
  clear hfilter
  induction l with
  | nil => rfl
  | cons f l ih =>
    by_cases hf : f = g
    · simp [hf, ih, List.replicate_succ]
    · simp [hf, ih]

end StopOutcome

namespace Coordinator

open FederatedTime.StopNotice (proposalsTo)

variable {s s' : Coordinator} {m : Moment} {result : StopNegotiation × StopOutcome}
variable {f g : FederateId} {time : Int64} {history : List Moment}

/-- Who does not answer does not leave either. -/
theorem isConnected_of_answer?_eq_none (h : m.answer? s g = none)
    (hconnected : s.registry.isConnected g) : m.after.registry.isConnected g := by
  by_contra hafter
  unfold Moment.answer? Moment.left? at h
  rw [hconnected, eq_false_of_ne_true hafter, Option.or_eq_none_iff, Option.map_eq_none_iff,
    Option.map_eq_none_iff] at h
  have hget : s.registry.get? g = none := Option.map_eq_none_iff.1 h.2
  obtain ⟨record, hrecord, -⟩ := Registry.exists_of_isConnected hconnected
  cases hget.symm.trans hrecord

theorem Adopts.isCounted_eq_false (hadopts : s.Adopts m result) (hcounted : s.isCounted g = false)
    (hanswer : m.answer? s g = none) : m.after.isCounted g = false := by
  refine eq_false_of_ne_true fun hafter => ?_
  rcases hadopts.isCounted g hafter with hbefore | ⟨-, hne⟩
  · rw [hcounted] at hbefore
    cases hbefore
  · exact hne hanswer

theorem Joined.stopCounted_eq {c : ConnectionId} {record : FederateRecord}
    (h : s.Joined c g record) : record.stopCounted = s.isCounted g := by
  unfold isCounted
  rw [h.get?_eq]
  rfl

/-- Who has been asked and does not answer is still to answer afterwards. -/
theorem Adopts.isAsked (hadopts : s.Adopts m result) (hverdict : s.Verdict m result)
    (hmove : ∃ gs, Move s m.event m.after gs) (hs' : m.after.Consistent) (hstop : s.stop ≠ .idle)
    (hanswer : m.answer? s g = none) (h : IsAsked history s time g) :
    IsAsked (history ++ [m]) m.after time g := by
  obtain ⟨c, record, hjoined, hcounted, hproposals⟩ := h
  obtain ⟨gs, hmove⟩ := hmove
  have hconnected := isConnected_of_answer?_eq_none hanswer hjoined.isConnected
  obtain ⟨record', hjoined'⟩ := hmove.joined_of_isConnected hs' hjoined hconnected
  refine ⟨c, record', hjoined', ?_, ?_⟩
  · rw [hjoined.stopCounted_eq] at hcounted
    rw [hjoined'.stopCounted_eq]
    exact hadopts.isCounted_eq_false hcounted hanswer
  · rw [proposalsOn_append_singleton, hproposals, hadopts.notices_eq,
      StopOutcome.proposalsTo_notices_of_ne_forward (hverdict.ne_forward hstop)]
    rfl

/-- Who is joined when a round opens, but for the requester, is asked in it. -/
theorem isAsked_of_opened (hs' : m.after.Consistent) (hstop : s.stop = .idle)
    (hcounted : ∀ g, s.isCounted g = false) (hnotices : ∀ m ∈ history, notices m.actions = [])
    (hadopts : s.Adopts m (s.stop.request f (.ofTime time) s.registry.connected))
    (hanswer : m.answer? s g = none) (hconnected : s.registry.isConnected g)
    (hpending : g ∈ FederateSet.ofList (s.registry.connected.filter (· ≠ f))) :
    IsAsked (history ++ [m]) m.after time g := by
  obtain ⟨c, record, hjoined⟩ :=
    hs'.isConnected_iff.1 (isConnected_of_answer?_eq_none hanswer hconnected)
  have hbefore : proposalsOn c history = [] := by
    refine List.flatMap_eq_nil_iff.2 fun m' hm' => ?_
    rw [hnotices m' hm']
    rfl
  have hconnection (h : FederateId) : m.after.registry.connection? h = some c ↔ h = g := by
    refine ⟨fun hh => hs'.connection?_injective hh hjoined.connection?_eq, ?_⟩
    rintro rfl
    exact hjoined.connection?_eq
  refine ⟨c, record, hjoined, ?_, ?_⟩
  · rw [hjoined.stopCounted_eq]
    exact hadopts.isCounted_eq_false (hcounted g) hanswer
  · have hforward := hadopts.notices_eq
    rw [hstop, StopNegotiation.request_idle_snd hpending] at hforward
    rw [proposalsOn_append_singleton, hbefore, hforward,
      StopOutcome.proposalsTo_notices_forward hconnection,
      List.count_eq_one_of_mem (FederateSet.nodup_toList _) hpending]
    rfl

theorem Verdict.moves (h : s.Verdict m result) (hs : s.Consistent)
    (hsize : s.registry.size ≤ Topology.maxFederates) :
    s.stop.Moves (m.IsLoneRequest s) result.1 := by
  cases h with
  | silent | passedOver => exact .stays s.stop
  | answered => exact StopNegotiation.moves_fold _ _ _ _
  | @requested f time hrequest hown hother =>
    by_cases hidle : s.stop = .idle
    · rw [hidle, StopNegotiation.request_idle]
      by_cases hopen : ∃ g, g ≠ f ∧ s.registry.isConnected g
      · obtain ⟨g, hgf, hg⟩ := hopen
        rw [StopNegotiation.awaiting_of_mem ((hs.mem_pending_iff hsize).2 ⟨hgf, hg⟩)]
        refine .opens ?_ _ _
        rintro ⟨f', time', hrequest', halone⟩
        obtain ⟨rfl, rfl⟩ := Prod.mk.inj (Option.some.inj (hrequest.symm.trans hrequest'))
        exact hgf (halone g hg)
      · have halone (g : FederateId) (hg : s.registry.isConnected g) : g = f := by
          by_contra hgf
          exact hopen ⟨g, hgf, hg⟩
        rw [StopNegotiation.awaiting_of_forall_not_mem]
        · exact .agrees ⟨f, time, hrequest, halone⟩ _
        · intro g hg
          exact hopen ⟨g, (hs.mem_pending_iff hsize).1 hg⟩
    · rw [StopNegotiation.request_eq_fold hidle]
      exact StopNegotiation.moves_fold _ _ _ _

/-! ## The announcement -/

theorem Adopts.mem_iff_of_stopGranted (hadopts : s.Adopts m result) (h : s.Verdict m result)
    {c : ConnectionId} {time : Int64} : .send c (.stopGranted time) ∈ m.actions ↔
      ∃ tag, s.stopTag = none ∧ m.after.stopTag = some tag ∧ tag.time = time ∧
        c ∈ m.after.registry.connections := by
  have hstop : m.after.stopTag = result.1.stopTag := congrArg StopNegotiation.stopTag hadopts.stop_eq
  rw [← Action.mem_notices_agreed, hadopts.notices_eq, StopOutcome.mem_notices_agreed_iff, hstop]
  refine exists_congr fun tag => ?_
  rw [h.eq_agreed_iff, and_assoc]
  rfl

theorem Adopts.count_stopGranted (hadopts : s.Adopts m result) (h : s.Verdict m result)
    (hs' : m.after.Consistent) (hsize' : m.after.registry.size ≤ Topology.maxFederates) {tag : Tag}
    (hnone : s.stopTag = none) (htag : m.after.stopTag = some tag) {c : ConnectionId}
    (hc : c ∈ m.after.registry.connections) :
    m.actions.count (.send c (.stopGranted tag.time)) = 1 := by
  have hresult : result.2 = .agreed tag := by
    rw [h.eq_agreed_iff, ← hadopts.stop_eq]
    exact ⟨hnone, htag⟩
  rw [← Action.count_agreed, hadopts.notices_eq, hresult]
  exact StopOutcome.count_notices_agreed (hs'.nodup_connections hsize') hc tag

end Coordinator

/-! ## A whole run -/

namespace Run

variable {t : Topology} {settings : CoordinatorSettings} {history : List Moment} {s : Coordinator}
variable {m : Moment} {now : Duration} {result : StopNegotiation × StopOutcome} {r : Round}

/-- Where the negotiation stands after a history, given the round that the history shows. -/
inductive Standing (history : List Moment) (s : Coordinator) : Option Round → Prop
  | unopened (hstop : s.stop = .idle) (hcounted : ∀ g, s.isCounted g = false)
      (hnotices : ∀ m ∈ history, notices m.actions = []) : Standing history s none
  | opened {r : Round} (hleads : r.Leads s.stop)
      (hasked : ∀ g, r.Awaits g → IsAsked history s r.time g) : Standing history s (some r)

theorem Standing.setTime {round : Option Round} (h : Standing history s round) (now : Duration) :
    Standing history (s.setTime now) round := by
  cases h with
  | unopened hstop hcounted hnotices => exact .unopened hstop hcounted hnotices
  | opened hleads hasked =>
    refine .opened hleads fun g hg => ?_
    obtain ⟨c, record, hjoined, h⟩ := hasked g hg
    exact ⟨c, record, joined_setTime.2 hjoined, h⟩

theorem Standing.extend (h : Standing history s (some r))
    (hlast : s = (lastState r.opened r.later).setTime now) (hverdict : s.Verdict m result)
    (hadopts : s.Adopts m result) (hmove : ∃ gs, s.Move m.event m.after gs)
    (hs' : m.after.Consistent) : Standing (history ++ [m]) m.after (some (r.extend m)) := by
  cases h with
  | opened hleads hasked =>
    have hcounted (g : FederateId) (hg : r.Awaits g) : s.isCounted g = false := by
      obtain ⟨c, record, hjoined, hcounted, -⟩ := hasked g hg
      rw [← hjoined.stopCounted_eq]
      exact hcounted
    refine .opened ?_ fun g hg => ?_
    · rw [hadopts.stop_eq]
      exact hleads.extend hlast hcounted hverdict
    · obtain ⟨hg, hanswer⟩ := (Round.awaits_extend_iff hlast).1 hg
      exact hadopts.isAsked hverdict hmove hs' hleads.ne_idle hanswer (hasked g hg)

theorem Standing.unopened_of_ignored (h : Standing history s none)
    (hadopts : s.Adopts m (.idle, .ignored)) : Standing (history ++ [m]) m.after none := by
  cases h with
  | unopened hstop hcounted hnotices =>
    refine .unopened hadopts.stop_eq (fun g => ?_) fun m' hm' => ?_
    · by_contra hg
      rcases hadopts.isCounted g (eq_true_of_ne_false hg) with hbefore | ⟨hne, -⟩
      · simp [hcounted g] at hbefore
      · exact hne rfl
    · rcases List.mem_append.1 hm' with hm' | hm'
      · exact hnotices m' hm'
      · rw [List.mem_singleton.1 hm']
        exact hadopts.notices_eq

theorem Standing.opened_of_request {before : Coordinator} {f : FederateId} {time : Int64}
    (h : Standing history s none) (hbefore : s = before.setTime now) (hs : before.Consistent)
    (hsize : before.registry.size ≤ Topology.maxFederates)
    (hother : ∀ g, g ≠ f → m.answer? s g = none)
    (hadopts : s.Adopts m (s.stop.request f (.ofTime time) s.registry.connected))
    (hs' : m.after.Consistent) :
    Standing (history ++ [m]) m.after (some ⟨before, f, time, m.after, []⟩) := by
  subst hbefore
  cases h with
  | unopened hstop hcounted hnotices =>
    refine .opened ?_ fun g hg => ?_
    · rw [hadopts.stop_eq, hstop]
      exact Round.leads_opened hs hsize
    · obtain ⟨hasks, -⟩ := hg
      exact Coordinator.isAsked_of_opened hs' hstop hcounted hnotices hadopts
        (hother g hasks.1) hasks.2 ((hs.mem_pending_iff hsize).2 hasks)

theorem Standing.open {before : Coordinator} (h : Standing history s none)
    (hbefore : s = before.setTime now) (hs : before.Consistent)
    (hsize : before.registry.size ≤ Topology.maxFederates) (hverdict : s.Verdict m result)
    (hadopts : s.Adopts m result) (hs' : m.after.Consistent) :
    Standing (history ++ [m]) m.after (Round.ofHistory before [m]) := by
  have hrequest? : m.request? before = m.request? s := by
    rw [hbefore]
    rfl
  have hidle : s.stop = .idle ∧ ∀ g, s.isCounted g = false := by
    cases h with
    | unopened hstop hcounted => exact ⟨hstop, hcounted⟩
  rw [Round.ofHistory, hrequest?]
  cases hverdict with
  | silent hrequest hanswer =>
    rw [hidle.1] at hadopts
    rw [hrequest]
    exact h.unopened_of_ignored hadopts
  | @passedOver f hf hother => simp [hidle.2 f] at hf
  | requested hrequest hanswer hother =>
    rw [hrequest]
    exact h.opened_of_request hbefore hs hsize hother hadopts hs'
  | answered hrequest hanswer hother =>
    rw [hidle.1, StopNegotiation.fold_idle] at hadopts
    rw [hrequest]
    exact h.unopened_of_ignored hadopts

theorem exists_verdict {p : Topology.Plan} (hbuild : p.build = .ok t)
    (run : Run t settings history s) (now : Duration) (e : Event) :
    ∃ result, (s.setTime now).Verdict ((s.setTime now).moment e) result ∧
      (s.setTime now).Adopts ((s.setTime now).moment e) result := by
  have hsize : s.registry.size ≤ Topology.maxFederates := run.size_le hbuild
  exact Coordinator.exists_verdict (consistent_setTime run.consistent now) hsize e

theorem isCounted_ofTopology (t : Topology) (settings : CoordinatorSettings) (g : FederateId) :
    (Coordinator.ofTopology t settings).isCounted g = false := by
  unfold Coordinator.isCounted
  cases hg : (Coordinator.ofTopology t settings).registry.get? g with
  | none => rfl
  | some record =>
    rw [Coordinator.get?_ofTopology hg]
    rfl

/-- The negotiation stands where the round of the history has come to. -/
theorem standing {p : Topology.Plan} (hbuild : p.build = .ok t) (run : Run t settings history s) :
    Standing history s (Round.ofHistory (.ofTopology t settings) history) := by
  induction run with
  | start =>
    exact .unopened rfl (isCounted_ofTopology t settings) fun m hm => absurd hm List.not_mem_nil
  | @event history s run now e fresh ih =>
    have hs := consistent_setTime run.consistent now
    have hs' := (run.event now e fresh).consistent
    have hsize : s.registry.size ≤ Topology.maxFederates := run.size_le hbuild
    obtain ⟨result, hverdict, hadopts⟩ := run.exists_verdict hbuild now e
    obtain ⟨gs, hmove, -⟩ := (Coordinator.handle_transition hs e).move
    -- the event may open the round only if the history so far shows none
    rw [Round.ofHistory_append_singleton, run.lastState_eq]
    cases hround : Round.ofHistory (.ofTopology t settings) history with
    | none =>
      rw [hround] at ih
      exact (ih.setTime now).open rfl run.consistent hsize hverdict hadopts hs'
    | some r =>
      rw [hround] at ih
      have hlast : lastState r.opened r.later = s :=
        (Round.lastState_of_ofHistory hround).trans run.lastState_eq
      exact (ih.setTime now).extend (by rw [hlast]) hverdict hadopts ⟨gs, hmove⟩ hs'

/-- The negotiation is where the round of the history leads it, it goes from idle over negotiating to
granted, and the event that brings the agreement announces it once to everybody who is joined
afterwards, and nobody else does. -/
theorem stop_agreement {p : Topology.Plan} (hbuild : p.build = .ok t)
    (run : Run t settings history s) (now : Duration) (e : Event)
    (fresh : ∀ c ∈ e.opens?, c ∉ opened history) :
    let m := (s.setTime now).moment e
    (Round.ofHistory (.ofTopology t settings) history = none → s.stop = .idle) ∧
    (∀ r, Round.ofHistory (.ofTopology t settings) history = some r → r.Leads s.stop) ∧
    s.stop.Moves (m.IsLoneRequest s) m.after.stop ∧
    (∀ tag, s.stopTag = none → m.after.stopTag = some tag → ∀ c f record,
      m.after.Joined c f record → m.actions.count (.send c (.stopGranted tag.time)) = 1) ∧
    ∀ c time, .send c (.stopGranted time) ∈ m.actions → s.stopTag = none ∧
      (∃ tag, m.after.stopTag = some tag ∧ tag.time = time) ∧
      ∃ f record, m.after.Joined c f record := by
  intro m
  have hstanding := run.standing hbuild
  have hs := consistent_setTime run.consistent now
  have hsize : s.registry.size ≤ Topology.maxFederates := run.size_le hbuild
  have run' := run.event now e fresh
  have hs' : m.after.Consistent := run'.consistent
  have hsize' : m.after.registry.size ≤ Topology.maxFederates := run'.size_le hbuild
  obtain ⟨result, hverdict, hadopts⟩ := run.exists_verdict hbuild now e
  refine ⟨fun hround => ?_, fun r hround => ?_, ?_, ?_, ?_⟩
  · rw [hround] at hstanding
    cases hstanding with
    | unopened hstop => exact hstop
  · rw [hround] at hstanding
    cases hstanding with
    | opened hleads => exact hleads
  · have hmoves := hverdict.moves hs hsize
    rw [← hadopts.stop_eq] at hmoves
    exact hmoves
  · intro tag hnone htag c f record hjoined
    refine hadopts.count_stopGranted hverdict hs' hsize' hnone htag ?_
    exact (Registry.mem_connections_iff hsize').2 ⟨f, hjoined.connection?_eq⟩
  · intro c time hmem
    obtain ⟨tag, hnone, htag, htime, hc⟩ := (hadopts.mem_iff_of_stopGranted hverdict).1 hmem
    obtain ⟨f, hf⟩ := (Registry.mem_connections_iff hsize').1 hc
    obtain ⟨record, hjoined⟩ := hs'.exists_joined ((hs'.joined_iff c f).2 hf)
    exact ⟨hnone, ⟨tag, htag, htime⟩, f, record, hjoined⟩

theorem stop_agreement_relay :
    Relay.stopState.stop = .negotiating (.ofTime 400) (.ofList [⟨0⟩]) ∧
    (∃ r, Round.ofHistory (.ofTopology Relay.plan.graph {}) Relay.stopHistory = some r ∧
      r.Leads Relay.stopState.stop) ∧
    Relay.answered.after.stopTag = some (.ofTime 450) ∧
    Relay.answered.actions.count (.send ⟨1⟩ (.stopGranted 450)) = 1 := by
  have fresh : ∀ c ∈ (Event.messageReceived ⟨0⟩ (.stopRequestReply 450)).opens?,
      c ∉ opened Relay.stopHistory := by
    intro c hc
    cases hc
  obtain ⟨hidle, hleads, -, hcount, -⟩ := Relay.run_stop.stop_agreement Relay.build_eq 0 _ fresh
  have hstop : Relay.stopState.stop = .negotiating (.ofTime 400) (.ofList [⟨0⟩]) := by
    decide +kernel
  have hround : Round.ofHistory (.ofTopology Relay.plan.graph {}) Relay.stopHistory ≠ none := by
    intro hround
    rw [hidle hround] at hstop
    cases hstop
  obtain ⟨r, hr⟩ := Option.ne_none_iff_exists'.1 hround
  have htag : Relay.answered.after.stopTag = some (.ofTime 450) := by decide +kernel
  have hsession : Relay.answered.after.sessions.get? ⟨1⟩ = some (.joined ⟨1⟩) := by decide +kernel
  obtain ⟨record, hjoined⟩ := (Relay.run_stop.event 0 _ fresh).consistent.exists_joined hsession
  refine ⟨hstop, ⟨r, hr, hleads r hr⟩, htag, hcount (.ofTime 450) ?_ htag ⟨1⟩ ⟨1⟩ record hjoined⟩
  decide +kernel

end Run

end FederatedTime
