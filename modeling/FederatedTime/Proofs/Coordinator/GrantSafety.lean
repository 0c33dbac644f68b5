import FederatedTime.Proofs.Coordinator.Membership
import FederatedTime.Proofs.Topology.WellFormed

/-!
# No grant goes too far

A grant is the least of what limits its federate at the end of the event that makes it
(`Run.isLeast_of_grant`). What limits it may change afterwards, but as long as a dependency does not
leave, a federate is never ahead of what that dependency has completed
(`Run.lastGranted_le_delayed`).
-/

namespace FederatedTime

namespace Registry

variable {r r' : Registry} {stop : Option Tag} {gs : List Grant} {f : FederateId} {tag : Tag}

/-- A grant of an update is the bound of its federate afterwards, clamped to the stop tag. -/
theorem Update.grant (h : r.Update stop r' gs) (hg : ⟨f, tag⟩ ∈ gs) :
    tag ≠ .never ∧ ∃ b, r'.admissibleBound f = some b ∧ tag = b.clamp stop := by
  cases h with
  | idle _ hgs =>
    rw [hgs] at hg
    cases hg
  | change _ _ hr hgs =>
    rw [hgs] at hg
    obtain ⟨record, -, -, hlt, hbound⟩ := raise?_eq_some_iff.1 (mem_grants_sweep.1 hg).2
    rw [hr, admissibleBound_sweep]
    exact ⟨Tag.never_lt_iff.1 (lt_of_le_of_lt (Tag.never_le _) hlt), hbound⟩

/-! ## What a change leaves of a grant -/

section Change

variable {t : Topology} {record : FederateRecord} {change : FederateRecord → FederateRecord}
variable {seeds : List FederateId}

/-- Only a sweep raises a last grant. -/
theorem Change.lastGranted_le (h : Change t f record change seeds) :
    (change record).lastGranted ≤ record.lastGranted := by
  cases h with
  | marked halike => exact le_of_eq halike.lastGranted
  | nextEvent | completed | left => exact le_refl _
  | joined => exact Tag.never_le _

/-- What a federate has completed is lost only when it joins again. -/
theorem Change.le_completed (h : Change t f record change seeds)
    (hblank : record.state = .notConnected → record.completed = .never)
    (hstay : record.state ≠ .resigned) : record.completed ≤ (change record).completed := by
  cases h with
  | marked halike => exact le_of_eq halike.completed.symm
  | nextEvent | left => exact le_refl _
  | completed _ htag => exact le_of_lt (not_le.1 htag)
  | joined hrecord =>
    have hstate : record.state = .notConnected := by
      cases hstate : record.state with
      | notConnected => rfl
      | resigned => exact absurd hstate hstay
      | granted | pending =>
        rw [FederateRecord.isConnected, hstate] at hrecord
        exact absurd rfl hrecord
    rw [hblank hstate]
    exact Tag.never_le _

theorem Change.blank (h : Change t f record change seeds)
    (hblank : record.state = .notConnected → record.completed = .never)
    (hstate : (change record).state = .notConnected) : (change record).completed = .never := by
  cases h with
  | marked halike =>
    rw [halike.completed]
    exact hblank (halike.state.symm.trans hstate)
  | nextEvent => exact hblank hstate
  | completed hconnected =>
    have hstate' : record.state = .notConnected := hstate
    rw [FederateRecord.isConnected, hstate'] at hconnected
    cases hconnected
  | joined | left => cases hstate

end Change

/-! ## What an update preserves -/

/-- Nothing is known of a federate that has never joined. -/
def Blank (r : Registry) : Prop :=
  ∀ f record, r.get? f = some record → record.state = .notConnected → record.completed = .never

/-- The last grant of `f` is covered by what the dependency `d` has completed. -/
def Covers (r : Registry) (f : FederateId) (d : Dependency) : Prop :=
  ∀ record u, r.get? f = some record → r.get? d.federate = some u →
    record.lastGranted ≤ u.completed.delayed d.delay

/-- The federate `f` has not left. -/
def Stays (r : Registry) (f : FederateId) : Prop :=
  ∀ record, r.get? f = some record → record.state ≠ .resigned

theorem Update.blank (hr : r.Blank) (h : r.Update stop r' gs) : r'.Blank := by
  cases h with
  | idle heq =>
    rw [heq]
    exact hr
  | change hf hchange heq =>
    subst heq
    intro g record' hg hstate
    obtain ⟨middle, hmiddle, hswept⟩ := swept_of_get? hg
    have hstate' : middle.state = .notConnected := (hswept.state_iff _ (by decide)).1 hstate
    rw [hswept.completed]
    rcases get?_modify_cases hf hmiddle with ⟨rfl, rfl⟩ | ⟨-, hg⟩
    · exact hchange.blank (hr _ _ hf) hstate'
    · exact hr g middle hg hstate'

/-- A grant that is made is covered by every dependency that has not left. -/
theorem clamp_le_delayed {d : Dependency} {u : FederateRecord} {b : Tag}
    (hd : d ∈ r.topology.upstream f) (hu : r.get? d.federate = some u)
    (hstay : u.state ≠ .resigned) (hbound : r.admissibleBound f = some b) :
    b.clamp stop ≤ u.completed.delayed d.delay := by
  have hlimit : u.effectiveCompleted.delayed d.delay ∈ r.limits f := Or.inr ⟨d, hd, u, hu, rfl⟩
  have heffective : u.effectiveCompleted = u.completed := if_neg hstay
  rw [← heffective]
  exact (b.clamp_le_left stop).trans ((admissibleBound_eq_some hbound).2.2 hlimit)

/-- As long as a dependency does not leave, it goes on to cover the grants that it has covered. -/
theorem Update.covers {d : Dependency} (hd : d ∈ r.topology.upstream f)
    (hdelay : 0 ≤ d.delay.nanos.toInt) (hblank : r.Blank) (hstay : r.Stays d.federate)
    (hr : r.Covers f d) (h : r.Update stop r' gs) (hstay' : r'.Stays d.federate) :
    r'.Covers f d := by
  cases h with
  | idle heq =>
    rw [heq]
    exact hr
  | @change g _ change _ hg hchange heq =>
    subst heq
    intro record' u' hrecord' hu'
    obtain ⟨u, hu, hswept⟩ := swept_of_get? hu'
    have hunresigned : u.state ≠ .resigned := fun hstate =>
      hstay' u' hu' ((hswept.state_iff _ (by decide)).2 hstate)
    obtain ⟨record, hrecord, hsame | ⟨-, b, hbound, hclamp⟩⟩ := lastGranted_sweep hrecord'
    · -- the grant is an old one, and neither side of the comparison got worse
      have hgrant : ∃ earlier, r.get? f = some earlier ∧
          record.lastGranted ≤ earlier.lastGranted := by
        rcases get?_modify_cases hg hrecord with ⟨rfl, rfl⟩ | ⟨-, hf⟩
        · exact ⟨_, hg, hchange.lastGranted_le⟩
        · exact ⟨record, hf, le_refl _⟩
      have hcompleted : ∃ earlier, r.get? d.federate = some earlier ∧
          earlier.completed ≤ u.completed := by
        rcases get?_modify_cases hg hu with ⟨rfl, rfl⟩ | ⟨-, hf⟩
        · exact ⟨_, hg, hchange.le_completed (hblank _ _ hg) (hstay _ hg)⟩
        · exact ⟨u, hf, le_refl _⟩
      obtain ⟨before, hbefore, hle⟩ := hgrant
      obtain ⟨v, hv, hle'⟩ := hcompleted
      rw [hsame, hswept.completed]
      calc record.lastGranted ≤ before.lastGranted := hle
        _ ≤ v.completed.delayed d.delay := hr before v hbefore hv
        _ ≤ u.completed.delayed d.delay := Tag.delayed_mono hdelay hle'
    · have hd' : d ∈ (r.modify g change).topology.upstream f := hd
      rw [hclamp, hswept.completed]
      exact clamp_le_delayed hd' hu hunresigned hbound

end Registry

namespace Coordinator

/-- All that limits a grant to `f`: what the bound of `f` is made of, and the agreed stop tag. -/
def limits (s : Coordinator) (f : FederateId) : Set Tag :=
  s.registry.limits f ∪ {tag | s.stopTag = some tag}

end Coordinator

namespace Run

variable {t : Topology} {settings : CoordinatorSettings} {history : List Moment} {s : Coordinator}

/-- A grant of the next event goes to a federate that is joined, and is its bound clamped to the stop
tag. -/
theorem exists_bound_of_grant (run : Run t settings history s) (now : Duration) (e : Event)
    (fresh : ∀ c ∈ e.opens?, c ∉ opened history) {c : ConnectionId} {tag : Tag}
    (h : .send c (.timeAdvanceGrant tag) ∈ ((s.setTime now).handle e).2) :
    ∃ f record, ((s.setTime now).handle e).1.Joined c f record ∧ tag ≠ .never ∧
      ∃ b, ((s.setTime now).handle e).1.registry.admissibleBound f = some b ∧
        tag = b.clamp ((s.setTime now).handle e).1.stopTag := by
  have hs := (run.event now e fresh).consistent
  obtain ⟨gs, hupdate, hgrants⟩ := run.update now e
  have hsent := Action.mem_grants.2 h
  rw [hgrants] at hsent
  obtain ⟨f, hf, hconnection⟩ := Coordinator.mem_sent.1 hsent
  obtain ⟨record, hjoined⟩ := hs.exists_joined ((hs.joined_iff c f).2 hconnection)
  exact ⟨f, record, hjoined, hupdate.grant hf⟩

/-- Every grant goes to a federate that is joined and informed, and is the least of its limits. -/
theorem isLeast_of_grant (run : Run t settings history s) {m : Moment} (hm : m ∈ history)
    {c : ConnectionId} {tag : Tag} (hgrant : .send c (.timeAdvanceGrant tag) ∈ m.actions) :
    m.after.registry.topology = t ∧ ∃ f record, m.after.Joined c f record ∧ tag ≠ .never ∧
      m.after.registry.Informed f ∧ IsLeast (m.after.limits f) tag := by
  obtain ⟨earlier, before, now, run', fresh, heq⟩ := run.exists_of_mem hm
  have run'' := run'.event now m.event fresh
  have hafter : m.after = ((before.setTime now).handle m.event).1 := congrArg Moment.after heq
  have hactions : m.actions = ((before.setTime now).handle m.event).2 :=
    congrArg Moment.actions heq
  rw [hactions] at hgrant
  obtain ⟨f, record, hjoined, hnever, b, hbound, rfl⟩ :=
    run'.exists_bound_of_grant now m.event fresh hgrant
  rw [← hafter] at run'' hjoined hnever hbound ⊢
  obtain ⟨hinformed, hleast⟩ := Registry.admissibleBound_eq_some hbound
  exact ⟨run''.topology_eq, f, record, hjoined, hnever, hinformed, Tag.isLeast_clamp hleast _⟩

theorem isLeast_of_grant_relay : ∃ m ∈ Relay.history,
    .send ⟨1⟩ (.timeAdvanceGrant (.ofTime 20)) ∈ m.actions ∧
    ∃ f record, m.after.Joined ⟨1⟩ f record ∧ IsLeast (m.after.limits f) (.ofTime 20) := by
  have hgrant : ∃ m ∈ Relay.history,
      .send ⟨1⟩ (.timeAdvanceGrant (.ofTime 20)) ∈ m.actions := by
    decide +kernel
  obtain ⟨m, hm, hgrant⟩ := hgrant
  obtain ⟨-, f, record, hjoined, -, -, hleast⟩ := Relay.run.isLeast_of_grant hm hgrant
  exact ⟨m, hm, hgrant, f, record, hjoined, hleast⟩

theorem blank (run : Run t settings history s) : s.registry.Blank := by
  induction run with
  | start =>
    intro f record hf _
    rw [Coordinator.get?_ofTopology hf]
  | event run now e fresh ih =>
    obtain ⟨gs, hupdate, -⟩ := run.update now e
    exact hupdate.blank ih

theorem covers {f : FederateId} {d : Dependency} (hd : d ∈ t.upstream f)
    (hdelay : 0 ≤ d.delay.nanos.toInt) (run : Run t settings history s)
    (hstay : ∀ m ∈ history, m.after.registry.Stays d.federate) :
    s.registry.Stays d.federate ∧ s.registry.Covers f d := by
  induction run with
  | start =>
    refine ⟨fun u hu hstate => ?_, fun record u hrecord _ => ?_⟩
    · rw [Coordinator.get?_ofTopology hu] at hstate
      cases hstate
    · rw [Coordinator.get?_ofTopology hrecord]
      exact Tag.never_le _
  | @event history s run now e fresh ih =>
    obtain ⟨hs, hcovers⟩ := ih fun m hm => hstay m (List.mem_append_left _ hm)
    have hs' : ((s.setTime now).handle e).1.registry.Stays d.federate :=
      hstay ((s.setTime now).moment e) (List.mem_append_right _ (List.mem_singleton_self _))
    obtain ⟨gs, hupdate, -⟩ := run.update now e
    rw [← run.topology_eq] at hd
    exact ⟨hs', hupdate.covers hd hdelay run.blank hs hcovers hs'⟩

/-- A federate is never granted more than what a dependency that has not left during the run has
completed, a delay later. -/
theorem lastGranted_le_delayed {p : Topology.Plan} (hbuild : p.build = .ok t)
    (run : Run t settings history s) {f : FederateId} {d : Dependency} (hd : d ∈ t.upstream f)
    (hstay : ∀ m ∈ history, ∀ u, m.after.registry.get? d.federate = some u →
      u.state ≠ .resigned) :
    ∃ record u, s.registry.get? f = some record ∧ s.registry.get? d.federate = some u ∧
      record.lastGranted ≤ u.completed.delayed d.delay := by
  have ht := Topology.Plan.wellFormed_of_build hbuild
  have hf : f.index < t.size := by
    by_contra hle
    rw [Topology.upstream_eq_nil (Nat.le_of_not_lt hle)] at hd
    exact List.not_mem_nil hd
  obtain ⟨record, hrecord⟩ := run.exists_record hf
  obtain ⟨u, hu⟩ := run.exists_record (ht.upstream_lt f d hd)
  obtain ⟨-, hcovers⟩ := run.covers hd (ht.delay_nonneg f d hd) hstay
  exact ⟨record, u, hrecord, hu, hcovers record u hrecord hu⟩

theorem lastGranted_le_delayed_relay :
    ⟨⟨0⟩, ⟨10⟩⟩ ∈ Relay.plan.graph.upstream ⟨1⟩ ∧
    ∃ record u, Relay.state.registry.get? ⟨1⟩ = some record ∧
      Relay.state.registry.get? ⟨0⟩ = some u ∧
      record.lastGranted ≤ u.completed.delayed ⟨10⟩ := by
  have hd : ⟨⟨0⟩, ⟨10⟩⟩ ∈ Relay.plan.graph.upstream ⟨1⟩ := by decide +kernel
  have hstay : ∀ m ∈ Relay.history, ∀ u, m.after.registry.get? ⟨0⟩ = some u →
      u.state ≠ .resigned := by
    have hall : ∀ m ∈ Relay.history, ∀ u ∈ m.after.registry.get? ⟨0⟩, u.state ≠ .resigned := by
      decide +kernel
    exact hall
  exact ⟨hd, Relay.run.lastGranted_le_delayed Relay.build_eq hd hstay⟩

end Run

end FederatedTime
