import FederatedTime.Proofs.Coordinator.Membership
import FederatedTime.Proofs.Topology.WellFormed
import Mathlib.Data.Set.Finite.Lemmas

/-!
# No grant is withheld

Whatever raises the bound of a federate has that federate among its seeds, so that after every event
each federate with work to do has been granted what its bound allows (`Run.settled`). That there is
no cycle without delay then keeps the federation going: where everybody has work to do, the hindmost
federate has a grant to do it (`Run.exists_completed_lt_lastGranted`). A federate that depends on
nobody who is still there may go on to its next event (`Run.nextEvent_le_lastGranted`). That a last
grant has reached its federate is shown with the order of the grants (`Run.lastGranted_eq_getLast`).
-/

namespace FederatedTime

namespace Registry

variable {r r' : Registry} {stop stop' : Option Tag} {gs : List Grant} {f : FederateId}

/-! ## What a change can raise -/

section Change

variable {t : Topology} {record : FederateRecord} {change : FederateRecord → FederateRecord}
variable {seeds : List FederateId}

/-- What is completed only seems more to the federates downstream if these are the seeds. -/
theorem Change.effectiveCompleted_le (h : Change t f record change seeds) :
    (change record).effectiveCompleted ≤ record.effectiveCompleted ∨ seeds = t.downstream f := by
  cases h with
  | marked halike => exact Or.inl (le_of_eq halike.effectiveCompleted)
  | nextEvent => exact Or.inl (le_refl _)
  | completed | left => exact Or.inr rfl
  | joined => exact Or.inl (Tag.never_le _)

/-- A federate that has work to do after a change had the same to do before, or is a seed. -/
theorem Change.pending (h : Change t f record change seeds)
    (hconnected : (change record).isConnected)
    (hpending : (change record).completed < (change record).nextEvent) :
    f ∈ seeds ∨ record.isConnected ∧ record.completed < record.nextEvent ∧
      (change record).nextEvent = record.nextEvent ∧
      (change record).lastGranted = record.lastGranted := by
  cases h with
  | marked halike =>
    rw [halike.isConnected] at hconnected
    rw [halike.completed, halike.nextEvent] at hpending
    exact Or.inr ⟨hconnected, hpending, halike.nextEvent, halike.lastGranted⟩
  | nextEvent => exact Or.inl (List.mem_singleton_self f)
  | @completed tag h htag =>
    -- the next event is beyond the tag, so it is the old one
    have hlt : tag < record.nextEvent := by
      rcases lt_max_iff.1 hpending with hlt | hlt
      · exact hlt
      · exact absurd hlt (lt_irrefl tag)
    refine Or.inr ⟨h, (not_le.1 htag).trans hlt, ?_, rfl⟩
    exact max_eq_left (le_of_lt hlt)
  | joined => exact absurd hpending (lt_irrefl Tag.never)
  | left => cases hconnected

end Change

section Modify

variable {g : FederateId} {record middle : FederateRecord}
variable {change : FederateRecord → FederateRecord} {seeds : List FederateId}

/-- Outside of the seeds, a federate with work to do after a change had the same to do before. -/
theorem Change.exists_pending (h : Change r.topology g record change seeds)
    (hg : r.get? g = some record) (hseed : f ∉ seeds)
    (hmiddle : (r.modify g change).get? f = some middle) (hconnected : middle.isConnected)
    (hpending : middle.completed < middle.nextEvent) :
    ∃ earlier, r.get? f = some earlier ∧ earlier.isConnected ∧
      earlier.completed < earlier.nextEvent ∧ middle.nextEvent = earlier.nextEvent ∧
      middle.lastGranted = earlier.lastGranted := by
  rcases get?_modify_cases hg hmiddle with ⟨rfl, rfl⟩ | ⟨-, hf⟩
  · exact ⟨record, hg, (h.pending hconnected hpending).resolve_left hseed⟩
  · exact ⟨middle, hf, hconnected, hpending, rfl, rfl⟩

/-- Outside of the seeds, a change raises no bound but through the next event of the federate. -/
theorem Change.exists_bound {b : Tag} (h : Change r.topology g record change seeds)
    (ht : r.topology.WellFormed) (hg : r.get? g = some record) (hseed : f ∉ seeds)
    (hnext : ∀ middle, (r.modify g change).get? f = some middle →
      ∃ earlier, r.get? f = some earlier ∧ middle.nextEvent ≤ earlier.nextEvent)
    (hbound : (r.modify g change).admissibleBound f = some b) :
    ∃ b', r.admissibleBound f = some b' ∧ b ≤ b' := by
  have hdelay : ∀ d ∈ r.topology.upstream f, 0 ≤ d.delay.nanos.toInt := ht.delay_nonneg f
  refine admissibleBound_mono (r := r.modify g change) rfl hdelay hnext ?_ hbound
  intro d hd u hu
  rcases get?_modify_cases hg hu with ⟨hgd, rfl⟩ | ⟨-, hu⟩
  · rw [← hgd]
    refine ⟨record, hg, h.effectiveCompleted_le.resolve_right fun hseeds => hseed ?_⟩
    rw [hseeds, ht.mem_downstream_iff, hgd]
    exact List.mem_map.2 ⟨d, hd, rfl⟩
  · exact ⟨u, hu, le_refl _⟩

end Modify

/-! ## What is due has been granted -/

/-- Every joined federate with work to do has been granted what its bound allows. -/
def Settled (stop : Option Tag) (r : Registry) : Prop :=
  ∀ f record b, r.get? f = some record → record.isConnected →
    record.completed < record.nextEvent → r.admissibleBound f = some b →
    b.clamp stop ≤ record.lastGranted

theorem Update.settled (ht : r.topology.WellFormed) (hstop : stop = none ∨ stop' = stop)
    (hr : r.Settled stop) (h : r.Update stop' r' gs) : r'.Settled stop' := by
  cases h with
  | idle heq =>
    rw [heq]
    intro f record b hf hconnected hpending hbound
    exact (Tag.clamp_mono (le_refl b) hstop).trans (hr f record b hf hconnected hpending hbound)
  | @change g _ change seeds hg hchange heq =>
    subst heq
    intro f record' b hf' hconnected hpending hbound
    rw [admissibleBound_sweep] at hbound
    by_cases hseed : f ∈ seeds
    · exact clamp_le_lastGranted_of_mem hseed hf' hconnected hbound
    · obtain ⟨middle, hmiddle, hswept⟩ := swept_of_get? hf'
      rw [hswept.isConnected] at hconnected
      rw [hswept.completed, hswept.nextEvent] at hpending
      obtain ⟨record, hf, hconnected', hpending', hnext, hgranted⟩ :=
        hchange.exists_pending hg hseed hmiddle hconnected hpending
      have hbound' : ∃ b', r.admissibleBound f = some b' ∧ b ≤ b' := by
        apply hchange.exists_bound ht hg hseed ?_ hbound
        intro middle' hmiddle'
        obtain rfl := Option.some.inj (hmiddle.symm.trans hmiddle')
        exact ⟨record, hf, le_of_eq hnext⟩
      obtain ⟨b', hb', hle⟩ := hbound'
      calc b.clamp stop' ≤ b'.clamp stop := Tag.clamp_mono hle hstop
        _ ≤ record.lastGranted := hr f record b' hf hconnected' hpending' hb'
        _ = middle.lastGranted := hgranted.symm
        _ ≤ record'.lastGranted := le_lastGranted_sweep hmiddle hf'

/-! ## The hindmost federate -/

/-- The federate `f` is joined, and no joined federate has completed less; those that it depends on
without delay have completed more. -/
structure Hindmost (r : Registry) (f : FederateId) (record : FederateRecord) : Prop where
  get?_eq : r.get? f = some record
  connected : record.isConnected
  le_completed : ∀ g u, r.get? g = some u → u.isConnected → record.completed ≤ u.completed
  lt_completed : ∀ g u, ⟨g, .zero⟩ ∈ r.topology.upstream f → r.get? g = some u →
    u.isConnected → record.completed < u.completed

/-- Every federate has left, or is joined, has completed something, and has more to do. -/
def Working (r : Registry) : Prop :=
  ∀ f record, r.get? f = some record → record.state = .resigned ∨
    record.isConnected ∧ .never < record.completed ∧ record.completed < record.nextEvent

/-- Among the joined federates that have completed least there is one that depends on none of the
others without delay, for want of a cycle. -/
theorem exists_hindmost (ht : r.topology.WellFormed)
    (h : ∃ f record, r.get? f = some record ∧ record.isConnected) :
    ∃ f record, r.Hindmost f record := by
  let completed (f : FederateId) : Tag := ((r.get? f).map (·.completed)).getD .never
  let joined : Set FederateId := {f | ∃ record, r.get? f = some record ∧ record.isConnected}
  have completed_eq {f : FederateId} {record : FederateRecord} (hf : r.get? f = some record) :
      completed f = record.completed := by
    show ((r.get? f).map (·.completed)).getD .never = record.completed
    rw [hf]
    rfl
  -- first the least completed tag, then a federate at it that waits for no other one at it
  obtain ⟨least, hleast, hmin⟩ := Set.exists_min_image joined completed (Set.toFinite _) h
  let behind : Set FederateId := {f | f ∈ joined ∧ completed f = completed least}
  have hbehind : behind.Nonempty := ⟨least, hleast, rfl⟩
  obtain ⟨f, ⟨hf, hcompleted⟩, hinstant⟩ := ht.wellFounded_instantUpstream.has_min behind hbehind
  obtain ⟨record, hrecord, hconnected⟩ := hf
  rw [completed_eq hrecord] at hcompleted
  have hle : ∀ g u, r.get? g = some u → u.isConnected → record.completed ≤ u.completed := by
    intro g u hu huc
    rw [hcompleted, ← completed_eq hu]
    exact hmin g ⟨u, hu, huc⟩
  refine ⟨f, record, hrecord, hconnected, hle, ?_⟩
  intro g u hg hu huc
  refine lt_of_le_of_ne (hle g u hu huc) fun heq => hinstant g ⟨⟨u, hu, huc⟩, ?_⟩ hg
  rw [completed_eq hu, ← heq, hcompleted]

section Hindmost

variable {record : FederateRecord}

theorem Working.lt_nextEvent (hwork : r.Working) (hf : r.get? f = some record)
    (hconnected : record.isConnected) : record.completed < record.nextEvent := by
  rcases hwork f record hf with hresigned | ⟨-, -, hlt⟩
  · exact absurd hconnected (FederateRecord.not_connected_of_resigned hresigned)
  · exact hlt

theorem Working.informed (hwork : r.Working) (h : r.Hindmost f record)
    (hupstream : ∀ d ∈ r.topology.upstream f, ∃ u, r.get? d.federate = some u) :
    r.Informed f := by
  refine ⟨⟨record, h.get?_eq, ?_⟩, fun d hd => ?_⟩
  · have hlt := hwork.lt_nextEvent h.get?_eq h.connected
    exact Tag.never_lt_iff.1 (lt_of_le_of_lt (Tag.never_le _) hlt)
  · obtain ⟨u, hu⟩ := hupstream d hd
    refine ⟨u, hu, ?_⟩
    unfold FederateRecord.effectiveCompleted
    split
    · decide
    · rename_i hstay
      exact Tag.never_lt_iff.1 ((hwork _ u hu).resolve_left hstay).2.1

/-- Nothing limits the hindmost federate to what it has completed. -/
theorem Working.lt_of_mem_limits (hwork : r.Working) (h : r.Hindmost f record)
    (hdelay : ∀ d ∈ r.topology.upstream f, 0 ≤ d.delay.nanos.toInt) {tag : Tag}
    (htag : tag ∈ r.limits f) : record.completed < tag := by
  have hlt := hwork.lt_nextEvent h.get?_eq h.connected
  -- the next event is ahead, and so is what arrives from a federate that has left, over a delay,
  -- or without one from a federate that has completed more
  rcases htag with ⟨record', hrecord', rfl⟩ | ⟨⟨g, delay⟩, hd, u, hu, rfl⟩
  · obtain rfl := Option.some.inj (h.get?_eq.symm.trans hrecord')
    exact hlt
  · rcases hwork g u hu with hresigned | ⟨huc, hnever, hnext⟩
    · rw [FederateRecord.effectiveCompleted, if_pos hresigned, Tag.delayed_forever]
      exact lt_of_lt_of_le hlt (Tag.le_forever _)
    · have hstay : u.state ≠ .resigned := fun hresigned =>
        FederateRecord.not_connected_of_resigned hresigned huc
      rw [FederateRecord.effectiveCompleted, if_neg hstay]
      by_cases hzero : delay.isZero = true
      · rw [Tag.delayed_of_isZero hzero]
        obtain rfl := Interval.eq_zero_of_isZero hzero
        exact h.lt_completed g u hd hu huc
      · have hpos : 0 < delay.nanos.toInt := by
          have hnonneg := hdelay _ hd
          rw [Interval.isZero_iff] at hzero
          dsimp only at hnonneg
          omega
        have hforever : u.completed ≠ .forever :=
          Tag.lt_forever_iff.1 (lt_of_lt_of_le hnext (Tag.le_forever _))
        calc record.completed ≤ u.completed := h.le_completed g u hu huc
          _ < u.completed.delayed delay :=
            Tag.lt_delayed hpos (Tag.never_lt_iff.1 hnever) hforever

end Hindmost

end Registry

namespace Run

variable {t : Topology} {settings : CoordinatorSettings} {history : List Moment} {s : Coordinator}

theorem settled (ht : t.WellFormed) (run : Run t settings history s) :
    s.registry.Settled s.stopTag := by
  induction run with
  | start =>
    intro f record b hf hconnected
    rw [Coordinator.get?_ofTopology hf] at hconnected
    cases hconnected
  | event run now e fresh ih =>
    obtain ⟨gs, hupdate, -⟩ := run.update now e
    rw [← run.topology_eq] at ht
    exact hupdate.settled ht (run.stopTag now e) ih

/-- A joined federate with work to do has been granted all that its bound and the stop tag allow. -/
theorem clamp_le_lastGranted {p : Topology.Plan} (hbuild : p.build = .ok t)
    (run : Run t settings history s) {f : FederateId} {record : FederateRecord}
    (hf : s.registry.get? f = some record) (hconnected : record.isConnected)
    (hpending : record.completed < record.nextEvent) :
    s.registry.admissibleBound f = none ∨ ∃ b, s.registry.admissibleBound f = some b ∧
      b.clamp s.stopTag ≤ record.lastGranted := by
  have hsettled := run.settled (Topology.Plan.wellFormed_of_build hbuild)
  cases hbound : s.registry.admissibleBound f with
  | none => exact Or.inl rfl
  | some b => exact Or.inr ⟨b, rfl, hsettled f record b hf hconnected hpending hbound⟩

theorem clamp_le_lastGranted_relay : ∃ record,
    Relay.state.registry.get? ⟨1⟩ = some record ∧ record.isConnected ∧
    record.completed < record.nextEvent ∧
    Relay.state.registry.admissibleBound ⟨1⟩ = some (.ofTime 20) ∧
    (Tag.ofTime 20).clamp Relay.state.stopTag ≤ record.lastGranted := by
  have hall : ∀ record ∈ Relay.state.registry.get? ⟨1⟩,
      record.isConnected ∧ record.completed < record.nextEvent := by
    decide +kernel
  obtain ⟨record, hf⟩ := Option.isSome_iff_exists.1
    (show (Relay.state.registry.get? ⟨1⟩).isSome by decide +kernel)
  obtain ⟨hconnected, hpending⟩ := hall record hf
  have hbound : Relay.state.registry.admissibleBound ⟨1⟩ = some (.ofTime 20) := by decide +kernel
  refine ⟨record, hf, hconnected, hpending, hbound, ?_⟩
  rcases Relay.run.clamp_le_lastGranted Relay.build_eq hf hconnected hpending with
    hnone | ⟨b, hsome, hle⟩
  · rw [hbound] at hnone
    cases hnone
  · obtain rfl := Option.some.inj (hbound.symm.trans hsome)
    exact hle

/-- Where all that it depends on have left, and no stop is agreed, a joined federate with work to do
has been granted its next event. -/
theorem nextEvent_le_lastGranted {p : Topology.Plan} (hbuild : p.build = .ok t)
    (run : Run t settings history s) {f : FederateId} {record : FederateRecord}
    (hf : s.registry.get? f = some record) (hconnected : record.isConnected)
    (hpending : record.completed < record.nextEvent) (hstop : s.stopTag = none)
    (hupstream : ∀ d ∈ t.upstream f, ∃ u, s.registry.get? d.federate = some u ∧
      u.state = .resigned) : record.nextEvent ≤ record.lastGranted := by
  rw [← run.topology_eq] at hupstream
  have hinformed : s.registry.Informed f := by
    refine ⟨⟨record, hf, ?_⟩, fun d hd => ?_⟩
    · exact Tag.never_lt_iff.1 (lt_of_le_of_lt (Tag.never_le _) hpending)
    · obtain ⟨u, hu, hresigned⟩ := hupstream d hd
      refine ⟨u, hu, ?_⟩
      rw [FederateRecord.effectiveCompleted, if_pos hresigned]
      decide
  obtain ⟨b, hbound⟩ := hinformed.exists_admissibleBound
  have hle : record.nextEvent ≤ b := by
    rcases (Registry.admissibleBound_eq_some hbound).2.1 with
      ⟨record', hrecord', rfl⟩ | ⟨d, hd, u, hu, rfl⟩
    · obtain rfl := Option.some.inj (hf.symm.trans hrecord')
      exact le_refl _
    · obtain ⟨u', hu', hresigned⟩ := hupstream d hd
      obtain rfl := Option.some.inj (hu.symm.trans hu')
      rw [FederateRecord.effectiveCompleted, if_pos hresigned, Tag.delayed_forever]
      exact Tag.le_forever _
  have hsettled := run.settled (Topology.Plan.wellFormed_of_build hbuild) f record b hf hconnected
    hpending hbound
  rw [hstop] at hsettled
  exact hle.trans hsettled

/-- Where every federate has left or has work to do, and the stop tag is still ahead, a federate
that is joined has a grant beyond what it has completed. -/
theorem exists_completed_lt_lastGranted {p : Topology.Plan} (hbuild : p.build = .ok t)
    (run : Run t settings history s)
    (hjoined : ∃ f record, s.registry.get? f = some record ∧ record.isConnected)
    (hwork : ∀ f record, s.registry.get? f = some record → record.state = .resigned ∨
      record.isConnected ∧ .never < record.completed ∧ record.completed < record.nextEvent)
    (hstop : ∀ f record, s.registry.get? f = some record → record.isConnected →
      ∀ tag ∈ s.stopTag, record.completed < tag) :
    ∃ f record, s.registry.get? f = some record ∧ record.isConnected ∧
      record.completed < record.lastGranted := by
  have ht := Topology.Plan.wellFormed_of_build hbuild
  have htopology := run.topology_eq
  have ht' : s.registry.topology.WellFormed := htopology ▸ ht
  obtain ⟨f, record, h⟩ := Registry.exists_hindmost ht' hjoined
  have hinformed : s.registry.Informed f := by
    refine Registry.Working.informed hwork h fun d hd => ?_
    rw [htopology] at hd
    exact run.exists_record (ht.upstream_lt f d hd)
  obtain ⟨b, hbound⟩ := hinformed.exists_admissibleBound
  have hlt : record.completed < b := by
    apply Registry.Working.lt_of_mem_limits hwork h (ht'.delay_nonneg f)
    exact (Registry.admissibleBound_eq_some hbound).2.1
  have hpending : record.completed < record.nextEvent :=
    Registry.Working.lt_nextEvent hwork h.get?_eq h.connected
  refine ⟨f, record, h.get?_eq, h.connected, ?_⟩
  calc record.completed < b.clamp s.stopTag :=
        Tag.lt_clamp_iff.2 ⟨hlt, hstop f record h.get?_eq h.connected⟩
    _ ≤ record.lastGranted := run.settled ht f record b h.get?_eq h.connected hpending hbound

theorem exists_completed_lt_lastGranted_relay :
    ∃ f record, Relay.state.registry.get? f = some record ∧ record.isConnected ∧
      record.completed < record.lastGranted := by
  have hall : ∀ record ∈ Relay.state.registry.records.toList, record.isConnected ∧
      .never < record.completed ∧ record.completed < record.nextEvent := by
    decide +kernel
  have hstop : Relay.state.stopTag = none := by decide +kernel
  refine Relay.run.exists_completed_lt_lastGranted Relay.build_eq ?_ ?_ ?_
  · obtain ⟨record, hf⟩ := Option.isSome_iff_exists.1
      (show (Relay.state.registry.get? ⟨1⟩).isSome by decide +kernel)
    exact ⟨⟨1⟩, record, hf, (hall record (Roster.mem_toList_of_get? hf)).1⟩
  · intro f record hf
    exact Or.inr (hall record (Roster.mem_toList_of_get? hf))
  · intro f record hf _ tag htag
    rw [hstop] at htag
    cases htag

end Run

end FederatedTime
