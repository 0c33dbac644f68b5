import FederatedTime.Coordinator.Advance
import FederatedTime.Proofs.Time.Delay

/-!
# The admissible bound

The bound of a federate is the least of its limits: its next event, and for each dependency the
earliest tag at which anything may still arrive. `admissibleBound_eq_some_iff` says so, and says
when there is a bound at all; `admissibleBound_mono` is that it never falls while the completions
upstream and the next event do not.
-/

namespace FederatedTime

namespace Registry

variable {r r' : Registry} {f : FederateId} {b : Tag}

/-- The tags that the bound of `f` is not to exceed. -/
def limits (r : Registry) (f : FederateId) : Set Tag :=
  {tag | (∃ record, r.get? f = some record ∧ tag = record.nextEvent) ∨
    ∃ d ∈ r.topology.upstream f, ∃ u, r.get? d.federate = some u ∧
      tag = u.effectiveCompleted.delayed d.delay}

/-- Something is known of the next event of `f` and of every federate that it depends on. -/
structure Informed (r : Registry) (f : FederateId) : Prop where
  nextEvent : ∃ record, r.get? f = some record ∧ record.nextEvent ≠ .never
  upstream : ∀ d ∈ r.topology.upstream f, ∃ u, r.get? d.federate = some u ∧
    u.effectiveCompleted ≠ .never

/-! ## Lists of options and least elements -/

section Lists

variable {α β : Type} {g : α → Option β} {l : List α} {bs : List β}

theorem mapM_cons_eq_some {a : α} : (a :: l).mapM g = some bs ↔
    ∃ b, g a = some b ∧ ∃ rest, l.mapM g = some rest ∧ bs = b :: rest := by
  rw [List.mapM_cons]
  simp only [Option.bind_eq_bind, Option.bind_eq_some_iff, Option.pure_def, Option.some.injEq,
    eq_comm (b := bs)]

theorem exists_mapM_eq_some (h : ∀ a ∈ l, ∃ b, g a = some b) : ∃ bs, l.mapM g = some bs := by
  induction l with
  | nil => exact ⟨[], rfl⟩
  | cons a l ih =>
    obtain ⟨⟨b, hb⟩, hl⟩ := List.forall_mem_cons.1 h
    obtain ⟨bs, hbs⟩ := ih hl
    exact ⟨b :: bs, mapM_cons_eq_some.2 ⟨b, hb, bs, hbs, rfl⟩⟩

theorem mapM_eq_some (h : l.mapM g = some bs) :
    (∀ a ∈ l, ∃ b, g a = some b) ∧ ∀ b, b ∈ bs ↔ ∃ a ∈ l, g a = some b := by
  induction l generalizing bs with
  | nil =>
    obtain rfl := Option.some.inj h
    simp
  | cons a l ih =>
    obtain ⟨b, hb, rest, hrest, rfl⟩ := mapM_cons_eq_some.1 h
    obtain ⟨hall, hmem⟩ := ih hrest
    refine ⟨List.forall_mem_cons.2 ⟨⟨b, hb⟩, hall⟩, fun c => ?_⟩
    simp [hmem, hb, eq_comm (a := c)]

theorem isLeast_foldl_min (tag : Tag) (tags : List Tag) :
    IsLeast {x | x = tag ∨ x ∈ tags} (tags.foldl min tag) := by
  induction tags generalizing tag with
  | nil => exact ⟨Or.inl rfl, by simp [lowerBounds]⟩
  | cons a tags ih =>
    obtain ⟨hmem, hle⟩ := ih (min tag a)
    have hmin : tags.foldl min (min tag a) ≤ min tag a := hle (Or.inl rfl)
    rw [List.foldl_cons]
    refine ⟨?_, ?_⟩
    · rcases hmem with heq | hmem
      · rw [heq]
        rcases min_choice tag a with h | h
        · exact Or.inl h
        · exact Or.inr (by rw [h]; exact List.mem_cons_self)
      · exact Or.inr (List.mem_cons_of_mem _ hmem)
    · rintro x (rfl | hx)
      · exact hmin.trans (min_le_left _ _)
      · rcases List.mem_cons.1 hx with rfl | hx
        · exact hmin.trans (min_le_right _ _)
        · exact hle (Or.inr hx)

end Lists

/-! ## What the bound is -/

theorem arrival?_eq_some_iff {d : Dependency} {tag : Tag} : r.arrival? d = some tag ↔
    ∃ u, r.get? d.federate = some u ∧ u.effectiveCompleted ≠ .never ∧
      tag = u.effectiveCompleted.delayed d.delay := by
  unfold arrival?
  simp only [Option.bind_eq_bind, Option.bind_eq_some_iff, Option.pure_def]
  refine exists_congr fun u => and_congr_right fun _ => ?_
  by_cases hn : u.effectiveCompleted = .never
  · simp [hn]
  · simp [hn, eq_comm (a := tag)]

theorem admissibleBound_eq {record : FederateRecord} (hf : r.get? f = some record)
    (hn : record.nextEvent ≠ .never) : r.admissibleBound f =
      ((r.topology.upstream f).mapM r.arrival?).map fun arrivals =>
        arrivals.foldl min record.nextEvent := by
  unfold admissibleBound
  rw [hf]
  simp only [Option.bind_eq_bind, Option.bind_some, Tag.isNever_eq_true, if_neg hn]
  rw [Option.map_eq_bind]
  rfl

theorem Informed.exists_admissibleBound (h : r.Informed f) : ∃ b, r.admissibleBound f = some b := by
  obtain ⟨record, hf, hn⟩ := h.nextEvent
  obtain ⟨arrivals, harrivals⟩ := exists_mapM_eq_some (g := r.arrival?) fun d hd => by
    obtain ⟨u, hu, hun⟩ := h.upstream d hd
    exact ⟨_, arrival?_eq_some_iff.2 ⟨u, hu, hun, rfl⟩⟩
  exact ⟨_, by rw [admissibleBound_eq hf hn, harrivals]; rfl⟩

theorem admissibleBound_eq_some (h : r.admissibleBound f = some b) :
    r.Informed f ∧ IsLeast (r.limits f) b := by
  have hinformed : ∃ record, r.get? f = some record ∧ record.nextEvent ≠ .never := by
    unfold admissibleBound at h
    obtain ⟨record, hf, hbound⟩ := Option.bind_eq_some_iff.1 h
    refine ⟨record, hf, fun hn => ?_⟩
    rw [if_pos (Tag.isNever_eq_true.2 hn)] at hbound
    cases hbound
  obtain ⟨record, hf, hn⟩ := hinformed
  rw [admissibleBound_eq hf hn] at h
  obtain ⟨arrivals, harrivals, rfl⟩ := Option.map_eq_some_iff.1 h
  obtain ⟨hall, hmem⟩ := mapM_eq_some harrivals
  refine ⟨⟨⟨record, hf, hn⟩, fun d hd => ?_⟩, ?_⟩
  · obtain ⟨tag, htag⟩ := hall d hd
    obtain ⟨u, hu, hun, -⟩ := arrival?_eq_some_iff.1 htag
    exact ⟨u, hu, hun⟩
  · -- an arrival is the limit that its dependency sets, whichever record it was read from
    have hset : r.limits f = {x | x = record.nextEvent ∨ x ∈ arrivals} := by
      ext tag
      refine or_congr ?_ ?_
      · simp [hf]
      · rw [hmem]
        refine exists_congr fun d => and_congr_right fun hd => ?_
        obtain ⟨tag', htag'⟩ := hall d hd
        obtain ⟨u', hu', hun', -⟩ := arrival?_eq_some_iff.1 htag'
        rw [arrival?_eq_some_iff]
        constructor
        · rintro ⟨u, hu, htag⟩
          obtain rfl := Option.some.inj (hu.symm.trans hu')
          exact ⟨u, hu, hun', htag⟩
        · rintro ⟨u, hu, -, htag⟩
          exact ⟨u, hu, htag⟩
    rw [hset]
    exact isLeast_foldl_min record.nextEvent arrivals

theorem admissibleBound_eq_some_iff :
    r.admissibleBound f = some b ↔ r.Informed f ∧ IsLeast (r.limits f) b := by
  refine ⟨admissibleBound_eq_some, fun ⟨hinformed, hleast⟩ => ?_⟩
  obtain ⟨b', hb'⟩ := hinformed.exists_admissibleBound
  rw [hb', (admissibleBound_eq_some hb').2.unique hleast]

/-! ## How the bound moves -/

theorem mapM_congr {α β : Type} {g g' : α → Option β} {l : List α} (h : ∀ a ∈ l, g a = g' a) :
    l.mapM g = l.mapM g' := by
  induction l with
  | nil => rfl
  | cons a l ih =>
    obtain ⟨ha, hl⟩ := List.forall_mem_cons.1 h
    rw [List.mapM_cons, List.mapM_cons, ha, ih hl]

theorem arrival?_congr {d : Dependency}
    (h : (r'.get? d.federate).map (·.effectiveCompleted) =
      (r.get? d.federate).map (·.effectiveCompleted)) : r'.arrival? d = r.arrival? d := by
  have bind (r : Registry) : r.arrival? d = ((r.get? d.federate).map (·.effectiveCompleted)).bind
      fun tag => if tag.isNever then none else some (tag.delayed d.delay) := by
    unfold arrival?
    cases r.get? d.federate <;> rfl
  rw [bind, bind, h]

/-- The bound reads the next event of `f`, the completions upstream, and nothing else. -/
theorem admissibleBound_congr (htopology : r'.topology = r.topology)
    (hnext : (r'.get? f).map (·.nextEvent) = (r.get? f).map (·.nextEvent))
    (hupstream : ∀ d ∈ r.topology.upstream f, (r'.get? d.federate).map (·.effectiveCompleted) =
      (r.get? d.federate).map (·.effectiveCompleted)) :
    r'.admissibleBound f = r.admissibleBound f := by
  have bind (r : Registry) : r.admissibleBound f = ((r.get? f).map (·.nextEvent)).bind fun next =>
      if next.isNever then none
      else ((r.topology.upstream f).mapM r.arrival?).bind fun arrivals =>
        some (arrivals.foldl min next) := by
    unfold admissibleBound
    cases r.get? f <;> rfl
  rw [bind, bind, htopology, hnext, mapM_congr fun d hd => arrival?_congr (hupstream d hd)]

/-- The bound of `f` has what it takes in `r'` if it has it in `r`, and is no lower there, when the
next event of `f` and the completions upstream are no lower there. -/
theorem admissibleBound_mono (htopology : r'.topology = r.topology)
    (hdelay : ∀ d ∈ r.topology.upstream f, 0 ≤ d.delay.nanos.toInt)
    (hnext : ∀ record, r.get? f = some record →
      ∃ record', r'.get? f = some record' ∧ record.nextEvent ≤ record'.nextEvent)
    (hupstream : ∀ d ∈ r.topology.upstream f, ∀ u, r.get? d.federate = some u →
      ∃ u', r'.get? d.federate = some u' ∧ u.effectiveCompleted ≤ u'.effectiveCompleted)
    (h : r.admissibleBound f = some b) : ∃ b', r'.admissibleBound f = some b' ∧ b ≤ b' := by
  have above : ∀ {tag tag' : Tag}, tag ≠ .never → tag ≤ tag' → tag' ≠ .never := fun hn hle =>
    Tag.never_lt_iff.1 (lt_of_lt_of_le (Tag.never_lt_iff.2 hn) hle)
  obtain ⟨⟨⟨record, hf, hn⟩, hknown⟩, -, hlower⟩ := admissibleBound_eq_some h
  obtain ⟨record', hf', hle⟩ := hnext record hf
  have hinformed : r'.Informed f := by
    refine ⟨⟨record', hf', above hn hle⟩, fun d hd => ?_⟩
    rw [htopology] at hd
    obtain ⟨u, hu, hun⟩ := hknown d hd
    obtain ⟨u', hu', hle'⟩ := hupstream d hd u hu
    exact ⟨u', hu', above hun hle'⟩
  obtain ⟨b', hb'⟩ := hinformed.exists_admissibleBound
  refine ⟨b', hb', ?_⟩
  obtain ⟨hmem, -⟩ := (admissibleBound_eq_some hb').2
  rcases hmem with ⟨record'', hf'', rfl⟩ | ⟨d, hd, u', hu', rfl⟩
  · obtain rfl := Option.some.inj (hf'.symm.trans hf'')
    exact (hlower (Or.inl ⟨record, hf, rfl⟩)).trans hle
  · rw [htopology] at hd
    obtain ⟨u, hu, -⟩ := hknown d hd
    obtain ⟨u'', hu'', hle'⟩ := hupstream d hd u hu
    obtain rfl := Option.some.inj (hu'.symm.trans hu'')
    exact (hlower (Or.inr ⟨d, hd, u, hu, rfl⟩)).trans (Tag.delayed_mono (hdelay d hd) hle')

end Registry

end FederatedTime
