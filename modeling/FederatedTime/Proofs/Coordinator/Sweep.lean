import FederatedTime.Proofs.Coordinator.Bound
import FederatedTime.Proofs.Graph.Reach

/-!
# What a sweep does

`get?_sweep` is the whole of it: a sweep settles the records of the federates that it meets, each
at the grant that was due to it before the sweep. No bound depends on what a sweep writes
(`admissibleBound_sweep`), so afterwards nothing more is due to any federate among the seeds
(`clamp_le_lastGranted_of_mem`).
-/

namespace FederatedTime

namespace FederateRecord

/-! ## What a refresh leaves alone -/

@[simp] theorem id_refresh (record : FederateRecord) : record.refresh.id = record.id := by
  unfold refresh
  split <;> rfl

@[simp] theorem completed_refresh (record : FederateRecord) :
    record.refresh.completed = record.completed := by
  unfold refresh
  split <;> rfl

@[simp] theorem nextEvent_refresh (record : FederateRecord) :
    record.refresh.nextEvent = record.nextEvent := by
  unfold refresh
  split <;> rfl

@[simp] theorem connection_refresh (record : FederateRecord) :
    record.refresh.connection = record.connection := by
  unfold refresh
  split <;> rfl

@[simp] theorem stopCounted_refresh (record : FederateRecord) :
    record.refresh.stopCounted = record.stopCounted := by
  unfold refresh
  split <;> rfl

@[simp] theorem isConnected_refresh (record : FederateRecord) :
    record.refresh.isConnected = record.isConnected := by
  unfold refresh
  split
  · rename_i h
    rw [h]
    show FederateState.isConnected (if _ then _ else _) = true
    split <;> rfl
  · rfl

theorem not_connected_of_resigned {record : FederateRecord} (h : record.state = .resigned) :
    ¬ record.isConnected := by
  rw [isConnected, h]
  decide

/-- A refresh only moves between the two states of a joined federate. -/
theorem state_refresh_eq_iff {record : FederateRecord} {state : FederateState}
    (h : ¬ state.isConnected) : record.refresh.state = state ↔ record.state = state := by
  unfold refresh
  split
  · rename_i hconnected
    refine iff_of_false (fun heq => h ?_) (fun heq => h ?_)
    · rw [← heq]
      show FederateState.isConnected (if _ then _ else _) = true
      split <;> rfl
    · rw [← heq]
      exact hconnected
  · rfl

@[simp] theorem effectiveCompleted_refresh (record : FederateRecord) :
    record.refresh.effectiveCompleted = record.effectiveCompleted := by
  have hresigned : record.refresh.state = .resigned ↔ record.state = .resigned :=
    state_refresh_eq_iff (by decide)
  unfold effectiveCompleted
  rw [completed_refresh]
  exact if_congr hresigned rfl rfl

/-- A sweep may have made the second record of the first: what it does not touch is the same. -/
structure Swept (a b : FederateRecord) : Prop where
  completed : b.completed = a.completed
  nextEvent : b.nextEvent = a.nextEvent
  isConnected : b.isConnected = a.isConnected
  effectiveCompleted : b.effectiveCompleted = a.effectiveCompleted
  state_iff : ∀ state : FederateState, ¬ state.isConnected → (b.state = state ↔ a.state = state)

end FederateRecord

namespace Registry

variable {r : Registry} {stop : Option Tag} {seeds : List FederateId} {f g : FederateId}

section Settle

variable (granted : Option Tag) (record : FederateRecord)

@[simp] theorem id_settle : (settle granted record).id = record.id :=
  FederateRecord.id_refresh _

@[simp] theorem completed_settle : (settle granted record).completed = record.completed :=
  FederateRecord.completed_refresh _

@[simp] theorem nextEvent_settle : (settle granted record).nextEvent = record.nextEvent :=
  FederateRecord.nextEvent_refresh _

@[simp] theorem connection_settle : (settle granted record).connection = record.connection :=
  FederateRecord.connection_refresh _

@[simp] theorem stopCounted_settle : (settle granted record).stopCounted = record.stopCounted :=
  FederateRecord.stopCounted_refresh _

@[simp] theorem isConnected_settle : (settle granted record).isConnected = record.isConnected :=
  FederateRecord.isConnected_refresh _

@[simp] theorem effectiveCompleted_settle :
    (settle granted record).effectiveCompleted = record.effectiveCompleted :=
  FederateRecord.effectiveCompleted_refresh _

theorem state_settle_eq_iff {state : FederateState} (h : ¬ state.isConnected) :
    (settle granted record).state = state ↔ record.state = state :=
  FederateRecord.state_refresh_eq_iff h

end Settle

/-! ## Reading a registry -/

theorem get?_modify (r : Registry) (f g : FederateId) (change : FederateRecord → FederateRecord) :
    (r.modify f change).get? g = if f = g then (r.get? g).map change else r.get? g :=
  Roster.get?_modify r.records f g change

@[simp] theorem topology_modify (r : Registry) (f : FederateId)
    (change : FederateRecord → FederateRecord) : (r.modify f change).topology = r.topology := rfl

@[simp] theorem size_modify (r : Registry) (f : FederateId)
    (change : FederateRecord → FederateRecord) : (r.modify f change).size = r.size :=
  Roster.size_modify r.records f change

/-- A record after a change is the changed one, or one that the change does not concern. -/
theorem get?_modify_cases {record record' : FederateRecord}
    {change : FederateRecord → FederateRecord} (hf : r.get? f = some record)
    (h : (r.modify f change).get? g = some record') :
    f = g ∧ record' = change record ∨ f ≠ g ∧ r.get? g = some record' := by
  rw [get?_modify] at h
  by_cases hfg : f = g
  · subst hfg
    rw [if_pos rfl, hf] at h
    exact Or.inl ⟨rfl, (Option.some.inj h).symm⟩
  · rw [if_neg hfg] at h
    exact Or.inr ⟨hfg, h⟩

theorem connection?_modify {record : FederateRecord} (hf : r.get? f = some record)
    (change : FederateRecord → FederateRecord) (g : FederateId) :
    (r.modify f change).connection? g =
      if f = g then (change record).connection else r.connection? g := by
  unfold connection?
  rw [get?_modify]
  by_cases hfg : f = g
  · subst hfg
    rw [if_pos rfl, if_pos rfl, hf]
    rfl
  · rw [if_neg hfg, if_neg hfg]

theorem modify_eq_self {change : FederateRecord → FederateRecord}
    (h : ∀ record, r.get? f = some record → change record = record) : r.modify f change = r := by
  unfold modify
  rw [Roster.modify_eq_self h]

/-! ## Settling one federate after the other -/

theorem raise?_eq_some_iff {tag : Tag} : r.raise? stop f = some tag ↔
    ∃ record, r.get? f = some record ∧ record.isConnected ∧ record.lastGranted < tag ∧
      ∃ b, r.admissibleBound f = some b ∧ tag = b.clamp stop := by
  unfold raise?
  simp only [Option.bind_eq_bind, Option.bind_eq_some_iff, Option.pure_def]
  refine exists_congr fun record => and_congr_right fun _ => ?_
  by_cases hconnected : record.isConnected
  · rw [if_pos hconnected, Option.bind_eq_some_iff]
    simp only [hconnected, true_and]
    constructor
    · rintro ⟨b, hb, htag⟩
      split at htag
      · rename_i hlt
        obtain rfl := Option.some.inj htag
        exact ⟨hlt, b, hb, rfl⟩
      · cases htag
    · rintro ⟨hlt, b, hb, rfl⟩
      exact ⟨b, hb, if_pos hlt⟩
  · simp [hconnected]

/-- The registry after each of `fs` has been settled at the grant that was due to it. -/
def settled (r : Registry) (stop : Option Tag) (fs : List FederateId) : Registry :=
  fs.foldl (fun r' f => r'.modify f (settle (r.raise? stop f))) r

theorem settled_append_singleton (r : Registry) (stop : Option Tag) (fs : List FederateId)
    (f : FederateId) :
    r.settled stop (fs ++ [f]) = (r.settled stop fs).modify f (settle (r.raise? stop f)) :=
  List.foldl_append

section Settled

variable {fs : List FederateId}

theorem get?_foldl_modify (h : fs.Nodup)
    (change : FederateId → FederateRecord → FederateRecord) (r : Registry) (g : FederateId) :
    (fs.foldl (fun r f => r.modify f (change f)) r).get? g =
      if g ∈ fs then (r.get? g).map (change g) else r.get? g := by
  induction fs generalizing r with
  | nil => rfl
  | cons f fs ih =>
    obtain ⟨hf, hfs⟩ := List.nodup_cons.1 h
    rw [List.foldl_cons, ih hfs, get?_modify]
    by_cases hfg : f = g
    · subst hfg
      simp [hf]
    · simp [hfg, Ne.symm hfg]

theorem get?_settled (h : fs.Nodup) (r : Registry) (stop : Option Tag) (f : FederateId) :
    (r.settled stop fs).get? f =
      if f ∈ fs then (r.get? f).map (settle (r.raise? stop f)) else r.get? f :=
  get?_foldl_modify h _ r f

@[simp] theorem topology_settled (r : Registry) (stop : Option Tag) (fs : List FederateId) :
    (r.settled stop fs).topology = r.topology :=
  List.foldlRecOn (motive := fun r' : Registry => r'.topology = r.topology) fs _ rfl
    fun _ h _ _ => h

@[simp] theorem size_settled (r : Registry) (stop : Option Tag) (fs : List FederateId) :
    (r.settled stop fs).size = r.size :=
  List.foldlRecOn (motive := fun r' : Registry => r'.size = r.size) fs _ rfl
    fun r' h f _ => (size_modify r' f _).trans h

/-- What settling leaves alone, read off all records at once. -/
theorem map_get?_settled {α : Type} {field : FederateRecord → α}
    (hfield : ∀ granted record, field (settle granted record) = field record) (h : fs.Nodup)
    (f : FederateId) : ((r.settled stop fs).get? f).map field = (r.get? f).map field := by
  rw [get?_settled h]
  split
  · rw [Option.map_map]
    exact congrArg (fun g => (r.get? f).map g) (funext fun record => hfield _ record)
  · rfl

@[simp] theorem admissibleBound_settled (h : fs.Nodup) (r : Registry) (stop : Option Tag)
    (f : FederateId) : (r.settled stop fs).admissibleBound f = r.admissibleBound f :=
  admissibleBound_congr (topology_settled r stop fs) (map_get?_settled nextEvent_settle h f)
    fun d _ => map_get?_settled effectiveCompleted_settle h d.federate

/-- Nothing more is due to a federate that has been settled. -/
theorem raise?_settled_of_mem (h : fs.Nodup) (hf : f ∈ fs) :
    (r.settled stop fs).raise? stop f = none := by
  refine Option.eq_none_iff_forall_ne_some.2 fun tag htag => ?_
  obtain ⟨record', hrecord', hconnected, hlt, b, hb, rfl⟩ := raise?_eq_some_iff.1 htag
  rw [admissibleBound_settled h] at hb
  rw [get?_settled h, if_pos hf] at hrecord'
  obtain ⟨record, hrecord, rfl⟩ := Option.map_eq_some_iff.1 hrecord'
  rw [isConnected_settle] at hconnected
  rw [lastGranted_settle] at hlt
  cases hraise : r.raise? stop f with
  | none =>
    rw [hraise] at hlt
    have hsome : r.raise? stop f = some (b.clamp stop) :=
      raise?_eq_some_iff.2 ⟨record, hrecord, hconnected, hlt, b, hb, rfl⟩
    rw [hraise] at hsome
    cases hsome
  | some tag =>
    obtain ⟨-, -, -, -, b', hb', rfl⟩ := raise?_eq_some_iff.1 hraise
    obtain rfl := Option.some.inj (hb.symm.trans hb')
    rw [hraise] at hlt
    exact lt_irrefl _ hlt

/-- What is due to a federate does not change while others are settled. -/
theorem raise?_settled_of_not_mem (h : fs.Nodup) (hf : f ∉ fs) :
    (r.settled stop fs).raise? stop f = r.raise? stop f := by
  unfold raise?
  rw [get?_settled h, if_neg hf, admissibleBound_settled h]

end Settled

/-! ## The result of a sweep -/

/-- The grant that is due to `f`, if there is one. -/
def grant? (r : Registry) (stop : Option Tag) (f : FederateId) : Option Grant :=
  (r.raise? stop f).map fun tag => ⟨f, tag⟩

theorem grant?_eq_some_iff {grant : Grant} : r.grant? stop f = some grant ↔
    grant.federate = f ∧ r.raise? stop f = some grant.tag := by
  unfold grant?
  rw [Option.map_eq_some_iff]
  constructor
  · rintro ⟨tag, htag, rfl⟩
    exact ⟨rfl, htag⟩
  · rintro ⟨rfl, htag⟩
    exact ⟨grant.tag, htag, rfl⟩

theorem sweep_eq (r : Registry) (stop : Option Tag) (seeds : List FederateId) :
    r.sweep stop seeds = (r.settled stop (r.concerned stop seeds),
      (r.concerned stop seeds).filterMap (r.grant? stop)) := by
  unfold sweep
  dsimp only
  rw [List.foldl_map, List.filterMap_map]
  rfl

theorem nodup_concerned (r : Registry) (stop : Option Tag) (seeds : List FederateId) :
    (r.concerned stop seeds).Nodup := Graph.nodup_reach

theorem get?_sweep (r : Registry) (stop : Option Tag) (seeds : List FederateId) (f : FederateId) :
    (r.sweep stop seeds).1.get? f = if f ∈ r.concerned stop seeds
      then (r.get? f).map (settle (r.raise? stop f)) else r.get? f := by
  rw [sweep_eq]
  exact get?_settled (nodup_concerned r stop seeds) r stop f

@[simp] theorem topology_sweep (r : Registry) (stop : Option Tag) (seeds : List FederateId) :
    (r.sweep stop seeds).1.topology = r.topology := by
  rw [sweep_eq]
  exact topology_settled r stop _

@[simp] theorem size_sweep (r : Registry) (stop : Option Tag) (seeds : List FederateId) :
    (r.sweep stop seeds).1.size = r.size := by
  rw [sweep_eq]
  exact size_settled r stop _

theorem mem_grants_sweep {grant : Grant} : grant ∈ (r.sweep stop seeds).2 ↔
    grant.federate ∈ r.concerned stop seeds ∧ r.raise? stop grant.federate = some grant.tag := by
  rw [sweep_eq, List.mem_filterMap]
  constructor
  · rintro ⟨f, hf, hgrant⟩
    obtain ⟨rfl, htag⟩ := grant?_eq_some_iff.1 hgrant
    exact ⟨hf, htag⟩
  · rintro ⟨hf, htag⟩
    exact ⟨grant.federate, hf, grant?_eq_some_iff.2 ⟨rfl, htag⟩⟩

/-- A sweep grants something to each federate at most once. -/
theorem nodup_federates_sweep (r : Registry) (stop : Option Tag) (seeds : List FederateId) :
    ((r.sweep stop seeds).2.map (·.federate)).Nodup := by
  rw [sweep_eq, List.map_filterMap]
  refine List.Nodup.filterMap (fun f g h hf hg => ?_) (nodup_concerned r stop seeds)
  obtain ⟨grant, hgrant, rfl⟩ := Option.map_eq_some_iff.1 hf
  obtain ⟨grant', hgrant', heq⟩ := Option.map_eq_some_iff.1 hg
  rw [← (grant?_eq_some_iff.1 hgrant).1, ← (grant?_eq_some_iff.1 hgrant').1, heq]

@[simp] theorem sweep_nil (r : Registry) (stop : Option Tag) : r.sweep stop [] = (r, []) := by
  have hnil : r.concerned stop [] = [] := by
    unfold concerned Graph.reach
    rw [List.foldl_nil, Graph.Search.expand]
    rfl
  rw [sweep_eq, hnil]
  rfl

/-- A record after a sweep is the record before it, or that record settled at the grant that was
due to it. -/
theorem get?_sweep_eq_some {record' : FederateRecord}
    (h : (r.sweep stop seeds).1.get? f = some record') : ∃ record, r.get? f = some record ∧
      (record' = record ∨
        f ∈ r.concerned stop seeds ∧ record' = settle (r.raise? stop f) record) := by
  rw [get?_sweep] at h
  split at h
  · rename_i hf
    obtain ⟨record, hrecord, rfl⟩ := Option.map_eq_some_iff.1 h
    exact ⟨record, hrecord, Or.inr ⟨hf, rfl⟩⟩
  · exact ⟨record', h, Or.inl rfl⟩

theorem swept_of_get? {record' : FederateRecord}
    (h : (r.sweep stop seeds).1.get? f = some record') :
    ∃ record, r.get? f = some record ∧ record.Swept record' := by
  obtain ⟨record, hrecord, rfl | ⟨-, rfl⟩⟩ := get?_sweep_eq_some h
  · exact ⟨record', hrecord, rfl, rfl, rfl, rfl, fun _ _ => Iff.rfl⟩
  · refine ⟨record, hrecord, ?_⟩
    exact ⟨completed_settle _ _, nextEvent_settle _ _, isConnected_settle _ _,
      effectiveCompleted_settle _ _, fun _ hstate => state_settle_eq_iff _ _ hstate⟩

/-- What a sweep leaves alone, read off all records at once. -/
theorem map_get?_sweep {α : Type} {field : FederateRecord → α}
    (hfield : ∀ granted record, field (settle granted record) = field record) (f : FederateId) :
    ((r.sweep stop seeds).1.get? f).map field = (r.get? f).map field := by
  rw [sweep_eq]
  exact map_get?_settled hfield (nodup_concerned r stop seeds) f

/-! ## Flags of a record -/

section Flag

variable {field : FederateRecord → Bool} {record : FederateRecord}
variable {change : FederateRecord → FederateRecord}

/-- What a record says yes or no to; no, where there is none. -/
def flag (r : Registry) (field : FederateRecord → Bool) (g : FederateId) : Bool :=
  ((r.get? g).map field).getD false

theorem isConnected_eq_flag (r : Registry) (g : FederateId) :
    r.isConnected g = r.flag (·.isConnected) g := rfl

theorem flag_of_get? (hf : r.get? f = some record) : r.flag field f = field record := by
  rw [flag, hf]
  rfl

theorem flag_modify (hf : r.get? f = some record) (g : FederateId) :
    (r.modify f change).flag field g =
      if f = g then field (change record) else r.flag field g := by
  unfold flag
  rw [get?_modify]
  by_cases hfg : f = g
  · subst hfg
    rw [if_pos rfl, if_pos rfl, hf]
    rfl
  · rw [if_neg hfg, if_neg hfg]

theorem flag_modify_of_eq (hf : r.get? f = some record)
    (h : field (change record) = field record) (g : FederateId) :
    (r.modify f change).flag field g = r.flag field g := by
  rw [flag_modify hf]
  split
  · rename_i hfg
    rw [h, ← hfg, flag_of_get? hf]
  · rfl

theorem flag_sweep (h : ∀ granted record, field (settle granted record) = field record)
    (r : Registry) (stop : Option Tag) (seeds : List FederateId) (g : FederateId) :
    (r.sweep stop seeds).1.flag field g = r.flag field g := by
  unfold flag
  rw [map_get?_sweep h]

/-- Whether `f` has left, and not come back. -/
def hasLeft (r : Registry) (f : FederateId) : Bool :=
  r.flag (fun record => record.state = .resigned) f

theorem hasLeft_sweep (r : Registry) (stop : Option Tag) (seeds : List FederateId)
    (g : FederateId) : (r.sweep stop seeds).1.hasLeft g = r.hasLeft g := by
  refine flag_sweep (fun granted record => ?_) r stop seeds g
  exact decide_eq_decide.2 (state_settle_eq_iff granted record (by decide))

theorem not_isConnected_of_hasLeft (h : r.hasLeft f = true) : r.isConnected f = false := by
  refine eq_false_of_ne_true fun hconnected => ?_
  obtain ⟨record, hf, hconnected⟩ := exists_of_isConnected hconnected
  rw [hasLeft, flag_of_get? hf] at h
  exact FederateRecord.not_connected_of_resigned (of_decide_eq_true h) hconnected

end Flag

/-! ## After a sweep -/

@[simp] theorem admissibleBound_sweep (r : Registry) (stop : Option Tag) (seeds : List FederateId)
    (f : FederateId) : (r.sweep stop seeds).1.admissibleBound f = r.admissibleBound f := by
  rw [sweep_eq]
  exact admissibleBound_settled (nodup_concerned r stop seeds) r stop f

/-- A sweep leaves the last grant of a federate, or raises it to its clamped bound. -/
theorem lastGranted_sweep {record' : FederateRecord}
    (h : (r.sweep stop seeds).1.get? f = some record') : ∃ record, r.get? f = some record ∧
      (record'.lastGranted = record.lastGranted ∨ record.lastGranted < record'.lastGranted ∧
        ∃ b, r.admissibleBound f = some b ∧ record'.lastGranted = b.clamp stop) := by
  obtain ⟨record, hrecord, rfl | ⟨-, rfl⟩⟩ := get?_sweep_eq_some h
  · exact ⟨record', hrecord, Or.inl rfl⟩
  · refine ⟨record, hrecord, ?_⟩
    rw [lastGranted_settle]
    cases hraise : r.raise? stop f with
    | none => exact Or.inl rfl
    | some tag =>
      obtain ⟨record'', hrecord'', -, hlt, hbound⟩ := raise?_eq_some_iff.1 hraise
      obtain rfl := Option.some.inj (hrecord.symm.trans hrecord'')
      exact Or.inr ⟨hlt, hbound⟩

theorem le_lastGranted_sweep {record record' : FederateRecord} (hf : r.get? f = some record)
    (hf' : (r.sweep stop seeds).1.get? f = some record') :
    record.lastGranted ≤ record'.lastGranted := by
  obtain ⟨record'', hf'', hgrant⟩ := lastGranted_sweep hf'
  obtain rfl := Option.some.inj (hf.symm.trans hf'')
  rcases hgrant with hsame | ⟨hlt, -⟩
  · exact le_of_eq hsame.symm
  · exact le_of_lt hlt

/-- Nothing is due any more to a joined federate among the seeds. -/
theorem clamp_le_lastGranted_of_mem {record' : FederateRecord} {b : Tag} (hf : f ∈ seeds)
    (h : (r.sweep stop seeds).1.get? f = some record') (hconnected : record'.isConnected)
    (hbound : r.admissibleBound f = some b) : b.clamp stop ≤ record'.lastGranted := by
  have hsize : f.index < r.size := by
    rw [← size_sweep r stop seeds]
    exact Roster.index_lt_of_get? h
  have hnone : (r.sweep stop seeds).1.raise? stop f = none := by
    rw [sweep_eq]
    exact raise?_settled_of_mem (nodup_concerned r stop seeds) (Graph.mem_reach hsize hf)
  rw [← admissibleBound_sweep r stop seeds] at hbound
  by_contra hlt
  have hsome := raise?_eq_some_iff.2 ⟨record', h, hconnected, not_le.1 hlt, b, hbound, rfl⟩
  rw [hnone] at hsome
  cases hsome

end Registry

end FederatedTime
