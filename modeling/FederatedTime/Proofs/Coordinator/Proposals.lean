import FederatedTime.Proofs.Coordinator.History
import FederatedTime.Proofs.Coordinator.Notices

/-!
# Proposals of a start time

What a history tells about starting, read off its events and off who has left, without a look at the
negotiation itself: who has proposed what on which connection, and from when on nobody is left to
wait for (`StartDue`). `StartNegotiation.noting` is the negotiation that has noted proposals; it has
a time to fix as soon as nobody is left (`due?_noting_ne_none_iff`), and that time follows from the
latest proposal (`due?_noting_spec`).
-/

namespace FederatedTime

/-! ## Proposals in a history -/

/-- A start time that a federate proposes on a connection. -/
structure StartProposal where
  federate : FederateId
  connection : ConnectionId
  time : Int64
deriving DecidableEq

/-- The start time that is proposed in an event. -/
def Event.startTime? : Event → Option Int64
  | messageReceived _ (.timestamp time) => some time
  | _ => none

/-- What the federate that is joined where an event comes from proposes. -/
def Moment.startProposal? (m : Moment) (before : Coordinator) : Option StartProposal := do
  let c ← m.event.connection?
  let f ← before.federateOf c
  let time ← m.event.startTime?
  pure ⟨f, c, time⟩

/-- All proposals in a history from `s` on. -/
def startProposals (s : Coordinator) (history : List Moment) : List StartProposal :=
  gather Moment.startProposal? s history

/-- Somebody has proposed a start time, and everybody has or has left. -/
structure StartDue (s : Coordinator) (history : List Moment) : Prop where
  proposed : startProposals s history ≠ []
  complete : ∀ f, s.registry.topology.contains f →
    (∃ p ∈ startProposals s history, p.federate = f) ∨ (lastState s history).registry.hasLeft f

/-! ## Noting proposals -/

namespace StartNegotiation

/-- The negotiation with more proposals in it, one after the other. -/
def noteAll (s : StartNegotiation) (proposals : List StartProposal) : StartNegotiation :=
  proposals.foldl (fun s p => s.note p.federate p.time) s

/-- The negotiation among `n` federates that has noted proposals. -/
def noting (n : Nat) (proposals : List StartProposal) : StartNegotiation :=
  (start n).noteAll proposals

/-- The start time that is to be fixed. -/
def due? (s : StartNegotiation) (r : Registry) : Option Int64 :=
  if s.isComplete r then s.greatest.map startAfter else none

theorem tryFix_eq (s : StartNegotiation) (r : Registry) : s.tryFix r =
    match s.due? r with
    | some time => ({ s with startTime := some time }, .fixed time)
    | none => (s, .waiting) := by
  unfold tryFix due?
  cases s.isComplete r <;> cases s.greatest <;> rfl

theorem startTime_tryFix {s : StartNegotiation} (h : s.startTime = none) (r : Registry) :
    (s.tryFix r).1.startTime = s.due? r := by
  rw [tryFix_eq]
  cases s.due? r with
  | none => exact h
  | some time => rfl

variable {n : Nat} {proposals : List StartProposal} {f : FederateId} {time : Int64} {r : Registry}

theorem noting_append (n : Nat) (proposals more : List StartProposal) :
    noting n (proposals ++ more) = (noting n proposals).noteAll more :=
  List.foldl_append

theorem noting_append_singleton (n : Nat) (proposals : List StartProposal) (p : StartProposal) :
    noting n (proposals ++ [p]) = (noting n proposals).note p.federate p.time :=
  noting_append n proposals [p]

theorem startTime_noteAll (s : StartNegotiation) (proposals : List StartProposal) :
    (s.noteAll proposals).startTime = s.startTime := by
  induction proposals generalizing s with
  | nil => rfl
  | cons p proposals ih => exact ih (s.note p.federate p.time)

theorem size_noting (n : Nat) (proposals : List StartProposal) :
    (noting n proposals).proposed.size = n := by
  induction proposals using List.reverseRecOn with
  | nil => exact Roster.size_replicate n false
  | append_singleton proposals p ih =>
    rw [noting_append_singleton]
    exact (Roster.size_set _ _ _).trans ih

/-- A configured federate has proposed if one of the proposals is its own. -/
theorem getD_proposed_noting (hf : f.index < n) :
    (noting n proposals).proposed.getD f false = true ↔ ∃ p ∈ proposals, p.federate = f := by
  induction proposals using List.reverseRecOn with
  | nil =>
    unfold noting noteAll start Roster.getD
    simp [Roster.get?_replicate, hf]
  | append_singleton proposals p ih =>
    have hsize : p.federate = f →
        p.federate.index < (noting n proposals).proposed.size := fun heq => by
      rw [heq, size_noting]
      exact hf
    rw [noting_append_singleton]
    unfold note Roster.getD at *
    simp only [List.mem_append, List.mem_singleton, or_and_right, exists_or, exists_eq_left]
    by_cases hp : p.federate = f
    · have hset := Roster.get?_set_self (a := true) (hsize hp)
      rw [hp] at hset
      rw [hp, hset]
      simp
    · rw [Roster.get?_set_ne hp, ih]
      simp [hp]

theorem greatest_noting_ne_none_iff : (noting n proposals).greatest ≠ none ↔ proposals ≠ [] := by
  induction proposals using List.reverseRecOn with
  | nil => simp [noting, noteAll, start]
  | append_singleton proposals p ih =>
    rw [noting_append_singleton]
    simp [note]

/-- The greatest proposal is one of them, and none is later. -/
theorem greatest_noting_spec (h : (noting n proposals).greatest = some time) :
    ∃ p ∈ proposals, p.time = time ∧ ∀ q ∈ proposals, q.time ≤ p.time := by
  induction proposals using List.reverseRecOn generalizing time with
  | nil => cases h
  | append_singleton proposals p ih =>
    rw [noting_append_singleton] at h
    unfold note at h
    cases hgreatest : (noting n proposals).greatest with
    | none =>
      have hnil : proposals = [] := by
        by_contra hne
        exact greatest_noting_ne_none_iff.2 hne hgreatest
      rw [hgreatest] at h
      subst hnil
      exact ⟨p, by simp, Option.some.inj h, by simp⟩
    | some greatest =>
      obtain ⟨q, hq, hqtime, hle⟩ := ih hgreatest
      rw [hgreatest] at h
      have htime : (if greatest ≤ p.time then p.time else greatest) = time := Option.some.inj h
      by_cases hlater : greatest ≤ p.time
      · rw [if_pos hlater] at htime
        refine ⟨p, by simp, htime, fun q' hq' => ?_⟩
        rcases List.mem_append.1 hq' with hq' | hq'
        · exact Int64.le_trans (hle q' hq') (hqtime ▸ hlater)
        · rw [List.mem_singleton.1 hq']
          exact Int64.le_refl _
      · rw [if_neg hlater] at htime
        refine ⟨q, List.mem_append_left _ hq, hqtime.trans htime, fun q' hq' => ?_⟩
        rcases List.mem_append.1 hq' with hq' | hq'
        · exact hle q' hq'
        · rw [List.mem_singleton.1 hq', hqtime]
          exact (Int64.le_total _ _).resolve_left hlater

/-! ## Fixing the time -/

/-- The start time is a second after the greatest proposal, or as late as there are times. -/
theorem toInt_startAfter (time : Int64) :
    (startAfter time).toInt = min (time.toInt + 1000000000) 9223372036854775807 := by
  have hdelay : Defaults.startDelay.nanos.toInt = 1000000000 := by decide +kernel
  have hleast := time.minValue_le_toInt
  have hmin : Int64.minValue.toInt = -9223372036854775808 := by decide
  unfold startAfter Nanoseconds.saturate Nanoseconds.least Nanoseconds.greatest
  rw [hdelay, Int64.toInt_ofInt_of_le (by omega) (by omega)]
  omega

theorem isComplete_iff (s : StartNegotiation) (hsize : r.size ≤ Topology.maxFederates)
    (hid : ∀ f record, r.get? f = some record → record.id = f) : s.isComplete r = true ↔
      ∀ f, f.index < r.size → s.proposed.getD f false = true ∨ r.hasLeft f = true := by
  unfold isComplete
  rw [List.all_eq_true, Roster.toList_eq_filterMap hsize]
  constructor
  · intro h f hf
    obtain ⟨record, hrecord⟩ := Roster.exists_get?_of_index_lt hf
    have hget : r.get? f = some record := hrecord
    have hall := h record (List.mem_filterMap.2 ⟨f, FederateId.mem_firstIds hf, hrecord⟩)
    rw [hid f record hget, Bool.or_eq_true] at hall
    rw [Registry.hasLeft, Registry.flag_of_get? hget]
    exact hall
  · intro h record hrecord
    obtain ⟨f, -, hf⟩ := List.mem_filterMap.1 hrecord
    have hget : r.get? f = some record := hf
    have hall := h f (Roster.index_lt_of_get? hf)
    rw [Registry.hasLeft, Registry.flag_of_get? hget] at hall
    rw [hid f record hget, Bool.or_eq_true]
    exact hall

/-- Whether the federate of a record has proposed or left. -/
def isIn (s : StartNegotiation) (record : FederateRecord) : Bool :=
  s.proposed.getD record.id false || record.state = .resigned

theorem isIn_settle (s : StartNegotiation) (granted : Option Tag) (record : FederateRecord) :
    s.isIn (Registry.settle granted record) = s.isIn record := by
  unfold isIn
  rw [Registry.id_settle]
  congr 1
  exact decide_eq_decide.2 (Registry.state_settle_eq_iff granted record (by decide))

theorem isComplete_eq_all (s : StartNegotiation) (r : Registry) :
    s.isComplete r = (r.records.toList.map s.isIn).all id := by
  rw [List.all_map]
  rfl

/-- A sweep makes no difference to whom the negotiation waits for. -/
theorem isComplete_sweep (s : StartNegotiation) (hsize : r.size ≤ Topology.maxFederates)
    (stop : Option Tag) (seeds : List FederateId) :
    s.isComplete (r.sweep stop seeds).1 = s.isComplete r := by
  rw [isComplete_eq_all, isComplete_eq_all, Registry.map_toList_sweep s.isIn_settle hsize]

theorem due?_sweep (s : StartNegotiation) (hsize : r.size ≤ Topology.maxFederates)
    (stop : Option Tag) (seeds : List FederateId) :
    s.due? (r.sweep stop seeds).1 = s.due? r := by
  unfold due?
  rw [isComplete_sweep s hsize]

/-- A time is due once there is a proposal, and everybody has one or has left. -/
theorem due?_noting_ne_none_iff (hsize : r.size ≤ Topology.maxFederates)
    (hid : ∀ f record, r.get? f = some record → record.id = f) :
    (noting r.size proposals).due? r ≠ none ↔ proposals ≠ [] ∧
      ∀ f, f.index < r.size → (∃ p ∈ proposals, p.federate = f) ∨ r.hasLeft f = true := by
  have hcomplete : (noting r.size proposals).isComplete r = true ↔
      ∀ f, f.index < r.size → (∃ p ∈ proposals, p.federate = f) ∨ r.hasLeft f = true := by
    rw [isComplete_iff _ hsize hid]
    refine forall_congr' fun f => imp_congr_right fun hf => ?_
    rw [getD_proposed_noting hf]
  unfold due?
  rw [← hcomplete, ← greatest_noting_ne_none_iff (n := r.size)]
  cases (noting r.size proposals).isComplete r <;> simp

/-- The time that is due is a second after the latest proposal. -/
theorem due?_noting_spec (h : (noting n proposals).due? r = some time) :
    ∃ p ∈ proposals, (∀ q ∈ proposals, q.time ≤ p.time) ∧
      time.toInt = min (p.time.toInt + 1000000000) 9223372036854775807 := by
  unfold due? at h
  split at h
  · obtain ⟨greatest, hgreatest, rfl⟩ := Option.map_eq_some_iff.1 h
    obtain ⟨p, hp, rfl, hle⟩ := greatest_noting_spec hgreatest
    exact ⟨p, hp, hle, toInt_startAfter p.time⟩
  · cases h

end StartNegotiation

end FederatedTime
