import FederatedTime.Coordinator.StopNegotiation
import FederatedTime.Proofs.Time.Order

/-!
# The stop negotiation by itself

An open round with nobody left to answer is over, so that both are `StopNegotiation.awaiting`: an
answer that is awaited raises the candidate and takes its federate out of the pending ones, and any
other answer changes nothing.
-/

namespace FederatedTime

/-! ## Sets of federates -/

namespace FederateSet

theorem mem_foldl_insert {l : List FederateId} {s : FederateSet} {g : FederateId} :
    g ∈ l.foldl insert s ↔ g ∈ s ∨ g ∈ l := by
  induction l generalizing s with
  | nil => simp
  | cons f l ih =>
    rw [List.foldl_cons, ih, mem_insert, List.mem_cons]
    grind

theorem mem_ofList {l : List FederateId} {g : FederateId} : g ∈ ofList l ↔ g ∈ l := by
  have hempty : g ∉ empty := List.not_mem_nil
  unfold ofList
  rw [mem_foldl_insert, or_iff_right hempty]

theorem isEmpty_iff {s : FederateSet} : s.isEmpty = true ↔ ∀ g, g ∉ s :=
  List.isEmpty_iff.trans List.eq_nil_iff_forall_not_mem

theorem nodup_toList (s : FederateSet) : s.toList.Nodup := by
  refine List.Pairwise.imp ?_ s.ascending
  intro f g hlt heq
  rw [heq] at hlt
  exact Nat.lt_irrefl g.index hlt

end FederateSet

/-! ## Counting answers -/

namespace StopNegotiation

variable {candidate tag agreed : Tag} {pending : FederateSet} {f : FederateId} {l : List FederateId}

/-- The round with the given federates still to answer, which is over when there are none. -/
def awaiting (candidate : Tag) (pending : FederateSet) : StopNegotiation :=
  if pending.isEmpty then granted candidate else negotiating candidate pending

theorem awaiting_of_mem (h : f ∈ pending) :
    awaiting candidate pending = negotiating candidate pending :=
  if_neg fun hempty => FederateSet.isEmpty_iff.1 hempty f h

theorem awaiting_of_forall_not_mem (h : ∀ f, f ∉ pending) :
    awaiting candidate pending = granted candidate :=
  if_pos (FederateSet.isEmpty_iff.2 h)

theorem awaiting_ne_idle : awaiting candidate pending ≠ idle := by
  unfold awaiting
  split <;> simp

theorem exists_awaiting_eq_granted_iff :
    (∃ tag, awaiting candidate pending = granted tag) ↔ ∀ g, g ∉ pending := by
  constructor
  · rintro ⟨tag, htag⟩ g hg
    rw [awaiting_of_mem hg] at htag
    cases htag
  · intro hempty
    exact ⟨candidate, awaiting_of_forall_not_mem hempty⟩

theorem fold_idle (f : FederateId) (tag : Tag) : idle.fold f tag = (idle, .ignored) := rfl

theorem fold_awaiting_of_mem (h : f ∈ pending) (tag : Tag) :
    ((awaiting candidate pending).fold f tag).1 =
      awaiting (max candidate tag) (pending.erase f) := by
  rw [awaiting_of_mem h]
  unfold fold awaiting
  dsimp only
  rw [if_pos h]
  split <;> rfl

theorem fold_awaiting_of_not_mem (h : f ∉ pending) (tag : Tag) :
    (awaiting candidate pending).fold f tag = (awaiting candidate pending, .ignored) := by
  unfold awaiting
  split
  · rfl
  · exact if_neg h

theorem fold_ne_forward (n : StopNegotiation) (f : FederateId) (tag : Tag) (l : List FederateId)
    (proposal : Tag) : (n.fold f tag).2 ≠ .forward l proposal := by
  unfold fold
  split
  · dsimp only
    split
    · split <;> simp
    · simp
  · simp

/-- Once a round has been opened, a request is only an answer to the first one. -/
theorem request_eq_fold {n : StopNegotiation} (h : n ≠ idle) (f : FederateId) (tag : Tag)
    (l : List FederateId) : n.request f tag l = n.fold f tag := by
  cases n with
  | idle => exact absurd rfl h
  | negotiating | granted => rfl

theorem request_idle (f : FederateId) (tag : Tag) (l : List FederateId) :
    (idle.request f tag l).1 = awaiting tag (.ofList (l.filter (· ≠ f))) := by
  unfold request awaiting
  dsimp only
  split <;> rfl

theorem request_idle_snd {g : FederateId} (h : g ∈ FederateSet.ofList (l.filter (· ≠ f))) :
    (idle.request f tag l).2 = .forward (FederateSet.ofList (l.filter (· ≠ f))).toList tag := by
  unfold request
  dsimp only
  split
  · rename_i hempty
    exact absurd h (FederateSet.isEmpty_iff.1 hempty g)
  · rfl

/-! ## Phases -/

/-- The negotiation goes from idle over negotiating to granted, and goes past negotiating at once if
whoever asks is alone. -/
inductive Moves (alone : Prop) : StopNegotiation → StopNegotiation → Prop
  | stays (n : StopNegotiation) : Moves alone n n
  | opens (h : ¬ alone) (candidate : Tag) (pending : FederateSet) :
    Moves alone idle (negotiating candidate pending)
  | counts (candidate candidate' : Tag) (pending pending' : FederateSet) :
    Moves alone (negotiating candidate pending) (negotiating candidate' pending')
  | closes (candidate tag : Tag) (pending : FederateSet) :
    Moves alone (negotiating candidate pending) (granted tag)
  | agrees (h : alone) (tag : Tag) : Moves alone idle (granted tag)

theorem moves_fold (alone : Prop) (n : StopNegotiation) (f : FederateId) (tag : Tag) :
    n.Moves alone (n.fold f tag).1 := by
  cases n with
  | idle => exact .stays idle
  | granted agreed => exact .stays (granted agreed)
  | negotiating candidate pending =>
    unfold fold
    dsimp only
    split
    · split
      · exact .closes candidate _ pending
      · exact .counts candidate _ pending _
    · exact .stays (negotiating candidate pending)

/-- A tag is agreed when there is one and there was none. -/
theorem fold_eq_agreed_iff (n : StopNegotiation) (f : FederateId) (tag agreed : Tag) :
    (n.fold f tag).2 = .agreed agreed ↔
      n.stopTag = none ∧ (n.fold f tag).1.stopTag = some agreed := by
  cases n with
  | idle | granted => simp [fold, stopTag]
  | negotiating candidate pending =>
    unfold fold
    dsimp only
    split
    · split <;> simp [stopTag]
    · simp [stopTag]

theorem request_eq_agreed_iff (n : StopNegotiation) (f : FederateId) (tag agreed : Tag)
    (l : List FederateId) : (n.request f tag l).2 = .agreed agreed ↔
      n.stopTag = none ∧ (n.request f tag l).1.stopTag = some agreed := by
  cases n with
  | idle =>
    unfold request
    dsimp only
    split <;> simp [stopTag]
  | negotiating | granted => exact fold_eq_agreed_iff _ f tag agreed

end StopNegotiation

end FederatedTime
