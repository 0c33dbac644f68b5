import FederatedTime.Coordinator.Advance

/-!
# Propagation of grants

`Registry.propagate` makes the grants of a sweep one by one. It takes the federates from a queue,
settles each at what the registry allows at that moment, and queues those downstream of a federate
that has been granted something. A federate that has had its turn may be queued again.

Every grant raises the last grant of one federate, and there are only finitely many tags to raise it
to, so the queue runs empty in the end.
-/

namespace FederatedTime

/-- The federates that are still to have their turn. -/
structure Worklist where
  /-- Whether a federate stands in the queue. -/
  queued : Roster Bool
  /-- The federates in the queue, the next one first. -/
  queue : List FederateId

namespace Worklist

def empty (n : Nat) : Worklist := ⟨.replicate n false, []⟩

/-- The worklist with `f` at the end of the queue, unless it stands there or is out of range. -/
def push (w : Worklist) (f : FederateId) : Worklist :=
  if w.queued.get? f = some false then ⟨w.queued.set f true, w.queue ++ [f]⟩ else w

end Worklist

/-- How many tags there are above a tag. -/
def Tag.headroom (t : Tag) : Nat :=
  (Int64.maxValue.toInt - t.time.toInt).toNat * 4294967296 + (4294967295 - t.microstep.toNat)

theorem Tag.headroom_lt {a b : Tag} (h : a < b) : b.headroom < a.headroom := by
  have hlt : a.time.toInt < b.time.toInt ∨
      a.time.toInt = b.time.toInt ∧ a.microstep.toNat < b.microstep.toNat :=
    h.imp Int64.lt_iff_toInt_lt.1 fun ⟨htime, hstep⟩ => ⟨congrArg _ htime, hstep⟩
  have htime : b.time.toInt ≤ Int64.maxValue.toInt := b.time.toInt_le
  have hstep : b.microstep.toNat < 4294967296 := b.microstep.toNat_lt
  have hstep' : a.microstep.toNat < 4294967296 := a.microstep.toNat_lt
  unfold headroom
  omega

namespace Registry

/-- How many tags there are above the last grants of all federates. -/
def headroom (r : Registry) : Nat := r.records.total (·.lastGranted.headroom)

theorem lastGranted_lt_of_raise? {r : Registry} {stop : Option Tag} {f : FederateId} {tag : Tag}
    (h : r.raise? stop f = some tag) :
    ∃ record, r.get? f = some record ∧ record.lastGranted < tag := by
  obtain ⟨record, hrecord, h⟩ := Option.bind_eq_some_iff.1 h
  refine ⟨record, hrecord, ?_⟩
  split at h
  · obtain ⟨bound, -, h⟩ := Option.bind_eq_some_iff.1 h
    dsimp only at h
    split at h
    · rename_i hlt
      exact Option.some.inj h ▸ hlt
    · cases h
  · cases h

theorem headroom_settle_none {r : Registry} {f : FederateId} (h : r.isConnected f = true) :
    (r.modify f (settle none)).headroom = r.headroom := by
  obtain ⟨record, hf, -⟩ := exists_of_isConnected h
  have htotal := Roster.total_modify hf (·.lastGranted.headroom) (settle none)
  rw [lastGranted_settle] at htotal
  exact Nat.add_right_cancel htotal

theorem headroom_settle_some {r : Registry} {stop : Option Tag} {f : FederateId} {tag : Tag}
    (h : r.raise? stop f = some tag) : (r.modify f (settle (some tag))).headroom < r.headroom := by
  obtain ⟨record, hf, hlt⟩ := lastGranted_lt_of_raise? h
  have htotal := Roster.total_modify hf (·.lastGranted.headroom) (settle (some tag))
  rw [lastGranted_settle] at htotal
  have hheadroom : tag.headroom < record.lastGranted.headroom := Tag.headroom_lt hlt
  unfold headroom modify
  dsimp only [Option.getD_some] at htotal ⊢
  omega

/-- Give each federate in the queue its turn. -/
def propagateFrom (stop : Option Tag) (r : Registry) : Worklist → Registry × List Grant
  | ⟨_, []⟩ => (r, [])
  | ⟨queued, f :: queue⟩ =>
    let w : Worklist := ⟨queued.set f false, queue⟩
    if _hf : r.isConnected f then
      match _htag : r.raise? stop f with
      | some tag =>
        let (r', grants) := propagateFrom stop (r.modify f (settle (some tag)))
          ((r.topology.downstream f).foldl .push w)
        (r', ⟨f, tag⟩ :: grants)
      | none => propagateFrom stop (r.modify f (settle none)) w
    else propagateFrom stop r w
termination_by w => (r.headroom, w.queue.length)
decreasing_by
  · exact Prod.Lex.left _ _ (headroom_settle_some _htag)
  · rw [headroom_settle_none _hf]
    exact Prod.Lex.right _ (Nat.lt_succ_self _)
  · exact Prod.Lex.right _ (Nat.lt_succ_self _)

/-- Make all grants that follow from a change to the `seeds`, none of them past `stop`, one by
one. -/
def propagate (r : Registry) (stop : Option Tag) (seeds : List FederateId) :
    Registry × List Grant :=
  r.propagateFrom stop (seeds.foldl .push (.empty r.size))

end Registry

end FederatedTime
