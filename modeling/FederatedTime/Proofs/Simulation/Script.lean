import FederatedTime.Proofs.Time.Order
import FederatedTime.Simulation.Script

/-!
# What scripted federates answer

Once it has left, a federate answers nothing (`onMessage_of_done`). A grant lets a federate process
the tags in front of its list that are not above it. If there are none, the federate takes note of
the grant and waits on (`onGrant_of_lt`); otherwise it reports each of them and announces what is
next (`onGrant_of_ready`).
-/

namespace FederatedTime.Simulation

/-- The outputs by which a federate leaves. -/
def Ending.outputs : Ending → List Output
  | .resign => [.send .resign, .disconnect]
  | .disconnect => [.disconnect]

theorem Ending.outputs_ne_nil (e : Ending) : e.outputs ≠ [] := by
  cases e <;> nofun

namespace ScriptedFederate

variable {f : ScriptedFederate} {grant : Tag}

theorem onMessage_of_done (h : f.done = true) (message : Message) (now : Int64) :
    f.onMessage message now = (f, []) :=
  if_pos h

theorem finish_eq (h : f.done = false) :
    f.finish = ({ f with done := true }, f.ending.outputs) := by
  unfold finish
  rw [h]
  cases f.ending <;> rfl

theorem announce_of_cons {next : Tag} {rest : List Tag} (h : f.pending = next :: rest) :
    f.announce = (f, [.send (.nextEventTag next)]) := by
  unfold announce
  rw [h]

theorem announce_eq_finish (h : f.pending = []) : f.announce = f.finish := by
  unfold announce
  rw [h]

section Undone

variable (h : f.done = false) (now : Int64)
include h

theorem onMessage_ack (port : Option UInt16) : f.onMessage (.ack port) now =
    (({ f with joined := true } : ScriptedFederate).announce.1,
      .send (.timestamp now) :: ({ f with joined := true } : ScriptedFederate).announce.2) :=
  if_neg (h ▸ Bool.false_ne_true)

theorem onMessage_timestamp (start : Int64) :
    f.onMessage (.timestamp start) now = ({ f with startTime := some start }, []) :=
  if_neg (h ▸ Bool.false_ne_true)

theorem onMessage_grant (tag : Tag) :
    f.onMessage (.timeAdvanceGrant tag) now = f.onGrant tag :=
  if_neg (h ▸ Bool.false_ne_true)

theorem onMessage_stopRequest (time : Int64) : f.onMessage (.stopRequest time) now =
    (f, [.send (.stopRequestReply (f.stopProposal time))]) :=
  if_neg (h ▸ Bool.false_ne_true)

theorem onMessage_stopGranted (time : Int64) :
    f.onMessage (.stopGranted time) now = f.onStop (.ofTime time) :=
  if_neg (h ▸ Bool.false_ne_true)

end Undone

/-! ## Grants -/

/-- The tags in front of the list that are not above a grant. -/
def ready (f : ScriptedFederate) (grant : Tag) : List Tag := f.pending.takeWhile (· ≤ grant)

/-- What the federate reports of tags that it processes. -/
def reports (f : ScriptedFederate) (tags : List Tag) : List Output :=
  (tags.zipIdx (f.processed + 1)).flatMap fun (tag, count) => f.report tag count

/-- The federate after it has processed what a grant allows. -/
def advanced (f : ScriptedFederate) (grant : Tag) : ScriptedFederate :=
  { f with
    lastGrant := grant
    pending := f.pending.drop (f.ready grant).length
    processed := f.processed + (f.ready grant).length
    completed := (f.ready grant).getLast?.getD f.completed }

theorem pending_advanced (f : ScriptedFederate) (grant : Tag) :
    (f.advanced grant).pending = f.pending.dropWhile (· ≤ grant) := by
  show f.pending.drop (f.pending.takeWhile (· ≤ grant)).length = _
  calc f.pending.drop (f.pending.takeWhile (· ≤ grant)).length
      = (f.pending.takeWhile (· ≤ grant) ++ f.pending.dropWhile (· ≤ grant)).drop
          (f.pending.takeWhile (· ≤ grant)).length := by rw [List.takeWhile_append_dropWhile]
    _ = f.pending.dropWhile (· ≤ grant) := List.drop_left

theorem ready_append_pending (f : ScriptedFederate) (grant : Tag) :
    f.ready grant ++ (f.advanced grant).pending = f.pending := by
  rw [pending_advanced]
  exact List.takeWhile_append_dropWhile

theorem ready_ne_nil {next : Tag} {rest : List Tag} (h : f.pending = next :: rest)
    (hle : next ≤ grant) : f.ready grant ≠ [] := by
  rw [ready, h, List.takeWhile_cons_of_pos (by simpa using hle)]
  exact List.cons_ne_nil _ _

/-- What is left after a grant begins above it. -/
theorem lt_of_pending_advanced {next : Tag} {rest : List Tag}
    (h : (f.advanced grant).pending = next :: rest) : grant < next := by
  have hnot := List.head?_dropWhile_not (fun tag : Tag => decide (tag ≤ grant)) f.pending
  rw [← pending_advanced, h] at hnot
  exact not_le.1 (of_decide_eq_false hnot)

/-- Of rising tags, every one that a grant covers is ready. -/
theorem mem_ready {tag : Tag} (hsorted : f.pending.Pairwise (· < ·)) (htag : tag ∈ f.pending)
    (hle : tag ≤ grant) : tag ∈ f.ready grant := by
  rw [← f.ready_append_pending grant] at hsorted htag
  rcases List.mem_append.1 htag with hready | hleft
  · exact hready
  · obtain ⟨next, rest, hpending⟩ := List.exists_cons_of_ne_nil (List.ne_nil_of_mem hleft)
    have hrising := (List.pairwise_append.1 hsorted).2.1
    rw [hpending] at hrising hleft
    have hfirst : next ≤ tag := by
      rcases List.mem_cons.1 hleft with rfl | hlater
      · exact le_rfl
      · exact ((List.pairwise_cons.1 hrising).1 tag hlater).le
    exact absurd (lt_of_pending_advanced hpending) (hfirst.trans hle).not_gt

theorem onGrant_eq (f : ScriptedFederate) (grant : Tag) : f.onGrant grant =
    let answer := if (f.ready grant).isEmpty ∧ !(f.advanced grant).pending.isEmpty
      then (f.advanced grant, []) else (f.advanced grant).announce
    (answer.1, f.reports (f.ready grant) ++ answer.2) := rfl

theorem onGrant_of_lt {next : Tag} {rest : List Tag} (h : f.pending = next :: rest)
    (hlt : grant < next) : f.onGrant grant = ({ f with lastGrant := grant }, []) := by
  have hready : f.pending.takeWhile (· ≤ grant) = [] := by
    rw [h, List.takeWhile_cons_of_neg]
    simpa using hlt
  unfold onGrant
  rw [hready, h]
  simp

theorem onGrant_of_ready (h : f.ready grant ≠ []) :
    f.onGrant grant = ((f.advanced grant).announce.1,
      f.reports (f.ready grant) ++ (f.advanced grant).announce.2) := by
  have hnot : ¬ ((f.ready grant).isEmpty ∧ !(f.advanced grant).pending.isEmpty) :=
    fun hboth => h (List.isEmpty_iff.1 hboth.1)
  rw [onGrant_eq]
  dsimp only
  rw [if_neg hnot]

end ScriptedFederate

end FederatedTime.Simulation
