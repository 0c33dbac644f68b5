import FederatedTime.Proofs.Simulation.Script
import Mathlib.Data.List.Basic
import Mathlib.Data.List.TakeWhile

/-!
# What federates do in answer to a message

In answer to a message, a federate that has not left makes its remarks, reports the tags in front of
its list that a grant covers (`ScriptedFederate.due`), and waits, announces what is next or leaves
(`ScriptedFederate.Response`). It waits only if it has not gone on, and is not at its end. A stop
that it is told of cuts its list off, and nothing else changes how far it is.
-/

namespace FederatedTime

/-- The stop that a message tells of. -/
def Message.agreedStop? : Message → Option Tag
  | stopGranted time => some (.ofTime time)
  | _ => none

/-- The start time that a message tells of. -/
def Message.startTime? : Message → Option Int64
  | timestamp time => some time
  | _ => none

/-- Whether a federate leaves after a message when it has nothing in front of it. -/
def Message.mayEnd : Message → Bool
  | ack _ | timeAdvanceGrant _ | stopGranted _ => true
  | _ => false

namespace Simulation

namespace ScriptedFederate

variable {f : ScriptedFederate} {message : Message} {answer : ScriptedFederate × List Output}
variable {closing : List Output} {now : Int64}

/-- The tags that a federate completes in answer to a message. -/
def due (f : ScriptedFederate) : Message → List Tag
  | .timeAdvanceGrant grant => f.ready grant
  | _ => []

/-- Whether a federate goes on to its next tag: it has just joined, or it completes some tags. -/
def GoesOn (f : ScriptedFederate) (message : Message) : Prop :=
  f.due message ≠ [] ∨ ∃ port, message = .ack port

theorem not_goesOn (hdue : f.due message = []) (hack : ∀ port, message ≠ .ack port) :
    ¬ f.GoesOn message := by
  rintro (hsome | ⟨port, rfl⟩)
  · exact hsome hdue
  · exact hack port rfl

theorem le_of_mem_due {tag : Tag} (h : tag ∈ f.due message) :
    ∃ grant, message = .timeAdvanceGrant grant ∧ tag ≤ grant := by
  cases message with
  | timeAdvanceGrant grant =>
    exact ⟨grant, rfl,
      of_decide_eq_true (List.mem_takeWhile_imp (p := fun tag => decide (tag ≤ grant)) h)⟩
  | _ => cases h

/-- What a federate says to a message before it says anything about its tags. -/
def remarks (f : ScriptedFederate) (message : Message) (now : Int64) : List Output :=
  match message with
  | .ack _ => [.send (.timestamp now)]
  | .stopRequest time => [.send (.stopRequestReply (f.stopProposal time))]
  | _ => []

theorem eq_of_mem_remarks {output : Output} (h : output ∈ f.remarks message now) :
    (∃ time, output = .send (.timestamp time)) ∨
      ∃ time, output = .send (.stopRequestReply time) := by
  cases message with
  | ack port => exact Or.inl ⟨now, List.mem_singleton.1 h⟩
  | stopRequest time => exact Or.inr ⟨_, List.mem_singleton.1 h⟩
  | _ => cases h

/-- What is reported is a completed tag, or a request to stop. -/
theorem eq_of_mem_reports {tags : List Tag} {output : Output} (h : output ∈ f.reports tags) :
    (∃ tag, output = .send (.logicalTagComplete tag)) ∨
      ∃ time, output = .send (.stopRequest time) := by
  obtain ⟨⟨tag, count⟩, -, hmem⟩ := List.mem_flatMap.1 h
  unfold report at hmem
  rcases List.mem_cons.1 hmem with rfl | hmem
  · exact Or.inl ⟨tag, rfl⟩
  · split at hmem
    · exact Or.inr ⟨_, List.mem_singleton.1 hmem⟩
    · cases hmem

/-- How an answer ends: the federate waits, announces what is next, or leaves. -/
inductive Closing (f : ScriptedFederate) : List Output → Prop
  | waits (hdone : f.done = false) : Closing f []
  | announces (next : Tag) (rest : List Tag) (hdone : f.done = false)
      (hpending : f.pending = next :: rest) : Closing f [.send (.nextEventTag next)]
  | leaves (hdone : f.done = true) (hpending : f.pending = []) : Closing f f.ending.outputs

/-- What a federate that is still there answers to a message. It reports the tags that are due, and
cuts off those above a stop that it is told of. -/
structure Response (f : ScriptedFederate) (message : Message) (now : Int64)
    (answer : ScriptedFederate × List Output) (closing : List Output) : Prop where
  outputs : answer.2 = f.remarks message now ++ (f.reports (f.due message) ++ closing)
  prompted : ∀ next, closing = [.send (.nextEventTag next)] → f.GoesOn message
  waits : closing = [] → ¬ f.GoesOn message ∧ (message.mayEnd → answer.1.pending ≠ [])
  closing : Closing answer.1 closing
  pending : ∃ left, f.pending = f.due message ++ left ∧
    answer.1.pending = left.filter fun tag => message.agreedStop?.all (tag ≤ ·)
  stop : answer.1.stop = message.agreedStop?.or f.stop
  startTime : answer.1.startTime = message.startTime?.or f.startTime
  processed : answer.1.processed = f.processed + (f.due message).length
  ending : answer.1.ending = f.ending
  stopAfter : answer.1.stopAfter = f.stopAfter

theorem Closing.of_announced {next : Tag} (h : Closing f closing)
    (hnext : .send (.nextEventTag next) ∈ closing) :
    closing = [.send (.nextEventTag next)] ∧ ∃ rest, f.pending = next :: rest := by
  cases h with
  | waits => cases hnext
  | announces next' rest _ hpending =>
    cases List.mem_singleton.1 hnext
    exact ⟨rfl, rest, hpending⟩
  | leaves => cases hending : f.ending <;> simp [hending, Ending.outputs] at hnext

/-- Asked for what is next, a federate does not keep silent. -/
theorem exists_announce (hdone : f.done = false) : ∃ done closing,
    f.announce = ({ f with done := done }, closing) ∧
      Closing { f with done := done } closing ∧ closing ≠ [] := by
  by_cases hnil : f.pending = []
  · refine ⟨true, f.ending.outputs, ?_, .leaves rfl hnil, f.ending.outputs_ne_nil⟩
    rw [announce_eq_finish hnil, finish_eq hdone]
  · obtain ⟨next, rest, hpending⟩ := List.exists_cons_of_ne_nil hnil
    refine ⟨false, _, ?_, .announces next rest rfl hpending, List.cons_ne_nil _ _⟩
    rw [announce_of_cons hpending, ← hdone]

/-- Without a grant and without a stop, a federate is as far as it was. -/
theorem Response.of_remarks (hmessage : message.agreedStop? = none) (hdue : f.due message = [])
    (joined done : Bool)
    (hclosing : Closing { f with
      startTime := message.startTime?.or f.startTime, joined := joined, done := done } closing)
    (hprompted : (closing = [] ∧ message.mayEnd = false) ∨
      closing ≠ [] ∧ ∃ port, message = .ack port) :
    Response f message now
      ({ f with startTime := message.startTime?.or f.startTime, joined := joined, done := done },
        f.remarks message now ++ closing) closing where
  outputs := by rw [hdue]; rfl
  closing := hclosing
  prompted next hnext := by
    rcases hprompted with ⟨rfl, -⟩ | ⟨-, hack⟩
    · cases hnext
    · exact Or.inr hack
  waits hnil := by
    rcases hprompted with ⟨-, hend⟩ | ⟨hspeaks, -⟩
    · refine ⟨not_goesOn hdue fun port hack => ?_,
        fun hends => absurd (hend.symm.trans hends) Bool.false_ne_true⟩
      rw [hack] at hend
      cases hend
    · exact absurd hnil hspeaks
  pending := by
    rw [hmessage, hdue]
    exact ⟨f.pending, rfl, (List.filter_true _).symm⟩
  stop := by
    rw [hmessage]
    rfl
  startTime := rfl
  processed := by rw [hdue]; rfl
  ending := rfl
  stopAfter := rfl

theorem exists_response_grant (hdone : f.done = false) (grant : Tag) (now : Int64) :
    ∃ closing, Response f (.timeAdvanceGrant grant) now (f.onGrant grant) closing := by
  obtain ⟨done, closing, hanswer, hclosing, hmoved, hwaits⟩ : ∃ done closing,
      (if (f.ready grant).isEmpty ∧ !(f.advanced grant).pending.isEmpty
        then (f.advanced grant, []) else (f.advanced grant).announce) =
          ({ f.advanced grant with done := done }, closing) ∧
        Closing { f.advanced grant with done := done } closing ∧
        (∀ next, closing = [.send (.nextEventTag next)] → f.ready grant ≠ []) ∧
        (closing = [] → f.ready grant = [] ∧ (f.advanced grant).pending ≠ []) := by
    split
    · next hstays =>
      obtain ⟨hready, hleft⟩ := hstays
      refine ⟨false, [], by rw [← hdone]; rfl, .waits rfl, nofun,
        fun _ => ⟨List.isEmpty_iff.1 hready, fun hnil => ?_⟩⟩
      rw [hnil] at hleft
      cases hleft
    · next hmoved =>
      obtain ⟨done, closing, hannounce, hclosing, hspeaks⟩ :=
        (f.advanced grant).exists_announce hdone
      refine ⟨done, closing, hannounce, hclosing, fun next hnext hnil => ?_,
        fun hsilent => absurd hsilent hspeaks⟩
      obtain ⟨-, rest, hpending⟩ := hclosing.of_announced (hnext ▸ List.mem_singleton_self _)
      have hleft : (f.advanced grant).pending = next :: rest := hpending
      rw [hnil, hleft] at hmoved
      exact hmoved ⟨rfl, rfl⟩
  rw [onGrant_eq]
  dsimp only
  rw [hanswer]
  exact ⟨closing,
    { outputs := rfl
      closing := hclosing
      prompted := fun next hnext => Or.inl (hmoved next hnext)
      waits := fun hsilent => by
        obtain ⟨hready, hleft⟩ := hwaits hsilent
        exact ⟨not_goesOn hready nofun, fun _ => hleft⟩
      pending := ⟨(f.advanced grant).pending, (f.ready_append_pending grant).symm,
        (List.filter_true _).symm⟩
      stop := rfl
      startTime := rfl
      processed := rfl
      ending := rfl
      stopAfter := rfl }⟩

theorem exists_response_stop (hdone : f.done = false) (time now : Int64) :
    ∃ closing, Response f (.stopGranted time) now (f.onStop (.ofTime time)) closing := by
  let told : ScriptedFederate :=
    { f with
      stop := some (.ofTime time)
      pending := f.pending.filter (· ≤ .ofTime time) }
  obtain ⟨done, closing, hanswer, hclosing, hsilent, hwaits⟩ : ∃ done closing,
      f.onStop (.ofTime time) = ({ told with done := done }, closing) ∧
        Closing { told with done := done } closing ∧
        (∀ next, closing ≠ [.send (.nextEventTag next)]) ∧
        (closing = [] → told.pending ≠ []) := by
    unfold onStop
    dsimp only
    split
    · next hpending =>
      refine ⟨true, f.ending.outputs, finish_eq hdone, .leaves rfl (List.isEmpty_iff.1 hpending),
        fun next => ?_, fun hnil => absurd hnil f.ending.outputs_ne_nil⟩
      cases f.ending <;> nofun
    · next hpending =>
      exact ⟨false, [], by rw [← hdone], .waits rfl, nofun,
        fun _ hnil => hpending (List.isEmpty_iff.2 hnil)⟩
  rw [hanswer]
  exact ⟨closing,
    { outputs := rfl
      closing := hclosing
      prompted := fun next hnext => absurd hnext (hsilent next)
      waits := fun hnil => ⟨not_goesOn rfl nofun, fun _ => hwaits hnil⟩
      pending := ⟨f.pending, rfl, rfl⟩
      stop := rfl
      startTime := rfl
      processed := rfl
      ending := rfl
      stopAfter := rfl }⟩

/-- What a message does to a federate that is still there, whatever the message is. -/
theorem exists_response (hdone : f.done = false) (message : Message) (now : Int64) :
    ∃ closing, Response f message now (f.onMessage message now) closing := by
  cases message with
  | ack port =>
    obtain ⟨done, closing, hannounce, hclosing, hspeaks⟩ :=
      ({ f with joined := true } : ScriptedFederate).exists_announce hdone
    rw [onMessage_ack hdone, hannounce]
    exact ⟨closing, .of_remarks rfl rfl true done hclosing (Or.inr ⟨hspeaks, port, rfl⟩)⟩
  | timestamp start =>
    rw [onMessage_timestamp hdone]
    exact ⟨[], .of_remarks rfl rfl f.joined f.done (.waits hdone) (Or.inl ⟨rfl, rfl⟩)⟩
  | timeAdvanceGrant grant =>
    rw [onMessage_grant hdone]
    exact exists_response_grant hdone grant now
  | stopRequest time =>
    rw [onMessage_stopRequest hdone]
    exact ⟨[], .of_remarks rfl rfl f.joined f.done (.waits hdone) (Or.inl ⟨rfl, rfl⟩)⟩
  | stopGranted time =>
    rw [onMessage_stopGranted hdone]
    exact exists_response_stop hdone time now
  | _ =>
    unfold onMessage
    rw [if_neg (hdone ▸ Bool.false_ne_true)]
    exact ⟨[], .of_remarks rfl rfl f.joined f.done (.waits hdone) (Or.inl ⟨rfl, rfl⟩)⟩

/-! ## Joins and start times -/

theorem Closing.join_notMem (h : Closing f closing) (g : FederateId) (federationId : String) :
    .send (.join g federationId) ∉ closing := by
  cases h with
  | waits | announces => simp
  | leaves => cases f.ending <;> simp [Ending.outputs]

/-- A federate joins before it hears anything, and never again. -/
theorem join_not_mem (f : ScriptedFederate) (message : Message) (now : Int64) (g : FederateId)
    (federationId : String) : .send (.join g federationId) ∉ (f.onMessage message now).2 := by
  cases hdone : f.done with
  | true =>
    rw [onMessage_of_done hdone]
    exact List.not_mem_nil
  | false =>
    obtain ⟨closing, h⟩ := exists_response hdone message now
    rw [h.outputs, List.mem_append, List.mem_append]
    rintro (hmem | hmem | hmem)
    · rcases eq_of_mem_remarks hmem with ⟨time, heq⟩ | ⟨time, heq⟩ <;> cases heq
    · rcases eq_of_mem_reports hmem with ⟨tag, heq⟩ | ⟨time, heq⟩ <;> cases heq
    · exact h.closing.join_notMem g federationId hmem

/-- A federate knows a start time only if it has been told. -/
theorem startTime_onMessage {time : Int64}
    (hstart : (f.onMessage message now).1.startTime = some time) :
    f.startTime = some time ∨ message = .timestamp time := by
  cases hdone : f.done with
  | true =>
    rw [onMessage_of_done hdone] at hstart
    exact Or.inl hstart
  | false =>
    obtain ⟨closing, h⟩ := exists_response hdone message now
    rw [h.startTime] at hstart
    cases message with
    | timestamp start => exact Or.inr (congrArg _ (Option.some.inj hstart))
    | _ => exact Or.inl hstart

end ScriptedFederate

end Simulation

end FederatedTime
