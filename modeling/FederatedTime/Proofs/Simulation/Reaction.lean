import FederatedTime.Proofs.Simulation.News

/-!
# How a federate goes through its script

A federate whose tags rise, and that asks for no stop, has processed the tags of its script up to
some point, and has announced the next one (`AtWork`), or has processed all of them and left
(`Through`). Whatever it is told that is news, it then reports how far it has come, or leaves
(`AtWork.reaction`).
-/

namespace FederatedTime

namespace Simulation

/-- The script goes on and on: its tags rise, and it asks for no stop. -/
structure Script.Steady (script : Script) : Prop where
  increasing : script.tags.Pairwise (· < ·)
  never_lt : ∀ tag ∈ script.tags, .never < tag
  stopAfter : script.stopAfter = none

instance (script : Script) : Decidable script.Steady :=
  decidable_of_iff (script.tags.Pairwise (· < ·) ∧ (∀ tag ∈ script.tags, .never < tag) ∧
      script.stopAfter = none)
    ⟨fun h => ⟨h.1, h.2.1, h.2.2⟩, fun h => ⟨h.increasing, h.never_lt, h.stopAfter⟩⟩

/-- The events by which messages of `f` reach the coordinator. -/
def speech (f : FederateId) (messages : List Message) : List Event :=
  messages.map (.messageReceived (connectionOf f))

theorem speech_append (f : FederateId) (first second : List Message) :
    speech f (first ++ second) = speech f first ++ speech f second :=
  List.map_append

/-- The events by which `f` leaves. -/
def Ending.farewell (f : FederateId) : Ending → List Event
  | .resign => [.messageReceived (connectionOf f) .resign, .connectionLost (connectionOf f)]
  | .disconnect => [.connectionLost (connectionOf f)]

theorem Ending.map_event_outputs (ending : Ending) (f : FederateId) :
    ending.outputs.map (·.event f) = ending.farewell f := by
  cases ending <;> rfl

/-! ## The last of several tags -/

theorem getLast?_append_getD {α : Type} (first second : List α) (a : α) :
    (first ++ second).getLast?.getD a = second.getLast?.getD (first.getLast?.getD a) := by
  rw [List.getLast?_append]
  cases second.getLast? <;> rfl

theorem pairwise_getLast {α : Type} {R : α → α → Prop} {a : α} {first second : List α}
    (h : (a :: first ++ second).Pairwise R) : (first.getLast?.getD a :: second).Pairwise R := by
  induction first generalizing a with
  | nil => exact h
  | cons b first ih =>
    rw [List.getLast?_cons]
    exact ih (List.pairwise_cons.1 h).2

/-! ## What a federate says -/

namespace ScriptedFederate

variable {federate : ScriptedFederate}

theorem reports_eq (h : federate.stopAfter = none) (tags : List Tag) :
    federate.reports tags = tags.map fun tag => .send (.logicalTagComplete tag) := by
  have hreport (tag : Tag) (count : Nat) :
      federate.report tag count = [.send (.logicalTagComplete tag)] := by
    unfold report
    rw [h, if_neg fun hstop => nomatch hstop.2]
  unfold reports
  simp only [hreport]
  generalize federate.processed + 1 = count
  induction tags generalizing count with
  | nil => rfl
  | cons tag tags ih => exact congrArg (_ :: ·) (ih (count + 1))

theorem map_event_reports (h : federate.stopAfter = none) (f : FederateId) (tags : List Tag) :
    (federate.reports tags).map (·.event f) = speech f (tags.map .logicalTagComplete) := by
  rw [reports_eq h, speech, List.map_map, List.map_map]
  rfl

theorem finish_of_not_done (hdone : federate.done = false) (f : FederateId) :
    federate.finish.1 = { federate with done := true } ∧
      federate.finish.2.map (·.event f) = federate.ending.farewell f := by
  rw [finish_eq hdone]
  exact ⟨rfl, federate.ending.map_event_outputs f⟩

theorem announce_of_nil (hpending : federate.pending = []) (hdone : federate.done = false)
    (f : FederateId) : federate.announce.1 = { federate with done := true } ∧
      federate.announce.2.map (·.event f) = federate.ending.farewell f := by
  rw [announce_eq_finish hpending]
  exact finish_of_not_done hdone f

end ScriptedFederate

/-! ## How far a federate is -/

/-- The federate has processed some of its script, and has announced the tag that is next. -/
structure AtWork (script : Script) (federate : ScriptedFederate) (next : Tag) : Prop where
  done : federate.done = false
  stopAfter : federate.stopAfter = none
  pending : ∃ rest, federate.pending = next :: rest
  tags : ∃ processed, processed ++ federate.pending = script.tags ∧
    federate.completed = processed.getLast?.getD .never
  lastGrant_lt : federate.lastGrant < next

/-- The federate has processed its script, and has left. -/
structure Through (script : Script) (federate : ScriptedFederate) : Prop where
  done : federate.done = true
  completed : federate.completed = script.tags.getLast?.getD .never

/-- What a federate says in answer to a message, and how far it is then. The coordinator, which knew
of the given progress by then, comes to know of all that has become of it. -/
inductive Reaction (f : FederateId) (script : Script) (known : Progress) (granted : Tag)
    (answer : ScriptedFederate × List Output) : Prop
  | works (next : Tag) (messages : List Message) (h : AtWork script answer.1 next)
      (hgranted : answer.1.lastGrant = granted)
      (hreports : ∀ message ∈ messages, message.isReport = true)
      (hnote : messages.foldl Progress.note known = ⟨answer.1.completed, next⟩)
      (houtputs : answer.2.map (·.event f) = speech f messages)
  | leaves (messages : List Message) (ending : Ending) (h : Through script answer.1)
      (hreports : ∀ message ∈ messages, message.isReport = true)
      (houtputs : answer.2.map (·.event f) = speech f messages ++ ending.farewell f)

variable {script : Script} {federate : ScriptedFederate} {next : Tag} {message : Message}

theorem Script.Steady.pairwise (h : script.Steady) : (.never :: script.tags).Pairwise (· < ·) :=
  List.pairwise_cons.2 ⟨h.never_lt, h.increasing⟩

theorem AtWork.completed_lt (hscript : script.Steady) (h : AtWork script federate next) :
    federate.completed < next := by
  obtain ⟨processed, htags, hcompleted⟩ := h.tags
  obtain ⟨rest, hpending⟩ := h.pending
  have hpairwise := hscript.pairwise
  rw [← htags, hpending] at hpairwise
  rw [hcompleted]
  exact (List.pairwise_cons.1 (pairwise_getLast hpairwise)).1 next List.mem_cons_self

/-- A federate that is let in announces its first tag, or leaves if there is none. -/
theorem reaction_ack (hscript : script.Steady) (f : FederateId) (port : Option UInt16)
    (now : Int64) : Reaction f script ⟨.never, .never⟩ .never
      ((ScriptedFederate.ofScript f script).onMessage (.ack port) now) := by
  rw [ScriptedFederate.onMessage_ack rfl]
  generalize hjoined : ({ ScriptedFederate.ofScript f script with joined := true } :
    ScriptedFederate) = joined
  have hpending : joined.pending = script.tags := by rw [← hjoined]; rfl
  have hdone : joined.done = false := by rw [← hjoined]; rfl
  have hcompleted : joined.completed = .never := by rw [← hjoined]; rfl
  have hlast : joined.lastGrant = .never := by rw [← hjoined]; rfl
  have hstop : joined.stopAfter = none := by
    rw [← hjoined]
    exact hscript.stopAfter
  have htimestamp : (Message.timestamp now).isReport = true := rfl
  cases htags : script.tags with
  | nil =>
    obtain ⟨hfederate, houtputs⟩ :=
      ScriptedFederate.announce_of_nil (hpending.trans htags) hdone f
    refine .leaves [.timestamp now] joined.ending ⟨?_, ?_⟩ ?_ ?_
    · rw [hfederate]
    · rw [hfederate, htags]
      exact hcompleted
    · exact List.forall_mem_singleton.2 htimestamp
    · exact congrArg (_ :: ·) houtputs
  | cons next rest =>
    rw [ScriptedFederate.announce_of_cons (hpending.trans htags)]
    have hnever : .never < next := hscript.never_lt next (htags ▸ List.mem_cons_self)
    refine .works next [.timestamp now, .nextEventTag next]
      ⟨hdone, hstop, ⟨rest, hpending.trans htags⟩, ⟨[], hpending, hcompleted⟩, ?_⟩ hlast ?_ ?_ rfl
    · rw [hlast]
      exact hnever
    · exact List.forall_mem_cons.2 ⟨htimestamp, List.forall_mem_singleton.2 rfl⟩
    · rw [hcompleted]
      exact if_neg (not_lt.2 (Tag.never_le next))

/-- A grant that a federate has waited for lets it complete what is ready. -/
theorem AtWork.reaction_grant (hscript : script.Steady) (h : AtWork script federate next)
    {grant : Tag} (hle : next ≤ grant) (f : FederateId) :
    Reaction f script ⟨federate.completed, next⟩ grant (federate.onGrant grant) := by
  obtain ⟨processed, htags, hcompleted⟩ := h.tags
  obtain ⟨rest, hpending⟩ := h.pending
  have hready := ScriptedFederate.ready_ne_nil hpending hle
  have hsplit := federate.ready_append_pending grant
  have hdone : (federate.advanced grant).done = false := h.done
  have hlast : (processed ++ federate.ready grant).getLast?.getD .never =
      (federate.advanced grant).completed := by
    rw [getLast?_append_getD, ← hcompleted]
    rfl
  have hreport : ∀ message ∈ (federate.ready grant).map Message.logicalTagComplete,
      message.isReport = true := List.forall_mem_map.2 fun _ _ => rfl
  have hreports := ScriptedFederate.map_event_reports h.stopAfter f (federate.ready grant)
  rw [ScriptedFederate.onGrant_of_ready hready]
  cases hleft : (federate.advanced grant).pending with
  | nil =>
    obtain ⟨hfederate, houtputs⟩ := ScriptedFederate.announce_of_nil hleft hdone f
    refine .leaves ((federate.ready grant).map .logicalTagComplete)
      (federate.advanced grant).ending ⟨?_, ?_⟩ hreport ?_
    · rw [hfederate]
    · rw [hleft, List.append_nil] at hsplit
      rw [← hsplit] at htags
      rw [hfederate, ← htags]
      exact hlast.symm
    · rw [List.map_append, hreports, houtputs]
  | cons next' rest' =>
    rw [ScriptedFederate.announce_of_cons hleft]
    have htags' : (processed ++ federate.ready grant) ++ (federate.advanced grant).pending =
        script.tags := by rw [List.append_assoc, hsplit, htags]
    refine .works next'
      ((federate.ready grant).map .logicalTagComplete ++ [.nextEventTag next'])
      ⟨hdone, h.stopAfter, ⟨rest', hleft⟩, ⟨_, htags', hlast.symm⟩,
        ScriptedFederate.lt_of_pending_advanced hleft⟩ rfl ?_ ?_ ?_
    · exact List.forall_mem_append.2 ⟨hreport, List.forall_mem_singleton.2 rfl⟩
    · have hpairwise := hscript.pairwise
      rw [← htags', hleft, List.append_assoc, ← List.cons_append] at hpairwise
      have hrising := pairwise_getLast hpairwise
      rw [← hcompleted] at hrising
      refine Progress.foldl_note (hrising.sublist ?_)
      exact (List.Sublist.append_left (List.sublist_append_left [next'] rest') _).cons_cons _
    · rw [List.map_append, hreports, speech_append]
      rfl

/-- Whatever news a federate hears, it reports how far it has come, or leaves. -/
theorem AtWork.reaction (hscript : script.Steady) (h : AtWork script federate next)
    (hnews : message.isNews = true) (f : FederateId) (now : Int64) :
    Reaction f script ⟨federate.completed, next⟩ (heed federate.lastGrant message)
      (federate.onMessage message now) := by
  have waits {federate' : ScriptedFederate} (h' : AtWork script federate' next)
      (hlast : federate'.lastGrant = heed federate.lastGrant message)
      (hcompleted : federate'.completed = federate.completed) :
      Reaction f script ⟨federate.completed, next⟩ (heed federate.lastGrant message)
        (federate', []) :=
    .works next [] h' hlast nofun (by rw [hcompleted]; rfl) rfl
  cases message with
  | timestamp start =>
    rw [ScriptedFederate.onMessage_timestamp h.done]
    exact waits ⟨h.done, h.stopAfter, h.pending, h.tags, h.lastGrant_lt⟩ rfl rfl
  | timeAdvanceGrant tag =>
    rw [ScriptedFederate.onMessage_grant h.done]
    by_cases hlt : tag < next
    · obtain ⟨rest, hpending⟩ := h.pending
      rw [ScriptedFederate.onGrant_of_lt hpending hlt]
      exact waits ⟨h.done, h.stopAfter, h.pending, h.tags, hlt⟩ rfl rfl
    · exact h.reaction_grant hscript (not_lt.1 hlt) f
  | ack | reject | stopRequest | stopGranted => cases hnews
  | _ =>
    unfold ScriptedFederate.onMessage
    rw [if_neg (h.done ▸ Bool.false_ne_true)]
    exact waits h rfl rfl

end Simulation

end FederatedTime
