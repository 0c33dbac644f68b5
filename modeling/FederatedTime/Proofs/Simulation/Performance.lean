import FederatedTime.Proofs.Simulation.Answer
import FederatedTime.Proofs.Simulation.StopTalk

/-!
# How federates keep to their scripts

A federate answers the messages that it receives one after another, whatever they are (`perform`).
All along, what it has completed is where its script begins, what it has in front of it is next
there, and the rest has been cut off by a stop (`OnScript`). So whatever it says follows its script,
and it says all that its script asks of it (`follows_script`).
-/

namespace FederatedTime

namespace Simulation

open ScriptedFederate (Response)

/-! ## Performances -/

/-- A message for a federate, and what its own clock reads when it receives it. -/
structure Cue where
  message : Message
  now : Int64
deriving DecidableEq, Inhabited

/-- A federate that has answered one message after another, with all its answers. -/
def ScriptedFederate.perform (f : ScriptedFederate) (cues : List Cue) :
    ScriptedFederate × List Output :=
  cues.foldl (fun (federate, outputs) cue =>
    let (federate, answer) := federate.onMessage cue.message cue.now
    (federate, outputs ++ answer)) (f, [])

theorem ScriptedFederate.perform_append_singleton (f : ScriptedFederate) (cues : List Cue)
    (cue : Cue) : f.perform (cues ++ [cue]) =
      (((f.perform cues).1.onMessage cue.message cue.now).1,
        (f.perform cues).2 ++ ((f.perform cues).1.onMessage cue.message cue.now).2) :=
  List.foldl_append

/-- The stops that messages tell of, in order. -/
def stopsTold (cues : List Cue) : List Tag := cues.filterMap (·.message.agreedStop?)

theorem stopsTold_append_singleton (cues : List Cue) (cue : Cue) :
    stopsTold (cues ++ [cue]) = stopsTold cues ++ cue.message.agreedStop?.toList := by
  unfold stopsTold
  rw [List.filterMap_append, List.filterMap_cons, List.filterMap_nil]
  cases cue.message.agreedStop? <;> rfl

theorem mem_stopsTold_append_singleton {cues : List Cue} {cue : Cue} {stop : Tag} :
    stop ∈ stopsTold (cues ++ [cue]) ↔
      stop ∈ stopsTold cues ∨ stop ∈ cue.message.agreedStop? := by
  rw [stopsTold_append_singleton, List.mem_append, Option.mem_toList, Option.mem_def]

/-! ## Keeping to a script -/

/-- A federate has come some way along its script, and has said so in the past. -/
structure OnScript (script : Script) (cues : List Cue) (past : List Output)
    (f : ScriptedFederate) : Prop where
  ending : f.ending = script.ending
  stopAfter : f.stopAfter = script.stopAfter
  processed : f.processed = (completions past).length
  /-- The tags behind what the federate has in front of it have been dropped for a stop. -/
  tags : ∃ dropped, script.tags = completions past ++ (f.pending ++ dropped) ∧
    ∀ tag ∈ dropped, ∃ stop ∈ stopsTold cues, stop < tag
  pending_le : ∀ tag ∈ f.pending, ∀ stop ∈ stopsTold cues, tag ≤ stop
  stop : f.done = false → (f.stop = none ↔ stopsTold cues = [])
  done : past.any (·.isEnding) = f.done
  pending_of_done : f.done = true → f.pending = []

variable {script : Script} {cues : List Cue} {cue : Cue} {past : List Output}
variable {f : ScriptedFederate} {answer : ScriptedFederate × List Output}
variable {closing : List Output}

theorem onScript_ofScript (f : FederateId) (script : Script) :
    OnScript script [] [] (.ofScript f script) where
  ending := rfl
  stopAfter := rfl
  processed := rfl
  tags := ⟨[], (List.append_nil _).symm, nofun⟩
  pending_le := nofun
  stop _ := ⟨fun _ => rfl, fun _ => rfl⟩
  done := rfl
  pending_of_done := nofun

namespace OnScript

theorem pending_sorted (h : OnScript script cues past f)
    (hsorted : script.tags.Pairwise (· < ·)) : f.pending.Pairwise (· < ·) := by
  obtain ⟨dropped, htags, -⟩ := h.tags
  rw [htags] at hsorted
  exact (List.pairwise_append.1 (List.pairwise_append.1 hsorted).2.1).1

/-- A federate that has left stays as it is, whatever it is told. -/
theorem deaf (h : OnScript script cues past f) (hdone : f.done = true) (cue : Cue) :
    OnScript script (cues ++ [cue]) past f where
  ending := h.ending
  stopAfter := h.stopAfter
  processed := h.processed
  tags := by
    obtain ⟨dropped, htags, hdropped⟩ := h.tags
    refine ⟨dropped, htags, fun tag htag => ?_⟩
    obtain ⟨stop, hstop, hlt⟩ := hdropped tag htag
    exact ⟨stop, mem_stopsTold_append_singleton.2 (Or.inl hstop), hlt⟩
  pending_le tag htag := by
    rw [h.pending_of_done hdone] at htag
    cases htag
  stop hpresent := absurd (hpresent.symm.trans hdone) Bool.false_ne_true
  done := h.done
  pending_of_done := h.pending_of_done

theorem respond (h : OnScript script cues past f) (hsorted : script.tags.Pairwise (· < ·))
    (hdone : f.done = false)
    (hresponse : Response f cue.message cue.now answer closing) :
    OnScript script (cues ++ [cue]) (past ++ answer.2) answer.1 := by
  obtain ⟨cut, hpending, hcut⟩ := hresponse.exists_cut (h.pending_sorted hsorted)
  obtain ⟨dropped, htags, hdropped⟩ := h.tags
  refine
    { ending := hresponse.ending.trans h.ending
      stopAfter := hresponse.stopAfter.trans h.stopAfter
      processed := ?_
      tags := ⟨cut ++ dropped, ?_, fun tag htag => ?_⟩
      pending_le := fun tag htag stop hstop => ?_
      stop := fun _ => ?_
      done := ?_
      pending_of_done := fun hleft => (hresponse.closing.of_done hleft).2 }
  · rw [hresponse.processed, h.processed, completions_append, hresponse.completions_eq,
      List.length_append]
  · rw [htags, hpending, completions_append, hresponse.completions_eq]
    simp only [List.append_assoc]
  · rcases List.mem_append.1 htag with htag | htag
    · obtain ⟨stop, hstop, hlt⟩ := hcut tag htag
      exact ⟨stop, mem_stopsTold_append_singleton.2 (Or.inr hstop), hlt⟩
    · obtain ⟨stop, hstop, hlt⟩ := hdropped tag htag
      exact ⟨stop, mem_stopsTold_append_singleton.2 (Or.inl hstop), hlt⟩
  · rcases mem_stopsTold_append_singleton.1 hstop with hstop | hstop
    · have hmem : tag ∈ f.pending := by
        rw [hpending]
        exact List.mem_append_right _ (List.mem_append_left _ htag)
      exact h.pending_le tag hmem stop hstop
    · exact hresponse.le_of_mem_pending htag hstop
  · rw [hresponse.stop, Option.or_eq_none_iff, stopsTold_append_singleton,
      List.append_eq_nil_iff, Option.toList_eq_nil_iff, h.stop hdone]
    exact And.comm
  · rw [List.any_append, h.done, hdone, hresponse.any_isEnding, Bool.false_or]

theorem step (h : OnScript script cues past f) (hsorted : script.tags.Pairwise (· < ·))
    (cue : Cue) : OnScript script (cues ++ [cue]) (past ++ (f.onMessage cue.message cue.now).2)
      (f.onMessage cue.message cue.now).1 := by
  cases hdone : f.done with
  | true =>
    rw [ScriptedFederate.onMessage_of_done hdone, List.append_nil]
    exact h.deaf hdone cue
  | false =>
    obtain ⟨closing, hresponse⟩ :=
      ScriptedFederate.exists_response hdone cue.message cue.now
    exact h.respond hsorted hdone hresponse

end OnScript

theorem onScript_perform (f : FederateId) (hsorted : script.tags.Pairwise (· < ·))
    (cues : List Cue) :
    OnScript script cues ((ScriptedFederate.ofScript f script).perform cues).2
      ((ScriptedFederate.ofScript f script).perform cues).1 := by
  induction cues using List.reverseRecOn with
  | nil => exact onScript_ofScript f script
  | append_singleton cues cue ih =>
    rw [ScriptedFederate.perform_append_singleton]
    exact ih.step hsorted cue

/-! ## Requests to stop -/

/-- The time at which an output requests a stop. -/
def Output.stopRequest? : Output → Option Int64
  | send message => message.stopRequest?
  | disconnect => none

theorem stopRequests_map_event (f : FederateId) (outputs : List Output) :
    stopRequests (outputs.map (·.event f)) = outputs.filterMap (·.stopRequest?) := by
  unfold stopRequests
  rw [List.filterMap_map]
  refine List.filterMap_congr fun output _ => ?_
  cases output with
  | send message => cases message <;> rfl
  | disconnect => rfl

/-- Each request that a federate has made is one that it can make no more. -/
theorem ScriptedFederate.requests_perform (f : ScriptedFederate) (cues : List Cue) :
    ((f.perform cues).2.filterMap (·.stopRequest?)).length + (f.perform cues).1.requestsLeft ≤
      f.requestsLeft := by
  induction cues using List.reverseRecOn with
  | nil => exact Nat.le_of_eq (Nat.zero_add _)
  | append_singleton cues cue ih =>
    have hstep := (restrained_onMessage (f.perform cues).1 cue.message cue.now f.id).requests
    rw [stopRequests_map_event] at hstep
    rw [perform_append_singleton, List.filterMap_append, List.length_append]
    dsimp only
    omega

theorem ScriptedFederate.requests_perform_le_one (f : ScriptedFederate) (cues : List Cue) :
    ((f.perform cues).2.filterMap (·.stopRequest?)).length ≤ 1 :=
  (Nat.le_of_add_right_le (f.requests_perform cues)).trans f.requestsLeft_le_one

/-! ## Following a script -/

/-- Every tag of a script has been completed, or cut off by a stop. -/
def Spent (script : Script) (cues : List Cue) (outputs : List Output) : Prop :=
  ∀ tag ∈ script.tags, tag ∈ completions outputs ∨ ∃ stop ∈ stopsTold cues, stop < tag

/-- What a federate answers to a message follows its script. The `cues` are the messages before,
and the `past` is what it has answered to them. -/
structure Follows (script : Script) (cues : List Cue) (past : List Output) (cue : Cue)
    (answer : List Output) : Prop where
  /-- The tags are completed in their order, and none is left out. -/
  completed : completions (past ++ answer) <+: script.tags
  /-- A tag is completed under a grant, and no stop has been agreed before it. -/
  granted : ∀ tag ∈ completions answer,
    (∃ grant, cue.message = .timeAdvanceGrant grant ∧ tag ≤ grant) ∧
      ∀ stop ∈ stopsTold cues, tag ≤ stop
  /-- A grant lets the federate complete all that it covers and no stop has cut off. -/
  completes : ∀ grant, cue.message = .timeAdvanceGrant grant → ∀ tag ∈ script.tags, tag ≤ grant →
    (∀ stop ∈ stopsTold cues, tag ≤ stop) → tag ∈ completions (past ++ answer)
  /-- The tag announced is the first that is not completed. -/
  announced : ∀ before next after, answer = before ++ .send (.nextEventTag next) :: after →
    ∃ rest, script.tags = completions (past ++ before) ++ next :: rest
  /-- A federate that joins, or completes some tags, announces what is next or leaves. -/
  announces : (∃ port, cue.message = .ack port) ∨ completions answer ≠ [] →
    (∃ next, .send (.nextEventTag next) ∈ answer) ∨ ∃ output ∈ past ++ answer, output.isEnding
  /-- A stop is requested once at most. -/
  asks_once : ((past ++ answer).filterMap (·.stopRequest?)).length ≤ 1
  /-- A stop is requested right behind the tag after which it is to be, for the time after that
  tag, and only while none has been agreed. -/
  asked : ∀ before time after, answer = before ++ .send (.stopRequest time) :: after →
    (∃ earlier tag, before = earlier ++ [.send (.logicalTagComplete tag)] ∧
      time.toInt = tag.time.toInt + 1) ∧
      script.stopAfter = some (completions (past ++ before)).length ∧
      stopsTold cues = []
  /-- Behind the tag after which it is to be, a stop is requested if none has been agreed. -/
  asks : ∀ before tag after, answer = before ++ .send (.logicalTagComplete tag) :: after →
    script.stopAfter = some ((completions (past ++ before)).length + 1) → stopsTold cues = [] →
      ∃ time rest, after = .send (.stopRequest time) :: rest
  /-- After its ending a federate says nothing. -/
  silent : (∃ output ∈ past, output.isEnding) → answer = []
  /-- A federate leaves by the ending of its script, when what is not completed is cut off by a
  stop. -/
  left : (∃ output ∈ answer, output.isEnding) →
    (∃ body, answer = body ++ script.ending.outputs ∧ ∀ output ∈ body, ¬ output.isEnding) ∧
      Spent script (cues ++ [cue]) (past ++ answer)
  /-- When it joins, is granted a tag or is told of a stop, a federate leaves if what is not
  completed is cut off by a stop. -/
  leaves : cue.message.mayEnd → Spent script (cues ++ [cue]) (past ++ answer) →
    ∃ output ∈ past ++ answer, output.isEnding

theorem toInt_time_add_one {time : Int64} (h : time < Int64.maxValue) :
    (time + 1).toInt = time.toInt + 1 := by
  have hlt : time.toInt < 9223372036854775807 := Int64.lt_iff_toInt_lt.1 h
  have hge : -9223372036854775808 ≤ time.toInt := time.minValue_le_toInt
  rw [Int64.toInt_add]
  exact Int.bmod_eq_of_le (by show _ ≤ time.toInt + 1; omega) (by show time.toInt + 1 < _; omega)

namespace OnScript

/-- A tag that is not completed is in front of the federate, or above a stop. -/
theorem mem_pending (h : OnScript script cues past f) {tag : Tag} (htag : tag ∈ script.tags)
    (hstops : ∀ stop ∈ stopsTold cues, tag ≤ stop) :
    tag ∈ completions past ∨ tag ∈ f.pending := by
  obtain ⟨dropped, htags, hdropped⟩ := h.tags
  rw [htags, List.mem_append, List.mem_append] at htag
  rcases htag with hcompleted | hpending | hcut
  · exact Or.inl hcompleted
  · exact Or.inr hpending
  · obtain ⟨stop, hstop, hlt⟩ := hdropped tag hcut
    exact absurd hlt (hstops stop hstop).not_gt

/-- When all is spent, a federate has nothing in front of it. -/
theorem pending_eq_nil (h : OnScript script cues past f)
    (hsorted : script.tags.Pairwise (· < ·)) (hspent : Spent script cues past) :
    f.pending = [] := by
  obtain ⟨dropped, htags, -⟩ := h.tags
  rw [htags] at hsorted
  refine List.eq_nil_iff_forall_not_mem.2 fun tag hpending => ?_
  have hrest : tag ∈ f.pending ++ dropped := List.mem_append_left _ hpending
  rcases hspent tag (htags ▸ List.mem_append_right _ hrest) with hcompleted | ⟨stop, hstop, hlt⟩
  · exact (List.pairwise_append.1 hsorted).2.2 tag hcompleted tag hrest |>.false
  · exact absurd hlt (h.pending_le tag hpending stop hstop).not_gt

/-- A federate that has left has nothing left to do. -/
theorem follows_nothing (h : OnScript script cues past f) (hdone : f.done = true)
    (honce : (past.filterMap (·.stopRequest?)).length ≤ 1) (cue : Cue) :
    Follows script cues past cue [] := by
  have hleft : ∃ output ∈ past, output.isEnding := List.any_eq_true.1 (h.done.trans hdone)
  rw [← List.append_nil past] at hleft honce
  exact
    { completed := by
        obtain ⟨dropped, htags, -⟩ := h.tags
        rw [List.append_nil, htags]
        exact List.prefix_append _ _
      granted := nofun
      completes := fun grant _ tag htag _ hstops => by
        rw [List.append_nil]
        rcases h.mem_pending htag hstops with hcompleted | hpending
        · exact hcompleted
        · rw [h.pending_of_done hdone] at hpending
          cases hpending
      announced := fun _ _ _ hanswer => absurd hanswer nil_ne_append_cons
      announces := fun _ => Or.inr hleft
      asks_once := honce
      asked := fun _ _ _ hanswer => absurd hanswer nil_ne_append_cons
      asks := fun _ _ _ hanswer => absurd hanswer nil_ne_append_cons
      silent := fun _ => rfl
      left := nofun
      leaves := fun _ _ => hleft }

theorem follows (h : OnScript script cues past f)
    (h' : OnScript script (cues ++ [cue]) (past ++ answer.2) answer.1)
    (hsorted : script.tags.Pairwise (· < ·))
    (htimes : ∀ tag ∈ script.tags, tag.time < Int64.maxValue)
    (honce : ((past ++ answer.2).filterMap (·.stopRequest?)).length ≤ 1)
    (hdone : f.done = false)
    (hresponse : Response f cue.message cue.now answer closing) :
    Follows script cues past cue answer.2 := by
  obtain ⟨left, hpending, -⟩ := hresponse.pending
  obtain ⟨dropped, htags, hdropped⟩ := h'.tags
  have hdue : ∀ tag ∈ f.due cue.message, tag ∈ script.tags := fun tag htag => by
    rw [htags, completions_append, hresponse.completions_eq]
    exact List.mem_append_left _ (List.mem_append_right _ htag)
  have hleft : answer.1.done = true → ∃ output ∈ past ++ answer.2, output.isEnding :=
    fun hleaves => List.any_eq_true.1 (h'.done.trans hleaves)
  exact
    { completed := htags ▸ List.prefix_append _ _
      granted := fun tag htag => by
        rw [hresponse.completions_eq] at htag
        exact ⟨ScriptedFederate.le_of_mem_due htag,
          h.pending_le tag (hpending ▸ List.mem_append_left left htag)⟩
      completes := fun grant hgrant tag htag hle hstops => by
        rw [completions_append, hresponse.completions_eq, hgrant]
        refine List.mem_append.2 ((h.mem_pending htag hstops).imp_right fun hpending => ?_)
        exact ScriptedFederate.mem_ready (h.pending_sorted hsorted) hpending hle
      announced := fun before next after hanswer => by
        obtain ⟨hbefore, rest, hnext⟩ := hresponse.pending_of_announced hanswer
        refine ⟨rest ++ dropped, ?_⟩
        rw [htags, completions_append, completions_append, hresponse.completions_eq, hbefore, hnext]
        rfl
      announces := fun hgoes => by
        rw [hresponse.completions_eq] at hgoes
        exact (hresponse.must_go_on hgoes.symm).symm.imp_right hleft
      asks_once := honce
      asked := fun before time after hanswer => by
        obtain ⟨earlier, tag, hbefore, htag, rfl, hstop, hcount⟩ := hresponse.asks hanswer
        refine ⟨⟨earlier, tag, hbefore, toInt_time_add_one (htimes tag (hdue tag htag))⟩, ?_,
          (h.stop hdone).1 hstop⟩
        rw [← h.stopAfter, hcount, h.processed, completions_append, List.length_append]
      asks := fun before tag after hanswer hcount hstops => by
        refine hresponse.must_ask hanswer ((h.stop hdone).2 hstops) ?_
        rw [h.stopAfter, hcount, h.processed, completions_append, List.length_append]
      silent := fun hended => by
        have hany := List.any_eq_true.2 hended
        rw [h.done, hdone] at hany
        cases hany
      left := fun hends => by
        have hleaves : answer.1.done = true :=
          hresponse.any_isEnding.symm.trans (List.any_eq_true.2 hends)
        obtain ⟨hclosing, hnil⟩ := hresponse.closing.of_done hleaves
        refine ⟨⟨f.remarks cue.message cue.now ++ f.reports (f.due cue.message), ?_,
          fun output houtput => ?_⟩, fun tag htag => ?_⟩
        · rw [hresponse.outputs, hclosing, h'.ending, List.append_assoc]
        · rw [ScriptedFederate.isEnding_eq_false houtput]
          exact Bool.false_ne_true
        · rw [htags, hnil] at htag
          exact (List.mem_append.1 htag).imp_right (hdropped tag)
      leaves := fun hend hspent =>
        hleft (hresponse.must_leave hend (h'.pending_eq_nil hsorted hspent)) }

end OnScript

/-- A federate whose tags rise, and leave room for the time after them, follows its script in its
answer to each message, whatever it has been told before. -/
theorem follows_script (f : FederateId) (script : Script)
    (hsorted : script.tags.Pairwise (· < ·))
    (htimes : ∀ tag ∈ script.tags, tag.time < Int64.maxValue) (cues : List Cue) (cue : Cue) :
    let performance := (ScriptedFederate.ofScript f script).perform cues
    Follows script cues performance.2 cue
      (performance.1.onMessage cue.message cue.now).2 := by
  intro performance
  have h : OnScript script cues performance.2 performance.1 := onScript_perform f hsorted cues
  cases hdone : performance.1.done with
  | true =>
    rw [ScriptedFederate.onMessage_of_done hdone]
    exact h.follows_nothing hdone
      ((ScriptedFederate.ofScript f script).requests_perform_le_one cues) cue
  | false =>
    obtain ⟨closing, hresponse⟩ :=
      ScriptedFederate.exists_response hdone cue.message cue.now
    have honce := (ScriptedFederate.ofScript f script).requests_perform_le_one (cues ++ [cue])
    rw [ScriptedFederate.perform_append_singleton] at honce
    exact h.follows (h.step hsorted cue) hsorted htimes honce hdone hresponse

/-- It asks for a stop after two of its three tags. -/
def shortened : Script where
  tags := [.ofTime 10, .ofTime 20, .ofTime 30]
  stopAfter := some 2

/-- It joins, and is granted its second tag. -/
def halfway : List Cue := [⟨.ack none, 5⟩, ⟨.timeAdvanceGrant (.ofTime 20), 25⟩]

/-- The stop that it has asked for comes before its third tag, and it leaves. -/
theorem follows_script_shortened : shortened.tags.Pairwise (· < ·) ∧
    (∀ tag ∈ shortened.tags, tag.time < Int64.maxValue) ∧
    let performance := (ScriptedFederate.ofScript ⟨0⟩ shortened).perform halfway
    performance.2 = [.send (.timestamp 5), .send (.nextEventTag (.ofTime 10)),
      .send (.logicalTagComplete (.ofTime 10)), .send (.logicalTagComplete (.ofTime 20)),
      .send (.stopRequest 21), .send (.nextEventTag (.ofTime 30))] ∧
    (performance.1.onMessage (.stopGranted 21) 26).2 = [.send .resign, .disconnect] ∧
    Follows shortened halfway performance.2 ⟨.stopGranted 21, 26⟩ [.send .resign, .disconnect] :=
  ⟨by decide, by decide, by decide, by decide,
    follows_script ⟨0⟩ shortened (by decide) (by decide) halfway ⟨.stopGranted 21, 26⟩⟩

end Simulation

end FederatedTime
