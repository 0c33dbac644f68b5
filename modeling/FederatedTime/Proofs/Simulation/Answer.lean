import FederatedTime.Proofs.Simulation.Response

/-!
# What stands where in an answer

Of all that a federate answers to a message, `completions` are the tags that it completes, in order.
What it announces is the tag in front of it after all of them (`Response.pending_of_announced`), a
request to stop stands right behind the tag after which it is to be (`Response.asks`) and is not
left out there (`Response.must_ask`), and there is an ending if and only if the federate leaves
(`Response.any_isEnding`), which it does when it comes to its end (`Response.must_leave`).
-/

namespace FederatedTime

namespace Simulation

/-! ## Readings -/

/-- The tag that an output reports as completed. -/
def Output.completed? : Output → Option Tag
  | send (.logicalTagComplete tag) => some tag
  | _ => none

/-- Whether a federate leaves by an output. -/
def Output.isEnding : Output → Bool
  | send .resign | disconnect => true
  | _ => false

/-- The tags that outputs report as completed, in order. -/
def completions (outputs : List Output) : List Tag := outputs.filterMap (·.completed?)

theorem completions_append (first second : List Output) :
    completions (first ++ second) = completions first ++ completions second :=
  List.filterMap_append

/-! ## Lists -/

section Place

variable {α : Type} {first second before after : List α} {a : α}

/-- What stands at a place of two lists together stands in the one or in the other. -/
theorem append_eq_append_cons (h : first ++ second = before ++ a :: after) :
    (∃ middle, first = before ++ a :: middle ∧ after = middle ++ second) ∨
      ∃ middle, before = first ++ middle ∧ second = middle ++ a :: after := by
  rcases List.append_eq_append_iff.1 h with ⟨middle, hbefore, hsecond⟩ | ⟨middle, hfirst, hrest⟩
  · exact Or.inr ⟨middle, hbefore, hsecond⟩
  · cases middle with
    | nil => exact Or.inr ⟨[], by rw [hfirst, List.append_nil, List.append_nil], hrest.symm⟩
    | cons b middle =>
      obtain ⟨rfl, hafter⟩ := List.cons.inj hrest
      exact Or.inl ⟨middle, hfirst, hafter⟩

theorem nil_ne_append_cons : [] ≠ before ++ a :: after :=
  (List.append_ne_nil_of_right_ne_nil before (List.cons_ne_nil a after)).symm

theorem eq_of_singleton_eq_append_cons {b : α} (h : [b] = before ++ a :: after) :
    before = [] ∧ a = b := by
  rcases List.append_eq_singleton_iff.1 h.symm with ⟨hbefore, ha⟩ | ⟨-, hnil⟩
  · exact ⟨hbefore, (List.cons.inj ha).1⟩
  · exact absurd hnil (List.cons_ne_nil a after)

theorem eq_append_of_notMem_left (h : first ++ second = before ++ a :: after) (ha : a ∉ first) :
    ∃ middle, before = first ++ middle ∧ second = middle ++ a :: after := by
  rcases append_eq_append_cons h with ⟨middle, hfirst, -⟩ | hsecond
  · exact absurd (hfirst ▸ List.mem_append_right before List.mem_cons_self) ha
  · exact hsecond

theorem eq_append_of_notMem_right (h : first ++ second = before ++ a :: after) (ha : a ∉ second) :
    ∃ middle, first = before ++ a :: middle ∧ after = middle ++ second := by
  rcases append_eq_append_cons h with hfirst | ⟨middle, -, hsecond⟩
  · exact hfirst
  · exact absurd (hsecond ▸ List.mem_append_right middle List.mem_cons_self) ha

end Place

/-- What a stop leaves of rising tags is where they begin. -/
theorem exists_cut_of_sorted {tags : List Tag} (h : tags.Pairwise (· < ·)) (stop? : Option Tag) :
    ∃ cut, tags = tags.filter (fun tag => stop?.all (tag ≤ ·)) ++ cut ∧
      ∀ tag ∈ cut, ∃ stop ∈ stop?, stop < tag := by
  cases stop? with
  | none => exact ⟨[], by rw [List.append_nil]; exact (List.filter_true _).symm, nofun⟩
  | some stop =>
    induction tags with
    | nil => exact ⟨[], rfl, nofun⟩
    | cons tag tags ih =>
      obtain ⟨hfirst, htags⟩ := List.pairwise_cons.1 h
      rcases le_or_gt tag stop with hle | hlt
      · obtain ⟨cut, heq, hcut⟩ := ih htags
        refine ⟨cut, ?_, hcut⟩
        rw [List.filter_cons_of_pos (by simpa using hle)]
        exact congrArg (tag :: ·) heq
      · have hall : ∀ later ∈ tag :: tags, stop < later :=
          List.forall_mem_cons.2 ⟨hlt, fun later hlater => hlt.trans (hfirst later hlater)⟩
        have hnone : (tag :: tags).filter (fun tag => (some stop).all (tag ≤ ·)) = [] :=
          List.filter_eq_nil_iff.2 fun later hlater => by simpa using hall later hlater
        exact ⟨tag :: tags, by rw [hnone, List.nil_append],
          fun later hlater => ⟨stop, rfl, hall later hlater⟩⟩

namespace ScriptedFederate

/-! ## Remarks and reports -/

variable {f : ScriptedFederate} {message : Message} {answer : ScriptedFederate × List Output}
variable {tags : List Tag} {before after closing : List Output} {now : Int64}

theorem completions_remarks (f : ScriptedFederate) (message : Message) (now : Int64) :
    completions (f.remarks message now) = [] := by
  refine List.filterMap_eq_nil_iff.2 fun output houtput => ?_
  rcases eq_of_mem_remarks houtput with ⟨time, rfl⟩ | ⟨time, rfl⟩ <;> rfl

theorem completions_report (f : ScriptedFederate) (tag : Tag) (count : Nat) :
    completions (f.report tag count) = [tag] := by
  unfold report
  split <;> rfl

theorem completions_reports (f : ScriptedFederate) (tags : List Tag) :
    completions (f.reports tags) = tags := by
  unfold reports
  generalize f.processed + 1 = count
  induction tags generalizing count with
  | nil => rfl
  | cons tag tags ih =>
    rw [List.zipIdx_cons, List.flatMap_cons, completions_append, completions_report, ih]
    rfl

/-- Nothing in front of the closing is part of an ending. -/
theorem isEnding_eq_false {output : Output}
    (h : output ∈ f.remarks message now ++ f.reports tags) : output.isEnding = false := by
  rcases List.mem_append.1 h with hmem | hmem
  · rcases eq_of_mem_remarks hmem with ⟨time, rfl⟩ | ⟨time, rfl⟩ <;> rfl
  · rcases eq_of_mem_reports hmem with ⟨tag, rfl⟩ | ⟨time, rfl⟩ <;> rfl

theorem stopRequest_report {tag : Tag} {count : Nat} {before after : List Output} {time : Int64}
    (h : f.report tag count = before ++ .send (.stopRequest time) :: after) :
    before = [.send (.logicalTagComplete tag)] ∧ time = tag.time + 1 ∧ f.stop = none ∧
      f.stopAfter = some count := by
  unfold report at h
  cases before with
  | nil => cases h
  | cons output before =>
    obtain ⟨rfl, hask⟩ := List.cons.inj h
    split at hask
    · next hcount =>
      obtain ⟨rfl, htime⟩ := eq_of_singleton_eq_append_cons hask
      cases htime
      exact ⟨rfl, rfl, Option.isNone_iff_eq_none.1 hcount.1, hcount.2⟩
    · exact absurd hask nil_ne_append_cons

/-- A request to stop stands right behind the tag after which the federate is to ask for one. -/
theorem stopRequest_reports {before after : List Output} {time : Int64}
    (h : f.reports tags = before ++ .send (.stopRequest time) :: after) :
    ∃ earlier tag, before = earlier ++ [.send (.logicalTagComplete tag)] ∧ tag ∈ tags ∧
      time = tag.time + 1 ∧ f.stop = none ∧
      f.stopAfter = some (f.processed + (completions before).length) := by
  unfold reports at h
  generalize f.processed = processed at h ⊢
  induction tags generalizing processed before with
  | nil => exact absurd h nil_ne_append_cons
  | cons tag tags ih =>
    rw [List.zipIdx_cons, List.flatMap_cons] at h
    rcases append_eq_append_cons h with ⟨middle, hreport, -⟩ | ⟨middle, rfl, hrest⟩
    · obtain ⟨rfl, htime, hstop, hcount⟩ := stopRequest_report hreport
      exact ⟨[], tag, rfl, List.mem_cons_self, htime, hstop, hcount⟩
    · -- The tag in front is one completion more, before the place and in the count.
      obtain ⟨earlier, last, rfl, hlast, htime, hstop, hcount⟩ := ih _ hrest
      refine ⟨f.report tag (processed + 1) ++ earlier, last, (List.append_assoc _ _ _).symm,
        List.mem_cons_of_mem _ hlast, htime, hstop, ?_⟩
      rw [hcount, completions_append (f.report tag (processed + 1)), completions_report,
        List.length_append, List.length_singleton, ← Nat.add_assoc]

theorem logicalTagComplete_report {first tag : Tag} {count : Nat} {before after : List Output}
    (h : f.report first count = before ++ .send (.logicalTagComplete tag) :: after) :
    before = [] ∧ (f.stop = none → f.stopAfter = some count →
      ∃ time, after = [.send (.stopRequest time)]) := by
  unfold report at h
  cases before with
  | nil =>
    refine ⟨rfl, fun hstop hcount => ⟨first.time + 1, ?_⟩⟩
    rw [if_pos ⟨Option.isNone_iff_eq_none.2 hstop, hcount⟩] at h
    exact (List.cons.inj h).2.symm
  | cons output before =>
    have hask := (List.cons.inj h).2
    split at hask
    · cases (eq_of_singleton_eq_append_cons hask).2
    · exact absurd hask nil_ne_append_cons

/-- Behind the tag after which the federate is to ask for a stop, it asks for one. -/
theorem logicalTagComplete_reports {before after : List Output} {tag : Tag}
    (h : f.reports tags = before ++ .send (.logicalTagComplete tag) :: after)
    (hstop : f.stop = none)
    (hcount : f.stopAfter = some (f.processed + (completions before).length + 1)) :
    ∃ time rest, after = .send (.stopRequest time) :: rest := by
  unfold reports at h
  generalize f.processed = processed at h hcount
  induction tags generalizing processed before with
  | nil => exact absurd h nil_ne_append_cons
  | cons first tags ih =>
    rw [List.zipIdx_cons, List.flatMap_cons] at h
    rcases append_eq_append_cons h with ⟨middle, hreport, rfl⟩ | ⟨middle, rfl, hrest⟩
    · obtain ⟨rfl, hasks⟩ := logicalTagComplete_report hreport
      obtain ⟨time, rfl⟩ := hasks hstop hcount
      exact ⟨time, _, rfl⟩
    · refine ih _ hrest ?_
      rw [hcount, completions_append (f.report first (processed + 1)), completions_report,
        List.length_append, List.length_singleton, ← Nat.add_assoc]

/-! ## What an answer says -/

theorem Closing.completions_eq_nil (h : Closing f closing) : completions closing = [] := by
  cases h with
  | waits | announces => rfl
  | leaves => cases f.ending <;> rfl

theorem Closing.any_isEnding (h : Closing f closing) : closing.any (·.isEnding) = f.done := by
  cases h with
  | waits hdone | announces _ _ hdone => exact hdone.symm
  | leaves hdone =>
    rw [hdone]
    cases f.ending <;> rfl

theorem Closing.of_done (h : Closing f closing) (hdone : f.done = true) :
    closing = f.ending.outputs ∧ f.pending = [] := by
  cases h with
  | waits hpresent | announces _ _ hpresent =>
    exact absurd (hpresent.symm.trans hdone) Bool.false_ne_true
  | leaves _ hpending => exact ⟨rfl, hpending⟩

theorem Closing.logicalTagComplete_notMem (h : Closing f closing) (tag : Tag) :
    .send (.logicalTagComplete tag) ∉ closing := by
  cases h with
  | waits | announces => simp
  | leaves => cases f.ending <;> simp [Ending.outputs]

theorem Closing.stopRequest_notMem (h : Closing f closing) (time : Int64) :
    .send (.stopRequest time) ∉ closing := by
  cases h with
  | waits | announces => simp
  | leaves => cases f.ending <;> simp [Ending.outputs]

namespace Response

theorem completions_eq (h : Response f message now answer closing) :
    completions answer.2 = f.due message := by
  rw [h.outputs, completions_append, completions_append, completions_remarks,
    completions_reports, h.closing.completions_eq_nil, List.append_nil, List.nil_append]

/-- What the federate had in front of it is reported, still in front of it, or above a stop. -/
theorem exists_cut (h : Response f message now answer closing)
    (hsorted : f.pending.Pairwise (· < ·)) :
    ∃ cut, f.pending = f.due message ++ (answer.1.pending ++ cut) ∧
      ∀ tag ∈ cut, ∃ stop ∈ message.agreedStop?, stop < tag := by
  obtain ⟨left, hpending, hkept⟩ := h.pending
  rw [hpending] at hsorted
  obtain ⟨cut, hleft, hcut⟩ :=
    exists_cut_of_sorted (List.pairwise_append.1 hsorted).2.1 message.agreedStop?
  exact ⟨cut, by rw [hkept, ← hleft, hpending], hcut⟩

theorem le_of_mem_pending {tag stop : Tag} (h : Response f message now answer closing)
    (htag : tag ∈ answer.1.pending) (hstop : stop ∈ message.agreedStop?) : tag ≤ stop := by
  obtain ⟨left, -, hkept⟩ := h.pending
  rw [hkept] at htag
  have hall := (Option.all_eq_true _ _).1 (List.mem_filter.1 htag).2 stop hstop
  exact of_decide_eq_true hall

theorem any_isEnding (h : Response f message now answer closing) :
    answer.2.any (·.isEnding) = answer.1.done := by
  have hbody : (f.remarks message now ++ f.reports (f.due message)).any (·.isEnding) = false :=
    List.any_eq_false.2 fun output houtput => by
      rw [isEnding_eq_false houtput]
      exact Bool.false_ne_true
  rw [h.outputs, ← List.append_assoc, List.any_append, hbody, h.closing.any_isEnding,
    Bool.false_or]

/-- What is announced is what the federate has in front of it, after all that it reports. -/
theorem pending_of_announced {next : Tag} (h : Response f message now answer closing)
    (hanswer : answer.2 = before ++ .send (.nextEventTag next) :: after) :
    completions before = f.due message ∧ ∃ rest, answer.1.pending = next :: rest := by
  have hremarks : Output.send (.nextEventTag next) ∉ f.remarks message now := fun hmem => by
    rcases eq_of_mem_remarks hmem with ⟨time, heq⟩ | ⟨time, heq⟩ <;> cases heq
  have hreports : Output.send (.nextEventTag next) ∉ f.reports (f.due message) := fun hmem => by
    rcases eq_of_mem_reports hmem with ⟨tag, heq⟩ | ⟨time, heq⟩ <;> cases heq
  rw [h.outputs] at hanswer
  obtain ⟨middle, rfl, hrest⟩ := eq_append_of_notMem_left hanswer hremarks
  obtain ⟨middle, rfl, hclosing⟩ := eq_append_of_notMem_left hrest hreports
  have hmem : Output.send (.nextEventTag next) ∈ closing :=
    hclosing ▸ List.mem_append_right middle List.mem_cons_self
  obtain ⟨hsingle, hpending⟩ := h.closing.of_announced hmem
  obtain ⟨rfl, -⟩ := eq_of_singleton_eq_append_cons (hsingle.symm.trans hclosing)
  refine ⟨?_, hpending⟩
  rw [completions_append, completions_append, completions_remarks, completions_reports]
  exact List.append_nil _

/-- A stop is requested right behind the tag after which it is to be. -/
theorem asks {time : Int64} (h : Response f message now answer closing)
    (hanswer : answer.2 = before ++ .send (.stopRequest time) :: after) :
    ∃ earlier tag, before = earlier ++ [.send (.logicalTagComplete tag)] ∧ tag ∈ f.due message ∧
      time = tag.time + 1 ∧ f.stop = none ∧
      f.stopAfter = some (f.processed + (completions before).length) := by
  have hremarks : Output.send (.stopRequest time) ∉ f.remarks message now := fun hmem => by
    rcases eq_of_mem_remarks hmem with ⟨time, heq⟩ | ⟨time, heq⟩ <;> cases heq
  rw [h.outputs] at hanswer
  obtain ⟨middle, rfl, hrest⟩ := eq_append_of_notMem_left hanswer hremarks
  obtain ⟨after, hreports, -⟩ :=
    eq_append_of_notMem_right hrest (h.closing.stopRequest_notMem time)
  obtain ⟨earlier, tag, rfl, htag, htime, hstop, hcount⟩ := stopRequest_reports hreports
  refine ⟨f.remarks message now ++ earlier, tag, (List.append_assoc _ _ _).symm, htag, htime,
    hstop, ?_⟩
  rw [hcount, completions_append (f.remarks message now), completions_remarks]
  rfl

/-- A federate asks for a stop behind the tag after which it is to, if none has been agreed. -/
theorem must_ask {tag : Tag} (h : Response f message now answer closing)
    (hanswer : answer.2 = before ++ .send (.logicalTagComplete tag) :: after)
    (hstop : f.stop = none)
    (hcount : f.stopAfter = some (f.processed + (completions before).length + 1)) :
    ∃ time rest, after = .send (.stopRequest time) :: rest := by
  have hremarks : Output.send (.logicalTagComplete tag) ∉ f.remarks message now := fun hmem => by
    rcases eq_of_mem_remarks hmem with ⟨time, heq⟩ | ⟨time, heq⟩ <;> cases heq
  rw [h.outputs] at hanswer
  obtain ⟨before, rfl, hrest⟩ := eq_append_of_notMem_left hanswer hremarks
  obtain ⟨after, hreports, rfl⟩ :=
    eq_append_of_notMem_right hrest (h.closing.logicalTagComplete_notMem tag)
  rw [completions_append, completions_remarks] at hcount
  obtain ⟨time, rest, rfl⟩ := logicalTagComplete_reports hreports hstop hcount
  exact ⟨time, rest ++ closing, rfl⟩

/-- A federate that goes on announces what is next, or leaves. -/
theorem must_go_on (h : Response f message now answer closing) (hgoes : f.GoesOn message) :
    answer.1.done = true ∨ ∃ next, .send (.nextEventTag next) ∈ answer.2 := by
  obtain ⟨outputs, -, waits, closing, -⟩ := h
  cases closing with
  | waits => exact absurd hgoes (waits rfl).1
  | announces next =>
    refine Or.inr ⟨next, ?_⟩
    rw [outputs]
    exact List.mem_append_right _ (List.mem_append_right _ (List.mem_singleton_self _))
  | leaves hdone => exact Or.inl hdone

/-- A federate that has come to its end leaves. -/
theorem must_leave (h : Response f message now answer closing) (hend : message.mayEnd = true)
    (hnil : answer.1.pending = []) : answer.1.done = true := by
  obtain ⟨-, -, waits, closing, -⟩ := h
  cases closing with
  | waits => exact absurd hnil ((waits rfl).2 hend)
  | announces next rest _ hpending =>
    rw [hnil] at hpending
    cases hpending
  | leaves hdone => exact hdone

end Response

end ScriptedFederate

end Simulation

end FederatedTime
