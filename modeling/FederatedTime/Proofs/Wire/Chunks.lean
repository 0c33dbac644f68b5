import FederatedTime.Proofs.Wire.Frame
import FederatedTime.Wire.Stream

/-!
# Streams in chunks

Where a stream is cut into chunks makes no difference to what is read from it, up to the first error
(`feedAll_eq_feedAll_flatten`). `Drains` says what draining a buffer comes to, one read after the
other. With more bytes behind it, a drained buffer gives the same and then goes on where it was
stuck (`Drains.append`), unless it has come to an error, which it comes to again
(`Drains.append_of_error`).
-/

namespace FederatedTime.Wire

/-- The message that an answer holds, or the error. -/
def Decoded.outcome? (d : Decoded) : Option (Except Error Message) :=
  match d.result with
  | .ok (some m) => some (.ok m)
  | .ok none => none
  | .error e => some (.error e)

/-- The messages and errors among some answers. -/
def outcomes (answers : List Decoded) : List (Except Error Message) :=
  answers.filterMap (·.outcome?)

/-- What comes before the first error, and that error. -/
def upToError : List (Except Error Message) → List (Except Error Message)
  | [] => []
  | .ok m :: later => .ok m :: upToError later
  | .error e :: _ => [.error e]

/-- Read on with one chunk after the other: all answers, and what is left in the buffer. -/
def feedAll (direction : Direction) (buffer : Bytes) : List Bytes → List Decoded × Bytes
  | [] => ([], buffer)
  | chunk :: chunks =>
    let (answers, buffer) := feed direction buffer chunk
    let (later, buffer) := feedAll direction buffer chunks
    (answers ++ later, buffer)

variable {direction : Direction} {s left : Bytes} {outs : List (Except Error Message)}

/-! ## Outcomes -/

/-- None of the outcomes is an error. -/
def Faultless (outs : List (Except Error Message)) : Prop := ∀ e, .error e ∉ outs

theorem outcomes_append (first second : List Decoded) :
    outcomes (first ++ second) = outcomes first ++ outcomes second :=
  List.filterMap_append

theorem upToError_append_of_faultless (h : Faultless outs) (later : List (Except Error Message)) :
    upToError (outs ++ later) = outs ++ upToError later := by
  induction outs with
  | nil => rfl
  | cons out outs ih =>
    have houts : Faultless outs := fun e he => h e (List.mem_cons_of_mem _ he)
    cases out with
    | ok m => exact congrArg (Except.ok m :: ·) (ih houts)
    | error e => exact absurd List.mem_cons_self (h e)

theorem upToError_append_of_error {e : Error} (h : .error e ∈ outs)
    (later : List (Except Error Message)) : upToError (outs ++ later) = upToError outs := by
  induction outs with
  | nil => exact absurd h List.not_mem_nil
  | cons out outs ih =>
    cases out with
    | ok m =>
      rcases List.mem_cons.1 h with heq | hmem
      · cases heq
      · exact congrArg (Except.ok m :: ·) (ih hmem)
    | error e' => rfl

/-! ## Draining a buffer -/

/-- Draining a buffer gives the outcomes in turn and leaves some bytes behind. -/
inductive Drains (direction : Direction) : Bytes → List (Except Error Message) → Bytes → Prop
  | stuck {s : Bytes} (h : decode direction s = ⟨.ok none, s⟩) : Drains direction s [] s
  | faulty {s rest : Bytes} {e : Error} (h : decode direction s = ⟨.error e, rest⟩) :
    Drains direction s [.error e] rest
  | message {s rest left : Bytes} {m : Message} {outs : List (Except Error Message)}
      (h : decode direction s = ⟨.ok (some m), rest⟩) (hrest : Drains direction rest outs left) :
    Drains direction s (.ok m :: outs) left

theorem drain_of_message {rest : Bytes} {m : Message}
    (h : decode direction s = ⟨.ok (some m), rest⟩) :
    drain direction s = ⟨.ok (some m), rest⟩ :: drain direction rest := by
  rw [drain]
  split
  · rw [h]
  · rename_i hno
    exact absurd (congrArg Decoded.result h) (hno m)

theorem drain_of_no_message (h : ∀ m, (decode direction s).result ≠ .ok (some m)) :
    drain direction s = [decode direction s] := by
  rw [drain]
  split
  · rename_i m hresult
    exact absurd hresult (h m)
  · rfl

theorem drain_ne_nil (direction : Direction) (s : Bytes) : drain direction s ≠ [] := by
  rw [drain]
  split <;> exact List.cons_ne_nil _ _

theorem leftOver_cons {answers : List Decoded} (h : answers ≠ []) (s : Bytes) (d : Decoded) :
    leftOver s (d :: answers) = leftOver d.rest answers := by
  rw [leftOver, leftOver, List.getLast?_cons, List.getLast?_eq_some_getLast h]
  rfl

theorem drains (direction : Direction) (s : Bytes) :
    Drains direction s (outcomes (drain direction s)) (leftOver s (drain direction s)) := by
  generalize hn : s.length = n
  induction n using Nat.strongRecOn generalizing s with
  | ind n ih =>
    cases hdecode : decode direction s with
    | mk result rest =>
      match result with
      | .ok (some m) =>
        have hlength : rest.length < n := by
          have := length_rest_decode (congrArg Decoded.result hdecode)
          rw [hdecode, hn] at this
          exact this
        rw [drain_of_message hdecode, leftOver_cons (drain_ne_nil direction rest)]
        exact .message hdecode (ih rest.length hlength rest rfl)
      | .ok none =>
        have hstuck := decode_eq_of_none (congrArg Decoded.result hdecode)
        rw [drain_of_no_message (by rw [hdecode]; nofun), hstuck]
        exact .stuck hstuck
      | .error e =>
        rw [drain_of_no_message (by rw [hdecode]; nofun), hdecode]
        exact .faulty hdecode

namespace Drains

theorem unique {outs' : List (Except Error Message)} {left' : Bytes}
    (h : Drains direction s outs left) (h' : Drains direction s outs' left') :
    outs = outs' ∧ left = left' := by
  induction h generalizing outs' left' with
  | stuck h => cases h' <;> simp_all
  | faulty h => cases h' <;> simp_all
  | message h _ ih =>
    cases h' with
    | stuck h' => simp_all
    | faulty h' => simp_all
    | message h' hrest' =>
      obtain ⟨hm, rfl⟩ := Decoded.mk.inj (h.symm.trans h')
      obtain ⟨rfl, rfl⟩ := ih hrest'
      exact ⟨by simp_all, rfl⟩

/-- There is at most one error, at the end. -/
theorem upToError_eq (h : Drains direction s outs left) : upToError outs = outs := by
  induction h with
  | stuck => rfl
  | faulty => rfl
  | @message _ _ _ m _ _ _ ih => exact congrArg (Except.ok m :: ·) ih

theorem decode_left (h : Drains direction s outs left) (hfaultless : Faultless outs) :
    decode direction left = ⟨.ok none, left⟩ := by
  induction h with
  | stuck h => exact h
  | faulty => exact absurd List.mem_cons_self (hfaultless _)
  | message _ _ ih => exact ih fun e he => hfaultless e (List.mem_cons_of_mem _ he)

/-- With more bytes behind it, draining goes on where it was stuck. -/
theorem append {more left' : Bytes} {outs' : List (Except Error Message)}
    (h : Drains direction s outs left) (hfaultless : Faultless outs)
    (hmore : Drains direction (left ++ more) outs' left') :
    Drains direction (s ++ more) (outs ++ outs') left' := by
  induction h with
  | stuck => exact hmore
  | faulty => exact absurd List.mem_cons_self (hfaultless _)
  | message h _ ih =>
    refine .message ?_ (ih (fun e he => hfaultless e (List.mem_cons_of_mem _ he)) hmore)
    rw [decode_append (by rw [h]; nofun), h]

/-- An error comes again whatever stands behind it. -/
theorem append_of_error {e : Error} (h : Drains direction s outs left) (he : .error e ∈ outs)
    (more : Bytes) : Drains direction (s ++ more) outs (left ++ more) := by
  induction h with
  | stuck => exact absurd he List.not_mem_nil
  | faulty h =>
    refine .faulty ?_
    rw [decode_append (by rw [h]; nofun), h]
  | message h _ ih =>
    rcases List.mem_cons.1 he with heq | hmem
    · cases heq
    · refine .message ?_ (ih hmem)
      rw [decode_append (by rw [h]; nofun), h]

end Drains

/-! ## Chunks -/

/-- Chunks on top of a buffer that is stuck are read as if they had been there from the start. -/
theorem feedAll_spec (chunks : List Bytes) {buffer : Bytes}
    (hbuffer : decode direction buffer = ⟨.ok none, buffer⟩)
    (h : Drains direction (buffer ++ chunks.flatten) outs left) :
    upToError (outcomes (feedAll direction buffer chunks).1) = outs ∧
      (Faultless outs → (feedAll direction buffer chunks).2 = left) := by
  induction chunks generalizing buffer outs left with
  | nil =>
    rw [List.flatten_nil, List.append_nil] at h
    obtain ⟨rfl, rfl⟩ := h.unique (.stuck hbuffer)
    exact ⟨rfl, fun _ => rfl⟩
  | cons chunk chunks ih =>
    have hfirst := drains direction (buffer ++ chunk)
    rw [List.flatten_cons, ← List.append_assoc] at h
    unfold feedAll feed
    dsimp only
    rw [outcomes_append]
    generalize outcomes (drain direction (buffer ++ chunk)) = first at hfirst
    generalize leftOver (buffer ++ chunk) (drain direction (buffer ++ chunk)) = rest at hfirst
    by_cases hfaultless : Faultless first
    · have hlater := drains direction (rest ++ chunks.flatten)
      obtain ⟨houts, hleft⟩ := ih (hfirst.decode_left hfaultless) hlater
      obtain ⟨rfl, rfl⟩ := h.unique (hfirst.append hfaultless hlater)
      rw [upToError_append_of_faultless hfaultless, houts]
      exact ⟨rfl, fun hall => hleft fun e he => hall e (List.mem_append_right _ he)⟩
    · obtain ⟨e, he⟩ : ∃ e, .error e ∈ first := by simpa [Faultless] using hfaultless
      obtain ⟨rfl, rfl⟩ := h.unique (hfirst.append_of_error he chunks.flatten)
      rw [upToError_append_of_error he, hfirst.upToError_eq]
      exact ⟨rfl, fun hall => absurd hall hfaultless⟩

/-- Reading a stream in chunks gives what reading it in one chunk gives, up to the first error, and
leaves the same bytes if there is no error. What has been read from a buffer is read from it with
more bytes behind it as well. -/
theorem feedAll_eq_feedAll_flatten (direction : Direction) :
    (∀ chunks : List Bytes,
      let inChunks := feedAll direction [] chunks
      let atOnce := feedAll direction [] [chunks.flatten]
      upToError (outcomes inChunks.1) = upToError (outcomes atOnce.1) ∧
        (Faultless (upToError (outcomes atOnce.1)) → inChunks.2 = atOnce.2)) ∧
    ∀ buffer, (decode direction buffer).result ≠ .ok none → ∀ more,
      decode direction (buffer ++ more) =
        ⟨(decode direction buffer).result, (decode direction buffer).rest ++ more⟩ := by
  refine ⟨fun chunks => ?_, fun buffer => decode_append⟩
  have hempty : decode direction [] = ⟨.ok none, []⟩ := rfl
  obtain ⟨outs, left, hdrains⟩ : ∃ outs left, Drains direction chunks.flatten outs left :=
    ⟨_, _, drains direction chunks.flatten⟩
  have hone : Drains direction [chunks.flatten].flatten outs left := by
    rwa [List.flatten_singleton]
  obtain ⟨houts, hleft⟩ := feedAll_spec chunks hempty hdrains
  obtain ⟨houts', hleft'⟩ := feedAll_spec [chunks.flatten] hempty hone
  dsimp only
  rw [houts, houts']
  exact ⟨rfl, fun hfaultless => (hleft hfaultless).trans (hleft' hfaultless).symm⟩

/-- The report of a completed tag is cut in two, with an empty chunk between, and a resignation comes
with its second part. -/
theorem feedAll_eq_feedAll_flatten_cut :
    let chunks : List Bytes := [[8, 0, 0, 0, 0, 0], [], [0, 0, 7, 0, 0, 0, 1, 4]]
    let inChunks := feedAll .toCoordinator [] chunks
    let atOnce := feedAll .toCoordinator [] [chunks.flatten]
    upToError (outcomes inChunks.1) = [.ok (.logicalTagComplete ⟨7, 1⟩), .ok .resign] ∧
      Faultless (upToError (outcomes atOnce.1)) ∧ inChunks.2 = atOnce.2 ∧
      (decode .toCoordinator [4]).result ≠ .ok none ∧
      decode .toCoordinator ([4] ++ [8, 0]) =
        ⟨(decode .toCoordinator [4]).result, (decode .toCoordinator [4]).rest ++ [8, 0]⟩ := by
  intro chunks inChunks atOnce
  have hdrains : Drains .toCoordinator [chunks.flatten].flatten
      [.ok (.logicalTagComplete ⟨7, 1⟩), .ok .resign] [] :=
    .message rfl (.message rfl (.stuck rfl))
  have hone : upToError (outcomes atOnce.1) = [.ok (.logicalTagComplete ⟨7, 1⟩), .ok .resign] :=
    (feedAll_spec [chunks.flatten] rfl hdrains).1
  have hfaultless : Faultless (upToError (outcomes atOnce.1)) := by
    rw [hone]
    simp [Faultless]
  have hresign : (decode .toCoordinator [4]).result ≠ .ok none := nofun
  obtain ⟨hstream, hdecode⟩ := feedAll_eq_feedAll_flatten .toCoordinator
  obtain ⟨houts, hleft⟩ := hstream chunks
  exact ⟨houts.trans hone, hfaultless, hleft hfaultless, hresign, hdecode [4] hresign [8, 0]⟩

end FederatedTime.Wire
