import FederatedTime.Wire.Decode

/-!
# Buffers that grow

A buffer only ever grows at its end. What its first bytes tell of the length of a frame, and what is
read from it once the frame is there, does not change with more bytes behind them (`decode_append`).
-/

namespace FederatedTime.Wire

variable {direction : Direction} {s body : Bytes}

/-! ## The length of a frame -/

theorem namedBodyLength?_append (h : namedBodyLength? body ≠ none) (more : Bytes) :
    namedBodyLength? (body ++ more) = namedBodyLength? body := by
  unfold namedBodyLength? at h ⊢
  have hlength : 2 < body.length := by
    refine Nat.lt_of_not_le fun hle => h ?_
    rw [List.getElem?_eq_none hle, Option.map_none]
  rw [List.getElem?_append_left hlength]

theorem payloadBodyLength?_append {extra : Nat} (h : payloadBodyLength? extra body ≠ .ok none)
    (more : Bytes) :
    payloadBodyLength? extra (body ++ more) = payloadBodyLength? extra body := by
  unfold payloadBodyLength? at h ⊢
  have hlength : 4 ≤ (body.drop 4).length :=
    Nat.le_of_not_lt fun hlt => h (if_pos (Nat.lt_of_le_of_lt (List.length_take_le' 4 _) hlt))
  have hbody : 4 ≤ body.length := by
    rw [List.length_drop] at hlength
    omega
  rw [List.drop_append_of_le_length hbody, List.take_append_of_le_length hlength]

theorem bodyLength?_append {kind : MessageKind} (h : bodyLength? direction body kind ≠ .ok none)
    (more : Bytes) :
    bodyLength? direction (body ++ more) kind = bodyLength? direction body kind := by
  cases kind with
  | join | peerHello =>
    have hnamed : namedBodyLength? body ≠ none := fun hnone => h (congrArg pure hnone)
    exact congrArg pure (namedBodyLength?_append hnamed more)
  | untimed | peerUntimed | timed | peerTimed => exact payloadBodyLength?_append h more
  | _ => rfl

theorem frameLength?_append (h : frameLength? direction s ≠ .ok none) (more : Bytes) :
    frameLength? direction (s ++ more) = frameLength? direction s := by
  cases s with
  | nil => exact absurd rfl h
  | cons b body =>
    rw [List.cons_append]
    unfold frameLength? at h ⊢
    dsimp only at h ⊢
    cases hkind : MessageKind.ofByte? b with
    | none => rfl
    | some kind =>
      rw [hkind] at h
      dsimp only at h ⊢
      rw [bodyLength?_append]
      intro hnone
      rw [hnone] at h
      exact h rfl

/-- The bytes that have arrived of a frame tell nothing of its length, or its length. -/
theorem frameLength?_of_append {more : Bytes} {n : Nat}
    (h : frameLength? direction (s ++ more) = .ok (some n)) :
    frameLength? direction s = .ok none ∨ frameLength? direction s = .ok (some n) := by
  by_cases hnone : frameLength? direction s = .ok none
  · exact Or.inl hnone
  · exact Or.inr (frameLength?_append hnone more ▸ h)

/-! ## Reading -/

/-- An incomplete frame is left alone. -/
theorem decode_eq_of_none (h : (decode direction s).result = .ok none) :
    decode direction s = ⟨.ok none, s⟩ := by
  unfold decode at h ⊢
  split at h
  · cases h
  · rfl
  · split at h
    · rename_i hshort
      exact if_pos hshort
    · rename_i hlong
      rw [if_neg hlong]
      split at h
      · rename_i reading _ _
        cases reading <;> cases h
      · rfl

theorem decode_append (h : (decode direction s).result ≠ .ok none) (more : Bytes) :
    decode direction (s ++ more) =
      ⟨(decode direction s).result, (decode direction s).rest ++ more⟩ := by
  have hlength : frameLength? direction s ≠ .ok none := by
    intro hnone
    exact h (by rw [decode, hnone])
  have hframe := frameLength?_append hlength more
  unfold decode at h ⊢
  rw [hframe]
  split
  · rfl
  · contradiction
  · rename_i n hn
    rw [hn] at h
    dsimp only at h
    by_cases hshort : s.length < n
    · rw [if_pos hshort] at h
      exact absurd rfl h
    · have hle : n ≤ s.length := Nat.not_lt.1 hshort
      have hlong : ¬ (s ++ more).length < n := by
        rw [List.length_append]
        omega
      rw [if_neg hshort] at h ⊢
      rw [if_neg hlong, List.take_append_of_le_length hle, List.drop_append_of_le_length hle]
      split <;> rfl

end FederatedTime.Wire
