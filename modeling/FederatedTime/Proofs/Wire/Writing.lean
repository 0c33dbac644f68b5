import FederatedTime.Proofs.Wire.Canonical
import FederatedTime.Proofs.Wire.Chunks
import FederatedTime.Proofs.Wire.RoundTrip

/-!
# Writing to one buffer

The frames of a connection are written to one buffer, one behind the other. A message that cannot be
encoded leaves the byte of its kind there, which a reader takes for the start of a frame. So the
buffer is read back as the messages that could be encoded if and only if all of them could
(`readsBack_encodeAll_iff`): as a message is read from as many bytes as are written of it, there is
one byte too many for each that could not.
-/

namespace FederatedTime.Wire

variable {direction : Direction} {m : Message} {s body : Bytes}

/-! ## Writing -/

/-- What an attempt to encode a message adds to a buffer. -/
def written (m : Message) : Bytes := (encode m []).2

theorem encode_eq_written (m : Message) (buffer : Bytes) :
    encode m buffer = ((encode m []).1, buffer ++ written m) := by
  unfold written encode
  cases putBody m <;> rfl

theorem written_eq_of_ok (h : putBody m = .ok body) : written m = m.typeByte :: body := by
  rw [written, encode, h]
  rfl

theorem written_ne_nil (m : Message) : written m ≠ [] := by
  unfold written encode
  cases putBody m <;> simp

/-- Append messages to one buffer, and go on if one of them cannot be encoded. -/
def encodeAll (buffer : Bytes) : List Message → Bytes
  | [] => buffer
  | m :: ms => encodeAll (encode m buffer).2 ms

theorem encodeAll_eq (ms : List Message) (buffer : Bytes) :
    encodeAll buffer ms = buffer ++ ms.flatMap written := by
  induction ms generalizing buffer with
  | nil => simp [encodeAll]
  | cons m ms ih => simp [encodeAll, ih, encode_eq_written m buffer]

theorem length_flatMap_eq {α β : Type} (l : List α) (part : α → List β) (p : α → Bool) :
    (l.flatMap part).length =
      ((l.filter p).flatMap part).length + ((l.filter fun a => !p a).flatMap part).length := by
  induction l with
  | nil => rfl
  | cons a l ih =>
    cases hp : p a <;> simp [hp, ih] <;> omega

/-! ## Reading back -/

/-- Encoding the message succeeds. -/
def encodes (m : Message) : Bool := (encode m []).1.isOk

/-- The body of a message can be written unless a field is too long, and it is the fault then. -/
theorem putBody_cases (m : Message) : (m.Fits ∧ ∃ body, putBody m = .ok body) ∨
    ¬ m.Fits ∧ ∃ n, putBody m = .error (.federationIdTooLong n) ∨
      putBody m = .error (.payloadTooLarge n) := by
  cases m with
  | join f id | peerHello f id =>
    by_cases h : (utf8 id).length ≤ 255
    · exact Or.inl ⟨h, _, putName_eq (Nat.lt_succ_of_le h)⟩
    · exact Or.inr ⟨h, _, Or.inl (if_neg fun hlt => h (Nat.le_of_lt_succ hlt))⟩
  | untimed m | peerUntimed m | timed m | peerTimed m =>
    by_cases h : m.payload.length ≤ maxPayload
    · exact Or.inl ⟨h, _, putPayload_eq h _ _ _⟩
    · exact Or.inr ⟨h, _, Or.inr (if_pos (Nat.lt_of_not_le h))⟩
  | _ => exact Or.inl ⟨trivial, _, rfl⟩

theorem fits_of_encodes (h : encodes m) : m.Fits := by
  rcases putBody_cases m with ⟨hfits, -⟩ | ⟨-, n, hput | hput⟩
  · exact hfits
  · simp [encodes, encode, hput, Except.isOk, Except.toBool] at h
  · simp [encodes, encode, hput, Except.isOk, Except.toBool] at h

theorem Lays.decode_append (h : Lays direction m body) (rest : Bytes) :
    decode direction (m.typeByte :: body ++ rest) = ⟨.ok (some m), rest⟩ := by
  have hread : (decode direction (m.typeByte :: body)).result ≠ .ok none := by
    rw [h.decode_eq]
    nofun
  rw [Wire.decode_append hread, h.decode_eq, List.nil_append]

/-- Messages that can all be encoded are read back, and nothing else. -/
theorem drains_flatMap_written {ms : List Message} (hencodes : ∀ m ∈ ms, encodes m)
    (htravels : ∀ m ∈ ms, m.Travels direction) :
    Drains direction (ms.flatMap written) (ms.map .ok) [] := by
  induction ms with
  | nil => exact .stuck rfl
  | cons m ms ih =>
    obtain ⟨hm, hms⟩ := List.forall_mem_cons.1 hencodes
    obtain ⟨hmtravels, hmstravel⟩ := List.forall_mem_cons.1 htravels
    obtain ⟨body, hlays⟩ := exists_lays (fits_of_encodes hm) hmtravels
    rw [List.flatMap_cons, written_eq_of_ok hlays.put]
    exact .message (hlays.decode_append _) (ih hms hmstravel)

theorem Drains.length_eq {ms : List Message} {left : Bytes}
    (h : Drains direction s (ms.map .ok) left) :
    s.length = (ms.flatMap written).length + left.length := by
  induction ms generalizing s with
  | nil =>
    cases h
    simp
  | cons m ms ih =>
    cases h with
    | message hdecode hrest =>
      obtain ⟨body, hput, hlength⟩ := length_of_decode hdecode
      rw [List.flatMap_cons, List.length_append, written_eq_of_ok hput, hlength, ih hrest,
        Nat.add_assoc]

theorem forall_encodes_of_drains {ms : List Message}
    (h : Drains direction (ms.flatMap written) ((ms.filter encodes).map .ok) []) :
    ∀ m ∈ ms, encodes m := by
  have hlength := h.length_eq
  rw [length_flatMap_eq ms written encodes, List.length_nil, Nat.add_zero] at hlength
  have hnone : (ms.filter fun m => !encodes m).flatMap written = [] :=
    List.length_eq_zero_iff.1 (by omega)
  intro m hm
  by_contra hfailed
  have hmem : m ∈ ms.filter fun m => !encodes m := by simpa [hm] using hfailed
  exact written_ne_nil m (List.flatMap_eq_nil_iff.1 hnone m hmem)

/-- What was written before is read whatever stands behind it. -/
theorem outcomes_drain_append {ms : List Message} (hencodes : ∀ m ∈ ms, encodes m)
    (htravels : ∀ m ∈ ms, m.Travels direction) (rest : Bytes) :
    outcomes (drain direction (ms.flatMap written ++ rest)) =
      ms.map .ok ++ outcomes (drain direction rest) := by
  have hfaultless : Faultless (ms.map .ok) := by simp [Faultless]
  have hwhole := (drains_flatMap_written hencodes htravels).append hfaultless (drains direction rest)
  exact ((drains direction _).unique hwhole).1

/-- A buffer is read as the given messages, and to its end. -/
def ReadsBack (direction : Direction) (s : Bytes) (ms : List Message) : Prop :=
  outcomes (drain direction s) = ms.map .ok ∧ leftOver s (drain direction s) = []

/-- A message that cannot be encoded leaves the byte of its kind behind. Of what is written to one
buffer, the messages before the first such failure are read back in any case; all messages that
could be encoded are read back, and nothing else, if and only if there is no failure. -/
theorem readsBack_encodeAll_iff (direction : Direction) :
    (∀ m buffer e, (encode m buffer).1 = .error e →
      (∃ n, e = .federationIdTooLong n ∨ e = .payloadTooLarge n) ∧ ¬ m.Fits ∧
        (encode m buffer).2 = buffer ++ [m.typeByte]) ∧
    ∀ ms, (∀ m ∈ ms, m.Travels direction) →
      (∀ rest, (∀ m ∈ ms, encodes m) → outcomes (drain direction (encodeAll [] ms ++ rest)) =
        ms.map .ok ++ outcomes (drain direction rest)) ∧
      (ReadsBack direction (encodeAll [] ms) (ms.filter encodes) ↔ ∀ m ∈ ms, encodes m) := by
  refine ⟨fun m buffer e he => ?_, fun ms htravels => ⟨fun rest hencodes => ?_, ?_⟩⟩
  · rcases putBody_cases m with ⟨-, body, hput⟩ | ⟨hfits, n, hput | hput⟩
    · rw [encode, hput] at he
      cases he
    · rw [encode, hput] at he ⊢
      exact ⟨⟨n, Or.inl (Except.error.inj he).symm⟩, hfits, rfl⟩
    · rw [encode, hput] at he ⊢
      exact ⟨⟨n, Or.inr (Except.error.inj he).symm⟩, hfits, rfl⟩
  · rw [encodeAll_eq, List.nil_append]
    exact outcomes_drain_append hencodes htravels rest
  · rw [encodeAll_eq, List.nil_append]
    have hdrains := drains direction (ms.flatMap written)
    constructor
    · rintro ⟨houtcomes, hleft⟩
      rw [houtcomes, hleft] at hdrains
      exact forall_encodes_of_drains hdrains
    · intro hencodes
      obtain ⟨houtcomes, hleft⟩ := hdrains.unique (drains_flatMap_written hencodes htravels)
      rw [List.filter_eq_self.2 hencodes]
      exact ⟨houtcomes, hleft⟩

/-! ## A federation id that is too long -/

/-- A join with a federation id of 256 bytes. -/
def longJoin : Message := .join ⟨0⟩ (String.ofList (List.replicate 256 'x'))

theorem encode_longJoin : encode longJoin [4] = (.error (.federationIdTooLong 256), [4, 1]) := by
  decide +kernel

/-- The report of a next event, written to the buffer after such a join. -/
def misread : Bytes := encodeAll [4] [longJoin, .nextEventTag (.ofTime 0)]

theorem misread_eq : misread = [4, 1, 6, 0, 0, 0, 0, 0, 0, 0, 0, 0, 0, 0, 0] := by
  rw [misread, encodeAll, encode_longJoin]
  rfl

theorem readsBack_encodeAll_iff_longJoin :
    (encode longJoin [4]).1 = .error (.federationIdTooLong 256) ∧ ¬ longJoin.Fits ∧
      (encode longJoin [4]).2 = [4] ++ [longJoin.typeByte] ∧
      (∀ m ∈ [Message.resign, longJoin, .nextEventTag (.ofTime 0)], m.Travels .toCoordinator) ∧
      ¬ encodes longJoin ∧
      ¬ ReadsBack .toCoordinator
        (encodeAll [] [Message.resign, longJoin, .nextEventTag (.ofTime 0)])
        ([Message.resign, longJoin, .nextEventTag (.ofTime 0)].filter encodes) := by
  have herror : (encode longJoin [4]).1 = .error (.federationIdTooLong 256) := by
    rw [encode_longJoin]
  have hfailed : ¬ encodes longJoin := by decide +kernel
  have htravels : ∀ m ∈ [Message.resign, longJoin, .nextEventTag (.ofTime 0)],
      m.Travels .toCoordinator :=
    List.forall_mem_cons.2 ⟨trivial, List.forall_mem_cons.2 ⟨trivial,
      List.forall_mem_cons.2 ⟨trivial, List.forall_mem_nil _⟩⟩⟩
  obtain ⟨hwritten, hread⟩ := readsBack_encodeAll_iff .toCoordinator
  obtain ⟨-, hfits, hbuffer⟩ := hwritten longJoin [4] _ herror
  refine ⟨herror, hfits, hbuffer, htravels, hfailed, fun hback => hfailed ?_⟩
  exact (hread _ htravels).2.1 hback longJoin (by simp)

/-- The byte that is left behind makes a join of another federate out of the report that is written
after it, and a fault of the rest. -/
theorem misread_of_longJoin :
    (encode longJoin [4]).1 = .error (.federationIdTooLong 256) ∧ (encode longJoin [4]).2 ≠ [4] ∧
      outcomes (drain .toCoordinator (encodeAll [4] [longJoin, .nextEventTag (.ofTime 0)])) =
        [.ok .resign, .ok (.join ⟨1536⟩ ""), .error (.unknownRejectReason 0)] := by
  refine ⟨?_, ?_, ?_⟩
  · rw [encode_longJoin]
  · rw [encode_longJoin]
    decide
  · have hdrains : Drains .toCoordinator misread
        [.ok .resign, .ok (.join ⟨1536⟩ ""), .error (.unknownRejectReason 0)]
        [0, 0, 0, 0, 0, 0, 0, 0] := by
      rw [misread_eq]
      exact .message rfl (.message rfl (.faulty rfl))
    exact ((drains .toCoordinator misread).unique hdrains).1

end FederatedTime.Wire
