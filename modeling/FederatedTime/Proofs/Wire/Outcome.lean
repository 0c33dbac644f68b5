import FederatedTime.Proofs.Wire.Canonical

/-!
# What comes of reading

Whatever bytes are in a buffer, one of four things comes of reading from it (`Comes`), and only one
(`decode_outcome`). The frame at its front is incomplete, and could still be completed; its first
bytes are at fault, and stay in the buffer; or the whole frame is taken, for a message or for a
fault in one of its fields. No byte behind the frame is looked at.
-/

namespace FederatedTime

/-- Whether the length of a message depends on a payload. -/
def MessageKind.HasPayload : MessageKind → Prop
  | untimed | peerUntimed | timed | peerTimed => True
  | _ => False

namespace Wire

variable {direction : Direction} {s body frame rest : Bytes} {kind : MessageKind} {e : Error}
  {reading : Reading Message}

/-! ## Faults -/

/-- What can be wrong with the first bytes of a frame. -/
inductive HeaderFault : Bytes → Error → Prop
  /-- There is no message of this kind. -/
  | kind {b : UInt8} {body : Bytes} (hkind : ∀ kind : MessageKind, kind.byte ≠ b) :
    HeaderFault (b :: body) (.unknownMessageType b)
  /-- The four bytes behind the destination ask for too large a payload. -/
  | payload {kind : MessageKind} {destination length rest : Bytes} (hkind : kind.HasPayload)
    (hdestination : destination.length = 4) (hlength : length.length = 4)
    (hlarge : maxPayload < ofBigEndian length) :
    HeaderFault (kind.byte :: (destination ++ length ++ rest))
      (.payloadTooLarge (ofBigEndian length))

/-- What can be wrong with the fields of a whole frame. -/
inductive FieldFault (direction : Direction) : Bytes → Error → Prop
  | reason {code : UInt8} (hcode : ∀ reason : RejectReason, reason.code ≠ code) :
    FieldFault direction [MessageKind.reject.byte, code] (.unknownRejectReason code)
  /-- A port, or a federate, out of range. -/
  | port {kind : MessageKind} {n : Int32} (hkind : kind = .addressAd ∨ kind = .clockSyncT3)
    (hrange : n.toInt < 0 ∨ 65536 ≤ n.toInt) :
    FieldFault direction (kind.byte :: putInt32 n) (.invalidPort n)
  /-- A port out of range where there need not be one. -/
  | portOrNone {kind : MessageKind} {n : Int32} {rest : Bytes}
    (hkind : kind = .ack ∨ kind = .address ∧ direction = .fromCoordinator)
    (hrange : n.toInt < -1 ∨ 65536 ≤ n.toInt) :
    FieldFault direction (kind.byte :: (putInt32 n ++ rest)) (.invalidPort n)
  /-- Bytes that are no UTF-8 text. -/
  | federationId {kind : MessageKind} {f : UInt16} {n : UInt8} {bytes : Bytes}
    (hkind : kind = .join ∨ kind = .peerHello) (hlength : bytes.length = n.toNat)
    (htext : ∀ id, utf8 id ≠ bytes) :
    FieldFault direction (kind.byte :: (putUInt16 f ++ n :: bytes)) .invalidFederationId
  /-- Bytes that spell no address. -/
  | address {n : Int32} {text : Bytes} (hdirection : direction = .fromCoordinator)
    (htext : ∀ ip, putAddress ip ≠ zeroFilled text) :
    FieldFault direction (MessageKind.address.byte :: (putInt32 n ++ text)) .invalidAddress

/-! ## Faults of the first bytes -/

theorem exists_extra (hkind : kind.HasPayload) (direction : Direction) :
    ∃ extra, ∀ body, bodyLength? direction body kind = payloadBodyLength? extra body := by
  cases kind with
  | untimed | peerUntimed => exact ⟨0, fun body => rfl⟩
  | timed | peerTimed => exact ⟨tagLength, fun body => rfl⟩
  | _ => exact hkind.elim

theorem hasPayload_of_bodyLength? (h : bodyLength? direction body kind = .error e) :
    kind.HasPayload := by
  cases kind with
  | untimed | peerUntimed | timed | peerTimed => trivial
  | address => cases direction <;> cases h
  | _ => cases h

theorem exists_of_payloadBodyLength? {extra : Nat}
    (h : payloadBodyLength? extra body = .error e) :
    ∃ destination length rest, body = destination ++ length ++ rest ∧ destination.length = 4 ∧
      length.length = 4 ∧ maxPayload < ofBigEndian length ∧
      e = .payloadTooLarge (ofBigEndian length) := by
  unfold payloadBodyLength? at h
  dsimp only at h
  split at h
  · cases h
  · rename_i hfield
    split at h
    · rename_i hlarge
      simp only [List.length_take, List.length_drop] at hfield
      refine ⟨body.take 4, (body.drop 4).take 4, (body.drop 4).drop 4, ?_, ?_, ?_, hlarge,
        (Except.error.inj h).symm⟩
      · rw [List.append_assoc, List.take_append_drop, List.take_append_drop]
      · rw [List.length_take]
        omega
      · rw [List.length_take, List.length_drop]
        omega
    · cases h

theorem payloadBodyLength?_of_large {extra : Nat} {destination length : Bytes}
    (hdestination : destination.length = 4) (hlength : length.length = 4)
    (hlarge : maxPayload < ofBigEndian length) (rest : Bytes) :
    payloadBodyLength? extra (destination ++ length ++ rest) =
      .error (.payloadTooLarge (ofBigEndian length)) := by
  have hfield : ((destination ++ length ++ rest).drop 4).take 4 = length := by
    rw [List.append_assoc, List.drop_left' hdestination, List.take_left' hlength]
  unfold payloadBodyLength?
  dsimp only
  rw [hfield, hlength, if_neg (Nat.lt_irrefl 4), if_pos hlarge]
  rfl

/-- The first bytes are found to be at fault just where they are. -/
theorem frameLength?_eq_error_iff : frameLength? direction s = .error e ↔ HeaderFault s e := by
  constructor
  · intro h
    unfold frameLength? at h
    split at h
    · cases h
    · rename_i b body
      split at h
      · rename_i hnone
        obtain rfl := Except.error.inj h
        apply HeaderFault.kind
        rintro kind rfl
        rw [MessageKind.ofByte?_byte] at hnone
        cases hnone
      · rename_i kind hkind
        split at h
        · rename_i e' hbody
          obtain rfl := Except.error.inj h
          have hpayload := hasPayload_of_bodyLength? hbody
          obtain ⟨extra, hextra⟩ := exists_extra hpayload direction
          rw [hextra] at hbody
          obtain ⟨destination, length, rest, rfl, hdestination, hlength, hlarge, rfl⟩ :=
            exists_of_payloadBodyLength? hbody
          rw [← MessageKind.byte_of_ofByte? hkind]
          exact .payload hpayload hdestination hlength hlarge
        · cases h
        · cases h
  · intro h
    cases h with
    | kind hkind =>
      rename_i b body
      have hnone : MessageKind.ofByte? b = none := by
        cases hofByte : MessageKind.ofByte? b with
        | none => rfl
        | some kind => exact absurd (MessageKind.byte_of_ofByte? hofByte) (hkind kind)
      simp only [frameLength?, hnone]
      rfl
    | payload hkind hdestination hlength hlarge =>
      obtain ⟨extra, hextra⟩ := exists_extra hkind direction
      simp only [frameLength?, MessageKind.ofByte?_byte, hextra,
        payloadBodyLength?_of_large hdestination hlength hlarge]
      rfl

/-! ## Faults of the fields -/

theorem portOfNumber_eq_error {n : Int32} (h : portOfNumber n = .error e) :
    e = .invalidPort n ∧ (n.toInt < 0 ∨ 65536 ≤ n.toInt) := by
  unfold portOfNumber at h
  split at h
  · cases h
  · exact ⟨(Except.error.inj h).symm, by omega⟩

theorem portOrNone_eq_error {n : Int32} (h : portOrNone n = .error e) :
    e = .invalidPort n ∧ (n.toInt < -1 ∨ 65536 ≤ n.toInt) := by
  unfold portOrNone at h
  split at h
  · cases h
  · rename_i hne
    obtain ⟨he, hrange⟩ := portOfNumber_eq_error (eq_error_of_map h)
    have hminus : n.toInt ≠ -1 := fun heq => hne (Int32.toInt_inj.1 heq)
    exact ⟨he, by omega⟩

theorem reasonOfCode_eq_error {code : UInt8} (h : reasonOfCode code = .error e) :
    e = .unknownRejectReason code ∧ ∀ reason : RejectReason, reason.code ≠ code := by
  unfold reasonOfCode at h
  split at h
  · cases h
  · rename_i hnone
    refine ⟨(Except.error.inj h).symm, ?_⟩
    rintro reason rfl
    rw [RejectReason.ofCode?_code] at hnone
    cases hnone

theorem federationIdOfBytes_eq_error {bytes : Bytes} (h : federationIdOfBytes bytes = .error e) :
    e = .invalidFederationId ∧ ∀ id, utf8 id ≠ bytes := by
  constructor
  · unfold federationIdOfBytes at h
    split at h
    · cases h
    · exact (Except.error.inj h).symm
  · rintro id rfl
    rw [federationIdOfBytes_utf8] at h
    cases h

theorem addressOfText_zeroFilled (text : Bytes) :
    addressOfText (zeroFilled text) = addressOfText text := by
  rw [addressOfText, takeWhile_zeroFilled, addressOfText]

theorem addressOfText_eq_error {text : Bytes} (h : addressOfText text = .error e) :
    e = .invalidAddress ∧ ∀ ip, putAddress ip ≠ zeroFilled text := by
  constructor
  · unfold addressOfText at h
    split at h
    · cases h
    · exact (Except.error.inj h).symm
  · intro ip heq
    rw [← addressOfText_zeroFilled, ← heq, addressOfText_putAddress] at h
    cases h

theorem fieldFault_getName {message : FederateId → String → Message}
    (hkind : kind = .join ∨ kind = .peerHello)
    (h : getName message body = some (.error e, [])) :
    FieldFault direction (kind.byte :: body) e := by
  obtain ⟨f, n, bytes, rfl, hlength, hread⟩ := getName_eq_some h
  obtain ⟨rfl, htext⟩ := federationIdOfBytes_eq_error (eq_error_of_map hread)
  rw [List.append_nil]
  exact .federationId hkind hlength htext

theorem fieldFault_getAddressReply (h : getAddressReply body = some (.error e, [])) :
    FieldFault .fromCoordinator (MessageKind.address.byte :: body) e := by
  obtain ⟨n, text, rfl, -, hread⟩ := getAddressReply_eq_some h
  rw [List.append_nil]
  cases hport : portOrNone n with
  | error e' =>
    rw [hport] at hread
    obtain rfl := Except.error.inj hread
    obtain ⟨rfl, hrange⟩ := portOrNone_eq_error hport
    exact .portOrNone (Or.inr ⟨rfl, rfl⟩) hrange
  | ok port =>
    cases hip : addressOfText text with
    | error e' =>
      rw [hport, hip] at hread
      obtain rfl := Except.error.inj hread
      obtain ⟨rfl, htext⟩ := addressOfText_eq_error hip
      exact .address rfl htext
    | ok ip =>
      rw [hport, hip] at hread
      cases hread

/-- A fault is found in a field where there is one. -/
theorem fieldFault_getBody (h : getBody direction kind body = some (.error e, [])) :
    FieldFault direction (kind.byte :: body) e := by
  cases kind with
  | resign => cases h
  | reject =>
    obtain ⟨code, hget, hread⟩ := exists_of_map_get _ h
    obtain ⟨rfl, hcode⟩ := reasonOfCode_eq_error (eq_error_of_map hread)
    rw [getUInt8_eq_some hget]
    exact .reason hcode
  | ack =>
    obtain ⟨n, hget, hread⟩ := exists_of_map_get _ h
    obtain ⟨rfl, hrange⟩ := portOrNone_eq_error (eq_error_of_map hread)
    rw [getInt32_eq_some hget]
    exact .portOrNone (Or.inl rfl) hrange
  | addressAd =>
    obtain ⟨n, hget, hread⟩ := exists_of_map_get _ h
    obtain ⟨rfl, hrange⟩ := portOfNumber_eq_error (eq_error_of_map hread)
    rw [getInt32_eq_some hget, List.append_nil]
    exact .port (Or.inl rfl) hrange
  | clockSyncT3 =>
    obtain ⟨n, hget, hread⟩ := exists_of_map_get _ h
    obtain ⟨rfl, hrange⟩ := portOfNumber_eq_error (eq_error_of_map hread)
    rw [getInt32_eq_some hget, List.append_nil]
    exact .port (Or.inr rfl) hrange
  | timestamp | stopRequest | stopRequestReply | stopGranted | clockSyncT1 | clockSyncT4
  | clockSyncCodedProbe | nextEventTag | timeAdvanceGrant | logicalTagComplete =>
    obtain ⟨x, -, hread⟩ := exists_of_map_get pure h
    cases hread
  | join => exact fieldFault_getName (Or.inl rfl) h
  | peerHello => exact fieldFault_getName (Or.inr rfl) h
  | untimed | peerUntimed =>
    obtain ⟨port, f, n, payload, -, -, hread⟩ := getUntimed_eq_some h
    cases hread
  | timed | peerTimed =>
    obtain ⟨port, f, n, t, payload, -, -, hread⟩ := getTimed_eq_some h
    cases hread
  | address =>
    cases direction with
    | toCoordinator =>
      obtain ⟨x, -, heq⟩ := Option.map_eq_some_iff.1 h
      cases heq
    | fromCoordinator => exact fieldFault_getAddressReply h

theorem IsFrame.fieldFault (h : IsFrame direction frame (.error e)) :
    FieldFault direction frame e := by
  obtain ⟨kind, body, rfl, -, hget⟩ := h.exists_body
  exact fieldFault_getBody hget

/-! ## Lengths -/

/-- The longest frame: its kind, a destination, a length, a tag and the largest payload. -/
def maxFrame : Nat := 1 + payloadHeaderLength + tagLength + maxPayload

theorem namedBodyLength?_le {n : Nat} (h : namedBodyLength? body = some n) : n ≤ 258 := by
  obtain ⟨k, -, rfl⟩ := Option.map_eq_some_iff.1 h
  have hk := k.toNat_lt
  omega

theorem bodyLength?_le {n : Nat} (h : bodyLength? direction body kind = .ok (some n)) :
    n ≤ payloadHeaderLength + tagLength + maxPayload := by
  have of_le {k : Nat} (hle : k ≤ 258)
      (h : Except.ok (some k) = (.ok (some n) : Except Error (Option Nat))) :
      n ≤ payloadHeaderLength + tagLength + maxPayload := by
    obtain rfl := Option.some.inj (Except.ok.inj h)
    unfold payloadHeaderLength tagLength maxPayload
    omega
  cases kind with
  | join | peerHello => exact of_le (namedBodyLength?_le (Except.ok.inj h)) rfl
  | untimed | peerUntimed => exact Nat.le_trans (payloadBodyLength?_bounds h).2 (by decide)
  | timed | peerTimed => exact (payloadBodyLength?_bounds h).2
  | address => cases direction <;> exact of_le (by decide) h
  | _ => exact of_le (by decide) h

/-- No frame is longer than the longest. -/
theorem frameLength?_le {n : Nat} (h : frameLength? direction s = .ok (some n)) :
    n ≤ maxFrame := by
  obtain ⟨b, body, kind, k, rfl, -, hk, rfl⟩ := exists_body_of_frameLength? h
  have hle := bodyLength?_le hk
  unfold maxFrame
  omega

theorem bodyLength?_ne_none (h : payloadHeaderLength ≤ body.length) :
    bodyLength? direction body kind ≠ .ok none := by
  cases kind with
  | join | peerHello =>
    intro hnone
    have hshort := Option.map_eq_none_iff.1 (Except.ok.inj hnone)
    rw [List.getElem?_eq_none_iff] at hshort
    unfold payloadHeaderLength at h
    omega
  | untimed | peerUntimed | timed | peerTimed => exact payloadBodyLength?_ne_none h
  | address => cases direction <;> nofun
  | _ => nofun

/-- The first bytes of a buffer tell the length of the frame, or that they are at fault. -/
theorem frameLength?_ne_none (h : payloadHeaderLength < s.length) :
    frameLength? direction s ≠ .ok none := by
  cases s with
  | nil => exact absurd h (Nat.not_lt_zero _)
  | cons b body =>
    intro hnone
    unfold frameLength? at hnone
    dsimp only at hnone
    split at hnone
    · cases hnone
    · split at hnone
      · cases hnone
      · rename_i hbody
        exact bodyLength?_ne_none (Nat.le_of_lt_succ h) hbody
      · cases hnone

theorem not_unfinished (h : maxFrame ≤ s.length) : ¬ Unfinished direction s := by
  rintro (hnone | ⟨n, hn, hlt⟩)
  · have hheader : payloadHeaderLength < maxFrame := by decide
    exact frameLength?_ne_none (Nat.lt_of_lt_of_le hheader h) hnone
  · have hle := frameLength?_le hn
    omega

/-! ## Outcomes -/

/-- What can come of reading from a buffer. -/
inductive Outcome where
  /-- The frame is not complete. -/
  | incomplete
  /-- The first bytes are at fault. -/
  | refused (e : Error)
  | message (m : Message)
  /-- A field of the frame is at fault. -/
  | faulty (e : Error)
deriving DecidableEq

/-- The outcome as the decoder gives it. -/
def Outcome.result : Outcome → Except Error (Option Message)
  | incomplete => .ok none
  | message m => .ok (some m)
  | refused e | faulty e => .error e

/-- What comes of reading from a buffer, and what is left in it. A frame that is taken is read to
its last byte, and is the same whatever stands behind it. -/
inductive Comes (direction : Direction) : Bytes → Outcome → Bytes → Prop
  | incomplete {s : Bytes} (h : Unfinished direction s) : Comes direction s .incomplete s
  | refused {s : Bytes} {e : Error} (h : HeaderFault s e) : Comes direction s (.refused e) s
  | message {frame rest : Bytes} {m : Message} (h : IsFrame direction frame (.ok m)) :
    Comes direction (frame ++ rest) (.message m) rest
  | faulty {frame rest : Bytes} {e : Error} (h : IsFrame direction frame (.error e))
    (hfault : FieldFault direction frame e) : Comes direction (frame ++ rest) (.faulty e) rest

variable {o o' : Outcome} {rest' : Bytes}

theorem Comes.decode_eq (h : Comes direction s o rest) :
    decode direction s = ⟨o.result, rest⟩ := by
  cases h with
  | incomplete h => exact h.decode_eq
  | refused h =>
    rw [decode, frameLength?_eq_error_iff.2 h]
    rfl
  | message h => exact h.decode_append rest
  | faulty h => exact h.decode_append rest

theorem exists_comes (direction : Direction) (s : Bytes) : ∃ o rest, Comes direction s o rest := by
  rcases buffer_cases direction s with hunfinished | ⟨e, he⟩ | ⟨frame, rest, reading, rfl, hframe⟩
  · exact ⟨.incomplete, s, .incomplete hunfinished⟩
  · exact ⟨.refused e, s, .refused (frameLength?_eq_error_iff.1 he)⟩
  · cases reading with
    | error e => exact ⟨.faulty e, rest, .faulty hframe hframe.fieldFault⟩
    | ok m => exact ⟨.message m, rest, .message hframe⟩

/-- An outcome that takes a frame leaves less than one that does not. -/
theorem Comes.length_rest (h : Comes direction s o rest) :
    match o with
    | .incomplete | .refused _ => rest.length = s.length
    | .message _ | .faulty _ => rest.length < s.length := by
  cases h with
  | incomplete => rfl
  | refused => rfl
  | message h | faulty h =>
    have hpos := h.length_pos
    simp only [List.length_append]
    omega

/-- Reading from a long buffer is not put off. -/
theorem Comes.result_ne_none (h : Comes direction s o rest) (hlong : maxFrame ≤ s.length) :
    o.result ≠ .ok none := by
  cases h with
  | incomplete h => exact absurd h (not_unfinished hlong)
  | refused => nofun
  | message => nofun
  | faulty => nofun

/-- Only one thing comes of reading from a buffer. -/
theorem Comes.unique (h : Comes direction s o rest) (h' : Comes direction s o' rest') :
    o' = o ∧ rest' = rest := by
  have heq : (⟨o'.result, rest'⟩ : Decoded) = ⟨o.result, rest⟩ :=
    h'.decode_eq.symm.trans h.decode_eq
  obtain ⟨hresult, rfl⟩ := Decoded.mk.inj heq
  have hlength := h.length_rest
  have hlength' := h'.length_rest
  refine ⟨?_, rfl⟩
  cases o <;> cases o' <;> simp_all [Outcome.result]

/-- Of reading from a buffer comes one of four things, and only one; a frame that is not complete
can be completed, and no frame is longer than the largest payload and 21 bytes. -/
theorem decode_outcome (direction : Direction) (s : Bytes) :
    (∃ o, Comes direction s o (decode direction s).rest ∧ (decode direction s).result = o.result ∧
      ∀ o' rest', Comes direction s o' rest' → o' = o ∧ rest' = (decode direction s).rest) ∧
    ((decode direction s).result = .ok none →
      ∃ more, (decode direction (s ++ more)).result ≠ .ok none) ∧
    ∀ n, frameLength? direction s = .ok (some n) → n ≤ maxPayload + 21 := by
  refine ⟨?_, fun _ => ⟨List.replicate maxFrame 0, ?_⟩, fun n hn => frameLength?_le hn⟩
  · obtain ⟨o, rest, hcomes⟩ := exists_comes direction s
    rw [hcomes.decode_eq]
    exact ⟨o, hcomes, rfl, fun o' rest' => hcomes.unique⟩
  · obtain ⟨o, rest, hcomes⟩ := exists_comes direction (s ++ List.replicate maxFrame 0)
    rw [hcomes.decode_eq]
    exact hcomes.result_ne_none (by simp)

/-- The frame of a payload of two bytes, without the last of them. -/
def unfinished : Bytes := [3, 0, 0, 0, 1, 0, 0, 0, 2, 9]

/-- The first bytes of the frame of a payload that is too large by one byte. -/
def oversized : Bytes := [3, 0, 0, 0, 1, 1, 0, 0, 1]

theorem decode_outcome_untimed :
    (decode .toCoordinator unfinished).result = .ok none ∧
    (∃ more, (decode .toCoordinator (unfinished ++ more)).result ≠ .ok none) ∧
    frameLength? .toCoordinator unfinished = .ok (some 11) ∧ 11 ≤ maxPayload + 21 ∧
    Comes .toCoordinator oversized (.refused (.payloadTooLarge 16777217)) oversized ∧
    ∀ o rest, Comes .toCoordinator oversized o rest →
      o = .refused (.payloadTooLarge 16777217) ∧ rest = oversized := by
  have hnone : (decode .toCoordinator unfinished).result = .ok none := rfl
  have hlength : frameLength? .toCoordinator unfinished = .ok (some 11) := rfl
  have hlarge : frameLength? .toCoordinator oversized = .error (.payloadTooLarge 16777217) := rfl
  have hcomes : Comes .toCoordinator oversized (.refused (.payloadTooLarge 16777217)) oversized :=
    .refused (frameLength?_eq_error_iff.1 hlarge)
  obtain ⟨-, hmore, hle⟩ := decode_outcome .toCoordinator unfinished
  obtain ⟨⟨o, -, -, hunique⟩, -, -⟩ := decode_outcome .toCoordinator oversized
  obtain ⟨rfl, -⟩ := hunique _ _ hcomes
  exact ⟨hnone, hmore hnone, hlength, hle 11 hlength, hcomes, hunique⟩

end Wire

end FederatedTime
