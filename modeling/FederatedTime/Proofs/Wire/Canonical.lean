import FederatedTime.Proofs.Wire.Reading

/-!
# The canonical form of a frame

A message is read from the very bytes that are written of it (`encode_of_decode`): each field that
is read is written as the bytes it was read from (`rewrites_getBody`). There is one exception. The
text of an address ends with its first zero byte, and what stands behind that in a reply is read by
nobody; when the reply is written again, it is zero.
-/

namespace FederatedTime

namespace Wire

/-! ## The exception -/

/-- The bytes of a text up to its first zero byte, and zero bytes from there on. -/
def zeroFilled (text : Bytes) : Bytes :=
  let front := text.takeWhile (· ≠ 0)
  front ++ List.replicate (text.length - front.length) 0

/-- The byte of its kind and the port come before the address in a reply. -/
def addressOffset : Nat := 5

@[simp] theorem length_zeroFilled (text : Bytes) : (zeroFilled text).length = text.length := by
  have hle := (List.takeWhile_prefix (l := text) (· ≠ 0)).length_le
  simp only [zeroFilled, List.length_append, List.length_replicate]
  omega

@[simp] theorem takeWhile_zeroFilled (text : Bytes) :
    (zeroFilled text).takeWhile (· ≠ 0) = text.takeWhile (· ≠ 0) := by
  apply takeWhile_append_zeros
  intro b hb
  exact of_decide_eq_true (List.all_eq_true.1 List.all_takeWhile b hb)

theorem takeWhile_eq_of_zeroFilled_eq {text text' : Bytes}
    (h : zeroFilled text = zeroFilled text') :
    text.takeWhile (· ≠ 0) = text'.takeWhile (· ≠ 0) := by
  rw [← takeWhile_zeroFilled text, h, takeWhile_zeroFilled]

/-- The frames of two replies differ in nothing but what stands behind the address. -/
structure DifferInPadding (frame frame' : Bytes) : Prop where
  length : frame.length = frame'.length
  port : frame.take addressOffset = frame'.take addressOffset
  address : (frame.drop addressOffset).takeWhile (· ≠ 0) =
    (frame'.drop addressOffset).takeWhile (· ≠ 0)

end Wire

namespace Message

/-- The frame of a message as it is written, given one that the message was read from. -/
def canonical (frame : Wire.Bytes) : Message → Wire.Bytes
  | .addressQueryReply _ _ =>
    frame.take Wire.addressOffset ++ Wire.zeroFilled (frame.drop Wire.addressOffset)
  | _ => frame

theorem length_canonical (frame : Wire.Bytes) (m : Message) :
    (m.canonical frame).length = frame.length := by
  cases m with
  | addressQueryReply =>
    rw [canonical, List.length_append, Wire.length_zeroFilled, ← List.length_append,
      List.take_append_drop]
  | _ => rfl

theorem eq_or_differInPadding {frame frame' : Wire.Bytes} {m : Message}
    (h : m.canonical frame = m.canonical frame') : frame = frame' ∨
      (∃ port ip, m = addressQueryReply port ip) ∧ Wire.DifferInPadding frame frame' := by
  have hlength := congrArg List.length h
  rw [length_canonical, length_canonical] at hlength
  cases m with
  | addressQueryReply port ip =>
    have htake : (frame.take Wire.addressOffset).length =
        (frame'.take Wire.addressOffset).length := by
      rw [List.length_take, List.length_take, hlength]
    obtain ⟨hport, htext⟩ := List.append_inj h htake
    exact Or.inr ⟨⟨port, ip, rfl⟩, hlength, hport, Wire.takeWhile_eq_of_zeroFilled_eq htext⟩
  | _ => exact Or.inl h

end Message

namespace Wire

variable {direction : Direction} {m : Message} {s body frame rest : Bytes}

/-! ## Fields -/

theorem putPort_of_portOfNumber {n : Int32} {port : UInt16} (h : portOfNumber n = .ok port) :
    putPort (some port) = putInt32 n := by
  unfold portOfNumber at h
  split at h
  · rename_i hrange
    obtain rfl := Except.ok.inj h
    have hlt : n.toInt.toNat < 65536 := by omega
    have hn : Int32.ofNat n.toInt.toNat = n := by
      apply Int32.toInt_inj.1
      rw [Int32.toInt_ofNat_of_lt (Nat.lt_trans hlt (by decide))]
      omega
    rw [putPort, UInt16.toNat_ofNat_of_lt' hlt, hn]
  · cases h

theorem putPort_of_portOrNone {n : Int32} {port : Option UInt16} (h : portOrNone n = .ok port) :
    putPort port = putInt32 n := by
  unfold portOrNone at h
  split at h
  · rename_i hnone
    obtain rfl := Except.ok.inj h
    rw [hnone]
    rfl
  · cases hport : portOfNumber n with
    | error e =>
      rw [hport] at h
      cases h
    | ok port =>
      rw [hport] at h
      obtain rfl := Except.ok.inj h
      exact putPort_of_portOfNumber hport

theorem code_of_reasonOfCode {code : UInt8} {reason : RejectReason}
    (h : reasonOfCode code = .ok reason) : reason.code = code := by
  unfold reasonOfCode at h
  split at h
  · rename_i hcode
    obtain rfl := Except.ok.inj h
    simpa using List.find?_some hcode
  · cases h

theorem utf8_of_federationIdOfBytes {id : String} (h : federationIdOfBytes body = .ok id) :
    utf8 id = body := by
  unfold federationIdOfBytes at h
  split at h
  · rename_i id' hid
    obtain rfl := Except.ok.inj h
    unfold String.fromUTF8? at hid
    split at hid
    · rw [← Option.some.inj hid]
      rfl
    · cases hid
  · cases h

theorem map_ofNat_map_ofNat_bytes (bytes : Bytes) :
    (bytes.map fun b => Char.ofNat b.toNat).map (fun c => UInt8.ofNat c.toNat) = bytes := by
  rw [List.map_map]
  refine (List.map_congr_left fun b _ => ?_).trans (List.map_id bytes)
  have hvalid : b.toNat.isValidChar := Or.inl (Nat.lt_trans b.toNat_lt (by decide))
  have hchar : (Char.ofNat b.toNat).toNat = b.toNat := by
    rw [Char.ofNat, dif_pos hvalid]
    rfl
  rw [Function.comp_apply, hchar, UInt8.ofNat_toNat, id]

theorem putAddress_of_addressOfText {text : Bytes} {ip : Ipv4} (h : addressOfText text = .ok ip)
    (hlength : text.length = addressTextWidth) : putAddress ip = zeroFilled text := by
  unfold addressOfText at h
  split at h
  · rename_i ip' hread
    obtain rfl := Except.ok.inj h
    have hchars := Ipv4.ofChars?_eq_some_iff.1 hread
    unfold putAddress zeroFilled
    dsimp only
    rw [← hchars, map_ofNat_map_ofNat_bytes, hlength]
  · cases h

/-! ## Bodies -/

/-- The message is written as the bytes of a body of that kind, but for what ends an address. -/
def Rewrites (kind : MessageKind) (body : Bytes) (m : Message) : Prop :=
  m.kind = kind ∧ ∃ written, putBody m = .ok written ∧ ∀ b, m.canonical (b :: body) = b :: written

theorem exists_of_getName {message : FederateId → String → Message}
    (h : getName message body = some (.ok m, [])) :
    ∃ f id, m = message f id ∧ putName f id = .ok body := by
  obtain ⟨f, n, bytes, rfl, hlength, hread⟩ := getName_eq_some h
  obtain ⟨id, hid, rfl⟩ := exists_of_map_eq_ok hread
  have hutf8 := utf8_of_federationIdOfBytes hid
  have hshort : (utf8 id).length < 256 := by
    rw [hutf8, hlength]
    exact n.toNat_lt
  refine ⟨⟨f⟩, id, rfl, ?_⟩
  rw [putName_eq hshort, named, hutf8, hlength, UInt8.ofNat_toNat, List.append_nil]

/-- A payload that has been read is one that can be written. -/
theorem putPayload_eq_body {port f : UInt16} {n : UInt32} {extra payload : Bytes}
    (hbody : payloadBodyLength? extra.length body = .ok (some body.length))
    (heq : body = putUInt16 port ++ (putUInt16 f ++ (putUInt32 n ++ (extra ++ payload))))
    (hlength : payload.length = n.toNat) :
    putPayload ⟨port⟩ ⟨f⟩ extra payload = .ok body := by
  have hfits : payload.length ≤ maxPayload := by
    have hle := (payloadBodyLength?_bounds hbody).2
    simp only [heq, payloadHeaderLength, List.length_append, length_putUInt16,
      length_putUInt32] at hle
    omega
  rw [putPayload_eq hfits, addressed, hlength, UInt32.ofNat_toNat, heq]
  simp only [List.append_assoc]

theorem exists_of_getUntimed {message : UntimedMessage → Message}
    (hbody : payloadBodyLength? 0 body = .ok (some body.length))
    (h : getUntimed message body = some (.ok m, [])) :
    ∃ x, m = message x ∧ putPayload x.port x.federate [] x.payload = .ok body := by
  obtain ⟨port, f, n, payload, heq, hlength, hread⟩ := getUntimed_eq_some h
  obtain rfl := Except.ok.inj hread
  rw [List.append_nil] at heq
  exact ⟨_, rfl, putPayload_eq_body hbody heq hlength⟩

theorem exists_of_getTimed {message : TimedMessage → Message}
    (hbody : payloadBodyLength? tagLength body = .ok (some body.length))
    (h : getTimed message body = some (.ok m, [])) :
    ∃ x, m = message x ∧ putPayload x.port x.federate (putTag x.tag) x.payload = .ok body := by
  obtain ⟨port, f, n, t, payload, heq, hlength, hread⟩ := getTimed_eq_some h
  obtain rfl := Except.ok.inj hread
  rw [List.append_nil] at heq
  rw [← length_putTag t] at hbody
  exact ⟨_, rfl, putPayload_eq_body hbody heq hlength⟩

theorem rewrites_getAddressReply (h : getAddressReply body = some (.ok m, [])) :
    Rewrites .address body m := by
  obtain ⟨n, text, rfl, hlength, hread⟩ := getAddressReply_eq_some h
  cases hport : portOrNone n with
  | error e =>
    rw [hport] at hread
    cases hread
  | ok port =>
    cases hip : addressOfText text with
    | error e =>
      rw [hport, hip] at hread
      cases hread
    | ok ip =>
      rw [hport, hip] at hread
      obtain rfl := Except.ok.inj hread
      refine ⟨rfl, putPort port ++ putAddress ip, rfl, fun b => ?_⟩
      have htake : (b :: (putInt32 n ++ text)).take addressOffset = b :: putInt32 n :=
        congrArg (b :: ·) (List.take_left' (length_putInt32 n))
      have hdrop : (b :: (putInt32 n ++ text)).drop addressOffset = text :=
        List.drop_left' (length_putInt32 n)
      rw [List.append_nil, putPort_of_portOrNone hport, putAddress_of_addressOfText hip hlength,
        Message.canonical, htake, hdrop, List.cons_append]

/-- What is read from a body is written as the bytes of it. -/
theorem rewrites_getBody {kind : MessageKind}
    (hbody : bodyLength? direction body kind = .ok (some body.length))
    (h : getBody direction kind body = some (.ok m, [])) : Rewrites kind body m := by
  cases kind with
  | resign =>
    obtain ⟨hread, rfl⟩ := Prod.mk.inj (Option.some.inj h)
    obtain rfl := Except.ok.inj hread
    exact ⟨rfl, [], rfl, fun b => rfl⟩
  | reject =>
    obtain ⟨code, hget, hread⟩ := exists_of_map_get _ h
    obtain ⟨reason, hreason, rfl⟩ := exists_of_map_eq_ok hread
    rw [getUInt8_eq_some hget, ← code_of_reasonOfCode hreason]
    exact ⟨rfl, _, rfl, fun b => rfl⟩
  | ack =>
    obtain ⟨n, hget, hread⟩ := exists_of_map_get _ h
    obtain ⟨port, hport, rfl⟩ := exists_of_map_eq_ok hread
    rw [getInt32_eq_some hget, ← putPort_of_portOrNone hport, List.append_nil]
    exact ⟨rfl, _, rfl, fun b => rfl⟩
  | addressAd | clockSyncT3 =>
    obtain ⟨n, hget, hread⟩ := exists_of_map_get _ h
    obtain ⟨port, hport, rfl⟩ := exists_of_map_eq_ok hread
    rw [getInt32_eq_some hget, ← putPort_of_portOfNumber hport, List.append_nil]
    exact ⟨rfl, _, rfl, fun b => rfl⟩
  | timestamp | stopRequest | stopRequestReply | stopGranted | clockSyncT1 | clockSyncT4
  | clockSyncCodedProbe =>
    obtain ⟨time, hget, hread⟩ := exists_of_map_get pure h
    obtain rfl := Except.ok.inj hread
    rw [getInt64_eq_some hget, List.append_nil]
    exact ⟨rfl, _, rfl, fun b => rfl⟩
  | nextEventTag | timeAdvanceGrant | logicalTagComplete =>
    obtain ⟨t, hget, hread⟩ := exists_of_map_get pure h
    obtain rfl := Except.ok.inj hread
    rw [getTag_eq_some hget, List.append_nil]
    exact ⟨rfl, _, rfl, fun b => rfl⟩
  | join | peerHello =>
    obtain ⟨f, id, rfl, hput⟩ := exists_of_getName h
    exact ⟨rfl, _, hput, fun b => rfl⟩
  | untimed | peerUntimed =>
    obtain ⟨x, rfl, hput⟩ := exists_of_getUntimed hbody h
    exact ⟨rfl, _, hput, fun b => rfl⟩
  | timed | peerTimed =>
    obtain ⟨x, rfl, hput⟩ := exists_of_getTimed hbody h
    exact ⟨rfl, _, hput, fun b => rfl⟩
  | address =>
    cases direction with
    | toCoordinator =>
      obtain ⟨⟨f, rest⟩, hget, heq⟩ := Option.map_eq_some_iff.1 h
      obtain ⟨hread, rfl⟩ := Prod.mk.inj heq
      obtain rfl := Except.ok.inj hread
      rw [getUInt16_eq_some hget, List.append_nil]
      exact ⟨rfl, _, rfl, fun b => rfl⟩
    | fromCoordinator => exact rewrites_getAddressReply h

/-! ## Frames -/

/-- A message is written as the frame that it was read from. -/
theorem IsFrame.exists_putBody (h : IsFrame direction frame (.ok m)) :
    ∃ body, putBody m = .ok body ∧ m.canonical frame = m.typeByte :: body := by
  obtain ⟨kind, body, rfl, hbody, hget⟩ := h.exists_body
  obtain ⟨rfl, written, hput, hcanonical⟩ := rewrites_getBody hbody hget
  exact ⟨written, hput, hcanonical _⟩

theorem IsFrame.encode_eq (h : IsFrame direction frame (.ok m)) (buffer : Bytes) :
    encode m buffer = (.ok (), buffer ++ m.canonical frame) := by
  obtain ⟨body, hput, hcanonical⟩ := h.exists_putBody
  rw [encode, hput, hcanonical]

/-- A message that is read takes as many bytes from the buffer as are written of it. -/
theorem length_of_decode (h : decode direction s = ⟨.ok (some m), rest⟩) :
    ∃ body, putBody m = .ok body ∧ s.length = (m.typeByte :: body).length + rest.length := by
  obtain ⟨frame, rfl, hframe⟩ := exists_frame_of_decode h
  obtain ⟨body, hput, hcanonical⟩ := hframe.exists_putBody
  refine ⟨body, hput, ?_⟩
  rw [List.length_append, ← hcanonical, Message.length_canonical]

/-- A message that is read is written as the very bytes that it was read from, except that zero
bytes fill up the address of a reply. So no other bytes are read as the same message, unless they
are those of a reply with something else behind its address. -/
theorem encode_of_decode (h : decode direction s = ⟨.ok (some m), rest⟩) :
    ∃ frame, s = frame ++ rest ∧
      (∀ buffer, encode m buffer = (.ok (), buffer ++ m.canonical frame)) ∧
      (∀ port ip, m = .addressQueryReply port ip →
        frame.length = addressOffset + addressTextWidth) ∧
      ∀ frame' rest', decode direction (frame' ++ rest') = ⟨.ok (some m), rest'⟩ →
        frame = frame' ∨
          (∃ port ip, m = .addressQueryReply port ip) ∧ DifferInPadding frame frame' := by
  obtain ⟨frame, rfl, hframe⟩ := exists_frame_of_decode h
  refine ⟨frame, rfl, hframe.encode_eq, ?_, ?_⟩
  · rintro port ip rfl
    obtain ⟨body, hput, hcanonical⟩ := hframe.exists_putBody
    obtain rfl := Except.ok.inj hput
    have hlength := congrArg List.length hcanonical
    rw [Message.length_canonical] at hlength
    simp [hlength, addressOffset, addressTextWidth]
  · intro frame' rest' h'
    obtain ⟨frame'', heq, hframe'⟩ := exists_frame_of_decode h'
    obtain rfl := List.append_cancel_right heq
    apply Message.eq_or_differInPadding
    have hwritten := (hframe.encode_eq []).symm.trans (hframe'.encode_eq [])
    exact (Prod.mk.inj hwritten).2

/-- The address `10.0.0.12` with port 4000, and with the given bytes behind it. -/
def reply (padding : Bytes) : Bytes :=
  [12, 0, 0, 15, 160, 49, 48, 46, 48, 46, 48, 46, 49, 50, 0] ++ padding

/-- A reply whose address is not followed by zero bytes only. -/
theorem encode_of_decode_reply :
    decode .fromCoordinator (reply [7, 7, 7, 0, 7, 7] ++ [4]) =
      ⟨.ok (some (.addressQueryReply (some 4000) ⟨10, 0, 0, 12⟩)), [4]⟩ ∧
    ∃ frame, reply [7, 7, 7, 0, 7, 7] ++ [4] = frame ++ [4] ∧
      (∀ buffer, encode (.addressQueryReply (some 4000) ⟨10, 0, 0, 12⟩) buffer =
        (.ok (), buffer ++ reply [0, 0, 0, 0, 0, 0])) ∧
      (∀ frame' rest', decode .fromCoordinator (frame' ++ rest') =
          ⟨.ok (some (.addressQueryReply (some 4000) ⟨10, 0, 0, 12⟩)), rest'⟩ →
        DifferInPadding frame frame') := by
  have hdecode : decode .fromCoordinator (reply [7, 7, 7, 0, 7, 7] ++ [4]) =
      ⟨.ok (some (.addressQueryReply (some 4000) ⟨10, 0, 0, 12⟩)), [4]⟩ := by
    rfl
  obtain ⟨frame, heq, hencode, -, hunique⟩ := encode_of_decode hdecode
  obtain rfl := List.append_cancel_right heq
  refine ⟨hdecode, _, rfl, hencode, fun frame' rest' h' => ?_⟩
  rcases hunique frame' rest' h' with rfl | ⟨-, hdiffer⟩
  · exact ⟨rfl, rfl, rfl⟩
  · exact hdiffer

end Wire

end FederatedTime
