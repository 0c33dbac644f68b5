import FederatedTime.Proofs.Wire.Fields
import FederatedTime.Proofs.Wire.Frame

/-!
# Reading messages back

A message is laid out three times: by `putBody`, by `getBody` and by `bodyLength?`. `Lays` is that
the three agree on the body of a message; they do for every message whose parts fit their length
fields (`exists_lays`). So what `encode` writes is read back as it is, behind it the buffer is left
alone, and any part of it is incomplete (`decode_encode`).
-/

namespace FederatedTime

namespace Message

/-- The federation id or the payload of a message fits its length field. -/
def Fits : Message → Prop
  | join _ id | peerHello _ id => (Wire.utf8 id).length ≤ 255
  | untimed m | peerUntimed m => m.payload.length ≤ Wire.maxPayload
  | timed m | peerTimed m => m.payload.length ≤ Wire.maxPayload
  | _ => True

/-- A query for an address is read on its way to the coordinator, the reply on its way from there,
and any other message either way. -/
def Travels (direction : Wire.Direction) : Message → Prop
  | addressQuery _ => direction = .toCoordinator
  | addressQueryReply _ _ => direction = .fromCoordinator
  | _ => True

end Message

namespace Wire

variable {direction : Direction} {m : Message} {body : Bytes}

/-! ## Bodies -/

/-- The bytes are the body of a message for its writer and for its reader, and so is their
length. -/
structure Lays (direction : Direction) (m : Message) (body : Bytes) : Prop where
  put : putBody m = .ok body
  get : ∀ rest, getBody direction m.kind (body ++ rest) = some (pure m, rest)
  length : bodyLength? direction body m.kind = .ok (some body.length)

theorem getTime_putInt64 (message : Int64 → Message) (time : Int64) (rest : Bytes) :
    getTime message (putInt64 time ++ rest) = some (pure (message time), rest) := by
  simp [getTime]

theorem getTagged_putTag (message : Tag → Message) (t : Tag) (rest : Bytes) :
    getTagged message (putTag t ++ rest) = some (pure (message t), rest) := by
  simp [getTagged]

theorem getAddressReply_append (port : Option UInt16) (ip : Ipv4) (rest : Bytes) :
    getAddressReply (putPort port ++ putAddress ip ++ rest) =
      some (pure (.addressQueryReply port ip), rest) := by
  obtain ⟨n, hn, hport⟩ := getInt32_putPort port
  rw [List.append_assoc]
  simp only [getAddressReply, hn, take_append (length_putAddress ip), hport,
    addressOfText_putAddress, Option.bind_eq_bind, Option.bind_some]
  rfl

theorem exists_lays (hfits : m.Fits) (htravels : m.Travels direction) :
    ∃ body, Lays direction m body := by
  cases m with
  | reject reason =>
    refine ⟨[reason.code], rfl, fun rest => ?_, rfl⟩
    simp [Message.kind, getBody, reasonOfCode, RejectReason.ofCode?_code]
  | ack port =>
    obtain ⟨n, hn, hport⟩ := getInt32_putPort port
    refine ⟨putPort port, rfl, fun rest => ?_, ?_⟩
    · simp only [Message.kind, getBody, hn, hport, Option.map_some]
      rfl
    · rw [length_putPort]
      rfl
  | join f id | peerHello f id =>
    have h : (utf8 id).length < 256 := Nat.lt_succ_of_le hfits
    exact ⟨named f id, putName_eq h, getName_named h _, congrArg pure (namedBodyLength?_named h)⟩
  | timestamp time | stopRequest time | stopRequestReply time | stopGranted time
  | clockSyncT1 time | clockSyncT4 time | clockSyncCodedProbe time =>
    exact ⟨putInt64 time, rfl, getTime_putInt64 _ time, rfl⟩
  | nextEventTag t | timeAdvanceGrant t | logicalTagComplete t =>
    exact ⟨putTag t, rfl, getTagged_putTag _ t, rfl⟩
  | resign => exact ⟨[], rfl, fun rest => rfl, rfl⟩
  | untimed m | peerUntimed m =>
    exact ⟨addressed m.port m.federate [] m.payload, putPayload_eq hfits _ _ [],
      getUntimed_addressed hfits _ _ _, payloadBodyLength?_addressed hfits _ _ []⟩
  | timed m | peerTimed m =>
    have hlength := payloadBodyLength?_addressed hfits m.port m.federate (putTag m.tag)
    rw [length_putTag] at hlength
    exact ⟨addressed m.port m.federate (putTag m.tag) m.payload, putPayload_eq hfits _ _ _,
      getTimed_addressed hfits _ _ _ m.tag, hlength⟩
  | addressQuery f =>
    have hdirection : direction = .toCoordinator := htravels
    subst hdirection
    exact ⟨putUInt16 f.number, rfl, fun rest => by simp [Message.kind, getBody], rfl⟩
  | addressQueryReply port ip =>
    have hdirection : direction = .fromCoordinator := htravels
    subst hdirection
    refine ⟨putPort port ++ putAddress ip, rfl, getAddressReply_append port ip, ?_⟩
    rw [List.length_append, length_putPort, length_putAddress]
    rfl
  | addressAd port =>
    refine ⟨putPort (some port), rfl, fun rest => ?_, rfl⟩
    simp only [Message.kind, getBody, putPort, getInt32_putInt32, portOfNumber_ofNat,
      Option.map_some]
    rfl
  | clockSyncT3 f =>
    refine ⟨putPort (some f.number), rfl, fun rest => ?_, rfl⟩
    simp only [Message.kind, getBody, putPort, getInt32_putInt32, portOfNumber_ofNat,
      Option.map_some]
    rfl

/-! ## Frames -/

namespace Lays

variable (h : Lays direction m body)

include h

theorem encode_eq (buffer : Bytes) :
    encode m buffer = (.ok (), buffer ++ m.typeByte :: body) := by
  rw [encode, h.put]

theorem frameLength?_eq :
    frameLength? direction (m.typeByte :: body) = .ok (some (m.typeByte :: body).length) := by
  simp only [frameLength?, Message.typeByte, MessageKind.ofByte?_byte, h.length]
  rfl

theorem decode_eq : decode direction (m.typeByte :: body) = ⟨.ok (some m), []⟩ := by
  have hget : getMessage direction (m.typeByte :: body) = some (pure m, []) := by
    have hbody := h.get []
    rw [List.append_nil] at hbody
    simp only [getMessage, Message.typeByte, MessageKind.ofByte?_byte, hbody]
  rw [decode, h.frameLength?_eq]
  dsimp only
  rw [if_neg (Nat.lt_irrefl _), List.take_length, List.drop_length, hget]
  rfl

/-- Too short a part of a frame is incomplete, whether or not it tells the length of the frame. -/
theorem decode_part {part : Bytes} (hpart : part <+: m.typeByte :: body)
    (hne : part ≠ m.typeByte :: body) : decode direction part = ⟨.ok none, part⟩ := by
  have hlength : part.length < (m.typeByte :: body).length :=
    Nat.lt_of_le_of_ne hpart.length_le fun heq => hne (hpart.eq_of_length heq)
  obtain ⟨more, hmore⟩ := hpart
  rcases frameLength?_of_append (hmore ▸ h.frameLength?_eq) with hnone | hsome
  · rw [decode, hnone]
  · rw [decode, hsome, hmore]
    exact if_pos hlength

end Lays

/-- What is written of a message is a frame that is read back as the message and nothing else is
taken; a part of the frame is incomplete. -/
theorem decode_encode (m : Message) (hfits : m.Fits) (direction : Direction)
    (htravels : m.Travels direction) :
    ∃ frame, (∀ buffer, encode m buffer = (.ok (), buffer ++ frame)) ∧
      (∀ rest, decode direction (frame ++ rest) = ⟨.ok (some m), rest⟩) ∧
      ∀ part, part <+: frame → part ≠ frame → decode direction part = ⟨.ok none, part⟩ := by
  obtain ⟨body, hlays⟩ := exists_lays hfits htravels
  refine ⟨m.typeByte :: body, hlays.encode_eq, fun rest => ?_, fun part => hlays.decode_part⟩
  have hread : (decode direction (m.typeByte :: body)).result ≠ .ok none := by
    rw [hlays.decode_eq]
    nofun
  rw [decode_append hread, hlays.decode_eq, List.nil_append]

/-- The first message of a federate. -/
theorem decode_encode_join : (Message.join ⟨3⟩ "relay").Fits ∧
    (Message.join ⟨3⟩ "relay").Travels .toCoordinator ∧
    ∃ frame, (∀ buffer, encode (.join ⟨3⟩ "relay") buffer = (.ok (), buffer ++ frame)) ∧
      (∀ rest, decode .toCoordinator (frame ++ rest) = ⟨.ok (some (.join ⟨3⟩ "relay")), rest⟩) ∧
      ∀ part, part <+: frame → part ≠ frame →
        decode .toCoordinator part = ⟨.ok none, part⟩ := by
  have hfits : (Message.join ⟨3⟩ "relay").Fits := by
    show (utf8 "relay").length ≤ 255
    decide
  exact ⟨hfits, trivial, decode_encode _ hfits .toCoordinator trivial⟩

end Wire

end FederatedTime
