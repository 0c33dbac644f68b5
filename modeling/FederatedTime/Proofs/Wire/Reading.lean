import FederatedTime.Proofs.Wire.Fields
import FederatedTime.Proofs.Wire.Frame
import Mathlib.Data.List.Induction

/-!
# What a reader takes

A field is read from no other bytes than those it is written in (`getUInt16_eq_some` and its like),
and there is one to be read wherever there are bytes enough (`Takes`). So the body of a frame can
always be read, and to its end (`exists_getBody`): the readers of its fields take together as many
bytes as `bodyLength?` has told of. A buffer that is neither unfinished nor at fault in its first
bytes begins with a whole frame (`buffer_cases`).
-/

namespace FederatedTime.Wire

variable {direction : Direction} {m : Message} {s body front rest : Bytes}

/-! ## Fields and their bytes -/

theorem bigEndian_ofBigEndian (bytes : Bytes) :
    bigEndian bytes.length (ofBigEndian bytes) = bytes := by
  induction bytes using List.reverseRecOn with
  | nil => rfl
  | append_singleton bytes b ih =>
    have hb := b.toNat_lt
    have hfront : (ofBigEndian bytes * 256 + b.toNat) / 256 = ofBigEndian bytes := by omega
    have hlast : UInt8.ofNat (ofBigEndian bytes * 256 + b.toNat) = b := by
      apply UInt8.toNat_inj.1
      rw [UInt8.toNat_ofNat']
      omega
    rw [ofBigEndian_append, List.length_append, List.length_singleton, bigEndian, hfront, ih, hlast]

theorem ofBigEndian_lt (bytes : Bytes) : ofBigEndian bytes < Nat.pow 256 bytes.length := by
  induction bytes using List.reverseRecOn with
  | nil => decide
  | append_singleton bytes b ih =>
    have hb := b.toNat_lt
    rw [ofBigEndian_append, List.length_append, List.length_singleton]
    show _ < Nat.pow 256 bytes.length * 256
    omega

theorem take_eq_some {n : Nat} (h : take n s = some (front, rest)) :
    s = front ++ rest ∧ front.length = n := by
  unfold take at h
  dsimp only at h
  split at h
  · rename_i hlength
    obtain ⟨rfl, rfl⟩ := Prod.mk.inj (Option.some.inj h)
    exact ⟨(List.take_append_drop n s).symm, hlength⟩
  · cases h

theorem getNat_eq_some {width n : Nat} (h : getNat width s = some (n, rest)) :
    s = bigEndian width n ++ rest ∧ n < Nat.pow 256 width := by
  obtain ⟨⟨front, rest'⟩, htake, heq⟩ := Option.map_eq_some_iff.1 h
  obtain ⟨rfl, rfl⟩ := take_eq_some htake
  obtain ⟨rfl, rfl⟩ := Prod.mk.inj heq
  rw [bigEndian_ofBigEndian]
  exact ⟨rfl, ofBigEndian_lt front⟩

theorem getUInt8_eq_some {b : UInt8} (h : getUInt8 s = some (b, rest)) : s = b :: rest := by
  unfold getUInt8 at h
  split at h
  · obtain ⟨rfl, rfl⟩ := Prod.mk.inj (Option.some.inj h)
    rfl
  · cases h

theorem getUInt16_eq_some {x : UInt16} (h : getUInt16 s = some (x, rest)) :
    s = putUInt16 x ++ rest := by
  obtain ⟨⟨n, rest'⟩, hget, heq⟩ := Option.map_eq_some_iff.1 h
  obtain ⟨rfl, rfl⟩ := Prod.mk.inj heq
  obtain ⟨hs, hlt⟩ := getNat_eq_some hget
  rw [putUInt16, UInt16.toNat_ofNat_of_lt' hlt]
  exact hs

theorem getUInt32_eq_some {x : UInt32} (h : getUInt32 s = some (x, rest)) :
    s = putUInt32 x ++ rest := by
  obtain ⟨⟨n, rest'⟩, hget, heq⟩ := Option.map_eq_some_iff.1 h
  obtain ⟨rfl, rfl⟩ := Prod.mk.inj heq
  obtain ⟨hs, hlt⟩ := getNat_eq_some hget
  rw [putUInt32, UInt32.toNat_ofNat_of_lt' hlt]
  exact hs

theorem getInt32_eq_some {x : Int32} (h : getInt32 s = some (x, rest)) :
    s = putInt32 x ++ rest := by
  obtain ⟨⟨n, rest'⟩, hget, heq⟩ := Option.map_eq_some_iff.1 h
  obtain ⟨rfl, rfl⟩ := Prod.mk.inj heq
  obtain ⟨hs, hlt⟩ := getNat_eq_some hget
  rw [putInt32, UInt32.toUInt32_toInt32, UInt32.toNat_ofNat_of_lt' hlt]
  exact hs

theorem getInt64_eq_some {x : Int64} (h : getInt64 s = some (x, rest)) :
    s = putInt64 x ++ rest := by
  obtain ⟨⟨n, rest'⟩, hget, heq⟩ := Option.map_eq_some_iff.1 h
  obtain ⟨rfl, rfl⟩ := Prod.mk.inj heq
  obtain ⟨hs, hlt⟩ := getNat_eq_some hget
  rw [putInt64, UInt64.toUInt64_toInt64, UInt64.toNat_ofNat_of_lt' hlt]
  exact hs

theorem getTag_eq_some {t : Tag} (h : getTag s = some (t, rest)) : s = putTag t ++ rest := by
  obtain ⟨⟨time, s₁⟩, htime, h⟩ := Option.bind_eq_some_iff.1 h
  obtain ⟨⟨microstep, s₂⟩, hmicrostep, h⟩ := Option.bind_eq_some_iff.1 h
  obtain ⟨rfl, rfl⟩ := Prod.mk.inj (Option.some.inj h)
  rw [getInt64_eq_some htime, getUInt32_eq_some hmicrostep, putTag, List.append_assoc]

/-! ## Fields of known width -/

/-- The reader takes `width` bytes wherever there are so many. -/
def Takes {α : Type} (width : Nat) (get : Getter α) : Prop :=
  ∀ s, width ≤ s.length → ∃ a, get s = some (a, s.drop width)

section Takes

variable {α β : Type} {width : Nat} {get : Getter α}

theorem Takes.map (h : Takes width get) {f : α × Bytes → β × Bytes}
    (hf : ∀ a rest, (f (a, rest)).2 = rest) : Takes width fun s => (get s).map f := by
  intro s hs
  obtain ⟨a, ha⟩ := h s hs
  have hget : (get s).map f = some (f (a, s.drop width)) := by rw [ha, Option.map_some]
  exact ⟨(f (a, s.drop width)).1, hget.trans (congrArg some (Prod.ext rfl (hf a _)))⟩

/-- Where there are just as many bytes, nothing is left. -/
theorem Takes.exists_nil (h : Takes width get) (hs : s.length = width) :
    ∃ a, get s = some (a, []) := by
  obtain ⟨a, ha⟩ := h s (by omega)
  exact ⟨a, by rw [ha, List.drop_eq_nil_of_le (by omega)]⟩

theorem take_of_le {n : Nat} (h : n ≤ s.length) : take n s = some (s.take n, s.drop n) := by
  simp [take, h]

theorem takes_take (n : Nat) : Takes n (take n) := fun s hs => ⟨s.take n, take_of_le hs⟩

theorem takes_getNat (width : Nat) : Takes width (getNat width) :=
  (takes_take width).map fun _ _ => rfl

theorem takes_getUInt8 : Takes 1 getUInt8 := by
  intro s hs
  cases s with
  | nil => simp at hs
  | cons b rest => exact ⟨b, rfl⟩

theorem takes_getUInt16 : Takes 2 getUInt16 := (takes_getNat 2).map fun _ _ => rfl

theorem takes_getUInt32 : Takes 4 getUInt32 := (takes_getNat 4).map fun _ _ => rfl

theorem takes_getInt32 : Takes 4 getInt32 := (takes_getNat 4).map fun _ _ => rfl

theorem takes_getInt64 : Takes 8 getInt64 := (takes_getNat 8).map fun _ _ => rfl

theorem takes_getTag : Takes tagLength getTag := by
  intro s hs
  unfold tagLength at hs ⊢
  obtain ⟨time, htime⟩ := takes_getInt64 s (by omega)
  obtain ⟨microstep, hmicrostep⟩ := takes_getUInt32 (s.drop 8) (by simp; omega)
  exact ⟨⟨time, microstep⟩, by simp [getTag, htime, hmicrostep]⟩

theorem takes_getAddressReply : Takes (4 + addressTextWidth) getAddressReply := by
  intro s hs
  obtain ⟨port, hport⟩ := takes_getInt32 s (by omega)
  obtain ⟨text, htext⟩ := takes_take addressTextWidth (s.drop 4) (by simp; omega)
  rw [List.drop_drop] at htext
  simp only [getAddressReply, hport, htext, Option.bind_eq_bind, Option.bind_some]
  exact ⟨_, rfl⟩

end Takes

/-! ## Readings -/

theorem exists_of_map_get {α β : Type} {get : Getter α} {message : β → Message}
    (read : α → Reading β) {reading : Reading Message}
    (h : (get body).map (fun (a, rest) => (message <$> read a, rest)) = some (reading, rest)) :
    ∃ a, get body = some (a, rest) ∧ message <$> read a = reading := by
  obtain ⟨⟨a, rest'⟩, hget, heq⟩ := Option.map_eq_some_iff.1 h
  obtain ⟨rfl, rfl⟩ := Prod.mk.inj heq
  exact ⟨a, hget, rfl⟩

theorem exists_of_map_eq_ok {α β : Type} {f : α → β} {reading : Reading α} {b : β}
    (h : f <$> reading = .ok b) : ∃ a, reading = .ok a ∧ f a = b := by
  cases reading with
  | error e => cases h
  | ok a => exact ⟨a, rfl, Except.ok.inj h⟩

theorem eq_error_of_map {α β : Type} {f : α → β} {reading : Reading α} {e : Error}
    (h : f <$> reading = .error e) : reading = .error e := by
  cases reading with
  | error e' => exact congrArg Except.error (Except.error.inj h)
  | ok a => cases h

theorem getName_eq_some {message : FederateId → String → Message} {reading : Reading Message}
    (h : getName message body = some (reading, rest)) : ∃ f n bytes,
      body = putUInt16 f ++ n :: (bytes ++ rest) ∧ bytes.length = n.toNat ∧
        message ⟨f⟩ <$> federationIdOfBytes bytes = reading := by
  obtain ⟨⟨f, s₁⟩, hf, h⟩ := Option.bind_eq_some_iff.1 h
  obtain ⟨⟨n, s₂⟩, hn, h⟩ := Option.bind_eq_some_iff.1 h
  obtain ⟨⟨bytes, s₃⟩, hbytes, h⟩ := Option.bind_eq_some_iff.1 h
  obtain ⟨rfl, rfl⟩ := Prod.mk.inj (Option.some.inj h)
  obtain ⟨rfl, hlength⟩ := take_eq_some hbytes
  refine ⟨f, n, bytes, ?_, hlength, rfl⟩
  rw [getUInt16_eq_some hf, getUInt8_eq_some hn]

theorem getUntimed_eq_some {message : UntimedMessage → Message} {reading : Reading Message}
    (h : getUntimed message body = some (reading, rest)) : ∃ port f n payload,
      body = putUInt16 port ++ (putUInt16 f ++ (putUInt32 n ++ (payload ++ rest))) ∧
        payload.length = n.toNat ∧ .ok (message ⟨⟨port⟩, ⟨f⟩, payload⟩) = reading := by
  obtain ⟨⟨port, s₁⟩, hport, h⟩ := Option.bind_eq_some_iff.1 h
  obtain ⟨⟨f, s₂⟩, hf, h⟩ := Option.bind_eq_some_iff.1 h
  obtain ⟨⟨n, s₃⟩, hn, h⟩ := Option.bind_eq_some_iff.1 h
  obtain ⟨⟨payload, s₄⟩, hpayload, h⟩ := Option.bind_eq_some_iff.1 h
  obtain ⟨rfl, rfl⟩ := Prod.mk.inj (Option.some.inj h)
  obtain ⟨rfl, hlength⟩ := take_eq_some hpayload
  refine ⟨port, f, n, payload, ?_, hlength, rfl⟩
  rw [getUInt16_eq_some hport, getUInt16_eq_some hf, getUInt32_eq_some hn]

theorem getTimed_eq_some {message : TimedMessage → Message} {reading : Reading Message}
    (h : getTimed message body = some (reading, rest)) : ∃ port f n t payload,
      body = putUInt16 port ++ (putUInt16 f ++ (putUInt32 n ++ (putTag t ++ (payload ++ rest)))) ∧
        payload.length = n.toNat ∧ .ok (message ⟨⟨port⟩, ⟨f⟩, t, payload⟩) = reading := by
  obtain ⟨⟨port, s₁⟩, hport, h⟩ := Option.bind_eq_some_iff.1 h
  obtain ⟨⟨f, s₂⟩, hf, h⟩ := Option.bind_eq_some_iff.1 h
  obtain ⟨⟨n, s₃⟩, hn, h⟩ := Option.bind_eq_some_iff.1 h
  obtain ⟨⟨t, s₄⟩, ht, h⟩ := Option.bind_eq_some_iff.1 h
  obtain ⟨⟨payload, s₅⟩, hpayload, h⟩ := Option.bind_eq_some_iff.1 h
  obtain ⟨rfl, rfl⟩ := Prod.mk.inj (Option.some.inj h)
  obtain ⟨rfl, hlength⟩ := take_eq_some hpayload
  refine ⟨port, f, n, t, payload, ?_, hlength, rfl⟩
  rw [getUInt16_eq_some hport, getUInt16_eq_some hf, getUInt32_eq_some hn, getTag_eq_some ht]

theorem getAddressReply_eq_some {reading : Reading Message}
    (h : getAddressReply body = some (reading, rest)) : ∃ n text,
      body = putInt32 n ++ (text ++ rest) ∧ text.length = addressTextWidth ∧
        ((portOrNone n).bind fun port => (addressOfText text).bind fun ip =>
          .ok (.addressQueryReply port ip)) = reading := by
  obtain ⟨⟨n, s₁⟩, hn, h⟩ := Option.bind_eq_some_iff.1 h
  obtain ⟨⟨text, s₂⟩, htext, h⟩ := Option.bind_eq_some_iff.1 h
  obtain ⟨rfl, rfl⟩ := Prod.mk.inj (Option.some.inj h)
  obtain ⟨rfl, hlength⟩ := take_eq_some htext
  exact ⟨n, text, getInt32_eq_some hn, hlength, rfl⟩

/-! ## Bodies -/

theorem exists_getName {message : FederateId → String → Message}
    (h : namedBodyLength? body = some body.length) :
    ∃ reading, getName message body = some (reading, []) := by
  obtain ⟨n, hn, hlength⟩ := Option.map_eq_some_iff.1 h
  have htail : body.drop 2 = n :: body.drop 3 := by
    obtain ⟨hlt, heq⟩ := List.getElem?_eq_some_iff.1 hn
    rw [List.drop_eq_getElem_cons hlt, heq]
  obtain ⟨f, hf⟩ := takes_getUInt16 body (by omega)
  obtain ⟨id, hid⟩ := (takes_take n.toNat).exists_nil (s := body.drop 3) (by simp; omega)
  simp only [getName, hf, htail, getUInt8_cons, hid, Option.bind_eq_bind, Option.bind_some]
  exact ⟨_, rfl⟩

/-- The port, the federate and the length that come before a payload. -/
theorem exists_route {extra : Nat}
    (h : payloadBodyLength? extra body = .ok (some body.length)) :
    ∃ port f n, getUInt16 body = some (port, body.drop 2) ∧
      getUInt16 (body.drop 2) = some (f, body.drop 4) ∧
      getUInt32 (body.drop 4) = some (n, body.drop 8) ∧
      body.length = payloadHeaderLength + extra + n.toNat := by
  unfold payloadBodyLength? at h
  dsimp only at h
  split at h
  · cases h
  · split at h
    · cases h
    · rename_i hshort _
      have hlength := Option.some.inj (Except.ok.inj h)
      simp only [List.length_take, List.length_drop, Nat.not_lt] at hshort
      obtain ⟨port, hport⟩ := takes_getUInt16 body (by omega)
      obtain ⟨f, hf⟩ := takes_getUInt16 (body.drop 2) (by simp; omega)
      obtain ⟨n, hn⟩ := takes_getUInt32 (body.drop 4) (by simp; omega)
      rw [List.drop_drop] at hf hn
      refine ⟨port, f, n, hport, hf, hn, ?_⟩
      rw [← hlength, getUInt32_eq_some hn, List.take_left' (length_putUInt32 n), putUInt32,
        ofBigEndian_bigEndian, Nat.mod_eq_of_lt n.toNat_lt]

theorem exists_getUntimed {message : UntimedMessage → Message}
    (h : payloadBodyLength? 0 body = .ok (some body.length)) :
    ∃ reading, getUntimed message body = some (reading, []) := by
  obtain ⟨port, f, n, hport, hf, hn, hlength⟩ := exists_route h
  unfold payloadHeaderLength at hlength
  obtain ⟨payload, hpayload⟩ :=
    (takes_take n.toNat).exists_nil (s := body.drop 8) (by simp; omega)
  simp only [getUntimed, hport, hf, hn, hpayload, Option.bind_eq_bind, Option.bind_some]
  exact ⟨_, rfl⟩

theorem exists_getTimed {message : TimedMessage → Message}
    (h : payloadBodyLength? tagLength body = .ok (some body.length)) :
    ∃ reading, getTimed message body = some (reading, []) := by
  obtain ⟨port, f, n, hport, hf, hn, hlength⟩ := exists_route h
  unfold payloadHeaderLength tagLength at hlength
  obtain ⟨t, ht⟩ := takes_getTag (body.drop 8) (by simp [tagLength]; omega)
  rw [List.drop_drop] at ht
  obtain ⟨payload, hpayload⟩ :=
    (takes_take n.toNat).exists_nil (s := body.drop (8 + tagLength)) (by simp [tagLength]; omega)
  simp only [getTimed, hport, hf, hn, ht, hpayload, Option.bind_eq_bind, Option.bind_some]
  exact ⟨_, rfl⟩

/-- Whatever the bytes of a body are, there is something to be read from them, and nothing is
left. -/
theorem exists_getBody {kind : MessageKind}
    (h : bodyLength? direction body kind = .ok (some body.length)) :
    ∃ reading, getBody direction kind body = some (reading, []) := by
  have of_takes {width : Nat} {get : Getter (Reading Message)} (hget : Takes width get)
      (h : Except.ok (some width) = (.ok (some body.length) : Except Error (Option Nat))) :
      ∃ reading, get body = some (reading, []) :=
    hget.exists_nil (Option.some.inj (Except.ok.inj h)).symm
  cases kind with
  | resign =>
    have hget : Takes 0 (getBody direction .resign) := fun s _ => ⟨_, rfl⟩
    exact of_takes hget h
  | reject => exact of_takes (takes_getUInt8.map fun _ _ => rfl) h
  | ack | addressAd | clockSyncT3 => exact of_takes (takes_getInt32.map fun _ _ => rfl) h
  | timestamp | stopRequest | stopRequestReply | stopGranted | clockSyncT1 | clockSyncT4
  | clockSyncCodedProbe => exact of_takes (takes_getInt64.map fun _ _ => rfl) h
  | nextEventTag | timeAdvanceGrant | logicalTagComplete =>
    exact of_takes (takes_getTag.map fun _ _ => rfl) h
  | address =>
    cases direction with
    | toCoordinator => exact of_takes (takes_getUInt16.map fun _ _ => rfl) h
    | fromCoordinator => exact of_takes takes_getAddressReply h
  | join | peerHello => exact exists_getName (Except.ok.inj h)
  | untimed | peerUntimed => exact exists_getUntimed h
  | timed | peerTimed => exact exists_getTimed h

/-! ## Frames -/

/-- A body with a payload has its header, and has no more than the largest payload behind it. -/
theorem payloadBodyLength?_bounds {extra n : Nat}
    (h : payloadBodyLength? extra body = .ok (some n)) :
    payloadHeaderLength ≤ n ∧ n ≤ payloadHeaderLength + extra + maxPayload := by
  unfold payloadBodyLength? at h
  dsimp only at h
  split at h
  · cases h
  · split at h
    · cases h
    · have hn := Option.some.inj (Except.ok.inj h)
      omega

theorem payloadBodyLength?_ne_none {extra : Nat} (h : payloadHeaderLength ≤ body.length) :
    payloadBodyLength? extra body ≠ .ok none := by
  unfold payloadHeaderLength at h
  have hfield : ¬ ((body.drop 4).take 4).length < 4 := by simp; omega
  intro hnone
  unfold payloadBodyLength? at hnone
  simp only [hfield, if_false] at hnone
  split at hnone <;> cases hnone

/-- The bytes that tell the length of a body belong to it. -/
theorem bodyLength?_take {kind : MessageKind} {n : Nat}
    (h : bodyLength? direction body kind = .ok (some n)) (hle : n ≤ body.length) :
    bodyLength? direction (body.take n) kind = .ok (some n) := by
  have of_ne_none (hne : bodyLength? direction (body.take n) kind ≠ .ok none) :
      bodyLength? direction (body.take n) kind = .ok (some n) := by
    rw [← bodyLength?_append hne (body.drop n), List.take_append_drop, h]
  have hlength : (body.take n).length = n := List.length_take_of_le hle
  cases kind with
  | join | peerHello =>
    apply of_ne_none
    intro hnone
    obtain ⟨k, -, hk⟩ := Option.map_eq_some_iff.1 (Except.ok.inj h)
    have hshort := List.getElem?_eq_none_iff.1 (Option.map_eq_none_iff.1 (Except.ok.inj hnone))
    omega
  | untimed | peerUntimed | timed | peerTimed =>
    apply of_ne_none
    apply payloadBodyLength?_ne_none
    rw [hlength]
    exact (payloadBodyLength?_bounds h).1
  | _ => exact h

theorem exists_body_of_frameLength? {n : Nat} (h : frameLength? direction s = .ok (some n)) :
    ∃ b body kind k, s = b :: body ∧ MessageKind.ofByte? b = some kind ∧
      bodyLength? direction body kind = .ok (some k) ∧ n = k + 1 := by
  unfold frameLength? at h
  split at h
  · cases h
  · rename_i b body
    split at h
    · cases h
    · rename_i kind hkind
      split at h
      · cases h
      · cases h
      · rename_i k hk
        obtain rfl := Option.some.inj (Except.ok.inj h)
        exact ⟨b, body, kind, k, rfl, hkind, hk, rfl⟩

theorem getMessage_cons (direction : Direction) (kind : MessageKind) (body : Bytes) :
    getMessage direction (kind.byte :: body) = getBody direction kind body := by
  simp only [getMessage, MessageKind.ofByte?_byte]

/-- The bytes are a whole frame, whatever stands behind them: they tell how many they are, and they
are read to the last one. -/
structure IsFrame (direction : Direction) (frame : Bytes) (reading : Reading Message) : Prop where
  length : ∀ rest, frameLength? direction (frame ++ rest) = .ok (some frame.length)
  read : getMessage direction frame = some (reading, [])

namespace IsFrame

variable {frame : Bytes} {reading : Reading Message}

theorem length_pos (h : IsFrame direction frame reading) : 0 < frame.length :=
  frameLength?_pos (h.length [])

theorem exists_body (h : IsFrame direction frame reading) : ∃ kind body, frame = kind.byte :: body ∧
    bodyLength? direction body kind = .ok (some body.length) ∧
    getBody direction kind body = some (reading, []) := by
  have hlength := h.length []
  rw [List.append_nil] at hlength
  obtain ⟨b, body, kind, n, rfl, hkind, hbody, hn⟩ := exists_body_of_frameLength? hlength
  obtain rfl := Nat.succ.inj hn
  have hread := h.read
  rw [← MessageKind.byte_of_ofByte? hkind, getMessage_cons] at hread
  exact ⟨kind, body, by rw [MessageKind.byte_of_ofByte? hkind], hbody, hread⟩

theorem decode_append (h : IsFrame direction frame reading) (rest : Bytes) :
    decode direction (frame ++ rest) = ⟨some <$> reading, rest⟩ := by
  have hlong : ¬ (frame ++ rest).length < frame.length := by simp
  rw [decode, h.length rest]
  simp only [hlong, if_false, List.take_left, List.drop_left, h.read]

end IsFrame

/-- Where all the bytes of a frame are there, they are a whole frame. -/
theorem exists_isFrame {n : Nat} (h : frameLength? direction s = .ok (some n))
    (hle : n ≤ s.length) : ∃ reading, IsFrame direction (s.take n) reading := by
  obtain ⟨b, tail, kind, k, rfl, hkind, hk, rfl⟩ := exists_body_of_frameLength? h
  have hle' : k ≤ tail.length := Nat.le_of_succ_le_succ hle
  have hlength : (tail.take k).length = k := List.length_take_of_le hle'
  have hbody : bodyLength? direction (tail.take k) kind = .ok (some (tail.take k).length) := by
    rw [hlength]
    exact bodyLength?_take hk hle'
  obtain ⟨reading, hreading⟩ := exists_getBody hbody
  have hframe : frameLength? direction (b :: tail.take k) = .ok (some (k + 1)) := by
    simp only [frameLength?, hkind, hbody, hlength]
    rfl
  refine ⟨reading, fun rest => ?_, ?_⟩
  · rw [List.take_succ_cons, frameLength?_append (by rw [hframe]; nofun), hframe, List.length_cons,
      hlength]
  · rw [List.take_succ_cons, ← MessageKind.byte_of_ofByte? hkind, getMessage_cons, hreading]

/-- The frame at the front of a buffer is incomplete, as its length is not known yet or more bytes
than have arrived. -/
def Unfinished (direction : Direction) (s : Bytes) : Prop :=
  frameLength? direction s = .ok none ∨ ∃ n, frameLength? direction s = .ok (some n) ∧ s.length < n

theorem Unfinished.decode_eq (h : Unfinished direction s) :
    decode direction s = ⟨.ok none, s⟩ := by
  rcases h with hnone | ⟨n, hn, hlt⟩
  · rw [decode, hnone]
  · rw [decode, hn]
    exact if_pos hlt

/-- A buffer is unfinished, its first bytes are at fault, or it begins with a whole frame. -/
theorem buffer_cases (direction : Direction) (s : Bytes) : Unfinished direction s ∨
    (∃ e, frameLength? direction s = .error e) ∨
    ∃ frame rest reading, s = frame ++ rest ∧ IsFrame direction frame reading := by
  cases hlength : frameLength? direction s with
  | error e => exact Or.inr (Or.inl ⟨e, rfl⟩)
  | ok known =>
    cases known with
    | none => exact Or.inl (Or.inl hlength)
    | some n =>
      by_cases hlt : s.length < n
      · exact Or.inl (Or.inr ⟨n, hlength, hlt⟩)
      · obtain ⟨reading, hframe⟩ := exists_isFrame hlength (Nat.not_lt.1 hlt)
        refine Or.inr (Or.inr ⟨s.take n, s.drop n, reading, ?_, hframe⟩)
        exact (List.take_append_drop n s).symm

/-- A message is read from a whole frame. -/
theorem exists_frame_of_decode (h : decode direction s = ⟨.ok (some m), rest⟩) :
    ∃ frame, s = frame ++ rest ∧ IsFrame direction frame (.ok m) := by
  rcases buffer_cases direction s with hunfinished | ⟨e, he⟩ | ⟨frame, rest', reading, rfl, hframe⟩
  · rw [hunfinished.decode_eq] at h
    cases h
  · rw [decode, he] at h
    cases h
  · rw [hframe.decode_append] at h
    obtain ⟨hreading, rfl⟩ := Decoded.mk.inj h
    cases reading with
    | error e => cases hreading
    | ok m' =>
      obtain rfl := Option.some.inj (Except.ok.inj hreading)
      exact ⟨frame, rfl, hframe⟩

end FederatedTime.Wire
