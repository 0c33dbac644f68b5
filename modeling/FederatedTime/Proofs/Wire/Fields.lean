import FederatedTime.Proofs.Net.Ipv4
import FederatedTime.Wire.Decode
import FederatedTime.Wire.Encode

/-!
# Reading fields back

Each field that a message is made of is read back from the front of whatever it was written before.
-/

namespace FederatedTime.Wire

/-! ## Numbers -/

theorem take_append {front : Bytes} {n : Nat} (h : front.length = n) (rest : Bytes) :
    take n (front ++ rest) = some (front, rest) := by
  subst h
  simp [take]

theorem getNat_bigEndian (width : Nat) {n : Nat} (h : n < Nat.pow 256 width) (rest : Bytes) :
    getNat width (bigEndian width n ++ rest) = some (n, rest) := by
  simp only [getNat, take_append (length_bigEndian width n), Option.map_some,
    ofBigEndian_bigEndian, Nat.mod_eq_of_lt h]

@[simp] theorem getUInt8_cons (b : UInt8) (rest : Bytes) : getUInt8 (b :: rest) = some (b, rest) :=
  rfl

@[simp] theorem getUInt16_putUInt16 (x : UInt16) (rest : Bytes) :
    getUInt16 (putUInt16 x ++ rest) = some (x, rest) := by
  simp [getUInt16, putUInt16, getNat_bigEndian 2 x.toNat_lt]

@[simp] theorem getUInt32_putUInt32 (x : UInt32) (rest : Bytes) :
    getUInt32 (putUInt32 x ++ rest) = some (x, rest) := by
  simp [getUInt32, putUInt32, getNat_bigEndian 4 x.toNat_lt]

@[simp] theorem getInt32_putInt32 (x : Int32) (rest : Bytes) :
    getInt32 (putInt32 x ++ rest) = some (x, rest) := by
  simp only [getInt32, putInt32, getNat_bigEndian 4 x.toUInt32.toNat_lt, Option.map_some,
    UInt32.ofNat_toNat]
  rfl

@[simp] theorem getInt64_putInt64 (x : Int64) (rest : Bytes) :
    getInt64 (putInt64 x ++ rest) = some (x, rest) := by
  simp only [getInt64, putInt64, getNat_bigEndian 8 x.toUInt64.toNat_lt, Option.map_some,
    UInt64.ofNat_toNat]
  rfl

@[simp] theorem getTag_putTag (t : Tag) (rest : Bytes) :
    getTag (putTag t ++ rest) = some (t, rest) := by
  simp [getTag, putTag]

@[simp] theorem length_putUInt16 (x : UInt16) : (putUInt16 x).length = 2 := length_bigEndian 2 _

@[simp] theorem length_putUInt32 (x : UInt32) : (putUInt32 x).length = 4 := length_bigEndian 4 _

@[simp] theorem length_putInt32 (x : Int32) : (putInt32 x).length = 4 := length_bigEndian 4 _

@[simp] theorem length_putInt64 (x : Int64) : (putInt64 x).length = 8 := length_bigEndian 8 _

@[simp] theorem length_putTag (t : Tag) : (putTag t).length = tagLength := by
  simp [putTag, tagLength]

/-! ## Ports -/

theorem toInt_ofNat_port (port : UInt16) : (Int32.ofNat port.toNat).toInt = port.toNat := by
  have hlt := port.toNat_lt
  rw [Int32.toInt_ofNat_of_lt (by omega)]

theorem portOfNumber_ofNat (port : UInt16) : portOfNumber (Int32.ofNat port.toNat) = .ok port := by
  have hlt := port.toNat_lt
  rw [portOfNumber, toInt_ofNat_port, if_pos (by omega), Int.toNat_natCast, UInt16.ofNat_toNat]
  rfl

/-- The number in which a port is written. -/
theorem exists_putPort (port : Option UInt16) : ∃ n, putPort port = putInt32 n ∧
    portOrNone n = .ok port := by
  cases port with
  | none => exact ⟨-1, rfl, rfl⟩
  | some port =>
    refine ⟨Int32.ofNat port.toNat, rfl, ?_⟩
    have hne : Int32.ofNat port.toNat ≠ -1 := by
      intro h
      have hneg := congrArg Int32.toInt h
      rw [toInt_ofNat_port] at hneg
      have : (-1 : Int32).toInt = -1 := rfl
      omega
    rw [portOrNone, if_neg hne, portOfNumber_ofNat]
    rfl

/-- The number in which a port is written, on its own. -/
theorem getInt32_putPort (port : Option UInt16) : ∃ n, (∀ rest, getInt32 (putPort port ++ rest) =
    some (n, rest)) ∧ portOrNone n = .ok port := by
  obtain ⟨n, hput, hport⟩ := exists_putPort port
  exact ⟨n, fun rest => hput ▸ getInt32_putInt32 n rest, hport⟩

@[simp] theorem length_putPort (port : Option UInt16) : (putPort port).length = 4 := by
  cases port <;> exact length_putInt32 _

/-! ## Addresses -/

theorem takeWhile_append_zeros {text : Bytes} (h : ∀ b ∈ text, b ≠ 0) (n : Nat) :
    (text ++ List.replicate n 0).takeWhile (· ≠ 0) = text := by
  have hzeros : (List.replicate n (0 : UInt8)).takeWhile (· ≠ 0) = [] := by
    cases n <;> simp [List.replicate_succ]
  rw [List.takeWhile_append_of_pos fun b hb => decide_eq_true (h b hb), hzeros, List.append_nil]

theorem map_ofNat_map_ofNat {cs : List Char} (h : ∀ c ∈ cs, c.toNat < 256) :
    (cs.map fun c => UInt8.ofNat c.toNat).map (fun b => Char.ofNat b.toNat) = cs := by
  rw [List.map_map]
  refine (List.map_congr_left fun c hc => ?_).trans (List.map_id cs)
  rw [Function.comp_apply, UInt8.toNat_ofNat_of_lt' (h c hc), Char.ofNat_toNat, id]

theorem toNat_of_mem_chars {ip : Ipv4} {c : Char} (h : c ∈ ip.chars) :
    0 < c.toNat ∧ c.toNat < 256 := by
  rcases Ipv4.mem_chars h with hdigit | rfl
  · have hrange := toNat_of_isDigit hdigit
    omega
  · decide

theorem addressOfText_putAddress (ip : Ipv4) : addressOfText (putAddress ip) = .ok ip := by
  have hne : ∀ b ∈ ip.chars.map fun c => UInt8.ofNat c.toNat, b ≠ 0 := by
    intro b hb hzero
    obtain ⟨c, hc, rfl⟩ := List.mem_map.1 hb
    obtain ⟨hpos, hlt⟩ := toNat_of_mem_chars hc
    have := congrArg UInt8.toNat hzero
    rw [UInt8.toNat_ofNat_of_lt' hlt] at this
    exact Nat.ne_of_gt hpos this
  unfold addressOfText putAddress
  dsimp only
  rw [takeWhile_append_zeros hne, map_ofNat_map_ofNat fun c hc => (toNat_of_mem_chars hc).2,
    Ipv4.ofChars?_chars]
  rfl

@[simp] theorem length_putAddress (ip : Ipv4) : (putAddress ip).length = addressTextWidth := by
  have hlength := ip.length_chars_le
  simp only [putAddress, addressTextWidth, List.length_append, List.length_map,
    List.length_replicate]
  omega

/-! ## Federation ids -/

theorem federationIdOfBytes_utf8 (id : String) : federationIdOfBytes (utf8 id) = .ok id := by
  have hbytes : String.fromUTF8? ⟨(utf8 id).toArray⟩ = some id := by
    unfold String.fromUTF8?
    exact dif_pos id.isValidUTF8
  rw [federationIdOfBytes, hbytes]
  rfl

/-- A federate with its federation id, as it is written. -/
def named (f : FederateId) (federationId : String) : Bytes :=
  putUInt16 f.number ++ UInt8.ofNat (utf8 federationId).length :: utf8 federationId

section Named

variable {f : FederateId} {id : String} (h : (utf8 id).length < 256)

include h

theorem putName_eq : putName f id = .ok (named f id) := if_pos h

theorem getName_named (message : FederateId → String → Message) (rest : Bytes) :
    getName message (named f id ++ rest) = some (pure (message f id), rest) := by
  have hn : (UInt8.ofNat (utf8 id).length).toNat = (utf8 id).length := UInt8.toNat_ofNat_of_lt' h
  simp [getName, named, hn, take_append, federationIdOfBytes_utf8, pure, Except.pure,
    Functor.map, Except.map]

theorem namedBodyLength?_named : namedBodyLength? (named f id) = some (named f id).length := by
  have hn : (UInt8.ofNat (utf8 id).length).toNat = (utf8 id).length := UInt8.toNat_ofNat_of_lt' h
  have hbyte : (named f id)[2]? = some (UInt8.ofNat (utf8 id).length) :=
    List.getElem?_append_right (Nat.le_of_eq (length_putUInt16 f.number))
  have hlength : (named f id).length = 3 + (utf8 id).length := by
    simp only [named, List.length_append, List.length_cons, length_putUInt16]
    omega
  rw [namedBodyLength?, hbyte, Option.map_some, hn, hlength]

end Named

/-! ## Payloads -/

/-- A payload with its destination, as it is written with `extra` bytes before the payload. -/
def addressed (port : PortId) (f : FederateId) (extra payload : Bytes) : Bytes :=
  putUInt16 port.number ++ putUInt16 f.number ++ putUInt32 (UInt32.ofNat payload.length) ++ extra ++
    payload

section Addressed

variable {payload : Bytes} (h : payload.length ≤ maxPayload)

include h

theorem toNat_ofNat_length : (UInt32.ofNat payload.length).toNat = payload.length :=
  UInt32.toNat_ofNat_of_lt' (Nat.lt_of_le_of_lt h (by decide))

theorem putPayload_eq (port : PortId) (f : FederateId) (extra : Bytes) :
    putPayload port f extra payload = .ok (addressed port f extra payload) :=
  if_neg (Nat.not_lt.2 h)

theorem getUntimed_addressed (message : UntimedMessage → Message) (port : PortId) (f : FederateId)
    (rest : Bytes) :
    getUntimed message (addressed port f [] payload ++ rest) =
      some (pure (message ⟨port, f, payload⟩), rest) := by
  simp [getUntimed, addressed, toNat_ofNat_length h, take_append]

theorem getTimed_addressed (message : TimedMessage → Message) (port : PortId) (f : FederateId)
    (t : Tag) (rest : Bytes) :
    getTimed message (addressed port f (putTag t) payload ++ rest) =
      some (pure (message ⟨port, f, t, payload⟩), rest) := by
  simp [getTimed, addressed, toNat_ofNat_length h, take_append]

theorem payloadBodyLength?_addressed (port : PortId) (f : FederateId) (extra : Bytes) :
    payloadBodyLength? extra.length (addressed port f extra payload) =
      .ok (some (addressed port f extra payload).length) := by
  have hfield : ((addressed port f extra payload).drop 4).take 4 =
      putUInt32 (UInt32.ofNat payload.length) := by
    rw [addressed, List.append_assoc, List.append_assoc, List.drop_left' (by simp),
      List.take_left' (by simp)]
  have hn : ofBigEndian (putUInt32 (UInt32.ofNat payload.length)) = payload.length := by
    rw [putUInt32, ofBigEndian_bigEndian, Nat.mod_eq_of_lt (UInt32.toNat_lt _),
      toNat_ofNat_length h]
  have hlength : (addressed port f extra payload).length =
      payloadHeaderLength + extra.length + payload.length := by
    simp only [addressed, payloadHeaderLength, List.length_append, length_putUInt16,
      length_putUInt32]
  rw [payloadBodyLength?, hfield, hn, hlength]
  simp [Nat.not_lt.2 h, pure, Except.pure]

end Addressed

end FederatedTime.Wire
