import FederatedTime.Proofs.Coordinator.Forwarding
import FederatedTime.Proofs.Wire.Writing

/-!
# Reading what the coordinator sends

Every message of the coordinator's own fits its frame and is read back on its way to a federate.
What it passes on has been read before, on its way from a federate, and so fits its frame too; and
it is of a kind that is read the same in either direction (`Run.exists_frame_of_send`).
-/

namespace FederatedTime

namespace Message

instance decidableFits (m : Message) : Decidable m.Fits :=
  match m with
  | join _ id | peerHello _ id => inferInstanceAs (Decidable ((Wire.utf8 id).length ≤ 255))
  | untimed m | peerUntimed m => inferInstanceAs (Decidable (m.payload.length ≤ Wire.maxPayload))
  | timed m | peerTimed m => inferInstanceAs (Decidable (m.payload.length ≤ Wire.maxPayload))
  | reject _ | ack _ | timestamp _ | resign | nextEventTag _ | timeAdvanceGrant _
  | logicalTagComplete _ | stopRequest _ | stopRequestReply _ | stopGranted _ | addressQuery _
  | addressQueryReply _ _ | addressAd _ | clockSyncT1 _ | clockSyncT3 _ | clockSyncT4 _
  | clockSyncCodedProbe _ => .isTrue trivial

instance decidableTravels (m : Message) (direction : Wire.Direction) :
    Decidable (m.Travels direction) :=
  match m with
  | addressQuery _ => inferInstanceAs (Decidable (direction = .toCoordinator))
  | addressQueryReply _ _ => inferInstanceAs (Decidable (direction = .fromCoordinator))
  | join _ _ | reject _ | ack _ | timestamp _ | resign | nextEventTag _ | timeAdvanceGrant _
  | logicalTagComplete _ | untimed _ | timed _ | stopRequest _ | stopRequestReply _ | stopGranted _
  | addressAd _ | clockSyncT1 _ | clockSyncT3 _ | clockSyncT4 _ | clockSyncCodedProbe _
  | peerHello _ _ | peerUntimed _ | peerTimed _ => .isTrue trivial

variable {message : Message}

theorem fits_of_isOwn (h : message.isOwn) : message.Fits := by
  cases message with
  | join | untimed | timed | peerHello | peerUntimed | peerTimed => cases h
  | _ => trivial

theorem travels_of_isOwn (h : message.isOwn) : message.Travels .fromCoordinator := by
  cases message with
  | addressQuery => cases h
  | addressQueryReply => rfl
  | _ => trivial

theorem travels_of_destination? (h : message.destination?.isSome) (direction : Wire.Direction) :
    message.Travels direction := by
  cases message with
  | untimed | timed => trivial
  | _ => cases h

end Message

namespace Wire

variable {direction : Direction} {m : Message} {s : Bytes}

/-- A message that can be read can be written. -/
theorem fits_of_decode (h : (decode direction s).result = .ok (some m)) : m.Fits := by
  have hdecode : decode direction s = ⟨.ok (some m), (decode direction s).rest⟩ := by rw [← h]
  obtain ⟨body, hput, -⟩ := length_of_decode hdecode
  rcases putBody_cases m with ⟨hfits, -⟩ | ⟨-, n, herror | herror⟩
  · exact hfits
  · rw [hput] at herror
    cases herror
  · rw [hput] at herror
    cases herror

theorem exists_decode_of_fits (hfits : m.Fits) (htravels : m.Travels direction) :
    ∃ s, (decode direction s).result = .ok (some m) := by
  obtain ⟨body, hlays⟩ := exists_lays hfits htravels
  exact ⟨m.typeByte :: body, by rw [hlays.decode_eq]⟩

end Wire

namespace Run

variable {t : Topology} {settings : CoordinatorSettings} {history : List Moment} {s : Coordinator}

/-- Whatever the coordinator sends, as long as what it receives has been read by the decoder, is
written as a frame that is read back by a federate as the message, with nothing left over. -/
theorem exists_frame_of_send (run : Run t settings history s)
    (hreceived : ∀ m ∈ history, ∀ message ∈ m.event.message?,
      ∃ bytes, (Wire.decode .toCoordinator bytes).result = .ok (some message)) :
    ∀ m ∈ history, ∀ c message, .send c message ∈ m.actions →
      message.Fits ∧ message.Travels .fromCoordinator ∧
      ∃ frame, (∀ buffer, Wire.encode message buffer = (.ok (), buffer ++ frame)) ∧
        ∀ rest, Wire.decode .fromCoordinator (frame ++ rest) = ⟨.ok (some message), rest⟩ := by
  intro m hm c message hsend
  obtain ⟨earlier, before, now, run', -, hmoment⟩ := run.exists_of_mem hm
  have hactions : m.actions = ((before.setTime now).handle m.event).2 :=
    congrArg Moment.actions hmoment
  rw [hactions] at hsend
  have hs := consistent_setTime run'.consistent now
  have hfits : message.Fits ∧ message.Travels .fromCoordinator := by
    rcases (Coordinator.handle_transition hs m.event).sends c message hsend with
      hown | ⟨hdestination, hmessage, -⟩
    · exact ⟨Message.fits_of_isOwn hown, Message.travels_of_isOwn hown⟩
    · obtain ⟨bytes, hbytes⟩ := hreceived m hm message hmessage
      exact ⟨Wire.fits_of_decode hbytes, Message.travels_of_destination? hdestination _⟩
  obtain ⟨body, hlays⟩ := Wire.exists_lays hfits.1 hfits.2
  exact ⟨hfits.1, hfits.2, message.typeByte :: body, hlays.encode_eq, hlays.decode_append⟩

end Run

namespace Relay

/-- The sink asks where the source accepts peers, before and after the source has said it, and then
leaves against the rules. -/
def peerEvents : List Event :=
  mailEvents ++ [.messageReceived ⟨2⟩ (.addressQuery ⟨0⟩), .messageReceived ⟨0⟩ (.addressAd 15045),
    .messageReceived ⟨2⟩ (.addressQuery ⟨0⟩), .messageReceived ⟨2⟩ (.join ⟨1⟩ "relay")]

def peerHistory : List Moment := (Coordinator.ofTopology plan.graph {}).trace peerEvents

theorem run_peer : ∃ s, Run plan.graph {} peerHistory s :=
  ⟨_, .run_trace (by decide)⟩

theorem received_peer : ∀ m ∈ peerHistory, ∀ message ∈ m.event.message?,
    ∃ bytes, (Wire.decode .toCoordinator bytes).result = .ok (some message) := by
  have hfits : ∀ m ∈ peerHistory, ∀ message ∈ m.event.message?,
      message.Fits ∧ message.Travels .toCoordinator := by decide +kernel
  intro m hm message hmessage
  obtain ⟨hmessage, htravels⟩ := hfits m hm message hmessage
  exact Wire.exists_decode_of_fits hmessage htravels

end Relay

namespace Run

theorem exists_frame_of_send_relay :
    ∃ m ∈ Relay.peerHistory,
      .send ⟨2⟩ (.addressQueryReply (some 15045) .unspecified) ∈ m.actions ∧
      ∃ frame, (∀ buffer, Wire.encode (.addressQueryReply (some 15045) .unspecified) buffer =
          (.ok (), buffer ++ frame)) ∧
        ∀ rest, Wire.decode .fromCoordinator (frame ++ rest) =
          ⟨.ok (some (.addressQueryReply (some 15045) .unspecified)), rest⟩ := by
  obtain ⟨s, run⟩ := Relay.run_peer
  have hsent : ∃ m ∈ Relay.peerHistory,
      .send ⟨2⟩ (.addressQueryReply (some 15045) .unspecified) ∈ m.actions := by decide +kernel
  obtain ⟨m, hm, hsend⟩ := hsent
  obtain ⟨-, -, hframe⟩ := run.exists_frame_of_send Relay.received_peer m hm ⟨2⟩ _ hsend
  exact ⟨m, hm, hsend, hframe⟩

end Run

end FederatedTime
