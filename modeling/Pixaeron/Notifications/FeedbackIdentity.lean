import Pixaeron.Text.Utf16
import Pixaeron.Notifications.FeedbackProcessor

/-! # The identity of an event

The fingerprint of an event is the digest of a text. Two events have the same text exactly if the
provider tells of the same occurrence twice.
-/

namespace Pixaeron.Notifications

open Text.Json

variable {services : Services} {f f' : SesFeedback} {recipientHash recipientHash' : String}

def EmailDeliveryEventType.text : EmailDeliveryEventType → String
  | .send => "SEND"
  | .delivery => "DELIVERY"
  | .deliveryDelay => "DELIVERY_DELAY"
  | .bounce => "BOUNCE"
  | .complaint => "COMPLAINT"
  | .reject => "REJECT"
  | .renderingFailure => "RENDERING_FAILURE"

theorem EmailDeliveryEventType.text_injective : Function.Injective EmailDeliveryEventType.text := by
  intro a b h
  cases a <;> cases b <;> first | rfl | exact absurd h (by decide)

/-- What tells the occurrences of one type apart: the provider's identifier where it gives one, else
the detail and the time. -/
def occurrence (services : Services) (f : SesFeedback) : List String :=
  match f.event with
  | .bounce _ _ feedbackId => [feedbackId]
  | .complaint _ _ feedbackId => [feedbackId]
  | .deliveryDelay delayType => [delayType, services.toISOString f.providerTimestamp]
  | .reject reason => [reason, services.toISOString f.providerTimestamp]
  | _ => ["", services.toISOString f.providerTimestamp]

theorem feedbackIdentity_eq : feedbackIdentity services f recipientHash =
    "v1" :: f.sesMessageId :: f.event.toEventType.text ::
      (occurrence services f ++ [recipientHash]) := by
  obtain ⟨_, _, _, _, _, _, event⟩ := f
  cases event <;> rfl

/-- The text that `createSesFeedbackFingerprint` takes the digest of. -/
def identityText (services : Services) (f : SesFeedback) (recipientHash : String) : JsString :=
  stringifyTexts ((feedbackIdentity services f recipientHash).map utf16)

/-- Two events have one identity exactly if they are about the same message and recipient, of the
same type, and the same occurrence of it, whatever messages of the topic brought them. -/
theorem identityText_eq_iff :
    identityText services f recipientHash = identityText services f' recipientHash' ↔
    f.sesMessageId = f'.sesMessageId ∧ f.event.toEventType = f'.event.toEventType ∧
      occurrence services f = occurrence services f' ∧ recipientHash = recipientHash' := by
  have hTexts : identityText services f recipientHash = identityText services f' recipientHash' ↔
      feedbackIdentity services f recipientHash = feedbackIdentity services f' recipientHash' := by
    rw [identityText, identityText, stringifyTexts_injective.eq_iff,
      (List.map_injective_iff.mpr utf16_injective).eq_iff]
  rw [hTexts, feedbackIdentity_eq, feedbackIdentity_eq]
  constructor
  · intro h
    have hParts : f.sesMessageId = f'.sesMessageId ∧
      f.event.toEventType.text = f'.event.toEventType.text ∧
        occurrence services f = occurrence services f' ∧ recipientHash = recipientHash' := by
      simpa using h
    obtain ⟨hMessage, hType, hOccurrence, hHash⟩ := hParts
    exact ⟨hMessage, EmailDeliveryEventType.text_injective hType, hOccurrence, hHash⟩
  · rintro ⟨hMessage, hType, hOccurrence, rfl⟩
    rw [hMessage, hType, hOccurrence]

end Pixaeron.Notifications
