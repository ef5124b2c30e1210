import Pixaeron.Text.JsonGrammar
import Pixaeron.Notifications.FeedbackProcessor

/-! # The bodies of feedback messages

A message of the feedback queue is the envelope of the topic, whose message is the text of the
provider's event. What is read of it, and the field that is named where a body is refused.
-/

namespace Pixaeron.Notifications

open Text.Json

structure SesFeedbackSource where
  topicArn : JsString
  sendingAccountId : JsString
  sourceArn : JsString
  configurationSet : JsString

/-- The kinds of events with the texts that they bring. -/
inductive SesEventText where
  | send
  | delivery
  | deliveryDelay (delayType : JsString)
  | bounce (bounceType bounceSubType feedbackId : JsString)
  | complaint (complaintSubType complaintFeedbackType : Option JsString) (feedbackId : JsString)
  | reject (reason : JsString)
  | renderingFailure (templateName : JsString)
deriving DecidableEq

/-- An event as it is read. The times are in milliseconds. -/
structure SesFeedbackText where
  snsMessageId : JsString
  sesMessageId : JsString
  recipient : JsString
  requestId : Option JsString
  mailTimestamp : Int
  providerTimestamp : Int
  event : SesEventText
deriving DecidableEq

namespace FeedbackParser

variable {α β : Type}

def invalid (field : String) : Except String α := .error ("Invalid SES feedback: " ++ field)

/-- `if (!condition) invalid(field)`. -/
def check (condition : Prop) [Decidable condition] (field : String) : Except String Unit :=
  if condition then .ok () else invalid field

/-! ## Readers -/

def asObject (value : Option Value) (field : String) : Except String Value :=
  match value with
  | some (.object members) => .ok (.object members)
  | _ => invalid field

def parseObject (value : JsString) (field : String) : Except String Value :=
  asObject (parse value) field

def readObject (object : Value) (field : String) : Except String Value :=
  asObject (object.get (ascii field)) field

def readString (object : Value) (field : String) : Except String JsString :=
  match object.get (ascii field) with
  | some (.string value) => if value ≠ [] then .ok value else invalid field
  | _ => invalid field

def readOptionalString (object : Value) (field : String) : Except String (Option JsString) :=
  match object.get (ascii field) with
  | none => .ok none
  | some .null => .ok none
  | some (.string value) => if value ≠ [] then .ok (some value) else invalid field
  | _ => invalid field

def asString : Value → Option JsString
  | .string value => some value
  | _ => none

def readStringArray (object : Value) (field : String) : Except String (List JsString) :=
  match object.get (ascii field) with
  | some (.array items) =>
    match items.mapM asString with
    | some values => .ok values
    | none => invalid field
  | _ => invalid field

/-- The only text of a list of one. -/
def single (values : List JsString) (accepts : JsString → Bool)
    (field : String) : Except String JsString :=
  match values with
  | [value] => if accepts value then .ok value else invalid field
  | _ => invalid field

def readOptionalSingleTag (tags : Value) (name : String) : Except String (Option JsString) :=
  match tags.get (ascii name) with
  | none => .ok none
  | some _ => do
    let values ← readStringArray tags name
    let value ← single values (· ≠ []) ("mail.tags." ++ name)
    pure (some value)

section

-- `new Date(text).getTime()`, where it is a number.
variable (parseDate : JsString → Option Int)

def readDate (object : Value) (field : String) : Except String Int := do
  let text ← readString object field
  match parseDate text with
  | some time => pure time
  | none => invalid field

def readOptionalDate (object : Value) (field : String) : Except String (Option Int) :=
  match object.get (ascii field) with
  | none => .ok none
  | some _ => do
    let time ← readDate parseDate object field
    pure (some time)

/-! ## The event -/

/-- The provider's names for the types. -/
def typeName : EmailDeliveryEventType → String
  | .send => "Send"
  | .delivery => "Delivery"
  | .deliveryDelay => "DeliveryDelay"
  | .bounce => "Bounce"
  | .complaint => "Complaint"
  | .reject => "Reject"
  | .renderingFailure => "Rendering Failure"

def eventTypes : List EmailDeliveryEventType :=
  [.send, .delivery, .deliveryDelay, .bounce, .complaint, .reject, .renderingFailure]

/-- The cases of the switch. -/
def typeOf (eventType : JsString) : Option EmailDeliveryEventType :=
  eventTypes.find? fun type => ascii (typeName type) = eventType

/-- What `trim` takes off both ends. -/
def isWhiteSpace (u : UInt16) : Bool :=
  (9 ≤ u && u ≤ 13) || u = 32 || u = 0xa0 || u = 0x1680 || (0x2000 ≤ u && u ≤ 0x200a) || u =
    0x2028 || u = 0x2029 ||
    u = 0x202f || u = 0x205f || u = 0x3000 || u = 0xfeff

/-- `Boolean(text.trim())`. -/
def hasText (text : JsString) : Bool := text.any fun u => !isWhiteSpace u

def validateSource (mail : Value) (expected : SesFeedbackSource) : Except String Unit := do
  let sendingAccountId ← readString mail "sendingAccountId"
  check (sendingAccountId = expected.sendingAccountId) "mail.sendingAccountId"
  let sourceArn ← readString mail "sourceArn"
  check (sourceArn = expected.sourceArn) "mail.sourceArn"

def readBounce (event : Value) : Except String (SesEventText × Int) := do
  let bounce ← readObject event "bounce"
  let bounceType ← readString bounce "bounceType"
  let bounceSubType ← readString bounce "bounceSubType"
  let feedbackId ← readString bounce "feedbackId"
  let providerTimestamp ← readDate parseDate bounce "timestamp"
  pure (.bounce bounceType bounceSubType feedbackId, providerTimestamp)

def readComplaint (event : Value) : Except String (SesEventText × Int) := do
  let complaint ← readObject event "complaint"
  let complaintSubType ← readOptionalString complaint "complaintSubType"
  let complaintFeedbackType ← readOptionalString complaint "complaintFeedbackType"
  let feedbackId ← readString complaint "feedbackId"
  let providerTimestamp ← readDate parseDate complaint "timestamp"
  pure (.complaint complaintSubType complaintFeedbackType feedbackId, providerTimestamp)

def readDelay (event : Value) (mailTimestamp : Int) : Except String (SesEventText × Int) := do
  let delay ← readObject event "deliveryDelay"
  let delayType ← readString delay "delayType"
  let providerTimestamp ← readOptionalDate parseDate delay "timestamp"
  pure (.deliveryDelay delayType, providerTimestamp.getD mailTimestamp)

def readFailure (event : Value) (mailTimestamp : Int) : Except String (SesEventText × Int) := do
  let failure ← readObject event "failure"
  let _ ← readString failure "errorMessage"
  let templateName ← readString failure "templateName"
  pure (.renderingFailure templateName, mailTimestamp)

/-- The event with the provider's time. -/
def normalizeEvent (event : Value) (mailTimestamp : Int) : Except String (SesEventText × Int) := do
  let eventType ← readString event "eventType"
  match typeOf eventType with
  | some .send => do
    let _ ← readObject event "send"
    pure (.send, mailTimestamp)
  | some .delivery => do
    let delivery ← readObject event "delivery"
    let providerTimestamp ← readDate parseDate delivery "timestamp"
    pure (.delivery, providerTimestamp)
  | some .deliveryDelay => readDelay parseDate event mailTimestamp
  | some .bounce => readBounce parseDate event
  | some .complaint => readComplaint parseDate event
  | some .reject => do
    let reject ← readObject event "reject"
    let reason ← readString reject "reason"
    pure (.reject reason, mailTimestamp)
  | some .renderingFailure => readFailure event mailTimestamp
  | none => invalid "eventType"

/-- What is read of an event from the source that is expected. -/
def readEvent (snsMessageId : JsString) (event : Value) (expectedSource : SesFeedbackSource) :
    Except String SesFeedbackText := do
  let mail ← readObject event "mail"
  validateSource mail expectedSource
  let destination ← readStringArray mail "destination"
  let recipient ← single destination hasText "mail.destination"
  let tags ← readObject mail "tags"
  let configurationSets ← readStringArray tags "ses:configuration-set"
  let _ ← single configurationSets (· = expectedSource.configurationSet)
    "mail.tags.ses:configuration-set"
  let mailTimestamp ← readDate parseDate mail "timestamp"
  let sesMessageId ← readString mail "messageId"
  let requestId ← readOptionalSingleTag tags "request-id"
  let (kind, providerTimestamp) ← normalizeEvent parseDate event mailTimestamp
  pure ⟨snsMessageId, sesMessageId, recipient, requestId, mailTimestamp, providerTimestamp, kind⟩

def parseSesFeedback (sqsBody : JsString) (expectedSource : SesFeedbackSource) :
    Except String SesFeedbackText := do
  let envelope ← parseObject sqsBody "SNS envelope"
  let type ← readString envelope "Type"
  check (type = ascii "Notification") "SNS Type"
  let topicArn ← readString envelope "TopicArn"
  check (topicArn = expectedSource.topicArn) "SNS TopicArn"
  let snsMessageId ← readString envelope "MessageId"
  let message ← readString envelope "Message"
  let event ← parseObject message "SES event"
  readEvent parseDate snsMessageId event expectedSource

end

/-! ## What the readers accept -/

theorem bind_eq_ok {x : Except String α} {f : α → Except String β} {b : β} :
    (x >>= f) = .ok b ↔ ∃ a, x = .ok a ∧ f a = .ok b := by
  cases x with
  | error error =>
    constructor
    · intro h
      exact nomatch h
    · rintro ⟨a, h, _⟩
      exact nomatch h
  | ok a =>
    constructor
    · intro h
      exact ⟨a, rfl, h⟩
    · rintro ⟨a', h, hRest⟩
      cases h
      exact hRest

@[simp] theorem invalid_ne_ok {field : String} {a : α} : invalid field ≠ .ok a := fun h => nomatch h

theorem check_eq_ok {condition : Prop} [Decidable condition] {field : String} {a : Unit} :
    check condition field = .ok a ↔ condition := by
  rw [check]
  split
  next hYes => exact ⟨fun _ => hYes, fun _ => rfl⟩
  next hNo => exact ⟨fun h => absurd h invalid_ne_ok, fun hYes => absurd hYes hNo⟩

section

variable {object value : Value} {field name : String} {text : JsString}
  {parseDate : JsString → Option Int}

def IsObject (value : Value) : Prop := ∃ members, value = .object members

theorem asObject_eq_ok {found : Option Value} :
    asObject found field = .ok value ↔ found = some value ∧ IsObject value := by
  rw [asObject.eq_def]
  split
  next members =>
    constructor
    · intro h
      cases h
      exact ⟨rfl, members, rfl⟩
    · rintro ⟨h, _⟩
      cases h
      rfl
  next hOther =>
    constructor
    · intro h
      exact absurd h invalid_ne_ok
    · rintro ⟨rfl, members, rfl⟩
      exact absurd rfl (hOther members)

/-- The object under the field. -/
def HasObject (object : Value) (field : String) (value : Value) : Prop :=
  object.get (ascii field) = some value ∧ IsObject value

theorem readObject_eq_ok : readObject object field = .ok value ↔ HasObject object field value :=
  asObject_eq_ok

theorem parseObject_eq_ok :
    parseObject text field = .ok value ↔ parse text = some value ∧ IsObject value := asObject_eq_ok

/-- The text under the field, which is not empty. -/
def HasText (object : Value) (field : String) (text : JsString) : Prop :=
  object.get (ascii field) = some (.string text) ∧ text ≠ []

theorem readString_eq_ok : readString object field = .ok text ↔ HasText object field text := by
  rw [readString, HasText]
  split
  next found hFound =>
    split
    next hSome =>
      constructor
      · intro h
        cases h
        exact ⟨hFound, hSome⟩
      · rintro ⟨h, _⟩
        cases hFound.symm.trans h
        rfl
    next hEmpty =>
      constructor
      · intro h
        exact absurd h invalid_ne_ok
      · rintro ⟨h, hSome⟩
        cases hFound.symm.trans h
        exact absurd hSome hEmpty
  next hOther =>
    constructor
    · intro h
      exact absurd h invalid_ne_ok
    · rintro ⟨h, _⟩
      exact absurd h (hOther text)

/-- Nothing or `null` under the field, or a text. -/
inductive HasOptionalText (object : Value) (field : String) : Option JsString → Prop
  | absent : object.get (ascii field) = none → HasOptionalText object field none
  | null : object.get (ascii field) = some .null → HasOptionalText object field none
  | text {text : JsString} : HasText object field text → HasOptionalText object field (some text)

theorem readOptionalString_eq_ok {found : Option JsString} :
    readOptionalString object field = .ok found ↔ HasOptionalText object field found := by
  rw [readOptionalString]
  constructor
  · intro h
    split at h
    next hNone =>
      cases h
      exact .absent hNone
    next hNull =>
      cases h
      exact .null hNull
    next text hText =>
      split at h
      next hSome =>
        cases h
        exact .text ⟨hText, hSome⟩
      next => exact absurd h invalid_ne_ok
    next => exact absurd h invalid_ne_ok
  · intro h
    cases h with
    | absent hNone => rw [hNone]
    | null hNull => rw [hNull]
    | text hText =>
      rw [hText.1]
      exact if_pos hText.2

theorem mapM_asString {items : List Value} {values : List JsString} :
    items.mapM asString = some values ↔ items = values.map Value.string := by
  induction items generalizing values with
  | nil =>
    cases values with
    | nil => simp
    | cons => simp
  | cons item items ih =>
    rw [List.mapM_cons]
    constructor
    · intro h
      obtain ⟨value, hValue, hRest⟩ := Option.bind_eq_some_iff.mp h
      obtain ⟨others, hOthers, hAll⟩ := Option.bind_eq_some_iff.mp hRest
      cases hAll
      cases item with
      | string text =>
        cases hValue
        rw [List.map_cons, ih.mp hOthers]
      | _ => cases hValue
    · intro h
      cases values with
      | nil => cases h
      | cons value values =>
        obtain ⟨rfl, hRest⟩ := List.cons.inj h
        rw [ih.mpr hRest]
        rfl

theorem readStringArray_eq_ok {values : List JsString} :
    readStringArray object field = .ok values ↔
      object.get (ascii field) = some (.array (values.map Value.string)) := by
  rw [readStringArray]
  constructor
  · intro h
    split at h
    next items hItems =>
      split at h
      next found hFound =>
        cases h
        rw [hItems, mapM_asString.mp hFound]
      next => exact absurd h invalid_ne_ok
    next => exact absurd h invalid_ne_ok
  · intro h
    rw [h]
    dsimp only
    rw [mapM_asString.mpr rfl]

theorem single_eq_ok {values : List JsString} {accepts : JsString → Bool} :
    single values accepts field = .ok text ↔ values = [text] ∧ accepts text = true := by
  rw [single.eq_def]
  constructor
  · intro h
    split at h
    next value =>
      split at h
      next hAccepts =>
        cases h
        exact ⟨rfl, hAccepts⟩
      next => exact absurd h invalid_ne_ok
    next => exact absurd h invalid_ne_ok
  · rintro ⟨rfl, hAccepts⟩
    exact if_pos hAccepts

/-- The tag with its only value. -/
def HasTag (tags : Value) (name : String) (text : JsString) : Prop :=
  tags.get (ascii name) = some (.array [.string text])

inductive HasOptionalTag (tags : Value) (name : String) : Option JsString → Prop
  | absent : tags.get (ascii name) = none → HasOptionalTag tags name none
  | tagged {text : JsString} : HasTag tags name text → text ≠ [] →
      HasOptionalTag tags name (some text)

theorem readOptionalSingleTag_eq_ok {found : Option JsString} :
    readOptionalSingleTag object name = .ok found ↔ HasOptionalTag object name found := by
  rw [readOptionalSingleTag]
  constructor
  · intro h
    split at h
    next hNone =>
      cases h
      exact .absent hNone
    next =>
      obtain ⟨values, hValues, hRest⟩ := bind_eq_ok.mp h
      obtain ⟨text, hText, hSame⟩ := bind_eq_ok.mp hRest
      cases hSame
      obtain ⟨rfl, hSome⟩ := single_eq_ok.mp hText
      exact .tagged (readStringArray_eq_ok.mp hValues) (of_decide_eq_true hSome)
  · intro h
    cases h with
    | absent hNone => rw [hNone]
    | @tagged text hTag hSome =>
      have hValues : readStringArray object name = .ok [text] := readStringArray_eq_ok.mpr hTag
      rw [HasTag] at hTag
      rw [hTag]
      exact bind_eq_ok.mpr ⟨_, hValues, bind_eq_ok.mpr ⟨_,
        single_eq_ok.mpr ⟨rfl, decide_eq_true hSome⟩, rfl⟩⟩

/-- The text under the field is one of a time. -/
def HasDate (parseDate : JsString → Option Int) (object : Value) (field : String)
    (time : Int) : Prop :=
  ∃ text, HasText object field text ∧ parseDate text = some time

theorem readDate_eq_ok {time : Int} :
    readDate parseDate object field = .ok time ↔ HasDate parseDate object field time := by
  rw [readDate, bind_eq_ok]
  constructor
  · rintro ⟨text, hText, hTime⟩
    split at hTime
    next found hFound =>
      cases hTime
      exact ⟨text, readString_eq_ok.mp hText, hFound⟩
    next => exact absurd hTime invalid_ne_ok
  · rintro ⟨text, hText, hTime⟩
    refine ⟨text, readString_eq_ok.mpr hText, ?_⟩
    rw [hTime]
    rfl

/-- The time under the field, or nothing there. -/
inductive HasOptionalDate (parseDate : JsString → Option Int) (object : Value)
    (field : String) : Option Int → Prop
  | absent : object.get (ascii field) = none → HasOptionalDate parseDate object field none
  | date {time : Int} : HasDate parseDate object field time →
      HasOptionalDate parseDate object field (some time)

theorem readOptionalDate_eq_ok {found : Option Int} :
    readOptionalDate parseDate object field = .ok found ↔
      HasOptionalDate parseDate object field found := by
  rw [readOptionalDate]
  constructor
  · intro h
    split at h
    next hNone =>
      cases h
      exact .absent hNone
    next =>
      obtain ⟨time, hTime, hSame⟩ := bind_eq_ok.mp h
      cases hSame
      exact .date (readDate_eq_ok.mp hTime)
  · intro h
    cases h with
    | absent hNone => rw [hNone]
    | date hDate =>
      have hTime := readDate_eq_ok.mpr hDate
      obtain ⟨text, hText, _⟩ := hDate
      rw [hText.1]
      exact bind_eq_ok.mpr ⟨_, hTime, rfl⟩

theorem typeOf_typeName (type : EmailDeliveryEventType) :
    typeOf (ascii (typeName type)) = some type := by
  cases type <;> decide +kernel

theorem typeName_of_typeOf {type : EmailDeliveryEventType} (h : typeOf text = some type) :
    text = ascii (typeName type) := by
  have hName := List.find?_some h
  exact (of_decide_eq_true hName).symm

end

end FeedbackParser

end Pixaeron.Notifications
