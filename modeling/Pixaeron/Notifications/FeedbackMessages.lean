import Pixaeron.Notifications.FeedbackParser

/-! # What feedback messages say

A body is accepted exactly if it is the text of an envelope from the expected topic around the text
of an event from the expected source, in any spelling of JSON.
-/

namespace Pixaeron.Notifications.FeedbackParser

open Text.Json

/-! ## Events and envelopes -/

section

variable (parseDate : JsString → Option Int) (source : SesFeedbackSource)

structure Envelope (envelope : Value) (snsMessageId message : JsString) : Prop where
  type : HasText envelope "Type" (ascii "Notification")
  topicArn : HasText envelope "TopicArn" source.topicArn
  messageId : HasText envelope "MessageId" snsMessageId
  message : HasText envelope "Message" message

/-- The e-mail that an event is about. -/
structure Mail (mail : Value) (f : SesFeedbackText) : Prop where
  sendingAccountId : HasText mail "sendingAccountId" source.sendingAccountId
  sourceArn : HasText mail "sourceArn" source.sourceArn
  destination : HasTag mail "destination" f.recipient
  addressed : hasText f.recipient = true
  tags : ∃ tags, HasObject mail "tags" tags ∧
    HasTag tags "ses:configuration-set" source.configurationSet ∧
    HasOptionalTag tags "request-id" f.requestId
  mailTimestamp : HasDate parseDate mail "timestamp" f.mailTimestamp
  sesMessageId : HasText mail "messageId" f.sesMessageId

def IsOfType (event : Value) (type : EmailDeliveryEventType) : Prop :=
  HasText event "eventType" (ascii (typeName type))

/-- What the event says beside the e-mail, with the provider's time. -/
inductive Tells (event : Value) (mailTimestamp : Int) : SesEventText → Int → Prop
  | send {send : Value} : IsOfType event .send → HasObject event "send" send →
      Tells event mailTimestamp .send mailTimestamp
  | delivery {delivery : Value} {time : Int} : IsOfType event .delivery →
      HasObject event "delivery" delivery →
    HasDate parseDate delivery "timestamp" time → Tells event mailTimestamp .delivery time
  | deliveryDelay {delay : Value} {delayType : JsString}
      {time : Option Int} : IsOfType event .deliveryDelay →
    HasObject event "deliveryDelay" delay → HasText delay "delayType" delayType →
    HasOptionalDate parseDate delay "timestamp" time →
    Tells event mailTimestamp (.deliveryDelay delayType) (time.getD mailTimestamp)
  | bounce {bounce : Value} {bounceType bounceSubType feedbackId : JsString}
      {time : Int} : IsOfType event .bounce →
    HasObject event "bounce" bounce → HasText bounce "bounceType" bounceType →
      HasText bounce "bounceSubType" bounceSubType →
    HasText bounce "feedbackId" feedbackId → HasDate parseDate bounce "timestamp" time →
    Tells event mailTimestamp (.bounce bounceType bounceSubType feedbackId) time
  | complaint {complaint : Value} {subType feedbackType : Option JsString} {feedbackId : JsString}
      {time : Int} :
    IsOfType event .complaint → HasObject event "complaint" complaint →
    HasOptionalText complaint "complaintSubType" subType →
      HasOptionalText complaint "complaintFeedbackType" feedbackType →
    HasText complaint "feedbackId" feedbackId → HasDate parseDate complaint "timestamp" time →
    Tells event mailTimestamp (.complaint subType feedbackType feedbackId) time
  | reject {reject : Value} {reason : JsString} : IsOfType event .reject →
      HasObject event "reject" reject →
    HasText reject "reason" reason → Tells event mailTimestamp (.reject reason) mailTimestamp
  | renderingFailure {failure : Value} {errorMessage templateName : JsString} : IsOfType event
      .renderingFailure →
    HasObject event "failure" failure → HasText failure "errorMessage" errorMessage →
    HasText failure "templateName" templateName →
      Tells event mailTimestamp (.renderingFailure templateName) mailTimestamp

structure Reports (event : Value) (f : SesFeedbackText) : Prop where
  mail : ∃ mail, HasObject event "mail" mail ∧ Mail parseDate source mail f
  told : Tells parseDate event f.mailTimestamp f.event f.providerTimestamp

end

section Messages

variable {parseDate : JsString → Option Int} {source : SesFeedbackSource} {event envelope : Value}
  {f : SesFeedbackText}

theorem isObject_of_text {object : Value} {field : String} {text : JsString}
    (h : HasText object field text) : IsObject object := by
  cases object with
  | object members => exact ⟨members, rfl⟩
  | _ => exact nomatch h.1

/-! ## What is accepted -/

theorem validateSource_eq_ok {mail : Value} {a : Unit} : validateSource mail source = .ok a ↔
    HasText mail "sendingAccountId" source.sendingAccountId ∧
    HasText mail "sourceArn" source.sourceArn := by
  simp only [validateSource, bind_eq_ok, readString_eq_ok, check_eq_ok]
  constructor
  · rintro ⟨account, hAccount, _, rfl, arn, hArn, rfl⟩
    exact ⟨hAccount, hArn⟩
  · rintro ⟨hAccount, hArn⟩
    exact ⟨_, hAccount, (), rfl, _, hArn, rfl⟩

theorem normalizeEvent_eq_ok {mailTimestamp time : Int} {kind : SesEventText} :
    normalizeEvent parseDate event mailTimestamp = .ok (kind, time) ↔
      Tells parseDate event mailTimestamp kind time := by
  rw [normalizeEvent, bind_eq_ok]
  constructor
  · rintro ⟨eventType, hType, h⟩
    rw [readString_eq_ok] at hType
    have hNamed {type : EmailDeliveryEventType}
      (hFound : typeOf eventType = some type) : IsOfType event type := by
      rw [IsOfType, ← typeName_of_typeOf hFound]
      exact hType
    split at h
    next hFound =>
      obtain ⟨send, hSend, hSame⟩ := bind_eq_ok.mp h
      cases hSame
      exact .send (hNamed hFound) (readObject_eq_ok.mp hSend)
    next hFound =>
      obtain ⟨delivery, hDelivery, hRest⟩ := bind_eq_ok.mp h
      obtain ⟨t, hTime, hSame⟩ := bind_eq_ok.mp hRest
      cases hSame
      exact .delivery (hNamed hFound) (readObject_eq_ok.mp hDelivery) (readDate_eq_ok.mp hTime)
    next hFound =>
      simp only [readDelay, bind_eq_ok, readObject_eq_ok, readString_eq_ok,
        readOptionalDate_eq_ok] at h
      obtain ⟨delay, hDelay, delayType, hText, t, hTime, hSame⟩ := h
      cases hSame
      exact .deliveryDelay (hNamed hFound) hDelay hText hTime
    next hFound =>
      simp only [readBounce, bind_eq_ok, readObject_eq_ok, readString_eq_ok, readDate_eq_ok] at h
      obtain ⟨bounce, hBounce, bounceType, hText, bounceSubType, hSubType, feedbackId, hId, t,
        hTime, hSame⟩ := h
      cases hSame
      exact .bounce (hNamed hFound) hBounce hText hSubType hId hTime
    next hFound =>
      simp only [readComplaint, bind_eq_ok, readObject_eq_ok, readString_eq_ok,
        readOptionalString_eq_ok, readDate_eq_ok] at h
      obtain ⟨complaint, hComplaint, subType, hSubType, feedbackType, hFeedback, feedbackId, hId, t,
        hTime, hSame⟩ := h
      cases hSame
      exact .complaint (hNamed hFound) hComplaint hSubType hFeedback hId hTime
    next hFound =>
      obtain ⟨reject, hReject, hRest⟩ := bind_eq_ok.mp h
      obtain ⟨reason, hReason, hSame⟩ := bind_eq_ok.mp hRest
      cases hSame
      exact .reject (hNamed hFound) (readObject_eq_ok.mp hReject) (readString_eq_ok.mp hReason)
    next hFound =>
      simp only [readFailure, bind_eq_ok, readObject_eq_ok, readString_eq_ok] at h
      obtain ⟨failure, hFailure, errorMessage, hError, templateName, hTemplate, hSame⟩ := h
      cases hSame
      exact .renderingFailure (hNamed hFound) hFailure hError hTemplate
    next => exact absurd h invalid_ne_ok
  · intro h
    have hRead {type : EmailDeliveryEventType} (hNamed : IsOfType event type) :
        readString event "eventType" = .ok (ascii (typeName type)) := readString_eq_ok.mpr hNamed
    cases h with
    | send hNamed hSend =>
      refine ⟨_, hRead hNamed, ?_⟩
      rw [typeOf_typeName]
      exact bind_eq_ok.mpr ⟨_, readObject_eq_ok.mpr hSend, rfl⟩
    | delivery hNamed hDelivery hTime =>
      refine ⟨_, hRead hNamed, ?_⟩
      rw [typeOf_typeName]
      exact bind_eq_ok.mpr ⟨_, readObject_eq_ok.mpr hDelivery,
        bind_eq_ok.mpr ⟨_, readDate_eq_ok.mpr hTime, rfl⟩⟩
    | deliveryDelay hNamed hDelay hText hTime =>
      refine ⟨_, hRead hNamed, ?_⟩
      rw [typeOf_typeName]
      simp only [readDelay, bind_eq_ok, readObject_eq_ok, readString_eq_ok, readOptionalDate_eq_ok]
      exact ⟨_, hDelay, _, hText, _, hTime, rfl⟩
    | bounce hNamed hBounce hText hSubType hId hTime =>
      refine ⟨_, hRead hNamed, ?_⟩
      rw [typeOf_typeName]
      simp only [readBounce, bind_eq_ok, readObject_eq_ok, readString_eq_ok, readDate_eq_ok]
      exact ⟨_, hBounce, _, hText, _, hSubType, _, hId, _, hTime, rfl⟩
    | complaint hNamed hComplaint hSubType hFeedback hId hTime =>
      refine ⟨_, hRead hNamed, ?_⟩
      rw [typeOf_typeName]
      simp only [readComplaint, bind_eq_ok, readObject_eq_ok, readString_eq_ok,
        readOptionalString_eq_ok, readDate_eq_ok]
      exact ⟨_, hComplaint, _, hSubType, _, hFeedback, _, hId, _, hTime, rfl⟩
    | reject hNamed hReject hReason =>
      refine ⟨_, hRead hNamed, ?_⟩
      rw [typeOf_typeName]
      exact bind_eq_ok.mpr ⟨_, readObject_eq_ok.mpr hReject,
        bind_eq_ok.mpr ⟨_, readString_eq_ok.mpr hReason, rfl⟩⟩
    | renderingFailure hNamed hFailure hError hTemplate =>
      refine ⟨_, hRead hNamed, ?_⟩
      rw [typeOf_typeName]
      simp only [readFailure, bind_eq_ok, readObject_eq_ok, readString_eq_ok]
      exact ⟨_, hFailure, _, hError, _, hTemplate, rfl⟩

theorem readEvent_eq_ok {snsMessageId : JsString} :
    readEvent parseDate snsMessageId event source = .ok f ↔
    snsMessageId = f.snsMessageId ∧ Reports parseDate source event f := by
  simp only [readEvent, bind_eq_ok, readObject_eq_ok, validateSource_eq_ok, readStringArray_eq_ok,
    single_eq_ok, readDate_eq_ok, readString_eq_ok, readOptionalSingleTag_eq_ok, Prod.exists]
  constructor
  · rintro ⟨mail, hMail, _, ⟨hAccount, hArn⟩, _, hDestination, recipient, ⟨rfl, hRecipient⟩, tags,
      hTags, _, hSets, set,
      ⟨rfl, hSet⟩, mailTimestamp, hTime, sesMessageId, hMessage, requestId, hRequest, kind, time,
        hTold, hSame⟩
    cases hSame
    rw [of_decide_eq_true hSet] at hSets
    exact ⟨rfl, ⟨mail, hMail, hAccount, hArn, hDestination, hRecipient,
      ⟨tags, hTags, hSets, hRequest⟩, hTime, hMessage⟩,
      normalizeEvent_eq_ok.mp hTold⟩
  · rintro ⟨rfl, ⟨mail, hMail, h⟩, hTold⟩
    obtain ⟨tags, hTags, hSet, hRequest⟩ := h.tags
    exact ⟨mail, hMail, (), ⟨h.sendingAccountId, h.sourceArn⟩, [f.recipient], h.destination, _,
      ⟨rfl, h.addressed⟩, tags, hTags,
      [source.configurationSet], hSet, _, ⟨rfl, decide_eq_true rfl⟩, _, h.mailTimestamp, _,
        h.sesMessageId, _, hRequest, _, _,
      normalizeEvent_eq_ok.mpr hTold, rfl⟩

/-- A body is read as an event exactly if it is an envelope of the expected topic around a report of
that event from the expected account, identity and configuration set. -/
theorem parseSesFeedback_eq_ok {body : JsString} : parseSesFeedback parseDate body source = .ok f ↔
    ∃ envelope message event, parse body = some envelope ∧
      Envelope source envelope f.snsMessageId message ∧
      parse message = some event ∧ Reports parseDate source event f := by
  simp only [parseSesFeedback, bind_eq_ok, parseObject_eq_ok, readString_eq_ok, check_eq_ok,
    readEvent_eq_ok]
  constructor
  · rintro ⟨envelope, ⟨hBody, _⟩, _, hType, _, rfl, _, hTopic, _, rfl, snsMessageId, hId, message,
      hMessage, event,
      ⟨hEvent, _⟩, rfl, hReports⟩
    exact ⟨envelope, message, event, hBody, ⟨hType, hTopic, hId, hMessage⟩, hEvent, hReports⟩
  · rintro ⟨envelope, message, event, hBody, hEnvelope, hEvent, hReports⟩
    obtain ⟨mail, ⟨hMail, _⟩, _⟩ := hReports.mail
    have hObject : IsObject event := by
      cases event with
      | object members => exact ⟨members, rfl⟩
      | _ => exact nomatch hMail
    exact ⟨envelope, ⟨hBody, isObject_of_text hEnvelope.type⟩, _, hEnvelope.type, (), rfl, _,
      hEnvelope.topicArn, (), rfl, _,
      hEnvelope.messageId, message, hEnvelope.message, event, ⟨hEvent, hObject⟩, rfl, hReports⟩

/-! ## Published events -/

section

variable (printDate : Int → JsString) (source : SesFeedbackSource)

def text (name : String) (value : JsString) : JsString × Written := (ascii name, .string value)

def textOrNull (name : String) : Option JsString → JsString × Written
  | none => (ascii name, .null)
  | some value => text name value

def tag (name : String) (value : JsString) : JsString × Written :=
  (ascii name, .array [.string value])

def eventTypeOf : SesEventText → EmailDeliveryEventType
  | .send => .send
  | .delivery => .delivery
  | .deliveryDelay _ => .deliveryDelay
  | .bounce .. => .bounce
  | .complaint .. => .complaint
  | .reject _ => .reject
  | .renderingFailure _ => .renderingFailure

def payloadName : EmailDeliveryEventType → String
  | .send => "send"
  | .delivery => "delivery"
  | .deliveryDelay => "deliveryDelay"
  | .bounce => "bounce"
  | .complaint => "complaint"
  | .reject => "reject"
  | .renderingFailure => "failure"

/-- What an event brings under the name for its type. -/
def payload (timestamp : JsString) : SesEventText → List (JsString × Written)
  | .send => []
  | .delivery => [text "timestamp" timestamp]
  | .deliveryDelay delayType => [text "timestamp" timestamp, text "delayType" delayType]
  | .bounce bounceType bounceSubType feedbackId =>
    [text "timestamp" timestamp, text "bounceType" bounceType,
      text "bounceSubType" bounceSubType, text "feedbackId" feedbackId]
  | .complaint complaintSubType complaintFeedbackType feedbackId =>
    [text "timestamp" timestamp, text "feedbackId" feedbackId,
      textOrNull "complaintSubType" complaintSubType,
        textOrNull "complaintFeedbackType" complaintFeedbackType]
  | .reject reason => [text "reason" reason]
  | .renderingFailure templateName =>
    [text "templateName" templateName, text "errorMessage" (ascii "Missing template attribute")]

def tagsOf (f : SesFeedbackText) : Written :=
  .object (tag "ses:configuration-set" source.configurationSet ::
    (f.requestId.map (tag "request-id")).toList)

def mailOf (f : SesFeedbackText) : Written := .object
  [text "timestamp" (printDate f.mailTimestamp), text "messageId" f.sesMessageId,
    text "sendingAccountId" source.sendingAccountId, text "sourceArn" source.sourceArn,
      tag "destination" f.recipient,
    (ascii "tags", tagsOf source f)]

def eventMembers (f : SesFeedbackText) : List (JsString × Written) :=
  [text "eventType" (ascii (typeName (eventTypeOf f.event))),
    (ascii (payloadName (eventTypeOf f.event)),
      .object (payload (printDate f.providerTimestamp) f.event)),
    (ascii "mail", mailOf printDate source f)]

def createSesEvent (f : SesFeedbackText) : Written := .object (eventMembers printDate source f)

/-- The event's text is a string in the text of the envelope. -/
def createSnsBody (f : SesFeedbackText) : Written := .object
  [text "Type" (ascii "Notification"), text "MessageId" f.snsMessageId,
    text "TopicArn" source.topicArn, text "Message" (createSesEvent printDate source f).text]

end

/-- The texts that an event must bring. -/
def textsOf : SesEventText → List JsString
  | .send => []
  | .delivery => []
  | .deliveryDelay delayType => [delayType]
  | .bounce bounceType bounceSubType feedbackId => [bounceType, bounceSubType, feedbackId]
  | .complaint complaintSubType complaintFeedbackType feedbackId =>
    feedbackId :: (complaintSubType.toList ++ complaintFeedbackType.toList)
  | .reject reason => [reason]
  | .renderingFailure templateName => [templateName]

/-- Events without a time of their own. -/
def isUntimed (event : SesEventText) : Bool :=
  eventTypeOf event ∈ [.send, .reject, .renderingFailure]

/-- No text is empty, and the times can be printed. -/
structure Publishable (parseDate : JsString → Option Int) (printDate : Int → JsString)
    (source : SesFeedbackSource) (f : SesFeedbackText) : Prop where
  topicArn : source.topicArn ≠ []
  sendingAccountId : source.sendingAccountId ≠ []
  sourceArn : source.sourceArn ≠ []
  snsMessageId : f.snsMessageId ≠ []
  sesMessageId : f.sesMessageId ≠ []
  recipient : hasText f.recipient = true
  requestId : f.requestId ≠ some []
  texts : ∀ t ∈ textsOf f.event, t ≠ []
  mailTimestamp : printDate f.mailTimestamp ≠ [] ∧
    parseDate (printDate f.mailTimestamp) = some f.mailTimestamp
  providerTimestamp : printDate f.providerTimestamp ≠ [] ∧
    parseDate (printDate f.providerTimestamp) = some f.providerTimestamp
  untimed : isUntimed f.event = true → f.providerTimestamp = f.mailTimestamp

variable {printDate : Int → JsString} {members : List (JsString × Written)}

theorem hasText_object {name : String} {value : JsString} (hNames : (members.map Prod.fst).Nodup)
    (hMem : text name value ∈ members) (hSome : value ≠ []) :
    HasText (Written.object members).value name value :=
  ⟨Written.get_object hNames hMem, hSome⟩

theorem hasOptionalText_object {name : String} {value : Option JsString}
    (hNames : (members.map Prod.fst).Nodup) (hMem : textOrNull name value ∈ members)
    (hSome : ∀ t ∈ value, t ≠ []) :
    HasOptionalText (Written.object members).value name value := by
  cases value with
  | none => exact .null (Written.get_object hNames hMem)
  | some t => exact .text (hasText_object hNames hMem (hSome t rfl))

theorem hasTag_object {name : String} {value : JsString} (hNames : (members.map Prod.fst).Nodup)
    (hMem : tag name value ∈ members) :
    HasTag (Written.object members).value name value := Written.get_object hNames hMem

theorem hasObject_object {name : String} {inner : List (JsString × Written)}
    (hNames : (members.map Prod.fst).Nodup) (hMem : (ascii name, Written.object inner) ∈ members) :
    HasObject (Written.object members).value name (Written.object inner).value :=
  ⟨Written.get_object hNames hMem, _, rfl⟩

theorem mail_of_publishable (h : Publishable parseDate printDate source f) :
    Mail parseDate source (mailOf printDate source f).value f := by
  have hNames : ([text "timestamp" (printDate f.mailTimestamp), text "messageId" f.sesMessageId,
    text "sendingAccountId" source.sendingAccountId, text "sourceArn" source.sourceArn,
      tag "destination" f.recipient,
    (ascii "tags", tagsOf source f)].map Prod.fst).Nodup := by
    show ([ascii "timestamp", ascii "messageId", ascii "sendingAccountId", ascii "sourceArn",
      ascii "destination", ascii "tags"] : List JsString).Nodup
    decide +kernel
  refine ⟨hasText_object hNames (by simp) h.sendingAccountId,
    hasText_object hNames (by simp) h.sourceArn,
    hasTag_object hNames (by simp), h.recipient, ?_,
      ⟨_, hasText_object hNames (by simp) h.mailTimestamp.1, h.mailTimestamp.2⟩,
    hasText_object hNames (by simp) h.sesMessageId⟩
  refine ⟨(tagsOf source f).value, hasObject_object hNames (by simp [tagsOf]), ?_⟩
  cases hRequest : f.requestId with
  | none =>
    rw [tagsOf, hRequest]
    refine ⟨hasTag_object (List.nodup_singleton _) (by simp), .absent (Written.get_object_none ?_)⟩
    show ascii "request-id" ∉ [ascii "ses:configuration-set"]
    decide +kernel
  | some id =>
    have hBoth : ([tag "ses:configuration-set" source.configurationSet,
      tag "request-id" id].map Prod.fst).Nodup := by
      show ([ascii "ses:configuration-set", ascii "request-id"] : List JsString).Nodup
      decide +kernel
    rw [tagsOf, hRequest]
    refine ⟨hasTag_object hBoth (by simp), .tagged (hasTag_object hBoth (by simp)) ?_⟩
    rintro rfl
    exact h.requestId hRequest

theorem names_eventMembers : ((eventMembers printDate source f).map Prod.fst).Nodup := by
  have hNames (type : EmailDeliveryEventType) : ([ascii "eventType", ascii (payloadName type),
    ascii "mail"] : List JsString).Nodup := by
    cases type <;> decide +kernel
  exact hNames (eventTypeOf f.event)

theorem names_payload {timestamp : JsString} (kind : SesEventText) :
    ((payload timestamp kind).map Prod.fst).Nodup := by
  cases kind with
  | send => exact List.nodup_nil
  | delivery => exact List.nodup_singleton _
  | deliveryDelay delayType =>
    show ([ascii "timestamp", ascii "delayType"] : List JsString).Nodup
    decide +kernel
  | bounce bounceType bounceSubType feedbackId =>
    show ([ascii "timestamp", ascii "bounceType", ascii "bounceSubType",
      ascii "feedbackId"] : List JsString).Nodup
    decide +kernel
  | complaint subType feedbackType feedbackId =>
    have hNames : ([ascii "timestamp", ascii "feedbackId", ascii "complaintSubType",
      ascii "complaintFeedbackType"] :
        List JsString).Nodup := by
      decide +kernel
    cases subType <;> cases feedbackType <;> exact hNames
  | reject reason => exact List.nodup_singleton _
  | renderingFailure templateName =>
    show ([ascii "templateName", ascii "errorMessage"] : List JsString).Nodup
    decide +kernel

theorem tells_of_publishable (h : Publishable parseDate printDate source f) :
    Tells parseDate (createSesEvent printDate source f).value f.mailTimestamp f.event
      f.providerTimestamp := by
  have hType : IsOfType (createSesEvent printDate source f).value (eventTypeOf f.event) := by
    refine hasText_object names_eventMembers (List.mem_cons_self ..) ?_
    cases eventTypeOf f.event <;> decide +kernel
  have hPayload : HasObject (createSesEvent printDate source f).value
    (payloadName (eventTypeOf f.event))
      (Written.object (payload (printDate f.providerTimestamp) f.event)).value :=
    hasObject_object names_eventMembers (List.mem_cons_of_mem _ (List.mem_cons_self ..))
  have hNames := @names_payload (printDate f.providerTimestamp) f.event
  have hTexts := h.texts
  have hUntimed := h.untimed
  have hTime {members : List (JsString × Written)} (hDistinct : (members.map Prod.fst).Nodup)
      (hMem : text "timestamp" (printDate f.providerTimestamp) ∈ members) :
      HasDate parseDate (Written.object members).value "timestamp" f.providerTimestamp :=
    ⟨_, hasText_object hDistinct hMem h.providerTimestamp.1, h.providerTimestamp.2⟩
  cases hEvent : f.event with
  | send =>
    rw [hEvent] at hType hPayload hUntimed
    rw [hUntimed rfl]
    exact .send hType hPayload
  | delivery =>
    rw [hEvent] at hType hPayload hNames
    exact .delivery hType hPayload (hTime hNames (by simp [payload]))
  | deliveryDelay delayType =>
    rw [hEvent] at hType hPayload hNames hTexts
    exact .deliveryDelay hType hPayload
      (hasText_object hNames (by simp [payload]) (hTexts _ (by simp [textsOf])))
      (.date (hTime hNames (by simp [payload])))
  | bounce bounceType bounceSubType feedbackId =>
    rw [hEvent] at hType hPayload hNames hTexts
    exact .bounce hType hPayload (hasText_object hNames (by simp [payload])
      (hTexts _ (by simp [textsOf])))
      (hasText_object hNames (by simp [payload]) (hTexts _ (by simp [textsOf])))
      (hasText_object hNames (by simp [payload]) (hTexts _ (by simp [textsOf])))
        (hTime hNames (by simp [payload]))
  | complaint subType feedbackType feedbackId =>
    rw [hEvent] at hType hPayload hNames hTexts
    have hSub : ∀ t ∈ subType, t ≠ [] := fun t ht =>
      hTexts t (by simp [textsOf, Option.mem_def.mp ht])
    have hFeedback : ∀ t ∈ feedbackType, t ≠ [] :=
      fun t ht => hTexts t (by simp [textsOf, Option.mem_def.mp ht])
    exact .complaint hType hPayload (hasOptionalText_object hNames (by simp [payload]) hSub)
      (hasOptionalText_object hNames (by simp [payload]) hFeedback)
      (hasText_object hNames (by simp [payload]) (hTexts _ (by simp [textsOf])))
        (hTime hNames (by simp [payload]))
  | reject reason =>
    rw [hEvent] at hType hPayload hNames hTexts hUntimed
    rw [hUntimed rfl]
    exact .reject hType hPayload (hasText_object hNames (by simp [payload])
      (hTexts _ (by simp [textsOf])))
  | renderingFailure templateName =>
    rw [hEvent] at hType hPayload hNames hTexts hUntimed
    rw [hUntimed rfl]
    have hError : HasText (Written.object
      (payload (printDate f.providerTimestamp) (.renderingFailure templateName))).value
        "errorMessage" (ascii "Missing template attribute") :=
          hasText_object hNames (by simp [payload]) (by decide +kernel)
    exact .renderingFailure hType hPayload hError
      (hasText_object hNames (by simp [payload]) (hTexts _ (by simp [textsOf])))

/-- A published event is read back from the body of its message, through both texts. -/
theorem parseSesFeedback_createSnsBody (h : Publishable parseDate printDate source f) :
    parseSesFeedback parseDate (createSnsBody printDate source f).text source = .ok f := by
  have hNames : ([text "Type" (ascii "Notification"), text "MessageId" f.snsMessageId,
    text "TopicArn" source.topicArn,
      text "Message" (createSesEvent printDate source f).text].map Prod.fst).Nodup := by
    show ([ascii "Type", ascii "MessageId", ascii "TopicArn",
      ascii "Message"] : List JsString).Nodup
    decide +kernel
  have hEnvelope : Envelope source (createSnsBody printDate source f).value f.snsMessageId
      (createSesEvent printDate source f).text :=
    ⟨hasText_object hNames (by simp) (by decide +kernel),
      hasText_object hNames (by simp) h.topicArn,
      hasText_object hNames (by simp) h.snsMessageId,
        hasText_object hNames (by simp) (List.cons_ne_nil _ _)⟩
  refine parseSesFeedback_eq_ok.mpr ⟨_, _, _, Written.parse_text _, hEnvelope, Written.parse_text _,
    ?_, tells_of_publishable h⟩
  exact ⟨(mailOf printDate source f).value,
    hasObject_object names_eventMembers (by simp [eventMembers, mailOf]),
    mail_of_publishable h⟩

end Messages

/-! ## One message -/

namespace Sample

def source : SesFeedbackSource where
  topicArn := ascii "arn:aws:sns:eu-central-1:123456789012:pixaeron-feedback"
  sendingAccountId := ascii "123456789012"
  sourceArn := ascii "arn:aws:ses:eu-central-1:123456789012:identity/pixaeron.com"
  configurationSet := ascii "pixaeron-transactional"

/-- Two times of one day. -/
def times : List (Int × JsString) :=
  [(1786183200000, ascii "2026-08-08T10:00:00.000Z"),
    (1786183260000, ascii "2026-08-08T10:01:00.000Z")]

def printDate (time : Int) : JsString := (times.lookup time).getD (ascii "Invalid Date")

def parseDate (text : JsString) : Option Int :=
  (times.find? fun entry => entry.2 = text).map Prod.fst

def bounced : SesFeedbackText where
  snsMessageId := ascii "sns-message-id"
  sesMessageId := ascii "ses-message-id"
  recipient := ascii "User@example.com"
  requestId := some (ascii "request-id")
  mailTimestamp := 1786183200000
  providerTimestamp := 1786183260000
  event := .bounce (ascii "Permanent") (ascii "General") (ascii "bounce-feedback-id")

theorem publishable_bounced : Publishable parseDate printDate source bounced where
  topicArn := by decide +kernel
  sendingAccountId := by decide +kernel
  sourceArn := by decide +kernel
  snsMessageId := by decide +kernel
  sesMessageId := by decide +kernel
  recipient := by decide +kernel
  requestId := by decide +kernel
  texts := by decide +kernel
  mailTimestamp := by decide +kernel
  providerTimestamp := by decide +kernel
  untimed hUntimed := absurd hUntimed (by decide)

theorem parseSesFeedback_bounced :
    parseSesFeedback parseDate (createSnsBody printDate source bounced).text source = .ok bounced :=
  parseSesFeedback_createSnsBody publishable_bounced

end Sample

end Pixaeron.Notifications.FeedbackParser
