import Pixaeron.Notifications.Surroundings

/-! # What a feedback event means

The provider's events, their precedence, and the statuses and codes that they give to a delivery
and to its recipient.
-/

namespace Pixaeron.Notifications

inductive SesEvent where
  | send
  | delivery
  | deliveryDelay (delayType : String)
  | bounce (bounceType bounceSubType feedbackId : String)
  | complaint (complaintSubType complaintFeedbackType : Option String) (feedbackId : String)
  | reject (reason : String)
  | renderingFailure (templateName : String)
deriving DecidableEq

structure SesFeedback where
  snsMessageId : String
  sesMessageId : String
  recipient : String
  requestId : Option String
  mailTimestamp : Int
  providerTimestamp : Int
  event : SesEvent
deriving DecidableEq

/-- Only letters of ASCII matter here: no other character has a lower-case form that occurs in a
text the policy compares with. -/
def lowerCase (text : String) : List Char := text.toList.map Char.toLower

def isPermanent (bounceType : String) : Bool := lowerCase bounceType = "permanent".toList

def isTransient (bounceType : String) : Bool := lowerCase bounceType = "transient".toList

def providerSuppressionSubtypes : List String :=
  ["emailvalidationsuppressed", "suppressed", "onaccountsuppressionlist", "ontenantsuppressionlist"]

def isSuppressionSubtype (subtype : String) : Bool :=
  providerSuppressionSubtypes.any fun known => known.toList = lowerCase subtype

namespace SesEvent

def isProviderSuppression : SesEvent → Bool
  | .bounce _ bounceSubType _ => isSuppressionSubtype bounceSubType
  | .complaint (some complaintSubType) _ _ => isSuppressionSubtype complaintSubType
  | _ => false

def isTerminalMailboxEvent : SesEvent → Bool
  | .complaint .. => true
  | .bounce bounceType bounceSubType feedbackId =>
    isPermanent bounceType || isProviderSuppression (.bounce bounceType bounceSubType feedbackId)
  | _ => false

def feedbackPrecedence (event : SesEvent) : Nat :=
  if event.isProviderSuppression then 70 else
    match event with
    | .complaint .. => 60
    | .bounce bounceType _ _ => if isPermanent bounceType then 50 else 45
    | .reject _ => 40
    | .renderingFailure _ => 40
    | .delivery => 30
    | .deliveryDelay _ => 20
    | .send => 10

def deliveryStatus (event : SesEvent) : EmailDeliveryStatus :=
  match event with
  | .send => .accepted
  | .delivery => .delivered
  | .deliveryDelay _ => .delayed
  | .bounce .. => if event.isProviderSuppression then .suppressed else .bounced
  | .complaint .. => if event.isProviderSuppression then .suppressed else .complained
  | .reject _ => .rejected
  | .renderingFailure _ => .failed

def destinationStatus : SesEvent → Option EmailDestinationStatus
  | .delivery => some .active
  | .deliveryDelay _ => some .temporaryFailure
  | .bounce bounceType _ _ => if isTransient bounceType then some .temporaryFailure else none
  | _ => none

def toEventType : SesEvent → EmailDeliveryEventType
  | .send => .send
  | .delivery => .delivery
  | .deliveryDelay _ => .deliveryDelay
  | .bounce .. => .bounce
  | .complaint .. => .complaint
  | .reject _ => .reject
  | .renderingFailure _ => .renderingFailure

def feedbackId : SesEvent → Option String
  | .bounce _ _ feedbackId => some feedbackId
  | .complaint _ _ feedbackId => some feedbackId
  | _ => none

end SesEvent

/-- Every run of characters other than letters and digits becomes one underscore. -/
def underscored : List Char → Bool → List Char
  | [], _ => []
  | c :: rest, inRun =>
    if c.isAlphanum then c :: underscored rest false
    else if inRun then underscored rest true
    else '_' :: underscored rest true

/-- The parts that are there, in capital letters and at most a hundred characters together. -/
def safeCode (parts : List (Option String)) : String :=
  let present := (parts.filterMap id).filter fun part => part ≠ ""
  String.ofList ((List.intercalate ['_'] (present.map fun part =>
    (underscored part.toList false).map Char.toUpper)).take 100)

namespace SesEvent

def deliveryFailureCode : SesEvent → Option String
  | .deliveryDelay delayType => some (safeCode [some "DELIVERY_DELAY", some delayType])
  | .bounce bounceType bounceSubType _ =>
    some (safeCode [some "BOUNCE", some bounceType, some bounceSubType])
  | .complaint complaintSubType complaintFeedbackType _ =>
    some (safeCode [some "COMPLAINT", complaintSubType, complaintFeedbackType])
  | .reject _ => some "SES_REJECTED"
  | .renderingFailure _ => some "RENDERING_FAILURE"
  | _ => none

def eventSubtype : SesEvent → Option String
  | .deliveryDelay delayType => some (safeCode [some delayType])
  | .bounce bounceType bounceSubType _ => some (safeCode [some bounceType, some bounceSubType])
  | .complaint complaintSubType complaintFeedbackType _ =>
    let code := safeCode [complaintSubType, complaintFeedbackType]
    if code = "" then none else some code
  | .reject _ => some "SES_REJECTED"
  | .renderingFailure _ => some "RENDERING_FAILURE"
  | _ => none

end SesEvent

/-- `TERMINAL_DELIVERY_STATUSES`: feedback that is not about a dead mailbox leaves these alone. -/
def terminalDeliveryStatuses : List EmailDeliveryStatus := [.bounced, .complained, .suppressed]

/-- `BLOCKED_DESTINATION_STATUSES`. -/
def blockedDestinationStatuses : List EmailDestinationStatus := [.suppressed, .recoveryPending]

theorem SesEvent.terminal_of_terminalMailbox {event : SesEvent}
    (h : event.isTerminalMailboxEvent = true) :
    event.deliveryStatus ∈ terminalDeliveryStatuses := by
  cases event with
  | complaint subType feedbackType feedbackId =>
    simp only [SesEvent.deliveryStatus, terminalDeliveryStatuses]
    split <;> simp
  | bounce bounceType bounceSubType feedbackId =>
    simp only [SesEvent.deliveryStatus, terminalDeliveryStatuses]
    split <;> simp
  | send => cases h
  | delivery => cases h
  | deliveryDelay delayType => cases h
  | reject reason => cases h
  | renderingFailure templateName => cases h

end Pixaeron.Notifications
