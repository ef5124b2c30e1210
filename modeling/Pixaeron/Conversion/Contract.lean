import Mathlib.Data.List.Basic

/-! # The conversion contract

What the conversion API and the workers agree on: object keys, queue names, and the messages
that travel between them.
-/

namespace Pixaeron.Conversion

/-- The text of a random identifier. It is never empty and has no slash. -/
structure Uuid where
  text : String
  nonempty : text ≠ ""
  plain : '/' ∉ text.toList
deriving DecidableEq

inductive ConversionMode where
  | lossless
  | lossy
deriving DecidableEq

inductive ConversionStrength where
  | low
  | medium
  | high
deriving DecidableEq

inductive ConversionResultKind where
  | saved
  | noSavings
  | sanitizedLarger
deriving DecidableEq

inductive ConversionRetentionClass where
  | short
  | standard
  | extended
deriving DecidableEq

inductive ConversionFailureCode where
  | animatedUnsupported
  | decodeFailed
  | inputChanged
  | inputMissing
  | inputTooLarge
  | pixelsExceeded
  | unsupportedFormat
deriving DecidableEq

/-- The text a failure code has in an event. -/
def ConversionFailureCode.text : ConversionFailureCode → String
  | .animatedUnsupported => "ANIMATED_UNSUPPORTED"
  | .decodeFailed => "DECODE_FAILED"
  | .inputChanged => "INPUT_CHANGED"
  | .inputMissing => "INPUT_MISSING"
  | .inputTooLarge => "INPUT_TOO_LARGE"
  | .pixelsExceeded => "PIXELS_EXCEEDED"
  | .unsupportedFormat => "UNSUPPORTED_FORMAT"

inductive ConversionImageFormat where
  | jpeg
  | png
  | webp
  | avif
deriving DecidableEq

def ConversionImageFormat.text : ConversionImageFormat → String
  | .jpeg => "jpeg"
  | .png => "png"
  | .webp => "webp"
  | .avif => "avif"

structure ConversionRequestMessage where
  fileId : Uuid
  batchId : Uuid
  inputObjectKey : String
  inputEtag : String
  outputRetention : ConversionRetentionClass
  mode : ConversionMode
  strength : ConversionStrength
deriving DecidableEq

structure CompletedOutcome where
  resultKind : ConversionResultKind
  inputFormat : String
  frameCount : Nat
  outputObjectKey : String
  outputBytes : Nat
  outputChecksumSha256 : String
  outputFormat : String
  width : Nat
  height : Nat
  previewObjectKey : Option String
deriving DecidableEq

inductive WorkerOutcome where
  | completed (result : CompletedOutcome)
  | failed (failureCode : String)
deriving DecidableEq

inductive WorkerReport where
  | started
  | result (outcome : WorkerOutcome)
deriving DecidableEq

structure WorkerEvent where
  fileId : Uuid
  batchId : Uuid
  attempt : Nat
  report : WorkerReport
deriving DecidableEq

def outputObjectKey (batchId fileId : Uuid) (attempt : Nat) : String :=
  s!"outputs/{batchId.text}/{fileId.text}/{attempt}"

def previewObjectKey (batchId fileId : Uuid) (attempt : Nat) : String :=
  s!"{outputObjectKey batchId fileId attempt}/preview"

def tierQueues : List String :=
  ["pixaeron-conversion-anon", "pixaeron-conversion-free", "pixaeron-conversion-light",
    "pixaeron-conversion-pro"]

def paidLargeQueue : String := "pixaeron-conversion-paid-large"

/-- The queue of a tier, or the text of the error for a tier that has none. -/
def queueForTier (tier : Nat) : Except String String :=
  match tierQueues[tier]? with
  | some queue => .ok queue
  | none => .error s!"Unmapped queue tier {tier}"

def maxSignedInt : Nat := 2147483647

def isPositiveInteger (value : Nat) : Bool := 0 < value && value ≤ maxSignedInt

def isNonEmptyString (value : String) : Bool := value ≠ ""

/-- `/^[A-Za-z0-9+/]{43}=$/`. -/
def isSha256Base64 (value : String) : Bool :=
  value.toList.length = 44 && value.toList.getLast? = some '=' &&
    value.toList.dropLast.all fun c => c.isAlphanum || c = '+' || c = '/'

/-- The worker's reading of a message body. A body that the API has written has every field; an
empty text in one of them is refused. -/
def parseConversionRequest (body : ConversionRequestMessage) : Option ConversionRequestMessage :=
  if isNonEmptyString body.fileId.text && isNonEmptyString body.batchId.text &&
      isNonEmptyString body.inputObjectKey && isNonEmptyString body.inputEtag then
    some body
  else none

def CompletedOutcome.wellFormed (result : CompletedOutcome) : Bool :=
  isNonEmptyString result.inputFormat && isNonEmptyString result.outputFormat &&
    isNonEmptyString result.outputObjectKey && isNonEmptyString result.outputChecksumSha256 &&
    isSha256Base64 result.outputChecksumSha256 && isPositiveInteger result.frameCount &&
    isPositiveInteger result.outputBytes && isPositiveInteger result.width &&
    isPositiveInteger result.height && result.previewObjectKey.all isNonEmptyString

/-- The API's reading of an event body that a worker has written. -/
def parseWorkerEvent (body : WorkerEvent) : Option WorkerEvent :=
  if !(isNonEmptyString body.fileId.text && isNonEmptyString body.batchId.text &&
      isPositiveInteger body.attempt) then none
  else match body.report with
    | .started => some body
    | .result (.failed failureCode) => if isNonEmptyString failureCode then some body else none
    | .result (.completed result) => if result.wellFormed then some body else none

theorem parseConversionRequest_eq_some {body request : ConversionRequestMessage}
    (h : parseConversionRequest body = some request) : request = body := by
  unfold parseConversionRequest at h
  split at h
  · exact (Option.some.inj h).symm
  · cases h

theorem parseWorkerEvent_eq_some {body event : WorkerEvent}
    (h : parseWorkerEvent body = some event) :
    event = body := by
  unfold parseWorkerEvent at h
  split at h
  · cases h
  · split at h
    · exact (Option.some.inj h).symm
    all_goals
      split at h
      · exact (Option.some.inj h).symm
      · cases h

/-! Keys of different attempts are different. -/

theorem split_at_slash {xs ys xs' ys' : List Char} (hx : '/' ∉ xs) (hx' : '/' ∉ xs')
    (h : xs ++ '/' :: ys = xs' ++ '/' :: ys') : xs = xs' ∧ ys = ys' := by
  induction xs generalizing xs' with
  | nil =>
    cases xs' with
    | nil => simpa using h
    | cons c rest =>
      rw [List.nil_append, List.cons_append, List.cons.injEq] at h
      exact absurd (h.1 ▸ List.mem_cons_self) hx'
  | cons c rest ih =>
    cases xs' with
    | nil =>
      rw [List.nil_append, List.cons_append, List.cons.injEq] at h
      exact absurd (h.1 ▸ List.mem_cons_self) hx
    | cons c' rest' =>
      rw [List.cons_append, List.cons_append, List.cons.injEq] at h
      obtain ⟨hRest, hYs⟩ := ih (fun hMem => hx (List.mem_cons_of_mem _ hMem))
        (fun hMem => hx' (List.mem_cons_of_mem _ hMem)) h.2
      exact ⟨by rw [h.1, hRest], hYs⟩

theorem slash_not_mem_digits (n : Nat) : '/' ∉ (toString n).toList := by
  intro hMem
  rw [Nat.toString_eq_ofList_toDigits, String.toList_ofList] at hMem
  have hDigit := Nat.isDigit_of_mem_toDigits (b := 10) (by decide) (by decide) hMem
  revert hDigit
  decide

theorem toString_injective {m n : Nat} (h : toString m = toString n) : m = n := by
  have hDigits : Nat.toDigits 10 m = Nat.toDigits 10 n := by
    simpa [Nat.toString_eq_ofList_toDigits] using congrArg String.toList h
  rw [← Nat.ofDigitChars_ten_toDigits (n := m), hDigits, Nat.ofDigitChars_ten_toDigits]

theorem Uuid.ext_text {a b : Uuid} (h : a.text.toList = b.text.toList) : a = b := by
  cases a
  cases b
  rw [Uuid.mk.injEq]
  exact String.toList_inj.mp h

theorem toString_text (text : String) : toString text = text := rfl

theorem toList_outputObjectKey (batchId fileId : Uuid) (attempt : Nat) :
    (outputObjectKey batchId fileId attempt).toList =
      "outputs/".toList ++ (batchId.text.toList ++
        '/' :: (fileId.text.toList ++ '/' :: (toString attempt).toList)) := by
  simp only [outputObjectKey, toString_text, String.toList_append, List.append_assoc]
  rfl

theorem toList_previewObjectKey (batchId fileId : Uuid) (attempt : Nat) :
    (previewObjectKey batchId fileId attempt).toList =
      "outputs/".toList ++ (batchId.text.toList ++
        '/' :: (fileId.text.toList ++ '/' :: ((toString attempt).toList ++
          '/' :: "preview".toList))) := by
  simp only [previewObjectKey, toString_text, String.toList_append, toList_outputObjectKey,
    List.append_assoc, List.cons_append]
  rfl

theorem outputObjectKey_injective {batchId fileId batchId' fileId' : Uuid} {attempt attempt' : Nat}
    (h : outputObjectKey batchId fileId attempt = outputObjectKey batchId' fileId' attempt') :
    batchId = batchId' ∧ fileId = fileId' ∧ attempt = attempt' := by
  have hList := congrArg String.toList h
  rw [toList_outputObjectKey, toList_outputObjectKey, List.append_cancel_left_eq] at hList
  obtain ⟨hBatch, hRest⟩ := split_at_slash batchId.plain batchId'.plain hList
  obtain ⟨hFile, hAttempt⟩ := split_at_slash fileId.plain fileId'.plain hRest
  exact ⟨Uuid.ext_text hBatch, Uuid.ext_text hFile,
    toString_injective (String.toList_inj.mp hAttempt)⟩

theorem previewObjectKey_injective {batchId fileId batchId' fileId' : Uuid} {attempt attempt' : Nat}
    (h : previewObjectKey batchId fileId attempt = previewObjectKey batchId' fileId' attempt') :
    batchId = batchId' ∧ fileId = fileId' ∧ attempt = attempt' := by
  have hList := congrArg String.toList h
  rw [toList_previewObjectKey, toList_previewObjectKey, List.append_cancel_left_eq] at hList
  obtain ⟨hBatch, hRest⟩ := split_at_slash batchId.plain batchId'.plain hList
  obtain ⟨hFile, hLast⟩ := split_at_slash fileId.plain fileId'.plain hRest
  obtain ⟨hAttempt, _⟩ := split_at_slash (slash_not_mem_digits _) (slash_not_mem_digits _) hLast
  exact ⟨Uuid.ext_text hBatch, Uuid.ext_text hFile,
    toString_injective (String.toList_inj.mp hAttempt)⟩

theorem outputObjectKey_ne_previewObjectKey {batchId fileId batchId' fileId' : Uuid}
    {attempt attempt' : Nat} :
    outputObjectKey batchId fileId attempt ≠ previewObjectKey batchId' fileId' attempt' := by
  intro h
  have hList := congrArg String.toList h
  rw [toList_outputObjectKey, toList_previewObjectKey, List.append_cancel_left_eq] at hList
  obtain ⟨_, hRest⟩ := split_at_slash batchId.plain batchId'.plain hList
  obtain ⟨_, hLast⟩ := split_at_slash fileId.plain fileId'.plain hRest
  refine slash_not_mem_digits attempt ?_
  rw [hLast]
  exact List.mem_append_right _ List.mem_cons_self

end Pixaeron.Conversion
