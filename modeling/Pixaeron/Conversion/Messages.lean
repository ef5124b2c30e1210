import Pixaeron.Text.JsonRoundTrip
import Pixaeron.Conversion.Contract

/-! # Messages as texts

The bodies that the conversion API and the workers put into their queues, and what each of them
makes of a body it receives.
-/

namespace Pixaeron.Conversion.Messages

open Text.Json

/-! ## The contract's words -/

def modes : List ConversionMode := [.lossless, .lossy]

def modeName : ConversionMode → JsString
  | .lossless => ascii "LOSSLESS"
  | .lossy => ascii "LOSSY"

def strengths : List ConversionStrength := [.low, .medium, .high]

def strengthName : ConversionStrength → JsString
  | .low => ascii "LOW"
  | .medium => ascii "MEDIUM"
  | .high => ascii "HIGH"

def retentionClasses : List ConversionRetentionClass := [.short, .standard, .extended]

def retentionName : ConversionRetentionClass → JsString
  | .short => ascii "short"
  | .standard => ascii "standard"
  | .extended => ascii "extended"

def resultKinds : List ConversionResultKind := [.saved, .noSavings, .sanitizedLarger]

def resultKindName : ConversionResultKind → JsString
  | .saved => ascii "SAVED"
  | .noSavings => ascii "NO_SAVINGS"
  | .sanitizedLarger => ascii "SANITIZED_LARGER"

/-- The member whose name the value is. -/
def isMember {α : Type} (values : List α) (name : α → JsString) : Option Value → Option α
  | some (.string s) => values.find? fun v => name v = s
  | _ => none

theorem isMember_mode (mode : ConversionMode) :
    isMember modes modeName (some (.string (modeName mode))) = some mode := by
  cases mode <;> decide +kernel

theorem isMember_strength (strength : ConversionStrength) :
    isMember strengths strengthName (some (.string (strengthName strength))) = some strength := by
  cases strength <;> decide +kernel

theorem isMember_retention (retention : ConversionRetentionClass) :
    isMember retentionClasses retentionName (some (.string (retentionName retention))) =
      some retention := by
  cases retention <;> decide +kernel

theorem isMember_resultKind (kind : ConversionResultKind) :
    isMember resultKinds resultKindName (some (.string (resultKindName kind))) = some kind := by
  cases kind <;> decide +kernel

/-! ## The checks of a field -/

/-- `typeof value === 'object' && value !== null`. -/
def isObject : Value → Bool
  | .object _ => true
  | .array _ => true
  | _ => false

/-- The value, if `isNonEmptyString` accepts it. -/
def nonEmptyString : Option Value → Option JsString
  | some (.string s) => if s = [] then none else some s
  | _ => none

/-- The value, if `isNullOrNonEmptyString` accepts it. -/
def nullOrNonEmptyString : Option Value → Option (Option JsString)
  | some .null => some none
  | value => (nonEmptyString value).map some

/-- The value, if `isPositiveInteger` accepts it. -/
def positiveInteger : Option Value → Option Nat
  | some (.number (.finite value)) =>
    if value.den = 1 ∧ 0 < value ∧ value ≤ maxSignedInt then some value.num.toNat else none
  | _ => none

/-- `value === text`. -/
def isText (text : String) : Option Value → Bool
  | some (.string s) => s = ascii text
  | _ => false

def isBase64Unit (u : UInt16) : Bool :=
  65 ≤ u && u ≤ 90 || 97 ≤ u && u ≤ 122 || isDigit u || u = 43 || u = 47

/-- `SHA256_BASE64.test`. -/
def isSha256Base64 (s : JsString) : Bool :=
  s.length = 44 && s.getLast? = some 61 && s.dropLast.all isBase64Unit

def InRange (n : Nat) : Prop := 0 < n ∧ n ≤ maxSignedInt

theorem nonEmptyString_eq_some {value : Option Value} {s : JsString}
    (h : nonEmptyString value = some s) : s ≠ [] := by
  unfold nonEmptyString at h
  split at h
  · split at h <;> cases h
    assumption
  · cases h

theorem nonEmptyString_string {s : JsString} (h : s ≠ []) :
    nonEmptyString (some (.string s)) = some s := if_neg h

theorem nullOrNonEmptyString_eq_some {value : Option Value} {key : Option JsString}
    (h : nullOrNonEmptyString value = some key) : key ≠ some [] := by
  unfold nullOrNonEmptyString at h
  split at h
  · cases h
    exact nofun
  · obtain ⟨s, hString, rfl⟩ := Option.map_eq_some_iff.1 h
    intro hEmpty
    exact nonEmptyString_eq_some hString (Option.some.inj hEmpty)

theorem positiveInteger_eq_some {value : Option Value} {n : Nat}
    (h : positiveInteger value = some n) : InRange n := by
  unfold positiveInteger at h
  split at h
  · next x =>
    split at h
    · next hRange =>
      obtain ⟨hWhole, hPositive, hLimit⟩ := hRange
      obtain ⟨k, rfl⟩ : ∃ k : ℤ, x = k := ⟨x.num, (Rat.coe_int_num_of_den_eq_one hWhole).symm⟩
      replace hPositive : 0 < k := by exact_mod_cast hPositive
      replace hLimit : k ≤ maxSignedInt := by exact_mod_cast hLimit
      rw [Rat.num_intCast, Option.some.injEq] at h
      constructor <;> omega
    · cases h
  · cases h

theorem positiveInteger_number {n : Nat} (h : InRange n) :
    positiveInteger (some (.number (.finite n))) = some n := by
  have hPositive : (0 : ℚ) < n := by exact_mod_cast h.1
  have hLimit : (n : ℚ) ≤ maxSignedInt := by exact_mod_cast h.2
  rw [positiveInteger, if_pos ⟨Rat.den_natCast n, hPositive, hLimit⟩, Rat.num_natCast,
    Int.toNat_natCast]

/-! ## Requests -/

structure ConversionRequest where
  fileId : JsString
  batchId : JsString
  inputObjectKey : JsString
  inputEtag : JsString
  outputRetention : ConversionRetentionClass
  mode : ConversionMode
  strength : ConversionStrength

def ConversionRequest.fields (request : ConversionRequest) : List (JsString × Scalar) :=
  [(ascii "fileId", .string request.fileId), (ascii "batchId", .string request.batchId),
    (ascii "inputObjectKey", .string request.inputObjectKey),
      (ascii "inputEtag", .string request.inputEtag),
    (ascii "outputRetention", .string (retentionName request.outputRetention)),
    (ascii "mode", .string (modeName request.mode)),
      (ascii "strength", .string (strengthName request.strength))]

def requestOf (parsed : Value) : Option ConversionRequest := if !isObject parsed then none else do
  let fileId ← nonEmptyString (parsed.get (ascii "fileId"))
  let batchId ← nonEmptyString (parsed.get (ascii "batchId"))
  let inputObjectKey ← nonEmptyString (parsed.get (ascii "inputObjectKey"))
  let inputEtag ← nonEmptyString (parsed.get (ascii "inputEtag"))
  pure {
    fileId, batchId, inputObjectKey, inputEtag
    outputRetention :=
      (isMember retentionClasses retentionName (parsed.get (ascii "outputRetention"))).getD
        .standard
    mode := (isMember modes modeName (parsed.get (ascii "mode"))).getD .lossy
    strength := (isMember strengths strengthName (parsed.get (ascii "strength"))).getD .low }

def parseConversionRequest (body : JsString) : Option ConversionRequest :=
  (parse body).bind requestOf

/-! ## Events -/

structure CompletedResult where
  resultKind : ConversionResultKind
  inputFormat : JsString
  frameCount : Nat
  outputObjectKey : JsString
  outputBytes : Nat
  outputChecksumSha256 : JsString
  outputFormat : JsString
  width : Nat
  height : Nat
  previewObjectKey : Option JsString

inductive EventReport where
  | started
  | failed (failureCode : JsString)
  | completed (result : CompletedResult)

structure Event where
  fileId : JsString
  batchId : JsString
  attempt : Nat
  report : EventReport

def CompletedResult.fields (result : CompletedResult) : List (JsString × Scalar) :=
  [(ascii "resultKind", .string (resultKindName result.resultKind)),
    (ascii "inputFormat", .string result.inputFormat),
    (ascii "frameCount", .number result.frameCount),
    (ascii "outputObjectKey", .string result.outputObjectKey),
    (ascii "outputBytes", .number result.outputBytes),
    (ascii "outputChecksumSha256", .string result.outputChecksumSha256),
    (ascii "outputFormat", .string result.outputFormat), (ascii "width", .number result.width),
    (ascii "height", .number result.height), (ascii "previewObjectKey",
    result.previewObjectKey.elim .null .string)]

def EventReport.type : EventReport → JsString
  | .started => ascii "STARTED"
  | _ => ascii "RESULT"

def EventReport.fields : EventReport → List (JsString × Scalar)
  | .started => []
  | .failed failureCode =>
    [(ascii "outcome", .string (ascii "FAILED")), (ascii "failureCode", .string failureCode)]
  | .completed result => (ascii "outcome", .string (ascii "COMPLETED")) :: result.fields

def Event.fields (event : Event) : List (JsString × Scalar) :=
  [(ascii "type", .string event.report.type), (ascii "fileId", .string event.fileId),
    (ascii "batchId", .string event.batchId), (ascii "attempt", .number event.attempt)] ++
      event.report.fields

/-- The branch of `parseWorkerEvent` for the outcome COMPLETED. -/
def completedOf (event : Value) : Option CompletedResult := do
  let resultKind ← isMember resultKinds resultKindName (event.get (ascii "resultKind"))
  let inputFormat ← nonEmptyString (event.get (ascii "inputFormat"))
  let outputFormat ← nonEmptyString (event.get (ascii "outputFormat"))
  let outputObjectKey ← nonEmptyString (event.get (ascii "outputObjectKey"))
  let outputChecksumSha256 ← (nonEmptyString (event.get (ascii "outputChecksumSha256"))).filter
    isSha256Base64
  let frameCount ← positiveInteger (event.get (ascii "frameCount"))
  let outputBytes ← positiveInteger (event.get (ascii "outputBytes"))
  let width ← positiveInteger (event.get (ascii "width"))
  let height ← positiveInteger (event.get (ascii "height"))
  let previewObjectKey ← nullOrNonEmptyString (event.get (ascii "previewObjectKey"))
  pure {
    resultKind, inputFormat, frameCount, outputObjectKey, outputBytes, outputChecksumSha256,
      outputFormat, width, height
    previewObjectKey }

def reportOf (event : Value) : Option EventReport :=
  if isText "STARTED" (event.get (ascii "type")) then some .started
  else if !isText "RESULT" (event.get (ascii "type")) then none
  else if isText "FAILED" (event.get (ascii "outcome")) then
    (nonEmptyString (event.get (ascii "failureCode"))).map .failed
  else if !isText "COMPLETED" (event.get (ascii "outcome")) then none
  else (completedOf event).map .completed

def eventOf (parsed : Value) : Option Event := if !isObject parsed then none else do
  let fileId ← nonEmptyString (parsed.get (ascii "fileId"))
  let batchId ← nonEmptyString (parsed.get (ascii "batchId"))
  let attempt ← positiveInteger (parsed.get (ascii "attempt"))
  let report ← reportOf parsed
  pure { fileId, batchId, attempt, report }

def parseWorkerEvent (body : JsString) : Option Event := (parse body).bind eventOf

/-! ## What is written is read -/

section

variable {written : List (JsString × Scalar)} {request : ConversionRequest}
  {result : CompletedResult} {event : Event}

/-- Every field that was written is there again, in whatever order. -/
theorem get_written {fields : List (JsString × Scalar)} (hPerm : written.Perm fields)
    (hNames : (fields.map Prod.fst).Nodup) :
    ∀ m ∈ fields, (Value.object (written.map member)).get m.1 = some m.2.value := by
  intro m hMem
  exact get_members ((hPerm.map Prod.fst).nodup_iff.2 hNames) (hPerm.mem_iff.2 hMem)

theorem parse_written {fields : List (JsString × Scalar)} (hPerm : written.Perm fields)
    (hSome : fields ≠ []) (hFits : ∀ m ∈ fields, m.2.Fits) :
    parse (stringify written) = some (.object (written.map member)) := by
  refine parse_stringify ?_ fun m hMem => hFits m (hPerm.mem_iff.1 hMem)
  rintro rfl
  exact hSome hPerm.symm.eq_nil

theorem fits_string (s : JsString) : (Scalar.string s).Fits := nofun

theorem fits_number {n : Nat} (h : InRange n) : (Scalar.number n).Fits := by
  rintro _ ⟨⟩
  have hLimit : n ≤ 2147483647 := h.2
  omega

/-! ### Requests -/

/-- What `parseConversionRequest` asks for. -/
def ConversionRequest.Complete (request : ConversionRequest) : Prop :=
  request.fileId ≠ [] ∧ request.batchId ≠ [] ∧ request.inputObjectKey ≠ [] ∧ request.inputEtag ≠ []

def requestNames : List JsString :=
  ["fileId", "batchId", "inputObjectKey", "inputEtag", "outputRetention", "mode",
    "strength"].map ascii

theorem requestNames_nodup : requestNames.Nodup := by decide +kernel

theorem requestOf_complete {parsed : Value} (h : requestOf parsed = some request) :
    request.Complete := by
  rw [requestOf] at h
  split at h
  · cases h
  · simp only [Option.bind_eq_bind, Option.bind_eq_some_iff] at h
    obtain ⟨fileId, hFile, batchId, hBatch, inputObjectKey, hKey, inputEtag, hEtag, hRequest⟩ := h
    cases hRequest
    exact ⟨nonEmptyString_eq_some hFile, nonEmptyString_eq_some hBatch, nonEmptyString_eq_some hKey,
      nonEmptyString_eq_some hEtag⟩

theorem parseConversionRequest_written (hPerm : written.Perm request.fields) :
    parseConversionRequest (stringify written) = some request ↔ request.Complete := by
  have hNames : (request.fields.map Prod.fst).Nodup := requestNames_nodup
  have hGet := get_written hPerm hNames
  have hParse := parse_written hPerm (List.cons_ne_nil _ _) (by
    simp only [ConversionRequest.fields, List.forall_mem_cons]
    exact ⟨fits_string _, fits_string _, fits_string _, fits_string _, fits_string _, fits_string _,
      fits_string _, nofun⟩)
  simp only [ConversionRequest.fields, List.forall_mem_cons] at hGet
  obtain ⟨hFile, hBatch, hKey, hEtag, hRetention, hMode, hStrength, -⟩ := hGet
  rw [parseConversionRequest, hParse, Option.bind_some]
  constructor
  · exact requestOf_complete
  · rintro ⟨hFileId, hBatchId, hObjectKey, hTag⟩
    rw [requestOf, if_neg (by simp [isObject]), hFile, hBatch, hKey, hEtag, hRetention,
      hMode, hStrength]
    simp only [Scalar.value, nonEmptyString_string hFileId, nonEmptyString_string hBatchId,
      nonEmptyString_string hObjectKey, nonEmptyString_string hTag, isMember_mode,
      isMember_strength, isMember_retention]
    rfl

/-! ### Events -/

/-- What `parseWorkerEvent` asks of a finished conversion. -/
structure CompletedResult.WellFormed (result : CompletedResult) : Prop where
  inputFormat : result.inputFormat ≠ []
  frameCount : InRange result.frameCount
  outputObjectKey : result.outputObjectKey ≠ []
  outputBytes : InRange result.outputBytes
  outputChecksumSha256 : isSha256Base64 result.outputChecksumSha256 = true
  outputFormat : result.outputFormat ≠ []
  width : InRange result.width
  height : InRange result.height
  previewObjectKey : result.previewObjectKey ≠ some []

def EventReport.WellFormed : EventReport → Prop
  | .started => True
  | .failed failureCode => failureCode ≠ []
  | .completed result => result.WellFormed

/-- What `parseWorkerEvent` asks for. -/
structure Event.WellFormed (event : Event) : Prop where
  fileId : event.fileId ≠ []
  batchId : event.batchId ≠ []
  attempt : InRange event.attempt
  report : event.report.WellFormed

theorem completedOf_wellFormed {parsed : Value}
    (h : completedOf parsed = some result) : result.WellFormed := by
  simp only [completedOf, Option.bind_eq_bind, Option.bind_eq_some_iff,
    Option.filter_eq_some_iff] at h
  obtain ⟨kind, _, inputFormat, hIn, outputFormat, hOut, key, hKey, checksum, ⟨_, hChecksum⟩,
    frames, hFrames, bytes, hBytes,
    width, hWidth, height, hHeight, preview, hPreview, hResult⟩ := h
  cases hResult
  exact {
    inputFormat := nonEmptyString_eq_some hIn
    frameCount := positiveInteger_eq_some hFrames
    outputObjectKey := nonEmptyString_eq_some hKey
    outputBytes := positiveInteger_eq_some hBytes
    outputChecksumSha256 := hChecksum
    outputFormat := nonEmptyString_eq_some hOut
    width := positiveInteger_eq_some hWidth
    height := positiveInteger_eq_some hHeight
    previewObjectKey := nullOrNonEmptyString_eq_some hPreview }

theorem reportOf_wellFormed {parsed : Value} {report : EventReport}
    (h : reportOf parsed = some report) : report.WellFormed := by
  rw [reportOf] at h
  split at h
  · cases h
    trivial
  · split at h
    · cases h
    · split at h
      · obtain ⟨code, hCode, rfl⟩ := Option.map_eq_some_iff.1 h
        exact nonEmptyString_eq_some hCode
      · split at h
        · cases h
        · obtain ⟨result, hResult, rfl⟩ := Option.map_eq_some_iff.1 h
          exact completedOf_wellFormed hResult

theorem eventOf_wellFormed {parsed : Value} (h : eventOf parsed = some event) :
    event.WellFormed := by
  rw [eventOf] at h
  split at h
  · cases h
  · simp only [Option.bind_eq_bind, Option.bind_eq_some_iff] at h
    obtain ⟨fileId, hFile, batchId, hBatch, attempt, hAttempt, report, hReport, hEvent⟩ := h
    cases hEvent
    exact ⟨nonEmptyString_eq_some hFile, nonEmptyString_eq_some hBatch,
      positiveInteger_eq_some hAttempt,
      reportOf_wellFormed hReport⟩

theorem nullOrNonEmptyString_elim {key : Option JsString} (h : key ≠ some []) :
    nullOrNonEmptyString (some (key.elim Scalar.null Scalar.string).value) = some key := by
  cases key with
  | none => rfl
  | some s =>
    have hSome : s ≠ [] := fun hEmpty => h (congrArg some hEmpty)
    show (nonEmptyString (some (.string s))).map some = some (some s)
    rw [nonEmptyString_string hSome, Option.map_some]

theorem sha256_ne_nil {s : JsString} (h : isSha256Base64 s = true) : s ≠ [] := by
  rintro rfl
  cases h

theorem completedOf_written {parsed : Value} (h : result.WellFormed)
    (hGet : ∀ m ∈ result.fields, parsed.get m.1 = some m.2.value) :
    completedOf parsed = some result := by
  simp only [CompletedResult.fields, List.forall_mem_cons] at hGet
  obtain ⟨hKind, hIn, hFrames, hKey, hBytes, hSum, hOut, hWidth, hHeight, hPreview, -⟩ := hGet
  rw [completedOf, hKind, hIn, hFrames, hKey, hBytes, hSum, hOut, hWidth, hHeight, hPreview,
    nullOrNonEmptyString_elim h.previewObjectKey]
  simp only [Scalar.value, isMember_resultKind, nonEmptyString_string h.inputFormat,
    nonEmptyString_string h.outputFormat, nonEmptyString_string h.outputObjectKey,
    nonEmptyString_string (sha256_ne_nil h.outputChecksumSha256),
    positiveInteger_number h.frameCount, positiveInteger_number h.outputBytes,
    positiveInteger_number h.width, positiveInteger_number h.height, Option.filter_some,
    if_pos h.outputChecksumSha256]
  rfl

/-- A report of a result does not count as one of a start. -/
theorem isText_result : ¬ isText "STARTED" (some (.string (ascii "RESULT"))) = true ∧
    ¬ (!isText "RESULT" (some (.string (ascii "RESULT")))) = true := by
  decide +kernel

theorem reportOf_written {parsed : Value} {report : EventReport} (h : report.WellFormed)
    (hType : parsed.get (ascii "type") = some (.string report.type))
    (hGet : ∀ m ∈ report.fields, parsed.get m.1 = some m.2.value) :
    reportOf parsed = some report := by
  cases report with
  | started =>
    rw [reportOf, hType]
    rfl
  | failed failureCode =>
    replace hType : parsed.get (ascii "type") = some (.string (ascii "RESULT")) := hType
    simp only [EventReport.fields, List.forall_mem_cons] at hGet
    obtain ⟨hOutcome, hCode, -⟩ := hGet
    rw [reportOf, hType, if_neg isText_result.1, if_neg isText_result.2, hOutcome,
      if_pos (by decide +kernel), hCode, Scalar.value, nonEmptyString_string h, Option.map_some]
  | completed result =>
    replace hType : parsed.get (ascii "type") = some (.string (ascii "RESULT")) := hType
    rw [EventReport.fields, List.forall_mem_cons] at hGet
    obtain ⟨hOutcome, hResult⟩ := hGet
    replace hOutcome : parsed.get (ascii "outcome") = some (.string (ascii "COMPLETED")) := hOutcome
    rw [reportOf, hType, if_neg isText_result.1, if_neg isText_result.2, hOutcome,
      if_neg (by decide +kernel), if_neg (by decide +kernel), completedOf_written h hResult,
      Option.map_some]

def eventNames : List JsString := ["type", "fileId", "batchId", "attempt"].map ascii

def failedNames : List JsString := ["outcome", "failureCode"].map ascii

def completedNames : List JsString :=
  ["outcome", "resultKind", "inputFormat", "frameCount", "outputObjectKey", "outputBytes",
    "outputChecksumSha256", "outputFormat", "width", "height", "previewObjectKey"].map ascii

theorem eventNames_nodup (event : Event) : (event.fields.map Prod.fst).Nodup := by
  obtain ⟨_, _, _, report⟩ := event
  cases report with
  | started =>
    show eventNames.Nodup
    decide +kernel
  | failed failureCode =>
    show (eventNames ++ failedNames).Nodup
    decide +kernel
  | completed result =>
    show (eventNames ++ completedNames).Nodup
    decide +kernel

theorem fits_fields (h : event.WellFormed) : ∀ m ∈ event.fields, m.2.Fits := by
  obtain ⟨fileId, batchId, attempt, report⟩ := event
  have hAttempt := fits_number h.attempt
  have hReport : ∀ m ∈ report.fields, m.2.Fits := by
    have hWell := h.report
    cases report with
    | started => exact nofun
    | failed failureCode =>
      simp only [EventReport.fields, List.forall_mem_cons]
      exact ⟨fits_string _, fits_string _, nofun⟩
    | completed result =>
      have hPreview : (result.previewObjectKey.elim Scalar.null Scalar.string).Fits := by
        cases result.previewObjectKey <;> exact nofun
      simp only [EventReport.fields, CompletedResult.fields, List.forall_mem_cons]
      exact ⟨fits_string _, fits_string _, fits_string _, fits_number hWell.frameCount,
        fits_string _,
        fits_number hWell.outputBytes, fits_string _, fits_string _, fits_number hWell.width,
          fits_number hWell.height,
        hPreview, nofun⟩
  simp only [Event.fields, List.cons_append, List.nil_append, List.forall_mem_cons]
  exact ⟨fits_string _, fits_string _, fits_string _, hAttempt, hReport⟩

theorem parseWorkerEvent_written (h : event.WellFormed) (hPerm : written.Perm event.fields) :
    parseWorkerEvent (stringify written) = some event := by
  have hGet := get_written hPerm (eventNames_nodup event)
  rw [Event.fields, List.forall_mem_append] at hGet
  obtain ⟨hFirst, hReport⟩ := hGet
  simp only [List.forall_mem_cons] at hFirst
  obtain ⟨hType, hFile, hBatch, hAttempt, -⟩ := hFirst
  rw [parseWorkerEvent, parse_written hPerm (List.cons_ne_nil _ _) (fits_fields h),
    Option.bind_some, eventOf, if_neg (by simp [isObject]), hFile, hBatch, hAttempt,
    reportOf_written h.report hType hReport]
  simp only [Scalar.value, nonEmptyString_string h.fileId, nonEmptyString_string h.batchId,
    positiveInteger_number h.attempt]
  rfl

theorem parseWorkerEvent_wellFormed {body : JsString}
    (h : parseWorkerEvent body = some event) : event.WellFormed := by
  obtain ⟨parsed, _, hEvent⟩ := Option.bind_eq_some_iff.1 h
  exact eventOf_wellFormed hEvent

end

end Pixaeron.Conversion.Messages
