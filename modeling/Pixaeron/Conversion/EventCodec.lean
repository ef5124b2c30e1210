import Pixaeron.Conversion.Messages
import Pixaeron.Worker.CompressorOutcomes

/-! # Events on their way to the API

What a worker publishes for a message of a request queue, and what the API reads of it.
-/

namespace Pixaeron.Conversion.Messages

open Text.Json Bytes Worker

/-! ## Checksums -/

def base64Unit (n : Nat) : UInt16 :=
  UInt16.ofNat (if n < 26 then 65 + n else if n < 52 then 71 + n else if n < 62 then n - 4
    else if n = 62 then 43 else 47)

/-- Three bytes in four letters; what is missing in the last three is filled with `=`. -/
def base64 : ByteString → JsString
  | a :: b :: c :: rest =>
    [base64Unit (a.toNat / 4), base64Unit (a.toNat % 4 * 16 + b.toNat / 16),
      base64Unit (b.toNat % 16 * 4 + c.toNat / 64), base64Unit (c.toNat % 64)] ++ base64 rest
  | [a, b] =>
    [base64Unit (a.toNat / 4), base64Unit (a.toNat % 4 * 16 + b.toNat / 16),
      base64Unit (b.toNat % 16 * 4), 61]
  | [a] => [base64Unit (a.toNat / 4), base64Unit (a.toNat % 4 * 16), 61, 61]
  | [] => []

theorem isBase64Unit_base64Unit : ∀ n < 64, isBase64Unit (base64Unit n) = true := by decide +kernel

/-- The last letter of a text for two bytes more than a multiple of three is the only `=`. -/
theorem base64_spec {k : Nat} {bytes : ByteString} (h : bytes.length = 3 * k + 2) :
    ∃ units, base64 bytes = units ++ [61] ∧ units.length = 4 * k + 3 ∧
      ∀ u ∈ units, isBase64Unit u = true := by
  induction k generalizing bytes with
  | zero =>
    match bytes, h with
    | [a, b], _ =>
      have hA := a.toNat_lt
      have hB := b.toNat_lt
      refine ⟨[base64Unit (a.toNat / 4), base64Unit (a.toNat % 4 * 16 + b.toNat / 16),
        base64Unit (b.toNat % 16 * 4)], rfl, rfl, ?_⟩
      simp only [List.forall_mem_cons]
      refine ⟨?_, ?_, ?_, nofun⟩ <;> exact isBase64Unit_base64Unit _ (by omega)
  | succ k ih =>
    match bytes, h with
    | a :: b :: c :: rest, h =>
      have hA := a.toNat_lt
      have hB := b.toNat_lt
      have hC := c.toNat_lt
      simp only [List.length_cons] at h
      obtain ⟨units, hRest, hLength, hAll⟩ := @ih rest (by omega)
      refine ⟨[base64Unit (a.toNat / 4), base64Unit (a.toNat % 4 * 16 + b.toNat / 16),
        base64Unit (b.toNat % 16 * 4 + c.toNat / 64), base64Unit (c.toNat % 64)] ++ units, ?_, ?_,
          ?_⟩
      · rw [base64, hRest, List.append_assoc]
      · simp only [List.length_append, List.length_cons, List.length_nil]
        omega
      · simp only [List.forall_mem_append, List.forall_mem_cons]
        refine ⟨⟨?_, ?_, ?_, ?_, nofun⟩, hAll⟩ <;> exact isBase64Unit_base64Unit _ (by omega)

theorem isSha256Base64_base64 {digest : ByteString} (h : digest.length = 32) :
    isSha256Base64 (base64 digest) = true := by
  obtain ⟨units, hText, hLength, hAll⟩ := @base64_spec 10 digest h
  rw [isSha256Base64, hText, List.dropLast_concat, List.getLast?_concat]
  simp only [List.length_append, hLength, List.length_cons, List.length_nil, Bool.and_eq_true,
    List.all_eq_true]
  exact ⟨⟨rfl, by decide⟩, hAll⟩

/-! ## The text of an event -/

theorem utf16_eq_ascii {text : String} (h : ∀ c ∈ text.toList, c.toNat < 0x10000) :
    utf16 text = ascii text := by
  rw [utf16, ascii]
  generalize text.toList = chars at h
  induction chars with
  | nil => rfl
  | cons c chars ih =>
    rw [List.flatMap_cons, List.map_cons, charUnits, if_pos (h c List.mem_cons_self),
      ih fun c hMem => h c (List.mem_cons_of_mem _ hMem)]
    rfl

theorem isAlphanum_eq (c : Char) : c.isAlphanum = ((decide (c.val ≥ 'A'.val ∧ c.val ≤ 'Z'.val) ||
    (decide (c.val ≥ 'a'.val) && decide (c.val ≤ 'z'.val))) ||
      (decide (c.val ≥ '0'.val) && decide (c.val ≤ '9'.val))) := rfl

theorem isBase64Unit_char {c : Char} (h : c.toNat < 0x10000) :
    isBase64Unit (UInt16.ofNat c.toNat) = (c.isAlphanum || c = '+' || c = '/') := by
  have hNat : (UInt16.ofNat c.toNat).toNat = c.toNat :=
    UInt16.toNat_ofNat_of_lt' (show _ < 65536 by omega)
  have hPlus : c = '+' ↔ c.toNat = 43 := by
    rw [← Char.toNat_inj]
    rfl
  have hSlash : c = '/' ↔ c.toNat = 47 := by
    rw [← Char.toNat_inj]
    rfl
  have hUnit (n : UInt16) : UInt16.ofNat c.toNat = n ↔ c.toNat = n.toNat := by
    rw [← UInt16.toNat_inj, hNat]
  rw [Bool.eq_iff_iff]
  simp only [isBase64Unit, isDigit, isAlphanum_eq, Bool.or_eq_true, Bool.and_eq_true,
    decide_eq_true_eq, ge_iff_le, UInt16.le_iff_toNat_le, UInt32.le_iff_toNat_le, hNat, hUnit,
    hPlus, hSlash]
  exact Iff.rfl

theorem unit_lt_of_isSha256Base64 {s : JsString} (h : isSha256Base64 s = true) :
    ∀ u ∈ s, u.toNat < 128 := by
  simp only [isSha256Base64, Bool.and_eq_true, decide_eq_true_eq, List.all_eq_true] at h
  obtain ⟨⟨hLength, hLast⟩, hAll⟩ := h
  intro u hMem
  rw [← List.dropLast_append_getLast? 61 hLast] at hMem
  obtain hFront | hEnd := List.mem_append.1 hMem
  · have hUnit := hAll u hFront
    simp only [isBase64Unit, isDigit, Bool.or_eq_true, Bool.and_eq_true, decide_eq_true_eq,
      UInt16.le_iff_toNat_le] at hUnit
    obtain (((⟨_, hHigh⟩ | ⟨_, hHigh⟩) | ⟨_, hHigh⟩) | rfl) | rfl := hUnit
    · exact hHigh.trans_lt (by decide)
    · exact hHigh.trans_lt (by decide)
    · exact hHigh.trans_lt (by decide)
    · decide
    · decide
  · rw [List.mem_singleton.1 hEnd]
    decide

theorem char_lt_of_isSha256Base64 {text : String} (h : isSha256Base64 (utf16 text) = true) :
    ∀ c ∈ text.toList, c.toNat < 0x10000 := by
  intro c hMem
  by_contra hBeyond
  have hChar : c.toNat < 0x110000 := by
    have hValid := c.valid
    simp only [UInt32.isValidChar, Nat.isValidChar] at hValid
    change c.val.toNat < 0x110000
    omega
  have hUnit : UInt16.ofNat (0xd800 + (c.toNat - 0x10000) / 0x400) ∈ utf16 text := by
    rw [utf16, List.mem_flatMap]
    refine ⟨c, hMem, ?_⟩
    rw [charUnits, if_neg hBeyond]
    exact List.mem_cons_self
  have hSmall := unit_lt_of_isSha256Base64 h _ hUnit
  rw [UInt16.toNat_ofNat_of_lt' (show _ < 65536 by omega)] at hSmall
  omega

theorem isSha256Base64_ascii {text : String} (h : ∀ c ∈ text.toList, c.toNat < 0x10000) :
    isSha256Base64 (ascii text) = Conversion.isSha256Base64 text := by
  rw [isSha256Base64, Conversion.isSha256Base64, ascii]
  generalize text.toList = chars at h
  have hLast : ((chars.map fun c => UInt16.ofNat c.toNat).getLast? = some 61) ↔
    chars.getLast? = some '=' := by
    rw [List.getLast?_map, Option.map_eq_some_iff]
    constructor
    · rintro ⟨c, hLast, hUnit⟩
      have hChar := h c (List.mem_of_getLast? hLast)
      have hNat := congrArg UInt16.toNat hUnit
      rw [UInt16.toNat_ofNat_of_lt' (show _ < 65536 by omega)] at hNat
      rw [hLast, ← Char.toNat_inj.1 (show c.toNat = '='.toNat from hNat)]
    · intro hLast
      exact ⟨'=', hLast, rfl⟩
  have hAll : ((chars.map fun c => UInt16.ofNat c.toNat).dropLast.all isBase64Unit) =
      chars.dropLast.all fun c => c.isAlphanum || c = '+' || c = '/' := by
    rw [← List.map_dropLast, List.all_map, Bool.eq_iff_iff, List.all_eq_true, List.all_eq_true]
    refine forall₂_congr fun c hMem => ?_
    rw [← isBase64Unit_char (h c (List.mem_of_mem_dropLast hMem))]
    rfl
  rw [hAll, List.length_map]
  simp only [hLast]

theorem toNat_lt_of_isAlphanum {c : Char} (h : c.isAlphanum = true) : c.toNat < 128 := by
  simp only [isAlphanum_eq, Bool.or_eq_true, Bool.and_eq_true, decide_eq_true_eq, ge_iff_le,
    UInt32.le_iff_toNat_le] at h
  change c.val.toNat < 128
  obtain (⟨_, hHigh⟩ | ⟨_, hHigh⟩) | ⟨_, hHigh⟩ := h <;> exact hHigh.trans_lt (by decide)

theorem char_lt_of_checksum {text : String} (h : Conversion.isSha256Base64 text = true) :
    ∀ c ∈ text.toList, c.toNat < 0x10000 := by
  simp only [Conversion.isSha256Base64, Bool.and_eq_true, decide_eq_true_eq, List.all_eq_true,
    Bool.or_eq_true] at h
  obtain ⟨⟨_, hLast⟩, hAll⟩ := h
  intro c hMem
  rw [← List.dropLast_append_getLast? '=' hLast] at hMem
  obtain hFront | hEnd := List.mem_append.1 hMem
  · obtain (hAlphanum | rfl) | rfl := hAll c hFront
    · have hSmall := toNat_lt_of_isAlphanum hAlphanum
      omega
    · decide
    · decide
  · rw [List.mem_singleton.1 hEnd]
    decide

theorem isSha256Base64_utf16 (text : String) :
    isSha256Base64 (utf16 text) = Conversion.isSha256Base64 text := by
  rw [Bool.eq_iff_iff]
  constructor
  · intro h
    have hChars := char_lt_of_isSha256Base64 h
    rwa [utf16_eq_ascii hChars, isSha256Base64_ascii hChars] at h
  · intro h
    have hChars := char_lt_of_checksum h
    rwa [utf16_eq_ascii hChars, isSha256Base64_ascii hChars]

def completedText (result : CompletedOutcome) : CompletedResult where
  resultKind := result.resultKind
  inputFormat := utf16 result.inputFormat
  frameCount := result.frameCount
  outputObjectKey := utf16 result.outputObjectKey
  outputBytes := result.outputBytes
  outputChecksumSha256 := utf16 result.outputChecksumSha256
  outputFormat := utf16 result.outputFormat
  width := result.width
  height := result.height
  previewObjectKey := result.previewObjectKey.map utf16

def reportText : WorkerReport → EventReport
  | .started => .started
  | .result (.completed result) => .completed (completedText result)
  | .result (.failed failureCode) => .failed (utf16 failureCode)

def eventText (event : WorkerEvent) : Event where
  fileId := utf16 event.fileId.text
  batchId := utf16 event.batchId.text
  attempt := event.attempt
  report := reportText event.report

theorem utf16_ne_nil {text : String} : utf16 text ≠ [] ↔ isNonEmptyString text = true := by
  rw [Ne, utf16_eq_nil, isNonEmptyString, decide_eq_true_eq]

theorem inRange_iff {n : Nat} : InRange n ↔ isPositiveInteger n = true := by
  rw [InRange, isPositiveInteger, Bool.and_eq_true, decide_eq_true_eq, decide_eq_true_eq]

theorem preview_ne_nil {key : Option String} :
    key.map utf16 ≠ some [] ↔ key.all isNonEmptyString = true := by
  cases key with
  | none => exact iff_of_true nofun rfl
  | some key => rw [Option.map_some, Ne, Option.some.injEq, ← Ne, utf16_ne_nil, Option.all_some]

theorem completedText_wellFormed (result : CompletedOutcome) :
    (completedText result).WellFormed ↔ result.wellFormed = true := by
  simp only [CompletedOutcome.wellFormed, Bool.and_eq_true]
  constructor
  · intro h
    have hChecksum : isSha256Base64 (utf16 result.outputChecksumSha256) = true :=
      h.outputChecksumSha256
    exact ⟨⟨⟨⟨⟨⟨⟨⟨⟨utf16_ne_nil.1 h.inputFormat, utf16_ne_nil.1 h.outputFormat⟩,
      utf16_ne_nil.1 h.outputObjectKey⟩,
      utf16_ne_nil.1 (sha256_ne_nil hChecksum)⟩, isSha256Base64_utf16 _ ▸ hChecksum⟩,
        inRange_iff.1 h.frameCount⟩,
      inRange_iff.1 h.outputBytes⟩, inRange_iff.1 h.width⟩, inRange_iff.1 h.height⟩,
        preview_ne_nil.1 h.previewObjectKey⟩
  · rintro ⟨⟨⟨⟨⟨⟨⟨⟨⟨hIn, hOut⟩, hKey⟩, _⟩, hChecksum⟩, hFrames⟩, hBytes⟩, hWidth⟩, hHeight⟩,
      hPreview⟩
    rw [← isSha256Base64_utf16] at hChecksum
    exact ⟨utf16_ne_nil.2 hIn, inRange_iff.2 hFrames, utf16_ne_nil.2 hKey, inRange_iff.2 hBytes,
      hChecksum, utf16_ne_nil.2 hOut,
      inRange_iff.2 hWidth, inRange_iff.2 hHeight, preview_ne_nil.2 hPreview⟩

theorem parseWorkerEvent_eventText (event : WorkerEvent) :
    parseWorkerEvent (stringify (eventText event).fields) = some (eventText event) ↔
      Conversion.parseWorkerEvent event = some event := by
  have hRead : parseWorkerEvent (stringify (eventText event).fields) = some (eventText event) ↔
    (eventText event).WellFormed :=
    ⟨parseWorkerEvent_wellFormed, fun h => parseWorkerEvent_written h (.refl _)⟩
  have hIds : isNonEmptyString event.fileId.text = true ∧
    isNonEmptyString event.batchId.text = true :=
    ⟨decide_eq_true event.fileId.nonempty, decide_eq_true event.batchId.nonempty⟩
  have hWell : (eventText event).WellFormed ↔
    InRange event.attempt ∧ (reportText event.report).WellFormed :=
    ⟨fun h => ⟨h.attempt, h.report⟩, fun h =>
      ⟨utf16_ne_nil.2 hIds.1, utf16_ne_nil.2 hIds.2, h.1, h.2⟩⟩
  rw [hRead, hWell, inRange_iff, Conversion.parseWorkerEvent, hIds.1, hIds.2, Bool.true_and,
    Bool.true_and]
  cases hAttempt : isPositiveInteger event.attempt with
  | false => simp
  | true =>
    rw [Bool.not_true, if_neg Bool.false_ne_true]
    cases hReport : event.report with
    | started => exact iff_of_true ⟨rfl, trivial⟩ rfl
    | result outcome =>
      cases outcome with
      | failed failureCode =>
        have hCode : (reportText (.result (.failed failureCode))).WellFormed ↔
          isNonEmptyString failureCode = true := utf16_ne_nil
        rw [hCode]
        simp
      | completed result =>
        have hResult : (reportText (.result (.completed result))).WellFormed ↔
          result.wellFormed = true :=
          completedText_wellFormed result
        rw [hResult]
        simp

/-! ## The worker -/

/-- A message of a request queue. -/
structure QueueMessage where
  body : Option JsString
  receiptHandle : Option JsString
  receiveCount : Option Nat

/-- What a worker meets while it handles a message: the input, or the code of the integrity error it
is refused with, or any other error; whether the result is stored; and whether a preview is made of
it and stored. -/
structure Encounters where
  input : Except (Option ConversionFailureCode) ByteString
  stored : Bool
  previewStored : Bool

def outputObjectKey (batchId fileId : JsString) (attempt : Nat) : JsString :=
  ascii "outputs/" ++ batchId ++ ascii "/" ++ fileId ++ ascii "/" ++
    (Scalar.number attempt).stringify

def previewObjectKey (batchId fileId : JsString) (attempt : Nat) : JsString :=
  outputObjectKey batchId fileId attempt ++ ascii "/preview"

section

variable (library : ImageLibrary) (config : CompressorConfig)

def checksumOf (bytes : ByteString) : JsString := base64 (library.sha256 bytes)

def completedReport (request : ConversionRequest) (attempt : Nat) (previewStored : Bool)
    (result : Compressed) : CompletedResult where
  resultKind := result.kind
  inputFormat := ascii result.format.text
  frameCount := result.frames
  outputObjectKey := outputObjectKey request.batchId request.fileId attempt
  outputBytes := result.bytes.length
  outputChecksumSha256 := checksumOf library result.bytes
  outputFormat := ascii result.format.text
  width := result.width
  height := result.height
  previewObjectKey :=
    if previewStored then some (previewObjectKey request.batchId request.fileId attempt) else none

/-- The events that `handle` publishes. A worker that fails to publish one gives up, and the others
are never sent. -/
def published (message : QueueMessage) (encounters : Encounters) : List Event :=
  match parseConversionRequest (message.body.getD []) with
  | none => []
  | some request =>
    if message.receiptHandle.getD [] = [] then []
    else
      let attempt := message.receiveCount.getD 1
      let event (report : EventReport) : Event := ⟨request.fileId, request.batchId, attempt, report⟩
      event .started :: match encounters.input with
        | .error none => []
        | .error (some failureCode) => [event (.failed (ascii failureCode.text))]
        | .ok input => match compress library config input request.mode request.strength with
          | .error failureCode => [event (.failed (ascii failureCode.text))]
          | .ok result =>
            if encounters.stored then
              [event (.completed (completedReport library request attempt
              encounters.previewStored result))]
            else []

end

variable {library : ImageLibrary} {config : CompressorConfig} {message : QueueMessage}
  {encounters : Encounters} {event : Event}

/-- The image library counts at least one page, if it counts any. -/
def CountsPages (library : ImageLibrary) : Prop :=
  ∀ input metadata, library.metadata input = .ok metadata → metadata.pages ≠ some 0

theorem frames_of_compressAs {format : ConversionImageFormat} {metadata : Metadata}
    {input : ByteString} {mode : ConversionMode} {strength : ConversionStrength}
    {result : Compressed} (h : compressAs library format metadata input mode strength =
      .ok result) : result.frames = metadata.pages.getD 1 := by
  obtain ⟨e, _, h⟩ := ok_of_bind h
  split at h
  · cases h
    rfl
  · split at h
    · cases h
      rfl
    · obtain ⟨carries, _, h⟩ := ok_of_bind h
      split at h <;> cases h <;> rfl

theorem frames_of_compress {input : ByteString} {mode : ConversionMode}
    {strength : ConversionStrength} {result : Compressed} (hPages : CountsPages library)
    (h : compress library config input mode strength = .ok result) : result.frames = 1 := by
  unfold compress at h
  split at h
  · cases h
  · split at h
    · cases h
    · next metadata hMetadata =>
      dsimp only at h
      split at h
      · cases h
      · next format hFormat =>
        split at h
        · cases h
        · next hSingle =>
          split at h
          · cases h
          · have hCounted := hPages input metadata hMetadata
            cases hResult : compressAs library format metadata input mode strength with
            | error e => rw [hResult] at h; cases h
            | ok result' =>
              rw [hResult] at h
              cases h
              rw [frames_of_compressAs hResult]
              cases hCount : metadata.pages with
              | none => rfl
              | some n =>
                rw [hCount, Option.getD_some] at hSingle
                have hSome : n ≠ 0 := fun hZero => hCounted (by rw [hCount, hZero])
                rw [Option.getD_some]
                omega

/-- A finished conversion has an output of at least one byte and one pixel, whose sizes are signed
integers of 32 bits. -/
def SizesInRange (event : Event) : Prop :=
  ∀ result, event.report = .completed result →
    InRange result.outputBytes ∧ InRange result.width ∧ InRange result.height

theorem ascii_ne_nil {text : String} (h : text.toList ≠ []) : ascii text ≠ [] := by
  rw [ascii, Ne, List.map_eq_nil_iff]
  exact h

theorem failureCode_ne_nil (code : ConversionFailureCode) : ascii code.text ≠ [] := by
  cases code <;> exact ascii_ne_nil (by decide)

theorem formatText_ne_nil (format : ConversionImageFormat) : ascii format.text ≠ [] := by
  cases format <;> exact ascii_ne_nil (by decide)

theorem completedReport_wellFormed {request : ConversionRequest} {attempt : Nat}
    {previewStored : Bool} {result : Compressed}
    (hDigest : ∀ bytes, (library.sha256 bytes).length = 32) (hFrames : result.frames = 1)
    (hBytes : InRange result.bytes.length) (hWidth : InRange result.width)
    (hHeight : InRange result.height) :
    (completedReport library request attempt previewStored result).WellFormed where
  inputFormat := formatText_ne_nil result.format
  frameCount := by
    show InRange result.frames
    rw [hFrames]
    constructor <;> decide
  outputObjectKey := nofun
  outputBytes := hBytes
  outputChecksumSha256 := isSha256Base64_base64 (hDigest result.bytes)
  outputFormat := formatText_ne_nil result.format
  width := hWidth
  height := hHeight
  previewObjectKey := by
    cases previewStored <;> exact nofun

theorem published_wellFormed (hPages : CountsPages library)
    (hDigest : ∀ bytes, (library.sha256 bytes).length = 32)
    (h : event ∈ published library config message encounters) (hAttempt : InRange event.attempt)
    (hSizes : SizesInRange event) :
    event.WellFormed := by
  unfold published at h
  split at h
  · cases h
  · next request hRequest =>
    have hComplete : request.Complete := by
      obtain ⟨parsed, _, hParsed⟩ := Option.bind_eq_some_iff.1 hRequest
      exact requestOf_complete hParsed
    split at h
    · cases h
    · dsimp only at h
      obtain rfl | h := List.mem_cons.1 h
      · exact ⟨hComplete.1, hComplete.2.1, hAttempt, trivial⟩
      · split at h
        · cases h
        · cases List.mem_singleton.1 h
          exact ⟨hComplete.1, hComplete.2.1, hAttempt, failureCode_ne_nil _⟩
        · next input hInput =>
          split at h
          · cases List.mem_singleton.1 h
            exact ⟨hComplete.1, hComplete.2.1, hAttempt, failureCode_ne_nil _⟩
          · next result hResult =>
            split at h
            · cases List.mem_singleton.1 h
              obtain ⟨hBytes, hWidth, hHeight⟩ := hSizes _ rfl
              exact ⟨hComplete.1, hComplete.2.1, hAttempt,
                completedReport_wellFormed hDigest (frames_of_compress hPages hResult) hBytes
                  hWidth hHeight⟩
            · cases h

/-- The API reads every event of a worker as it was sent, as long as the receive count is a signed
integer of 32 bits; and whatever it reads is in range and is read again from the text of what was
read. -/
theorem events_read (library : ImageLibrary) (config : CompressorConfig)
    (hPages : CountsPages library) (hDigest : ∀ bytes, (library.sha256 bytes).length = 32) :
    (∀ message encounters, ∀ event ∈ published library config message encounters,
      InRange event.attempt → SizesInRange event →
      parseWorkerEvent (stringify event.fields) = some event) ∧
    ∀ body event, parseWorkerEvent body = some event →
      event.WellFormed ∧ parseWorkerEvent (stringify event.fields) = some event := by
  constructor
  · intro message encounters event hMem hAttempt hSizes
    exact parseWorkerEvent_written (published_wellFormed hPages hDigest hMem hAttempt hSizes)
      (.refl _)
  · intro body event h
    have hWell := parseWorkerEvent_wellFormed h
    exact ⟨hWell, parseWorkerEvent_written hWell (.refl _)⟩

/-! ## A comment that is left out -/

def emptyDigest : ByteString :=
  [0xe3, 0xb0, 0xc4, 0x42, 0x98, 0xfc, 0x1c, 0x14, 0x9a, 0xfb, 0xf4, 0xc8, 0x99, 0x6f, 0xb9, 0x24,
    0x27, 0xae, 0x41, 0xe4, 0x64, 0x9b, 0x93, 0x4c, 0xa4, 0x95, 0x99, 0x1b, 0x78, 0x52, 0xb8, 0x55]

def losslessRequest : ConversionRequest :=
  ⟨ascii "f", ascii "b", ascii "inputs/b/f", ascii "etag", .standard, .lossless, .low⟩

/-- A library that reads every input as a JPEG picture of one page, with the same digest for all
bytes. -/
def pagingLibrary : ImageLibrary :=
  { readingLibrary with
    metadata := fun _ =>
      .ok ⟨some "jpeg", none, some 1, some 8, some 8, false, none, false, false, false⟩
    sha256 := fun _ => emptyDigest }

/-- A JPEG file with a comment of one byte, whose result and preview are stored. -/
def storedInput : Encounters :=
  ⟨.ok [0xff, 0xd8, 0xff, 0xfe, 0, 3, 7, 0xff, 0xda, 0xff, 0xd9], true, true⟩

def strippedResult : Event :=
  ⟨ascii "f", ascii "b", 1, .completed ⟨.saved, ascii "jpeg", 1, ascii "outputs/b/f/1", 6,
    base64 emptyDigest, ascii "jpeg", 8, 8,
    some (ascii "outputs/b/f/1/preview")⟩⟩

theorem published_losslessRequest :
    strippedResult ∈ published pagingLibrary ⟨100, 100⟩ ⟨some (stringify losslessRequest.fields),
      some (ascii "receipt"), some 1⟩
      storedInput := by
  have hRequest : parseConversionRequest (stringify losslessRequest.fields) =
    some losslessRequest :=
    (parseConversionRequest_written (.refl _)).2 ⟨nofun, nofun, nofun, nofun⟩
  unfold published
  rw [Option.getD_some, hRequest]
  exact List.mem_cons_of_mem _ (List.mem_singleton_self _)

theorem events_read_stripped :
    parseWorkerEvent (stringify strippedResult.fields) = some strippedResult := by
  refine (events_read pagingLibrary ⟨100, 100⟩ (fun input metadata h => ?_) fun _ => rfl).1 _ _ _
    published_losslessRequest
    (by constructor <;> decide) fun result hResult => ?_
  · cases h
    exact nofun
  · cases hResult
    refine ⟨?_, ?_, ?_⟩ <;> constructor <;> decide

/-! ## An input that is missing -/

def unreadingLibrary : ImageLibrary where
  metadata _ := .error "unsupported image format"
  encode _ _ := .error "unsupported image format"
  pixels _ _ := .error "unsupported image format"
  sha256 _ := emptyDigest

def oneRequest : ConversionRequest :=
  ⟨ascii "f", ascii "b", ascii "inputs/b/f", ascii "etag", .standard, .lossy, .low⟩

def oneMessage (receiveCount : Nat) : QueueMessage :=
  ⟨some (stringify oneRequest.fields), some (ascii "receipt"), some receiveCount⟩

def missingInput : Encounters := ⟨.error (some .inputMissing), false, false⟩

def oneEvent (attempt : Nat) (report : EventReport) : Event :=
  ⟨ascii "f", ascii "b", attempt, report⟩

theorem published_oneMessage (receiveCount : Nat) :
    published unreadingLibrary ⟨100, 100⟩ (oneMessage receiveCount) missingInput =
      [oneEvent receiveCount .started,
        oneEvent receiveCount (.failed (ascii "INPUT_MISSING"))] := by
  have hRequest : parseConversionRequest (stringify oneRequest.fields) = some oneRequest :=
    (parseConversionRequest_written (.refl _)).2 ⟨nofun, nofun, nofun, nofun⟩
  unfold published
  rw [oneMessage, Option.getD_some, hRequest]
  rfl

/-- The start of the 2147483648th attempt is published and not read. -/
theorem last_attempt_unread :
    ∃ event ∈ published unreadingLibrary ⟨100, 100⟩ (oneMessage 2147483648) missingInput,
    0 < event.attempt ∧ SizesInRange event ∧
    parseWorkerEvent (stringify event.fields) ≠ some event := by
  refine ⟨oneEvent 2147483648 .started, ?_, by decide, nofun, ?_⟩
  · rw [published_oneMessage]
    exact List.mem_cons_self
  · intro h
    exact absurd (parseWorkerEvent_wellFormed h).attempt.2 (by decide)

end Pixaeron.Conversion.Messages
