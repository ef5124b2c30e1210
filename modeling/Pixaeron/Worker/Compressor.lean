import Pixaeron.Worker.Cleanliness

/-! # The compressor

The image library is a parameter: it may give any metadata, encode anything to anything, and throw
anywhere. Each of its functions is told which call it answers, since no two calls need agree.
-/

namespace Pixaeron.Worker

open Bytes Conversion

structure Metadata where
  format : Option String
  compression : Option String
  pages : Option Nat
  width : Option Nat
  height : Option Nat
  isPalette : Bool
  orientation : Option Nat
  exif : Bool
  iptc : Bool
  xmp : Bool

structure Encoded where
  data : ByteString
  width : Nat
  height : Nat

/-- Which of the two PNG encodings of a run a call belongs to. -/
inductive Palette where
  | deflated
  | quantized
deriving DecidableEq

/-- What a call asks the library to encode to. -/
inductive Encoding where
  | jpeg (quality : Nat)
  | deflatedPng
  | palettePng (quality : Nat)
  | webp (quality : Nat)
  | avif (quality : Nat)
  | repacked (palette : Palette)
deriving DecidableEq

/-- What a call reads the pixels of an image for. -/
inductive PixelUse where
  | palette
  | expected (palette : Palette)
  | actual (palette : Palette)
deriving DecidableEq

structure ImageLibrary where
  metadata : ByteString → Except String Metadata
  encode : Encoding → ByteString → Except String Encoded
  pixels : PixelUse → ByteString → Except String ByteString
  sha256 : ByteString → ByteString

structure CompressorConfig where
  maxInputBytes : Nat
  maxPixels : Nat

structure Compressed where
  kind : ConversionResultKind
  bytes : ByteString
  format : ConversionImageFormat
  contentType : String
  frames : Nat
  width : Nat
  height : Nat

def contentTypes : ConversionImageFormat → String
  | .jpeg => "image/jpeg"
  | .png => "image/png"
  | .webp => "image/webp"
  | .avif => "image/avif"

def lossyQuality : ConversionStrength → ConversionImageFormat → Nat
  | .low, .jpeg => 75
  | .low, .png => 60
  | .low, .webp => 75
  | .low, .avif => 50
  | .medium, .jpeg => 60
  | .medium, .png => 35
  | .medium, .webp => 60
  | .medium, .avif => 38
  | .high, .jpeg => 45
  | .high, .png => 10
  | .high, .webp => 35
  | .high, .avif => 30

def paletteLimit : Nat := 256

/-- `isMember(IMAGE_FORMATS, detected)`. -/
def imageFormat? (detected : String) : Option ConversionImageFormat :=
  [ConversionImageFormat.jpeg, .png, .webp, .avif].find? fun format => format.text = detected

def carriesMetadata (format : ConversionImageFormat) (metadata : Metadata)
    (input : ByteString) : Except String Bool :=
  if metadata.orientation.getD 1 ≠ 1 || metadata.exif || metadata.iptc || metadata.xmp then .ok true
  else (carriesOnlyAllowedTypes format input).map not

section Encoders

variable (library : ImageLibrary)

def rawDigest (use : PixelUse) (image : ByteString) : Except String ByteString :=
  (library.pixels use image).map library.sha256

def repackPalette (palette : Palette) (image : Encoded) : Except String Encoded := do
  let indexed ← library.encode (.repacked palette) image.data
  if indexed.data.length ≥ image.data.length then pure image
  else
    let expected ← rawDigest library (.expected palette) image.data
    let actual ← rawDigest library (.actual palette) indexed.data
    pure (if expected = actual then indexed else image)

/-- The loop of `fitsPalette`. `readUInt32BE` throws on less than four bytes. -/
def countColours : Nat → ByteString → List Nat → Except String Bool
  | 0, _, _ => .ok true
  | rounds + 1, pixels, seen =>
    if pixels = [] then .ok true
    else if pixels.length < 4 then .error "out of range"
    else
      let seen := if seen.contains (readUInt32BE pixels) then seen else readUInt32BE pixels :: seen
      if seen.length > paletteLimit then .ok false else countColours rounds (pixels.drop 4) seen

def fitsPalette (input : ByteString) : Except String Bool := do
  let pixels ← library.pixels .palette input
  countColours (pixels.length + 1) pixels []

def encodeLossless (format : ConversionImageFormat) (metadata : Metadata)
    (input : ByteString) : Except String Encoded :=
  let orientation := metadata.orientation.getD 1
  let width := if orientation ≥ 5 then metadata.height.getD 0 else metadata.width.getD 0
  let height := if orientation ≥ 5 then metadata.width.getD 0 else metadata.height.getD 0
  match format with
  | .jpeg => do
    let data ← rewriteJpegMetadata input orientation
    pure ⟨data, width, height⟩
  | .png => do
    let deflated ← library.encode .deflatedPng input
    if ← fitsPalette library input then repackPalette library .deflated deflated else pure deflated
  | .webp => do
    let data ← stripWebpMetadata input orientation
    pure ⟨data, width, height⟩
  | .avif => pure ⟨input, width, height⟩

/-- At most nine tenths of the input. The product with `1 - LOSSY_MIN_SAVING` is a floating-point
number, and no length is so close to it that the rounding matters. -/
def buysEnough (input : ByteString) (candidate : Encoded) : Bool :=
  10 * candidate.data.length ≤ 9 * input.length

/-- The branch of `encodeLossy` for WebP and AVIF. -/
def encodeContainer (encoding : Encoding) (format : ConversionImageFormat) (metadata : Metadata)
    (input : ByteString) :
    Except String Encoded := do
  let lossy ← library.encode encoding input
  let lossless ← encodeLossless library format metadata input
  if buysEnough input lossy then pure (if lossless.data.length ≤ lossy.data.length then
    lossless else lossy)
  else if lossless.data ≠ input then pure lossless
  else if ← carriesMetadata format metadata input then pure lossy
  else pure lossless

def encodeLossy (format : ConversionImageFormat) (metadata : Metadata) (input : ByteString)
    (strength : ConversionStrength) :
    Except String Encoded :=
  let quality := lossyQuality strength format
  match format with
  | .jpeg => do
    let lossy ← library.encode (.jpeg quality) input
    if buysEnough input lossy then pure lossy else encodeLossless library format metadata input
  | .png => do
    let lossless ← encodeLossless library format metadata input
    if metadata.isPalette then pure lossless
    else
      let palette ← library.encode (.palettePng quality) input
      let quantized ← repackPalette library .quantized palette
      pure (if quantized.data.length < lossless.data.length && buysEnough input quantized then
        quantized else lossless)
  | .webp => encodeContainer library (.webp quality) .webp metadata input
  | .avif => encodeContainer library (.avif quality) .avif metadata input

def encoders (format : ConversionImageFormat) (metadata : Metadata) (input : ByteString)
    (strength : ConversionStrength) :
    ConversionMode → Except String Encoded
  | .lossy => encodeLossy library format metadata input strength
  | .lossless => encodeLossless library format metadata input

/-- The second `try` block of `compress`. -/
def compressAs (format : ConversionImageFormat) (metadata : Metadata) (input : ByteString)
    (mode : ConversionMode) (strength : ConversionStrength) : Except String Compressed := do
  let result ← encoders library format metadata input strength mode
  let shape (kind : ConversionResultKind) (bytes : ByteString) : Compressed :=
    ⟨kind, bytes, format, contentTypes format, metadata.pages.getD 1, result.width, result.height⟩
  if result.data.length < input.length then pure (shape .saved result.data)
  else if result.data = input then pure (shape .noSavings input)
  else if ← carriesMetadata format metadata input then pure (shape .sanitizedLarger result.data)
  else pure (shape .noSavings input)

def compress (config : CompressorConfig) (input : ByteString) (mode : ConversionMode)
    (strength : ConversionStrength) :
    Except ConversionFailureCode Compressed :=
  if input.length > config.maxInputBytes then .error .inputTooLarge
  else
    match library.metadata input with
    | .error _ => .error .decodeFailed
    | .ok metadata =>
      let detected :=
        if metadata.format = some "heif" then
          (if metadata.compression = some "av1" then "avif" else "")
        else metadata.format.getD ""
      match imageFormat? detected with
      | none => .error .unsupportedFormat
      | some format =>
        if metadata.pages.getD 1 > 1 then .error .animatedUnsupported
        else if metadata.width.getD 0 * metadata.height.getD 0 > config.maxPixels then
          .error .pixelsExceeded
        else (compressAs library format metadata input mode strength).mapError fun _ =>
          .decodeFailed

end Encoders

end Pixaeron.Worker
