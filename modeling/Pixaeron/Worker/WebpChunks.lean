import Pixaeron.Worker.JpegNormalForm
import Pixaeron.Worker.Webp

/-! # The chunks of a WebP file

Both walks go over the chunks of a file; what the stripping leaves is a list of chunks again, and
the stripping of that list is the list.
-/

namespace Pixaeron.Worker

open Bytes

@[ext] structure Chunk where
  chunkType : ByteString
  payload : ByteString
  padding : ByteString
  type_length : chunkType.length = 4
  padding_length : padding.length = payload.length % 2
  fits : payload.length < 4294967296

namespace Chunk

def bytes (c : Chunk) : ByteString :=
  c.chunkType ++ uint32LE c.payload.length ++ c.payload ++ c.padding

def isClean (c : Chunk) : Bool := webpCleanChunks.contains c.chunkType

def isImage (c : Chunk) : Bool := webpImageChunks.contains c.chunkType

def isFeatures (c : Chunk) : Bool := c.chunkType = webpFeatures

def withFlags (c : Chunk) (f : UInt8 → UInt8) : Chunk where
  chunkType := c.chunkType
  payload := c.payload.modify 0 f
  padding := c.padding
  type_length := c.type_length
  padding_length := by rw [List.length_modify]; exact c.padding_length
  fits := by rw [List.length_modify]; exact c.fits

def cleared (c : Chunk) : Chunk :=
  if c.isFeatures then c.withFlags (· &&& ~~~webpMetadataFlags) else c

def marked (c : Chunk) : Chunk := c.withFlags (· ||| webpExifFlag)

def exif (block : ByteString) (h : block.length = 26) : Chunk where
  chunkType := latin1 "EXIF"
  payload := block
  padding := []
  type_length := by decide
  padding_length := by rw [h]; rfl
  fits := by omega

/-- A chunk with features has the length that goes with them. -/
def IsRegular (c : Chunk) : Prop := c.isFeatures = true → c.payload.length = webpFeaturesLength

end Chunk

/-- The last chunk with features has the flag for an orientation set. -/
def markLast : List Chunk → List Chunk
  | [] => []
  | c :: chunks =>
    if chunks.any Chunk.isFeatures then c :: markLast chunks
    else if c.isFeatures then c.marked :: chunks
    else c :: chunks

def cleanChunks (chunks : List Chunk) : List Chunk :=
  (chunks.filter Chunk.isClean).map Chunk.cleared

/-- What should be left of the chunks, with the orientation. -/
def strippedChunks (orientation : Nat) (block : ByteString) (h : block.length = 26)
    (chunks : List Chunk) : List Chunk :=
  if orientation = 1 then cleanChunks chunks
    else markLast (cleanChunks chunks) ++ [Chunk.exif block h]

/-- A header, and chunks up to the end. -/
def HasChunks (x : ByteString) (chunks : List Chunk) : Prop :=
  webpHeader ≤ x.length ∧ x.drop webpHeader = chunks.flatMap Chunk.bytes

/-- The chunks for which the file stays as it is. -/
def KeptAsIs (orientation : Nat) (chunks : List Chunk) : Prop :=
  (∃ c ∈ chunks, c.isFeatures = true ∧ c.payload.length ≠ webpFeaturesLength) ∨
  (∀ c ∈ chunks, c.isImage = false) ∨
  (orientation ≠ 1 ∧ ∀ c ∈ chunks, c.isFeatures = false)

/-- The header of one file, with the other's size, and the chunks. -/
def IsRebuilt (x : ByteString) (chunks : List Chunk) (y : ByteString) : Prop :=
  y = x.take 4 ++ uint32LE (y.length - 8) ++ subarray x 8 webpHeader ++ chunks.flatMap Chunk.bytes

section Chunks

variable {c : Chunk} {chunks front back : List Chunk} {rest : ByteString} {rounds : Nat}
  {walk after : WebpWalk}

theorem Chunk.length_bytes (c : Chunk) :
    c.bytes.length = 8 + c.payload.length + c.payload.length % 2 := by
  rw [Chunk.bytes, List.length_append, List.length_append, List.length_append, c.type_length,
    c.padding_length, length_uint32LE]

theorem Chunk.take_type (c : Chunk) : (c.bytes ++ rest).take 4 = c.chunkType := by
  rw [Chunk.bytes, List.append_assoc, List.append_assoc, List.append_assoc,
    List.take_left' c.type_length]

theorem Chunk.read_length (c : Chunk) :
    readUInt32LE ((c.bytes ++ rest).drop 4) = c.payload.length := by
  rw [Chunk.bytes, List.append_assoc, List.append_assoc, List.append_assoc,
    List.drop_left' c.type_length, readUInt32LE_uint32LE c.fits]

theorem Chunk.take_bytes (c : Chunk) :
    (c.bytes ++ rest).take (8 + c.payload.length + c.payload.length % 2) = c.bytes :=
  List.take_left' c.length_bytes

theorem Chunk.drop_bytes (c : Chunk) :
    (c.bytes ++ rest).drop (8 + c.payload.length + c.payload.length % 2) = rest :=
  List.drop_left' c.length_bytes

theorem readUInt32LE_lt (x : ByteString) : readUInt32LE x < 4294967296 := by
  unfold readUInt32LE
  split
  · next a b c d _ =>
    have := a.toNat_lt
    have := b.toNat_lt
    have := c.toNat_lt
    have := d.toNat_lt
    omega
  · decide

theorem exists_chunk_of_length {chunkType body : ByteString} {n : Nat}
    (hType : chunkType.length = 4) (hFits : n < 4294967296) (hSize : n + n % 2 ≤ body.length) :
    ∃ (c : Chunk) (tail : ByteString), chunkType ++ uint32LE n ++ body = c.bytes ++ tail := by
  obtain ⟨payload, after, rfl, rfl⟩ : ∃ payload after, body = payload ++ after ∧
    payload.length = n :=
    ⟨body.take n, body.drop n, (List.take_append_drop n body).symm, by rw [List.length_take]; omega⟩
  obtain ⟨padding, tail, rfl, hPadding⟩ : ∃ padding tail, after = padding ++ tail ∧
    padding.length = payload.length % 2 := by
    refine ⟨after.take (payload.length % 2), after.drop (payload.length % 2),
      (List.take_append_drop _ after).symm, ?_⟩
    rw [List.length_append] at hSize
    rw [List.length_take]
    omega
  exact ⟨⟨chunkType, payload, padding, hType, hPadding, hFits⟩, tail, by simp [Chunk.bytes]⟩

theorem length_eq_eight {x : ByteString} (h : 8 ≤ x.length) :
    ∃ a b c d e f g i body, x = a :: b :: c :: d :: e :: f :: g :: i :: body := by
  match x, h with
  | a :: b :: c :: d :: e :: f :: g :: i :: body, _ => exact ⟨a, b, c, d, e, f, g, i, body, rfl⟩

theorem exists_chunk (hHeader : 8 ≤ rest.length)
    (hSize : 8 + readUInt32LE (rest.drop 4) + readUInt32LE (rest.drop 4) % 2 ≤ rest.length) :
    ∃ (c : Chunk) (tail : ByteString), rest = c.bytes ++ tail := by
  obtain ⟨a, b, c, d, e, f, g, i, body, rfl⟩ := length_eq_eight hHeader
  have hField : uint32LE (readUInt32LE ((a :: b :: c :: d :: e :: f :: g :: i :: body).drop 4)) =
    [e, f, g, i] :=
    uint32LE_read e f g i
  have hFits := readUInt32LE_lt ((a :: b :: c :: d :: e :: f :: g :: i :: body).drop 4)
  generalize readUInt32LE ((a :: b :: c :: d :: e :: f :: g :: i :: body).drop 4) =
    n at hSize hField hFits
  simp only [List.length_cons] at hSize
  have hType : [a, b, c, d].length = 4 := rfl
  have hInside : n + n % 2 ≤ body.length := by omega
  obtain ⟨chunk, tail, hSplit⟩ := exists_chunk_of_length hType hFits hInside
  rw [hField] at hSplit
  exact ⟨chunk, tail, hSplit⟩

theorem walkWebp_chunk (h : c.IsRegular) :
    walkWebp (rounds + 1) (c.bytes ++ rest) walk =
      walkWebp rounds rest (walk.add c.chunkType c.bytes) := by
  have hLong : ¬ (c.bytes ++ rest).length < 8 := by
    rw [List.length_append, c.length_bytes]
    omega
  have hInside : ¬ (c.bytes ++ rest).length < 8 + c.payload.length + c.payload.length % 2 := by
    rw [List.length_append, c.length_bytes]
    omega
  have hRegular : ¬ (c.chunkType = webpFeatures ∧ c.payload.length ≠ webpFeaturesLength) :=
    fun hBad => hBad.2 (h (decide_eq_true hBad.1))
  rw [walkWebp, if_neg hLong]
  dsimp only
  rw [c.read_length, c.take_type, if_neg hInside, if_neg hRegular, c.take_bytes, c.drop_bytes]

theorem walkWebp_nil : walkWebp rounds [] walk = some (walk, []) := by
  cases rounds <;> rfl

theorem length_le_bytes (chunks : List Chunk) :
    chunks.length ≤ (chunks.flatMap Chunk.bytes).length := by
  induction chunks with
  | nil => exact le_rfl
  | cons c chunks ih =>
    rw [List.flatMap_cons, List.length_append, List.length_cons, c.length_bytes]
    omega

theorem walkWebp_chunks (h : ∀ c ∈ chunks, c.IsRegular) (hRounds : chunks.length ≤ rounds) :
    walkWebp rounds (chunks.flatMap Chunk.bytes) walk =
      some (chunks.foldl (fun walk c => walk.add c.chunkType c.bytes) walk, []) := by
  induction chunks generalizing rounds walk with
  | nil => exact walkWebp_nil
  | cons c chunks ih =>
    cases rounds with
    | zero => simp at hRounds
    | succ rounds =>
      rw [List.flatMap_cons, walkWebp_chunk (h c (List.mem_cons_self ..)), List.foldl_cons]
      exact ih (fun d hd => h d (List.mem_cons_of_mem _ hd)) (Nat.le_of_succ_le_succ hRounds)

theorem walkWebp_irregular (h : ∃ c ∈ chunks, c.isFeatures = true ∧
      c.payload.length ≠ webpFeaturesLength) (hRounds : chunks.length ≤ rounds) :
    walkWebp rounds (chunks.flatMap Chunk.bytes) walk = none := by
  induction chunks generalizing rounds walk with
  | nil =>
    obtain ⟨c, hc, -⟩ := h
    exact absurd hc List.not_mem_nil
  | cons c chunks ih =>
    cases rounds with
    | zero => simp at hRounds
    | succ rounds =>
      rw [List.flatMap_cons]
      by_cases hRegular : c.IsRegular
      · rw [walkWebp_chunk hRegular]
        refine ih ?_ (Nat.le_of_succ_le_succ hRounds)
        obtain ⟨d, hd, hFeatures, hLength⟩ := h
        obtain rfl | hd := List.mem_cons.mp hd
        · exact absurd (hRegular hFeatures) hLength
        · exact ⟨d, hd, hFeatures, hLength⟩
      · have hLong : ¬ (c.bytes ++ chunks.flatMap Chunk.bytes).length < 8 := by
          rw [List.length_append, c.length_bytes]
          omega
        have hInside : ¬ (c.bytes ++ chunks.flatMap Chunk.bytes).length <
            8 + c.payload.length + c.payload.length % 2 := by
          rw [List.length_append, c.length_bytes]
          omega
        have hBad : c.chunkType = webpFeatures ∧ c.payload.length ≠ webpFeaturesLength := by
          rw [Chunk.IsRegular, Chunk.isFeatures, decide_eq_true_eq] at hRegular
          exact Classical.not_imp.mp hRegular
        rw [walkWebp, if_neg hLong]
        dsimp only
        rw [c.read_length, c.take_type, if_neg hInside, if_pos hBad]

/-- A walk to the end has seen nothing but regular chunks. -/
theorem chunks_of_walkWebp (h : walkWebp rounds rest walk = some (after, [])) :
    ∃ chunks : List Chunk, rest = chunks.flatMap Chunk.bytes := by
  induction rounds generalizing rest walk with
  | zero =>
    cases h
    exact ⟨[], rfl⟩
  | succ rounds ih =>
    rw [walkWebp] at h
    split at h
    · cases h
      exact ⟨[], rfl⟩
    · next hLong =>
      dsimp only at h
      split_ifs at h with hInside hBad
      obtain ⟨c, tail, rfl⟩ := exists_chunk (Nat.le_of_not_lt hLong) (Nat.le_of_not_lt hInside)
      rw [c.read_length, c.drop_bytes] at h
      obtain ⟨chunks, rfl⟩ := ih h
      exact ⟨c :: chunks, rfl⟩

end Chunks

/-! ## What the walk has collected -/

/-- The walk has kept the chunks, and knows the last one with features. -/
structure WebpWalk.Keeps (walk : WebpWalk) (chunks : List Chunk) : Prop where
  kept : walk.kept = chunks.map Chunk.bytes
  keptImage : walk.keptImage = chunks.any Chunk.isImage
  features : (walk.features = none ∧ chunks.any Chunk.isFeatures = false) ∨
    ∃ front c back, chunks = front ++ c :: back ∧ c.isFeatures = true ∧
      back.any Chunk.isFeatures = false ∧
      walk.features = some front.length

section Collecting

variable {c : Chunk} {chunks kept front back : List Chunk} {walk : WebpWalk}

theorem Chunk.withFlags_bytes {f : UInt8 → UInt8} (h : c.payload ≠ []) :
    (c.withFlags f).bytes = c.bytes.modify webpFeaturesAt f := by
  obtain ⟨chunkType, payload, padding, hType, hPadding, hFits⟩ := c
  obtain ⟨a, b, d, e, rfl⟩ : ∃ a b d e, chunkType = [a, b, d, e] := by
    match chunkType, hType with
    | [a, b, d, e], _ => exact ⟨a, b, d, e, rfl⟩
  cases payload with
  | nil => exact absurd rfl h
  | cons p tail => rfl

@[simp] theorem Chunk.cleared_type (c : Chunk) : c.cleared.chunkType = c.chunkType := by
  rw [cleared]
  split <;> rfl

@[simp] theorem Chunk.cleared_length (c : Chunk) : c.cleared.payload.length = c.payload.length := by
  rw [cleared]
  split
  · exact List.length_modify ..
  · rfl

@[simp] theorem Chunk.cleared_features (c : Chunk) : c.cleared.isFeatures = c.isFeatures := by
  rw [isFeatures, isFeatures, cleared_type]

@[simp] theorem Chunk.cleared_image (c : Chunk) : c.cleared.isImage = c.isImage := by
  rw [isImage, isImage, cleared_type]

@[simp] theorem Chunk.cleared_clean (c : Chunk) : c.cleared.isClean = c.isClean := by
  rw [isClean, isClean, cleared_type]

theorem Chunk.IsRegular.payload_ne (h : c.IsRegular)
    (hFeatures : c.isFeatures = true) : c.payload ≠ [] := by
  intro hEmpty
  have hLength := h hFeatures
  rw [hEmpty] at hLength
  exact absurd hLength (by decide)

theorem Chunk.cleared_bytes (h : c.IsRegular) : c.cleared.bytes =
    if c.chunkType = webpFeatures then clearMetadataFlags c.bytes else c.bytes := by
  rw [cleared]
  by_cases hFeatures : c.chunkType = webpFeatures
  · have hTrue : c.isFeatures = true := decide_eq_true hFeatures
    rw [if_pos hFeatures, if_pos hTrue, withFlags_bytes (h.payload_ne hTrue)]
    rfl
  · have hFalse : ¬ c.isFeatures = true := fun hTrue => hFeatures (of_decide_eq_true hTrue)
    rw [if_neg hFeatures, if_neg hFalse]

theorem WebpWalk.Keeps.add (h : walk.Keeps kept) (hRegular : c.IsRegular) :
    (walk.add c.chunkType c.bytes).Keeps (kept ++ cleanChunks [c]) := by
  rw [WebpWalk.add, cleanChunks, List.filter_cons]
  by_cases hClean : c.isClean = true
  · rw [if_pos hClean, if_pos (show webpCleanChunks.contains c.chunkType = true from hClean)]
    refine ⟨?_, ?_, ?_⟩
    · rw [h.kept, List.map_append, List.filter_nil, List.map_singleton, List.map_singleton,
        Chunk.cleared_bytes hRegular]
    · rw [h.keptImage, List.any_append]
      simp [Chunk.isImage]
    · dsimp only
      by_cases hFeatures : c.chunkType = webpFeatures
      · refine .inr ⟨kept, c.cleared, [], rfl,
          by rw [Chunk.cleared_features]; exact decide_eq_true hFeatures, rfl, ?_⟩
        rw [if_pos hFeatures, h.kept, List.length_map]
      · have hFalse : c.isFeatures = false := decide_eq_false hFeatures
        rw [if_neg hFeatures]
        obtain ⟨hNone, hAny⟩ | ⟨front, last, back, rfl, hLast, hBack, hPlace⟩ := h.features
        · exact .inl ⟨hNone, by simp [hAny, hFalse]⟩
        · exact .inr ⟨front, last, back ++ [c.cleared],
            by simp, hLast, by simp [hBack, hFalse], hPlace⟩
  · rw [if_neg hClean, if_neg (show ¬ webpCleanChunks.contains c.chunkType = true from hClean)]
    simpa using h

theorem cleanChunks_cons (c : Chunk) (chunks : List Chunk) :
    cleanChunks (c :: chunks) = cleanChunks [c] ++ cleanChunks chunks := by
  rw [cleanChunks, cleanChunks, cleanChunks, ← List.map_append, ← List.filter_append]
  rfl

theorem keeps_chunks (h : ∀ c ∈ chunks, c.IsRegular) (hKept : walk.Keeps kept) :
    (chunks.foldl (fun walk c => walk.add c.chunkType c.bytes) walk).Keeps
      (kept ++ cleanChunks chunks) := by
  induction chunks generalizing walk kept with
  | nil => simpa [cleanChunks] using hKept
  | cons c chunks ih =>
    rw [List.foldl_cons, cleanChunks_cons, ← List.append_assoc]
    exact ih (fun d hd => h d (List.mem_cons_of_mem _ hd)) (hKept.add (h c (List.mem_cons_self ..)))

theorem markLast_split (h : c.isFeatures = true) (hBack : back.any Chunk.isFeatures = false) :
    markLast (front ++ c :: back) = front ++ c.marked :: back := by
  induction front with
  | nil => rw [List.nil_append, markLast, if_neg (by rw [hBack]; decide), if_pos h]; rfl
  | cons d front ih =>
    rw [List.cons_append, markLast, if_pos (by simp [h]), ih]
    rfl

/-! ## Chunks that stay what they are -/

theorem clear_clear (b : UInt8) :
    (b &&& ~~~webpMetadataFlags) &&& ~~~webpMetadataFlags = b &&& ~~~webpMetadataFlags := by
  rw [UInt8.and_assoc, UInt8.and_self]

theorem clear_mark (b : UInt8) :
    (b ||| webpExifFlag) &&& ~~~webpMetadataFlags = b &&& ~~~webpMetadataFlags := by
  rw [← UInt8.toBitVec_inj]
  simp only [UInt8.toBitVec_and, UInt8.toBitVec_or]
  rw [BitVec.and_comm, BitVec.and_or_distrib_left,
    show (~~~webpMetadataFlags).toBitVec &&& webpExifFlag.toBitVec = 0 from rfl]
  simp [BitVec.and_comm]

theorem Chunk.withFlags_withFlags {f g : UInt8 → UInt8} (h : ∀ b, g (f b) = g b) :
    (c.withFlags f).withFlags g = c.withFlags g := by
  have hSame : g ∘ f = g := funext h
  refine Chunk.ext rfl ?_ rfl
  exact (List.modify_modify_eq f g 0 c.payload).trans (by rw [hSame]; rfl)

theorem Chunk.cleared_cleared (c : Chunk) : c.cleared.cleared = c.cleared := by
  cases h : c.isFeatures with
  | false => rw [cleared, cleared_features, h, if_neg (by decide)]
  | true =>
    rw [cleared, cleared_features, h, if_pos rfl, cleared, h, if_pos rfl]
    exact withFlags_withFlags clear_clear

theorem Chunk.marked_cleared (h : c.isFeatures = true) : c.marked.cleared = c.cleared := by
  have hMarked : c.marked.isFeatures = true := h
  rw [cleared, cleared, hMarked, h, if_pos rfl, if_pos rfl]
  exact withFlags_withFlags clear_mark

theorem cleanChunks_append (front back : List Chunk) :
    cleanChunks (front ++ back) = cleanChunks front ++ cleanChunks back := by
  rw [cleanChunks, List.filter_append, List.map_append]
  rfl

theorem cleanChunks_cleanChunks (chunks : List Chunk) :
    cleanChunks (cleanChunks chunks) = cleanChunks chunks := by
  induction chunks with
  | nil => rfl
  | cons c chunks ih =>
    rw [cleanChunks_cons, cleanChunks_append, ih, List.append_left_inj]
    cases h : c.isClean with
    | false => simp [cleanChunks, h]
    | true => simp [cleanChunks, h, Chunk.cleared_cleared]

theorem exists_last_features (h : chunks.any Chunk.isFeatures = true) :
    ∃ front c back, chunks = front ++ c :: back ∧
    c.isFeatures = true ∧ back.any Chunk.isFeatures = false := by
  induction chunks with
  | nil => cases h
  | cons d chunks ih =>
    cases hLater : chunks.any Chunk.isFeatures with
    | true =>
      obtain ⟨front, c, back, rfl, hc, hBack⟩ := ih hLater
      exact ⟨d :: front, c, back, rfl, hc, hBack⟩
    | false =>
      rw [List.any_cons, hLater, Bool.or_false] at h
      exact ⟨[], d, chunks, rfl, h, hLater⟩

theorem cleanChunks_markLast (chunks : List Chunk) :
    cleanChunks (markLast chunks) = cleanChunks chunks := by
  cases h : chunks.any Chunk.isFeatures with
  | false =>
    have hSame : markLast chunks = chunks := by
      cases chunks with
      | nil => rfl
      | cons c chunks =>
        rw [List.any_cons, Bool.or_eq_false_iff] at h
        rw [markLast, h.1, h.2]
        rfl
    rw [hSame]
  | true =>
    obtain ⟨front, c, back, rfl, hc, hBack⟩ := exists_last_features h
    have hOne : cleanChunks [c.marked] = cleanChunks [c] := by
      have hClean : c.marked.isClean = c.isClean := rfl
      rw [cleanChunks, cleanChunks, List.filter_cons, List.filter_cons, hClean]
      split
      · exact congrArg (fun d => [d]) (Chunk.marked_cleared hc)
      · rfl
    rw [markLast_split hc hBack, cleanChunks_append, cleanChunks_append, cleanChunks_cons,
      cleanChunks_cons c, hOne]

end Collecting

/-! ## Stripping -/

section Stripping

variable {c : Chunk} {chunks : List Chunk} {x y block : ByteString} {orientation : Nat}
  (hBlock : block.length = 26)

theorem regular_of_not_kept (h : ¬ KeptAsIs orientation chunks) : ∀ c ∈ chunks, c.IsRegular := by
  intro c hc hFeatures
  by_contra hLength
  exact h (.inl ⟨c, hc, hFeatures, hLength⟩)

theorem Chunk.clean_of_image (h : c.isImage = true) : c.isClean = true := by
  rw [isImage, webpImageChunks, List.contains_iff_mem, List.mem_cons, List.mem_singleton] at h
  rw [isClean, webpCleanChunks, List.contains_iff_mem]
  obtain h | h := h <;> simp [h]

theorem Chunk.clean_of_features (h : c.isFeatures = true) : c.isClean = true := by
  rw [isFeatures, decide_eq_true_eq] at h
  rw [isClean, h]
  decide

theorem mem_cleanChunks (hc : c ∈ chunks) (hClean : c.isClean = true) :
    c.cleared ∈ cleanChunks chunks :=
  List.mem_map.mpr ⟨c, List.mem_filter.mpr ⟨hc, hClean⟩, rfl⟩

theorem image_of_not_kept (h : ¬ KeptAsIs orientation chunks) :
    (cleanChunks chunks).any Chunk.isImage = true := by
  by_contra hNone
  refine h (.inr (.inl fun c hc => Bool.eq_false_iff.mpr fun hImage => hNone ?_))
  exact List.any_eq_true.mpr ⟨c.cleared, mem_cleanChunks hc (Chunk.clean_of_image hImage),
    by rw [Chunk.cleared_image, hImage]⟩

theorem features_of_not_kept (h : ¬ KeptAsIs orientation chunks) (hTurned : orientation ≠ 1) :
    (cleanChunks chunks).any Chunk.isFeatures = true := by
  by_contra hNone
  refine h (.inr (.inr ⟨hTurned, fun c hc => Bool.eq_false_iff.mpr fun hFeatures => hNone ?_⟩))
  exact List.any_eq_true.mpr ⟨c.cleared, mem_cleanChunks hc (Chunk.clean_of_features hFeatures),
    by rw [Chunk.cleared_features, hFeatures]⟩

theorem regular_cleanChunks (h : ∀ c ∈ chunks, c.IsRegular) :
    ∀ c ∈ cleanChunks chunks, c.IsRegular := by
  intro d hd hFeatures
  obtain ⟨c, hc, rfl⟩ := List.mem_map.mp hd
  rw [Chunk.cleared_features] at hFeatures
  rw [Chunk.cleared_length]
  exact h c (List.mem_filter.mp hc).1 hFeatures

theorem any_cleanChunks {p : Chunk → Bool} (hSame : ∀ c, p c.cleared = p c)
    (h : ∀ c ∈ chunks, p c = false) :
    (cleanChunks chunks).any p = false := by
  rw [List.any_eq_false]
  intro d hd
  obtain ⟨c, hc, rfl⟩ := List.mem_map.mp hd
  rw [hSame, h c (List.mem_filter.mp hc).1]
  decide

theorem modify_split {α : Type} {front back : List α} {a : α} {f : α → α} :
    (front ++ a :: back).modify front.length f = front ++ f a :: back := by
  induction front with
  | nil => rfl
  | cons b front ih => exact congrArg (b :: ·) ih

theorem keeps_start : WebpWalk.Keeps ⟨[], false, none⟩ [] := ⟨rfl, rfl, .inl ⟨rfl, rfl⟩⟩

theorem walk_of_regular (hChunks : HasChunks x chunks) (h : ∀ c ∈ chunks, c.IsRegular) :
    ∃ walk, walkWebp x.length (x.drop webpHeader) ⟨[], false, none⟩ = some (walk, []) ∧
      walk.Keeps (cleanChunks chunks) := by
  refine ⟨_, ?_, keeps_chunks h keeps_start⟩
  rw [hChunks.2]
  refine walkWebp_chunks h ((length_le_bytes chunks).trans ?_)
  rw [← hChunks.2, List.length_drop]
  exact Nat.sub_le _ _

theorem strip_chunks (hChunks : HasChunks x chunks) (h : ¬ KeptAsIs orientation chunks)
    (hOk : exifOrientationBlock orientation = .ok block) : stripWebpMetadata x orientation =
      webpFile x ((strippedChunks orientation block hBlock chunks).flatMap Chunk.bytes) := by
  obtain ⟨walk, hWalk, hKeeps⟩ := walk_of_regular hChunks (regular_of_not_kept h)
  have hImage : walk.keptImage = true := hKeeps.keptImage.trans (image_of_not_kept h)
  rw [stripWebpMetadata, hWalk]
  dsimp only
  rw [hImage, if_neg (by decide), strippedChunks]
  by_cases hUpright : orientation = 1
  · rw [if_neg (not_not.mpr hUpright), if_pos hUpright, hKeeps.kept, List.flatMap_def]
  · rw [if_pos hUpright, if_neg hUpright]
    obtain ⟨-, hNone⟩ | ⟨front, c, back, hSplit, hc, hBack, hPlace⟩ := hKeeps.features
    · rw [features_of_not_kept h hUpright] at hNone
      cases hNone
    · have hLast : c ∈ cleanChunks chunks := by
        rw [hSplit]
        exact List.mem_append_right _ (List.mem_cons_self ..)
      have hMarked : c.marked.bytes = setExifFlag c.bytes :=
        Chunk.withFlags_bytes ((regular_cleanChunks (regular_of_not_kept h) c hLast).payload_ne hc)
      rw [hPlace, hKeeps.kept, hSplit, markLast_split hc hBack, List.map_append, List.map_cons]
      have hModify : (front.map Chunk.bytes ++ c.bytes :: back.map Chunk.bytes).modify front.length
        setExifFlag =
          front.map Chunk.bytes ++ setExifFlag c.bytes :: back.map Chunk.bytes := by
        have hLength : (front.map Chunk.bytes).length = front.length := List.length_map ..
        rw [← hLength]
        exact modify_split
      dsimp only
      rw [hModify, hOk, ← hMarked]
      show webpFile x _ = webpFile x _
      congr 1
      simp [Chunk.exif, Chunk.bytes, List.flatMap_def]

theorem strip_kept (hChunks : HasChunks x chunks) (h : KeptAsIs orientation chunks) :
    stripWebpMetadata x orientation = .ok x := by
  by_cases hRegular : ∀ c ∈ chunks, c.IsRegular
  · obtain ⟨walk, hWalk, hKeeps⟩ := walk_of_regular hChunks hRegular
    rw [stripWebpMetadata, hWalk]
    dsimp only
    obtain ⟨c, hc, hFeatures, hLength⟩ | hNoImage | ⟨hTurned, hNoFeatures⟩ := h
    · exact absurd (hRegular c hc hFeatures) hLength
    · have hImage : walk.keptImage = false := by
        rw [hKeeps.keptImage]
        exact any_cleanChunks Chunk.cleared_image hNoImage
      rw [hImage, if_pos (by decide)]
    · have hNone : walk.features = none := by
        obtain ⟨hNone, -⟩ | ⟨front, c, back, hSplit, hc, -, -⟩ := hKeeps.features
        · exact hNone
        · have hAny := any_cleanChunks Chunk.cleared_features hNoFeatures
          rw [hSplit, List.any_append, List.any_cons, hc, Bool.true_or, Bool.or_true] at hAny
          cases hAny
      rw [hNone, if_pos hTurned]
      split <;> rfl
  · have hBad : ∃ c ∈ chunks, c.isFeatures = true ∧ c.payload.length ≠ webpFeaturesLength := by
      simpa [Chunk.IsRegular] using hRegular
    rw [stripWebpMetadata, hChunks.2, walkWebp_irregular hBad]
    refine (length_le_bytes chunks).trans ?_
    rw [← hChunks.2, List.length_drop]
    exact Nat.sub_le _ _

theorem strip_unreadable (h : ∀ chunks, ¬ HasChunks x chunks) :
    stripWebpMetadata x orientation = .ok x := by
  rw [stripWebpMetadata]
  split
  · rfl
  · next walk rest hWalk =>
    by_cases hRest : rest = []
    · subst hRest
      obtain ⟨chunks, hBytes⟩ := chunks_of_walkWebp hWalk
      have hShort : x.length < webpHeader := Nat.lt_of_not_le fun hHeader =>
        h chunks ⟨hHeader, hBytes⟩
      rw [List.drop_eq_nil_of_le (Nat.le_of_lt hShort), walkWebp_nil] at hWalk
      cases hWalk
      rfl
    · rw [if_pos (by simp [hRest])]

/-- What the walks see of a chunk. -/
def Chunk.shape (c : Chunk) : ByteString × Nat := (c.chunkType, c.payload.length)

theorem markLast_shapes (chunks : List Chunk) :
    (markLast chunks).map Chunk.shape = chunks.map Chunk.shape := by
  induction chunks with
  | nil => rfl
  | cons c chunks ih =>
    have hMarked : c.marked.shape = c.shape := Prod.ext rfl (List.length_modify ..)
    rw [markLast]
    split
    · rw [List.map_cons, List.map_cons, ih]
    · split
      · rw [List.map_cons, List.map_cons, hMarked]
      · rfl

theorem length_of_shapes (chunks : List Chunk) :
    (chunks.flatMap Chunk.bytes).length =
      ((chunks.map Chunk.shape).map fun s => 8 + s.2 + s.2 % 2).sum := by
  rw [List.length_flatMap, List.map_map]
  exact congrArg List.sum (List.map_congr_left fun c _ => c.length_bytes)

theorem length_clean_le (chunks : List Chunk) :
    ((cleanChunks chunks).flatMap Chunk.bytes).length ≤ (chunks.flatMap Chunk.bytes).length := by
  induction chunks with
  | nil => exact le_rfl
  | cons c chunks ih =>
    rw [cleanChunks_cons, List.flatMap_append, List.flatMap_cons, List.length_append,
      List.length_append]
    refine Nat.add_le_add ?_ ih
    cases h : c.isClean with
    | false => simp [cleanChunks, h]
    | true => simp [cleanChunks, h, Chunk.length_bytes]

theorem length_stripped_le (orientation : Nat) (chunks : List Chunk) :
    ((strippedChunks orientation block hBlock chunks).flatMap Chunk.bytes).length ≤
      (chunks.flatMap Chunk.bytes).length + 34 := by
  have hClean := length_clean_le chunks
  rw [strippedChunks]
  split
  · omega
  · have hExif : (Chunk.exif block hBlock).bytes.length = 34 := by
      rw [Chunk.length_bytes, show (Chunk.exif block hBlock).payload = block from rfl, hBlock]
    rw [List.flatMap_append, List.length_append, length_of_shapes, markLast_shapes,
      ← length_of_shapes, List.flatMap_singleton, hExif]
    omega

theorem exists_stripped (orientation : Nat) (hBlock : block.length = 26) {d : Chunk}
    (h : d ∈ cleanChunks chunks) :
    ∃ c ∈ strippedChunks orientation block hBlock chunks, c.shape = d.shape := by
  rw [strippedChunks]
  split
  · exact ⟨d, h, rfl⟩
  · have hShape : d.shape ∈ (markLast (cleanChunks chunks)).map Chunk.shape := by
      rw [markLast_shapes]
      exact List.mem_map_of_mem h
    obtain ⟨c, hc, hSame⟩ := List.mem_map.mp hShape
    exact ⟨c, List.mem_append_left _ hc, hSame⟩

theorem regular_stripped (h : ∀ c ∈ chunks, c.IsRegular) :
    ∀ c ∈ strippedChunks orientation block hBlock chunks, c.IsRegular := by
  have hClean := regular_cleanChunks h
  rw [strippedChunks]
  split
  · exact hClean
  · intro c hc hFeatures
    obtain hc | hc := List.mem_append.mp hc
    · have hShape : c.shape ∈ (cleanChunks chunks).map Chunk.shape := by
        rw [← markLast_shapes]
        exact List.mem_map_of_mem hc
      obtain ⟨d, hd, hSame⟩ := List.mem_map.mp hShape
      obtain ⟨hType, hLength⟩ := Prod.ext_iff.mp hSame
      have hFeatures : d.isFeatures = true := by
        rw [Chunk.isFeatures, decide_eq_true_eq] at hFeatures ⊢
        exact hType.trans hFeatures
      exact hLength.symm.trans (hClean d hd hFeatures)
    · obtain rfl := List.mem_singleton.mp hc
      exact absurd hFeatures (show ¬ (decide (latin1 "EXIF" = webpFeatures)) = true by decide)

theorem not_kept_stripped (h : ¬ KeptAsIs orientation chunks) :
    ¬ KeptAsIs orientation (strippedChunks orientation block hBlock chunks) := by
  rintro (⟨c, hc, hFeatures, hLength⟩ | hNoImage | ⟨hTurned, hNoFeatures⟩)
  · exact hLength (regular_stripped hBlock (regular_of_not_kept h) c hc hFeatures)
  · obtain ⟨d, hd, hImage⟩ := List.any_eq_true.mp (image_of_not_kept h)
    obtain ⟨c, hc, hSame⟩ := exists_stripped orientation hBlock hd
    have hNone := hNoImage c hc
    rw [Chunk.isImage, show c.chunkType = d.chunkType from congrArg Prod.fst hSame] at hNone
    exact absurd hImage (Bool.eq_false_iff.mp hNone)
  · obtain ⟨d, hd, hFeatures⟩ := List.any_eq_true.mp (features_of_not_kept h hTurned)
    obtain ⟨c, hc, hSame⟩ := exists_stripped orientation hBlock hd
    have hNone := hNoFeatures c hc
    rw [Chunk.isFeatures, show c.chunkType = d.chunkType from congrArg Prod.fst hSame] at hNone
    exact absurd hFeatures (Bool.eq_false_iff.mp hNone)

theorem stripped_stripped (chunks : List Chunk) :
    strippedChunks orientation block hBlock (strippedChunks orientation block hBlock chunks) =
      strippedChunks orientation block hBlock chunks := by
  rw [strippedChunks, strippedChunks]
  split
  · exact cleanChunks_cleanChunks chunks
  · have hExif : cleanChunks [Chunk.exif block hBlock] = [] := by
      have hForeign : (Chunk.exif block hBlock).isClean = false :=
        show webpCleanChunks.contains (latin1 "EXIF") = false by decide
      rw [cleanChunks, List.filter_cons, hForeign]
      rfl
    rw [cleanChunks_append, hExif, List.append_nil, cleanChunks_markLast, cleanChunks_cleanChunks]

/-- The first file, with its header's size, and the chunks. -/
def rebuilt (x : ByteString) (chunks : List Chunk) : ByteString :=
  x.take 4 ++ uint32LE ((chunks.flatMap Chunk.bytes).length + 4) ++ subarray x 8 webpHeader ++
    chunks.flatMap Chunk.bytes

theorem webpFile_chunks (h : (chunks.flatMap Chunk.bytes).length + 4 < 4294967296) :
    webpFile x (chunks.flatMap Chunk.bytes) = .ok (rebuilt x chunks) := by
  rw [webpFile, if_pos h]
  rfl

theorem length_front (h : webpHeader ≤ x.length) :
    (x.take 4).length = 4 ∧ (subarray x 8 webpHeader).length = 4 := by
  rw [webpHeader] at h
  constructor
  · rw [List.length_take]
    omega
  · rw [subarray, List.length_take, List.length_drop, webpHeader]
    omega

theorem length_rebuilt (h : webpHeader ≤ x.length) :
    (rebuilt x chunks).length = 12 + (chunks.flatMap Chunk.bytes).length := by
  obtain ⟨hFirst, hLast⟩ := length_front h
  simp only [rebuilt, List.length_append, hFirst, hLast, length_uint32LE]

theorem hasChunks_rebuilt (h : webpHeader ≤ x.length) (chunks : List Chunk) :
    HasChunks (rebuilt x chunks) chunks := by
  obtain ⟨hFirst, hLast⟩ := length_front h
  constructor
  · rw [length_rebuilt h]
    exact Nat.le_add_right _ _
  · rw [rebuilt]
    exact List.drop_left' (by simp only [List.length_append, hFirst, hLast, length_uint32LE]; rfl)

theorem rebuilt_rebuilt (h : webpHeader ≤ x.length) (chunks : List Chunk) :
    rebuilt (rebuilt x chunks) chunks = rebuilt x chunks := by
  obtain ⟨hFirst, hLast⟩ := length_front h
  have hTake : (rebuilt x chunks).take 4 = x.take 4 := by
    rw [rebuilt, List.append_assoc, List.append_assoc, List.take_left' hFirst]
  have hSub : subarray (rebuilt x chunks) 8 webpHeader = subarray x 8 webpHeader := by
    have hDrop : (rebuilt x chunks).drop 8 =
      subarray x 8 webpHeader ++ chunks.flatMap Chunk.bytes := by
      rw [rebuilt, List.append_assoc]
      exact List.drop_left' (by simp only [List.length_append, hFirst, length_uint32LE])
    rw [subarray, hDrop]
    exact List.take_left' hLast
  rw [rebuilt, hTake, hSub]
  rfl

end Stripping

/-! ## The check -/

section Checking

variable {c : Chunk} {chunks : List Chunk} {x rest : ByteString} {rounds : Nat}

theorem onlyCleanChunks_nil : onlyCleanChunks rounds [] = true := by
  cases rounds <;> rfl

theorem onlyCleanChunks_chunks (hClean : ∀ c ∈ chunks, c.isClean = true)
    (h : ∀ c ∈ chunks, c.IsRegular) (hRounds : chunks.length ≤ rounds) :
    onlyCleanChunks rounds (chunks.flatMap Chunk.bytes) = true := by
  induction chunks generalizing rounds with
  | nil => exact onlyCleanChunks_nil
  | cons c chunks ih =>
    cases rounds with
    | zero => simp at hRounds
    | succ rounds =>
      have hLong : ¬ (c.bytes ++ chunks.flatMap Chunk.bytes).length < 8 := by
        rw [List.length_append, c.length_bytes]
        omega
      have hInside : ¬ (c.bytes ++ chunks.flatMap Chunk.bytes).length <
          8 + c.payload.length + c.payload.length % 2 := by
        rw [List.length_append, c.length_bytes]
        omega
      have hAllowed : webpCleanChunks.contains c.chunkType = true :=
        hClean c (List.mem_cons_self ..)
      have hRegular : ¬ (c.chunkType = webpFeatures ∧ c.payload.length ≠ webpFeaturesLength) :=
        fun hBad => hBad.2 (h c (List.mem_cons_self ..) (decide_eq_true hBad.1))
      rw [List.flatMap_cons, onlyCleanChunks, if_neg hLong, c.take_type, hAllowed]
      dsimp only
      rw [c.read_length, if_neg hRegular, if_neg hInside, c.drop_bytes]
      exact ih (fun d hd => hClean d (List.mem_cons_of_mem _ hd)) (fun d hd =>
        h d (List.mem_cons_of_mem _ hd))
        (Nat.le_of_succ_le_succ hRounds)

theorem carriesOnlyAllowed_rebuilt (h : webpHeader ≤ x.length)
    (hFits : (chunks.flatMap Chunk.bytes).length + 4 < 4294967296)
    (hClean : ∀ c ∈ chunks, c.isClean = true) (hRegular : ∀ c ∈ chunks, c.IsRegular) :
    carriesOnlyAllowedWebp (rebuilt x chunks) = .ok true := by
  have hLength : (rebuilt x chunks).length = 12 + (chunks.flatMap Chunk.bytes).length :=
    length_rebuilt h
  obtain ⟨hHeader, hDrop⟩ := hasChunks_rebuilt h chunks
  have hSize : readUInt32LE ((rebuilt x chunks).drop 4) =
    (chunks.flatMap Chunk.bytes).length + 4 := by
    rw [rebuilt, List.append_assoc, List.append_assoc, List.drop_left' (length_front h).1,
      readUInt32LE_uint32LE hFits]
  have hWalk : onlyCleanChunks (rebuilt x chunks).length ((rebuilt x chunks).drop webpHeader) =
    true := by
    rw [hDrop]
    refine onlyCleanChunks_chunks hClean hRegular ((length_le_bytes chunks).trans ?_)
    omega
  rw [carriesOnlyAllowedWebp, if_neg (by omega), hSize, if_neg (by omega), hWalk,
    decide_eq_true hHeader]
  rfl

end Checking

section Outcome

variable {chunks : List Chunk} {x y block : ByteString} {orientation : Nat}
  (hBlock : block.length = 26)

theorem strip_rebuilds (hLength : x.length < 2147483648) (hChunks : HasChunks x chunks)
    (h : ¬ KeptAsIs orientation chunks) (hOk : exifOrientationBlock orientation = .ok block) :
    stripWebpMetadata x orientation =
      .ok (rebuilt x (strippedChunks orientation block hBlock chunks)) := by
  have hBody := length_stripped_le hBlock orientation chunks
  have hWhole : (chunks.flatMap Chunk.bytes).length ≤ x.length := by
    rw [← hChunks.2, List.length_drop]
    exact Nat.sub_le _ _
  rw [strip_chunks hBlock hChunks h hOk, webpFile_chunks (by omega)]

theorem strip_rebuilt (hLength : x.length < 2147483648) (hChunks : HasChunks x chunks)
    (h : ¬ KeptAsIs orientation chunks) (hOk : exifOrientationBlock orientation = .ok block) :
    stripWebpMetadata (rebuilt x (strippedChunks orientation block hBlock chunks)) orientation =
      .ok (rebuilt x (strippedChunks orientation block hBlock chunks)) := by
  have hBody := length_stripped_le hBlock orientation chunks
  have hWhole : (chunks.flatMap Chunk.bytes).length ≤ x.length := by
    rw [← hChunks.2, List.length_drop]
    exact Nat.sub_le _ _
  rw [strip_chunks hBlock (hasChunks_rebuilt hChunks.1 _) (not_kept_stripped hBlock h) hOk,
    stripped_stripped, webpFile_chunks (by omega), rebuilt_rebuilt hChunks.1]

theorem isRebuilt_rebuilt (h : webpHeader ≤ x.length) : IsRebuilt x chunks (rebuilt x chunks) := by
  have hSize : (rebuilt x chunks).length - 8 = (chunks.flatMap Chunk.bytes).length + 4 := by
    rw [length_rebuilt h]
    omega
  rw [IsRebuilt, hSize]
  rfl

theorem clean_cleanChunks (chunks : List Chunk) : ∀ c ∈ cleanChunks chunks, c.isClean = true := by
  intro d hd
  obtain ⟨c, hc, rfl⟩ := List.mem_map.mp hd
  rw [Chunk.cleared_clean]
  exact (List.mem_filter.mp hc).2

/-- What stripping does to a file: nothing, or a header with the new size and what should be left of
the chunks. Stripping again changes nothing, and what is left upright passes the check. -/
theorem strip_webp (x : ByteString) (orientation : Nat) (hLength : x.length < 2147483648)
    (h : orientation < 65536) :
    ∃ y, stripWebpMetadata x orientation = .ok y ∧
      ((∀ chunks, ¬ HasChunks x chunks) → y = x) ∧
      (∀ chunks, HasChunks x chunks → KeptAsIs orientation chunks → y = x) ∧
      (∀ chunks, HasChunks x chunks → ¬ KeptAsIs orientation chunks →
        (∃ (block : ByteString) (hBlock : block.length = 26),
          HoldsOnlyOrientation block orientation ∧
          IsRebuilt x (strippedChunks orientation block hBlock chunks) y) ∧
        (orientation = 1 → carriesOnlyAllowedWebp y = .ok true)) ∧
      stripWebpMetadata y orientation = .ok y := by
  obtain ⟨block, hOk, hBlock⟩ := exifOrientationBlock_ok h
  by_cases hRead : ∃ chunks, HasChunks x chunks ∧ ¬ KeptAsIs orientation chunks
  · obtain ⟨chunks, hChunks, hNot⟩ := hRead
    refine ⟨_, strip_rebuilds hBlock hLength hChunks hNot hOk,
      fun hNone => absurd hChunks (hNone chunks), ?_, ?_,
      strip_rebuilt hBlock hLength hChunks hNot hOk⟩
    · intro chunks' hChunks' hKept
      have hSame := strip_rebuilds hBlock hLength hChunks hNot hOk
      rw [strip_kept hChunks' hKept] at hSame
      exact (Except.ok.inj hSame).symm
    · intro chunks' hChunks' hNot'
      have hSame := strip_rebuilds hBlock hLength hChunks hNot hOk
      rw [strip_rebuilds hBlock hLength hChunks' hNot' hOk] at hSame
      rw [← Except.ok.inj hSame]
      refine ⟨⟨block, hBlock, (exifOrientationBlock_iff h).mp hOk, isRebuilt_rebuilt hChunks'.1⟩,
        ?_⟩
      rintro rfl
      have hBody := length_stripped_le hBlock 1 chunks'
      have hWhole : (chunks'.flatMap Chunk.bytes).length ≤ x.length := by
        rw [← hChunks'.2, List.length_drop]
        exact Nat.sub_le _ _
      exact carriesOnlyAllowed_rebuilt hChunks'.1 (by omega) (clean_cleanChunks chunks')
        (regular_stripped hBlock (regular_of_not_kept hNot'))
  · have hSame : stripWebpMetadata x orientation = .ok x := by
      by_cases hChunks : ∃ chunks, HasChunks x chunks
      · obtain ⟨chunks, hChunks⟩ := hChunks
        exact strip_kept hChunks (not_not.mp fun hNot => hRead ⟨chunks, hChunks, hNot⟩)
      · exact strip_unreadable fun chunks hHas => hChunks ⟨chunks, hHas⟩
    exact ⟨x, hSame, fun _ => rfl, fun _ _ _ => rfl,
      fun chunks hHas hNot => absurd ⟨chunks, hHas, hNot⟩ hRead, hSame⟩

def pictureChunk : Chunk := ⟨latin1 "VP8L", [47], [0], by decide, by decide, by decide⟩

def privateChunk : Chunk := ⟨latin1 "PRIV", [1, 2], [], by decide, by decide, by decide⟩

def featuresChunk : Chunk := ⟨webpFeatures, 8 :: List.replicate 9 0, [], rfl, rfl, by decide⟩

/-- A picture with flags and a private chunk, and a size of the file that is wrong. -/
def privateFile : ByteString :=
  latin1 "RIFF" ++ [0, 0, 0, 0] ++ latin1 "WEBP" ++
    [privateChunk, featuresChunk, pictureChunk].flatMap Chunk.bytes

/-- The picture is turned: the private chunk goes, and the orientation comes last. -/
theorem strip_webp_private :
    ∃ y block, stripWebpMetadata privateFile 6 = .ok y ∧ HoldsOnlyOrientation block 6 ∧
    y = latin1 "RIFF" ++ [66, 0, 0, 0] ++ latin1 "WEBP" ++ featuresChunk.bytes ++
      pictureChunk.bytes ++
      latin1 "EXIF" ++ [26, 0, 0, 0] ++ block ∧ stripWebpMetadata y 6 = .ok y := by
  obtain ⟨y, hy, -, -, hRebuilt, hAgain⟩ := strip_webp privateFile 6 (by decide) (by decide)
  have hChunks : HasChunks privateFile [privateChunk, featuresChunk, pictureChunk] :=
    ⟨by decide, by decide⟩
  have hNot : ¬ KeptAsIs 6 [privateChunk, featuresChunk, pictureChunk] := by
    rintro (⟨c, hc, hFeatures, hLength⟩ | hNoImage | ⟨-, hNoFeatures⟩)
    · have hAll : ∀ c ∈ [privateChunk, featuresChunk, pictureChunk], c.isFeatures = true →
          c.payload.length = webpFeaturesLength := by decide
      exact hLength (hAll c hc hFeatures)
    · exact absurd (hNoImage pictureChunk (by simp)) (by decide)
    · exact absurd (hNoFeatures featuresChunk (by simp)) (by decide)
  obtain ⟨⟨block, -, hOnly, -⟩, -⟩ := hRebuilt _ hChunks hNot
  refine ⟨y, block, hy, hOnly, ?_, hAgain⟩
  have hBytes : (exifOrientationBlock 6).bind (fun block =>
    .ok (latin1 "RIFF" ++ [66, 0, 0, 0] ++ latin1 "WEBP" ++
      featuresChunk.bytes ++ pictureChunk.bytes ++ latin1 "EXIF" ++ [26, 0, 0, 0] ++ block)) =
        .ok y := by
    rw [← hy]
    decide
  rw [(exifOrientationBlock_iff (by decide)).mpr hOnly] at hBytes
  exact (Except.ok.inj hBytes).symm

end Outcome

end Pixaeron.Worker
