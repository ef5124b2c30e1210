import Pixaeron.Worker.Cleanliness

/-! # The boxes of an AVIF file

A file is a list of boxes. A `meta` box holds boxes of its own, and an `iinf` box among them lists
the types of the items that the file has. -/

namespace Pixaeron.Worker

open Bytes

/-- The type of a box or of an item: four characters. -/
structure BoxType where
  code : ByteString
  code_length : code.length = 4

/-- The version and the flags of a full box. -/
structure FullHeader where
  version : UInt8
  flags : ByteString
  flags_length : flags.length = 3

def FullHeader.bytes (h : FullHeader) : ByteString := h.version :: h.flags

/-- A box with its size, a number of 32 bits, in front. -/
def boxBytes (boxType payload : ByteString) : ByteString :=
  uint32BE (8 + payload.length) ++ boxType ++ payload

inductive EntryVersion where
  | two
  | three

def EntryVersion.byte : EntryVersion → UInt8
  | .two => 2
  | .three => 3

def EntryVersion.idBytes (itemId : Nat) : EntryVersion → ByteString
  | .two => uint16BE itemId
  | .three => uint32BE itemId

/-- An `infe` box. -/
structure ItemEntry where
  version : EntryVersion
  flags : ByteString
  itemId : Nat
  protection : Nat
  itemType : BoxType
  name : ByteString
  flags_length : flags.length = 3

/-- What stands before the type of the item, after the box's own type. -/
def ItemEntry.lead (e : ItemEntry) : ByteString :=
  e.version.byte :: (e.flags ++ (e.version.idBytes e.itemId ++ uint16BE e.protection))

def ItemEntry.bytes (e : ItemEntry) : ByteString :=
  boxBytes (latin1 "infe") (e.lead ++ (e.itemType.code ++ e.name))

/-- An `iinf` box. Its version says how wide the number of entries is. -/
structure ItemList where
  header : FullHeader
  count : Nat
  entries : List ItemEntry

def ItemList.lead (l : ItemList) : ByteString :=
  l.header.bytes ++ if l.header.version = 0 then uint16BE l.count else uint32BE l.count

/-- A box in a `meta` box. -/
inductive MetaChild where
  | itemList (l : ItemList)
  | other (boxType : BoxType) (payload : ByteString) (h : boxType.code ≠ latin1 "iinf")

namespace MetaChild

def boxType : MetaChild → ByteString
  | .itemList _ => latin1 "iinf"
  | .other boxType .. => boxType.code

def payload : MetaChild → ByteString
  | .itemList l => l.lead ++ l.entries.flatMap ItemEntry.bytes
  | .other _ payload _ => payload

def bytes (c : MetaChild) : ByteString := boxBytes c.boxType c.payload

def itemTypes : MetaChild → List ByteString
  | .itemList l => l.entries.map fun e => e.itemType.code
  | .other .. => []

end MetaChild

/-- A box of the file itself. -/
inductive AvifBox where
  | metaBox (header : FullHeader) (children : List MetaChild)
  | other (boxType : BoxType) (payload : ByteString) (h : boxType.code ≠ latin1 "meta")

namespace AvifBox

def boxType : AvifBox → ByteString
  | .metaBox .. => latin1 "meta"
  | .other boxType .. => boxType.code

def payload : AvifBox → ByteString
  | .metaBox header children => header.bytes ++ children.flatMap MetaChild.bytes
  | .other _ payload _ => payload

def bytes (b : AvifBox) : ByteString := boxBytes b.boxType b.payload

def itemTypes : AvifBox → List ByteString
  | .metaBox _ children => children.flatMap MetaChild.itemTypes
  | .other .. => []

end AvifBox

/-- The boxes of a file. Their sizes are numbers of 32 bits. -/
structure AvifTree where
  boxes : List AvifBox
  fits : ∀ b ∈ boxes, b.bytes.length < 4294967296

def AvifTree.bytes (tree : AvifTree) : ByteString := tree.boxes.flatMap AvifBox.bytes

def AvifTree.itemTypes (tree : AvifTree) : List ByteString := tree.boxes.flatMap AvifBox.itemTypes

/-- Boxes, whatever is in them, that make up the whole text. -/
def TiledByBoxes (x : ByteString) : Prop :=
  ∃ boxes : List (BoxType × ByteString), (∀ b ∈ boxes, 8 + b.2.length < 4294967296) ∧
    x = boxes.flatMap fun b => boxBytes b.1.code b.2

section Boxes

variable {boxType payload before rest input : ByteString} {boxEnd iinfEnd rounds : Nat}
  {items : List ByteString}

theorem length_boxBytes (h : boxType.length = 4) :
    (boxBytes boxType payload).length = 8 + payload.length := by
  rw [boxBytes, List.length_append, List.length_append, length_uint32BE, h]

theorem read_boxBytes (h : 8 + payload.length < 4294967296) :
    readUInt32BE (boxBytes boxType payload ++ rest) = 8 + payload.length := by
  rw [boxBytes, List.append_assoc, List.append_assoc, readUInt32BE_uint32BE h]

theorem type_boxBytes (h : boxType.length = 4) :
    subarray (boxBytes boxType payload ++ rest) 4 8 = boxType := by
  rw [boxBytes, List.append_assoc, List.append_assoc]
  exact subarray_field rfl (by rw [h])

theorem FullHeader.length_bytes (h : FullHeader) : h.bytes.length = 4 := by
  rw [bytes, List.length_cons, h.flags_length]

/-! ## The entries of an item list -/

theorem EntryVersion.length_idBytes (v : EntryVersion) {itemId : Nat} :
    (v.idBytes itemId).length = if v.byte = 2 then 2 else 4 := by
  cases v <;> rfl

theorem ItemEntry.length_lead (e : ItemEntry) :
    e.lead.length = 6 + if e.version.byte = 2 then 2 else 4 := by
  rw [lead, List.length_cons, List.length_append, List.length_append, e.flags_length,
    e.version.length_idBytes, length_uint16BE]
  omega

theorem ItemEntry.length_bytes (e : ItemEntry) :
    e.bytes.length = 18 + (if e.version.byte = 2 then 2 else 4) + e.name.length := by
  rw [bytes, length_boxBytes (by decide), List.length_append, List.length_append, e.length_lead,
    e.itemType.code_length]
  omega

theorem ItemEntry.length_pos (e : ItemEntry) : 0 < e.bytes.length := by
  rw [e.length_bytes]
  omega

theorem avifEntries_entry {e : ItemEntry} (hFits : e.bytes.length < 4294967296)
    (hEnd : before.length + e.bytes.length ≤ iinfEnd) :
    avifEntries (before ++ (e.bytes ++ rest)) iinfEnd (rounds + 1) before.length items =
      avifEntries (before ++ (e.bytes ++ rest)) iinfEnd rounds (before.length + e.bytes.length)
        (items ++ [e.itemType.code]) := by
  have hLength := e.length_bytes
  have hRead : readUInt32BE (e.bytes ++ rest) = e.bytes.length := by
    rw [ItemEntry.bytes, length_boxBytes (by decide)] at hFits ⊢
    exact read_boxBytes hFits
  have hType : subarray (before ++ (e.bytes ++ rest)) (before.length + 4) (before.length + 8) =
    latin1 "infe" := by
    rw [subarray_append]
    exact type_boxBytes (by decide)
  have hVersion : (before ++ (e.bytes ++ rest))[before.length + 8]? = some e.version.byte := by
    rw [getElem?_append_add]
    rfl
  have hItem : subarray (before ++ (e.bytes ++ rest))
      (before.length + isobmffFullBoxHeader + (if e.version.byte = 2 then 2 else 4) + 2)
      (before.length + isobmffFullBoxHeader + (if e.version.byte = 2 then 2 else 4) + 2 + 4) =
        e.itemType.code := by
    have hSplit : before ++ (e.bytes ++ rest) =
        (before ++ (uint32BE (8 + (e.lead ++ (e.itemType.code ++ e.name)).length) ++
          latin1 "infe" ++ e.lead)) ++
          (e.itemType.code ++ (e.name ++ rest)) := by
      simp only [ItemEntry.bytes, boxBytes, List.append_assoc]
    rw [hSplit]
    refine subarray_field ?_ (by rw [e.itemType.code_length])
    rw [List.length_append, List.length_append, List.length_append, e.length_lead, length_uint32BE,
      show (latin1 "infe").length = 4 from rfl, isobmffFullBoxHeader]
    omega
  rw [avifEntries, if_pos (by rw [isobmffFullBoxHeader]; omega), List.drop_left]
  dsimp only
  rw [hRead, hType, hVersion, if_neg]
  · simp only [Option.some.injEq]
    rw [hItem]
  · rw [isobmffFullBoxHeader]
    split at hLength <;> simp <;> omega

theorem avifEntries_entries {entries : List ItemEntry}
    (hFits : ∀ e ∈ entries, e.bytes.length < 4294967296)
    (hEnd : iinfEnd = before.length + (entries.flatMap ItemEntry.bytes).length)
    (hRounds : entries.length ≤ rounds) :
    avifEntries (before ++ (entries.flatMap ItemEntry.bytes ++ rest)) iinfEnd rounds
      before.length items =
      some (items ++ entries.map fun e => e.itemType.code) := by
  induction entries generalizing before rounds items with
  | nil =>
    rw [List.flatMap_nil, List.length_nil] at hEnd
    cases rounds with
    | zero => simp [avifEntries]
    | succ rounds =>
      rw [avifEntries, if_neg (by rw [isobmffFullBoxHeader]; omega)]
      simp
  | cons e entries ih =>
    cases rounds with
    | zero => simp at hRounds
    | succ rounds =>
      rw [List.flatMap_cons, List.length_append] at hEnd
      rw [List.flatMap_cons, List.append_assoc,
        avifEntries_entry (hFits e (List.mem_cons_self ..)) (by omega)]
      have hNext := @ih (before ++ e.bytes) rounds (items ++ [e.itemType.code])
        (fun d hd => hFits d (List.mem_cons_of_mem _ hd)) (by rw [List.length_append]; omega)
          (Nat.le_of_succ_le_succ hRounds)
      rw [List.append_assoc, List.length_append] at hNext
      rw [hNext, List.map_cons, List.append_assoc]
      rfl

/-! ## The boxes in a `meta` box -/

theorem ItemList.length_lead (l : ItemList) :
    l.lead.length = 4 + if l.header.version = 0 then 2 else 4 := by
  rw [lead, List.length_append, l.header.length_bytes]
  split <;> rfl

theorem MetaChild.type_length (c : MetaChild) : c.boxType.length = 4 := by
  cases c with
  | itemList l => rfl
  | other boxType payload h => exact boxType.code_length

theorem MetaChild.length_bytes (c : MetaChild) : c.bytes.length = 8 + c.payload.length :=
  length_boxBytes c.type_length

/-- What the walk finds in one box in a `meta` box. -/
theorem found_in_child {c : MetaChild} (hFits : c.bytes.length < 4294967296) :
    (if c.boxType = latin1 "iinf" then
      avifEntries (before ++ (c.bytes ++ rest)) (before.length + c.bytes.length)
        (before ++ (c.bytes ++ rest)).length
        (before.length + isobmffFullBoxHeader +
          if (before ++ (c.bytes ++ rest))[before.length + 8]? = some 0 then 2 else 4) items
      else some items) = some (items ++ c.itemTypes) := by
  cases c with
  | other boxType payload h =>
    rw [MetaChild.boxType, if_neg h, MetaChild.itemTypes, List.append_nil]
  | itemList l =>
    have hVersion : (before ++ ((MetaChild.itemList l).bytes ++ rest))[before.length + 8]? =
      some l.header.version := by
      rw [getElem?_append_add]
      rfl
    rw [MetaChild.boxType, if_pos rfl, MetaChild.itemTypes, hVersion]
    rw [MetaChild.length_bytes, MetaChild.payload, List.length_append] at hFits
    have hSmall : ∀ e ∈ l.entries, e.bytes.length < 4294967296 := by
      intro e he
      have hInside :=
        (List.sublist_flatten_of_mem (List.mem_map_of_mem (f := ItemEntry.bytes) he)).length_le
      rw [← List.flatMap_def] at hInside
      omega
    have hCount := length_le_flatMap l.entries ItemEntry.length_pos
    obtain ⟨lead, hLead⟩ : ∃ lead, lead = uint32BE (8 + (MetaChild.itemList l).payload.length) ++
      latin1 "iinf" ++ l.lead :=
      ⟨_, rfl⟩
    have hLeadLength : lead.length = 12 + if l.header.version = 0 then 2 else 4 := by
      rw [hLead, List.length_append, List.length_append, l.length_lead, length_uint32BE,
        show (latin1 "iinf").length = 4 from rfl]
      omega
    have hSplit : (MetaChild.itemList l).bytes = lead ++ l.entries.flatMap ItemEntry.bytes := by
      rw [hLead, List.append_assoc]
      rfl
    have hWalk :=
      @avifEntries_entries (before ++ lead) rest
        (before.length + (MetaChild.itemList l).bytes.length)
      (before ++ ((MetaChild.itemList l).bytes ++ rest)).length items l.entries hSmall ?_ ?_
    · rw [@List.length_append _ before lead, hLeadLength, List.append_assoc,
        ← List.append_assoc lead, ← hSplit, ← Nat.add_assoc] at hWalk
      simp only [Option.some.injEq]
      exact hWalk
    · rw [hSplit, List.length_append, List.length_append]
      omega
    · rw [hSplit, List.length_append, List.length_append, List.length_append]
      omega

theorem avifChildren_child {c : MetaChild} (hFits : c.bytes.length < 4294967296)
    (hEnd : before.length + c.bytes.length ≤ boxEnd) :
    avifChildren (before ++ (c.bytes ++ rest)) boxEnd (rounds + 1) before.length items =
      avifChildren (before ++ (c.bytes ++ rest)) boxEnd rounds (before.length + c.bytes.length)
        (items ++ c.itemTypes) := by
  have hLength := c.length_bytes
  have hRead : readUInt32BE (c.bytes ++ rest) = c.bytes.length := by
    rw [hLength] at hFits ⊢
    exact read_boxBytes hFits
  have hType : subarray (c.bytes ++ rest) 4 8 = c.boxType := type_boxBytes c.type_length
  have hInside : before.length + c.bytes.length ≤ (before ++ (c.bytes ++ rest)).length := by
    rw [List.length_append, List.length_append]
    omega
  have hFound := @found_in_child before rest items c hFits
  rw [avifChildren, if_pos (by omega), List.drop_left]
  dsimp only
  rw [hRead, if_neg (by omega), subarray_append, hType, min_eq_left hInside]
  split
  · next hList =>
    rw [if_pos hList] at hFound
    rw [hFound]
    rfl
  · next hOther =>
    rw [if_neg hOther, Option.some.injEq] at hFound
    rw [← hFound]

theorem avifChildren_children {children : List MetaChild}
    (hFits : ∀ c ∈ children, c.bytes.length < 4294967296)
    (hEnd : boxEnd = before.length + (children.flatMap MetaChild.bytes).length)
    (hRounds : children.length ≤ rounds) :
    avifChildren (before ++ (children.flatMap MetaChild.bytes ++ rest)) boxEnd rounds
      before.length items =
      some (items ++ children.flatMap MetaChild.itemTypes) := by
  induction children generalizing before rounds items with
  | nil =>
    rw [List.flatMap_nil, List.length_nil] at hEnd
    cases rounds with
    | zero => simp [avifChildren]
    | succ rounds =>
      rw [avifChildren, if_neg (by omega)]
      simp
  | cons c children ih =>
    cases rounds with
    | zero => simp at hRounds
    | succ rounds =>
      rw [List.flatMap_cons, List.length_append] at hEnd
      rw [List.flatMap_cons, List.append_assoc,
        avifChildren_child (hFits c (List.mem_cons_self ..)) (by omega)]
      have hNext := @ih (before ++ c.bytes) rounds (items ++ c.itemTypes)
        (fun d hd => hFits d (List.mem_cons_of_mem _ hd)) (by rw [List.length_append]; omega)
          (Nat.le_of_succ_le_succ hRounds)
      rw [List.append_assoc, List.length_append] at hNext
      rw [hNext, List.flatMap_cons, List.append_assoc]

/-! ## The boxes of the file -/

theorem AvifBox.type_length (b : AvifBox) : b.boxType.length = 4 := by
  cases b with
  | metaBox header children => rfl
  | other boxType payload h => exact boxType.code_length

theorem AvifBox.length_bytes (b : AvifBox) : b.bytes.length = 8 + b.payload.length :=
  length_boxBytes b.type_length

theorem found_in_box {b : AvifBox} (hFits : b.bytes.length < 4294967296) :
    (if b.boxType = latin1 "meta" then
      avifChildren (before ++ (b.bytes ++ rest)) (before.length + b.bytes.length)
        (before ++ (b.bytes ++ rest)).length
        (before.length + isobmffFullBoxHeader) items
      else some items) = some (items ++ b.itemTypes) := by
  cases b with
  | other boxType payload h => rw [AvifBox.boxType, if_neg h, AvifBox.itemTypes, List.append_nil]
  | metaBox header children =>
    rw [AvifBox.boxType, if_pos rfl, AvifBox.itemTypes]
    rw [AvifBox.length_bytes, AvifBox.payload, List.length_append, header.length_bytes] at hFits
    have hSmall : ∀ c ∈ children, c.bytes.length < 4294967296 := by
      intro c hc
      have hInside :=
        (List.sublist_flatten_of_mem (List.mem_map_of_mem (f := MetaChild.bytes) hc)).length_le
      rw [← List.flatMap_def] at hInside
      omega
    have hCount := length_le_flatMap (f := MetaChild.bytes) children fun c => by
      rw [c.length_bytes]
      omega
    obtain ⟨lead, hLead⟩ : ∃ lead, lead =
      uint32BE (8 + (AvifBox.metaBox header children).payload.length) ++ latin1 "meta" ++
      header.bytes :=
      ⟨_, rfl⟩
    have hLeadLength : lead.length = 12 := by
      rw [hLead, List.length_append, List.length_append, header.length_bytes]
      rfl
    have hSplit : (AvifBox.metaBox header children).bytes =
      lead ++ children.flatMap MetaChild.bytes := by
      rw [hLead, List.append_assoc]
      rfl
    have hWalk :=
      @avifChildren_children (before ++ lead) rest
        (before.length + (AvifBox.metaBox header children).bytes.length)
      (before ++ ((AvifBox.metaBox header children).bytes ++ rest)).length items children
        hSmall ?_ ?_
    · rw [@List.length_append _ before lead, hLeadLength, List.append_assoc,
        ← List.append_assoc lead, ← hSplit] at hWalk
      exact hWalk
    · rw [hSplit, List.length_append, List.length_append]
      omega
    · rw [hSplit, List.length_append, List.length_append, List.length_append]
      omega

/-- One round goes to the next box, with the types of the items of this one, or gives up at a box
that is not allowed. -/
theorem onlyCleanAvif_box {b : AvifBox} (hFits : b.bytes.length < 4294967296) :
    onlyCleanAvif (before ++ (b.bytes ++ rest)) (rounds + 1) before.length items =
      (avifCleanBoxes.contains b.boxType &&
        onlyCleanAvif (before ++ (b.bytes ++ rest)) rounds (before.length + b.bytes.length)
          (items ++ b.itemTypes)) := by
  have hLength := b.length_bytes
  have hRead : readUInt32BE (b.bytes ++ rest) = b.bytes.length := by
    rw [hLength] at hFits ⊢
    exact read_boxBytes hFits
  have hInside : before.length + b.bytes.length ≤ (before ++ (b.bytes ++ rest)).length := by
    rw [List.length_append, List.length_append]
    omega
  rw [onlyCleanAvif, if_pos (by omega), List.drop_left]
  dsimp only
  rw [hRead, subarray_append, AvifBox.bytes, type_boxBytes b.type_length, ← AvifBox.bytes,
    min_eq_left hInside, found_in_box hFits]
  cases hClean : avifCleanBoxes.contains b.boxType with
  | false => simp
  | true => simp; omega

theorem onlyCleanAvif_boxes {boxes : List AvifBox}
    (hFits : ∀ b ∈ boxes, b.bytes.length < 4294967296) (hRounds : boxes.length < rounds) :
    onlyCleanAvif (before ++ boxes.flatMap AvifBox.bytes) rounds before.length items = true ↔
      (∀ b ∈ boxes, b.boxType ∈ avifCleanBoxes) ∧ items ++ boxes.flatMap AvifBox.itemTypes ≠ [] ∧
        ∀ itemType ∈ items ++ boxes.flatMap AvifBox.itemTypes, itemType ∈ avifCleanItems := by
  induction boxes generalizing before rounds items with
  | nil =>
    cases rounds with
    | zero => simp at hRounds
    | succ rounds =>
      rw [List.flatMap_nil, List.flatMap_nil, List.append_nil, List.append_nil, onlyCleanAvif,
        if_neg (by omega)]
      simp [List.length_pos_iff]
  | cons b boxes ih =>
    cases rounds with
    | zero => simp at hRounds
    | succ rounds =>
      have hNext :=
        @ih (before ++ b.bytes) rounds (items ++ b.itemTypes) (fun d hd =>
          hFits d (List.mem_cons_of_mem _ hd))
        (Nat.lt_of_succ_lt_succ hRounds)
      rw [List.append_assoc, List.length_append, List.append_assoc] at hNext
      rw [List.flatMap_cons, List.flatMap_cons, onlyCleanAvif_box (hFits b (List.mem_cons_self ..)),
        Bool.and_eq_true, hNext, List.contains_iff_mem, List.forall_mem_cons, and_assoc]

theorem tiled_of_onlyCleanAvif
    (h : onlyCleanAvif (before ++ rest) rounds before.length items = true) : TiledByBoxes rest := by
  induction rounds generalizing before rest items with
  | zero => cases h
  | succ rounds ih =>
    rw [onlyCleanAvif, List.drop_left] at h
    split at h
    · next hHeader =>
      dsimp only at h
      rw [List.length_append] at hHeader
      split at h
      · cases h
      · next hAllowed =>
        split at h
        · cases h
        · next hFound =>
          have hSize : 8 ≤ readUInt32BE rest := by
            simp only [Bool.or_eq_true, decide_eq_true_eq, not_or] at hAllowed
            omega
          rcases Nat.lt_or_ge rest.length (readUInt32BE rest) with hShort | hLong
          · cases rounds with
            | zero => cases h
            | succ rounds =>
              rw [onlyCleanAvif, if_neg (by rw [List.length_append]; omega), Bool.and_assoc,
                Bool.and_eq_true, decide_eq_true_eq, List.length_append] at h
              omega
          · have hFits := readUInt32BE_lt rest
            obtain ⟨body, hRest⟩ := exists_field (x := rest) (by omega)
            generalize readUInt32BE rest = n at h hSize hLong hFits hRest
            subst hRest
            rw [List.length_append, length_uint32BE] at hLong
            obtain ⟨code, tail, rfl, hCode⟩ := exists_split (x := body) (n := 4) (by omega)
            rw [List.length_append] at hLong
            obtain ⟨payload, tail, rfl, hPayload⟩ :=
              exists_split (x := tail) (n := n - 8) (by omega)
            have hBox : uint32BE n ++ (code ++ (payload ++ tail)) =
              boxBytes code payload ++ tail := by
              rw [boxBytes, hPayload, Nat.add_sub_cancel' hSize, List.append_assoc,
                List.append_assoc]
            have hBoxLength : (boxBytes code payload).length = n := by
              rw [length_boxBytes hCode]
              omega
            rw [hBox, ← List.append_assoc, ← hBoxLength, ← List.length_append] at h
            obtain ⟨boxes, hBoxes, rfl⟩ := ih h
            refine ⟨(⟨code, hCode⟩, payload) :: boxes, ?_, ?_⟩
            · rw [List.forall_mem_cons]
              exact ⟨hPayload ▸ by omega, hBoxes⟩
            · rw [hBox, List.flatMap_cons]
    · rw [Bool.and_assoc, Bool.and_eq_true, decide_eq_true_eq, List.length_append] at h
      have hNone : rest = [] := List.length_eq_zero_iff.mp (by omega)
      exact ⟨[], by simp, hNone⟩

end Boxes

/-- On the bytes of boxes the walk tells whether the boxes and the items are allowed, and there is
an item; and it accepts nothing that is not made of boxes. -/
theorem avif_exact : (∀ tree : AvifTree, carriesOnlyAllowedTypes .avif tree.bytes = .ok true ↔
      (∀ b ∈ tree.boxes, b.boxType ∈ avifCleanBoxes) ∧ tree.itemTypes ≠ [] ∧
      ∀ itemType ∈ tree.itemTypes, itemType ∈ avifCleanItems) ∧
    ∀ x, carriesOnlyAllowedTypes .avif x = .ok true → TiledByBoxes x := by
  constructor
  · intro tree
    have hCount := length_le_flatMap (f := AvifBox.bytes) tree.boxes fun b => by
      rw [b.length_bytes]
      omega
    rw [carriesOnlyAllowedTypes, Except.ok.injEq]
    exact @onlyCleanAvif_boxes [] _ [] _ tree.fits (Nat.lt_succ_of_le hCount)
  · intro x h
    rw [carriesOnlyAllowedTypes, Except.ok.injEq] at h
    exact @tiled_of_onlyCleanAvif [] x _ _ h

/-- A `meta` box with one image, and its data. -/
def imageTree : AvifTree where
  boxes :=
    [.metaBox ⟨0, [0, 0, 0], rfl⟩ [.itemList ⟨⟨0, [0, 0, 0], rfl⟩, 1,
      [⟨.two, [0, 0, 0], 1, 0, ⟨latin1 "av01", rfl⟩, [0], rfl⟩]⟩],
      .other ⟨latin1 "mdat", rfl⟩ [1, 2, 3] (by decide)]
  fits := by decide

theorem imageTree_tiled : carriesOnlyAllowedTypes .avif imageTree.bytes = .ok true ∧
    TiledByBoxes imageTree.bytes := by
  have hAllowed := (avif_exact.1 imageTree).mpr ⟨by decide, by decide, by decide⟩
  exact ⟨hAllowed, avif_exact.2 _ hAllowed⟩

end Pixaeron.Worker
