import Pixaeron.Text.Words
import Mathlib.Tactic.IntervalCases

/-! # Spellings of addresses

The texts that are read as IPv4 and IPv6 addresses, and the address a spelling stands for.
-/

namespace Pixaeron.Text

abbrev Letters := List Char

structure IPv4Address where
  a : Fin 256
  b : Fin 256
  c : Fin 256
  d : Fin 256
  deriving DecidableEq, Repr

structure IPv6Address where
  groups : List (Fin 65536)
  complete : groups.length = 8

@[ext] theorem IPv6Address.ext {a b : IPv6Address} (h : a.groups = b.groups) : a = b := by
  cases a
  cases b
  congr

instance : DecidableEq IPv6Address := fun a b =>
  decidable_of_iff (a.groups = b.groups) ⟨IPv6Address.ext, fun h => h ▸ rfl⟩

def octetText (octet : Fin 256) : Letters := Nat.toDigits 10 octet

def IPv4Address.octets (q : IPv4Address) : List (Fin 256) := [q.a, q.b, q.c, q.d]

def IPv4Address.text (q : IPv4Address) : Letters := join '.' (q.octets.map octetText)

/-- The last two groups of an address that ends in a dotted quad. -/
def IPv4Address.groups (q : IPv4Address) : List (Fin 65536) :=
  [⟨q.a * 256 + q.b, by omega⟩, ⟨q.c * 256 + q.d, by omega⟩]

def quadOf (high low : Fin 65536) : IPv4Address :=
  ⟨⟨high / 256, by omega⟩, ⟨high % 256, by omega⟩, ⟨low / 256, by omega⟩, ⟨low % 256, by omega⟩⟩

/-- The IPv4 address that an IPv6 address embeds, in `::ffff:0:0/96`. -/
def IPv6Address.mapped? (x : IPv6Address) : Option IPv4Address :=
  if x.groups.take 6 = [0, 0, 0, 0, 0, 0xffff] then
    some (quadOf (x.groups.getD 6 0) (x.groups.getD 7 0)) else none

/-- The sixth group of an address that embeds another. -/
abbrev mappedGroup : Fin 65536 := 0xffff

abbrev zeroGroup : Fin 65536 := 0

def IPv6Address.network (x : IPv6Address) : List (Fin 65536) := x.groups.take 4

structure HexDigit where
  value : Fin 16
  upper : Bool
  deriving DecidableEq, Repr

def lowerChar (value : Fin 16) : Char := Nat.digitChar value

def HexDigit.char (d : HexDigit) : Char :=
  if d.upper then (lowerChar d.value).toUpper else lowerChar d.value

/-- A group as it is spelled, with the letter case and the leading zeros it has there. -/
structure HexGroup where
  digits : List HexDigit
  some : digits ≠ []
  fits : digits.length ≤ 4

def HexGroup.text (g : HexGroup) : Letters := g.digits.map HexDigit.char

def valueOf (digits : List HexDigit) : Nat := digits.foldl (fun n d => 16 * n + d.value) 0

theorem HexGroup.cases (g : HexGroup) : (∃ a, g.digits = [a]) ∨ (∃ a b, g.digits = [a, b]) ∨
    (∃ a b c, g.digits = [a, b, c]) ∨ ∃ a b c d, g.digits = [a, b, c, d] := by
  obtain ⟨digits, hSome, hFits⟩ := g
  match digits with
  | [a] => exact .inl ⟨a, rfl⟩
  | [a, b] => exact .inr (.inl ⟨a, b, rfl⟩)
  | [a, b, c] => exact .inr (.inr (.inl ⟨a, b, c, rfl⟩))
  | [a, b, c, d] => exact .inr (.inr (.inr ⟨a, b, c, d, rfl⟩))
  | [] => exact absurd rfl hSome
  | _ :: _ :: _ :: _ :: _ :: _ =>
    simp only [List.length_cons] at hFits
    omega

theorem HexGroup.value_lt (g : HexGroup) : valueOf g.digits < 65536 := by
  obtain ⟨a, h⟩ | ⟨a, b, h⟩ | ⟨a, b, c, h⟩ | ⟨a, b, c, d, h⟩ :=
    g.cases <;> rw [h] <;> simp [valueOf] <;> omega

def HexGroup.value (g : HexGroup) : Fin 65536 := ⟨valueOf g.digits, g.value_lt⟩

/-- The groups of one side of a spelling, the last of them perhaps a dotted quad. -/
def wordsOf (groups : List HexGroup) (quad : Option IPv4Address) : List Letters :=
  groups.map HexGroup.text ++ (quad.map IPv4Address.text).toList

def valuesOf (groups : List HexGroup) (quad : Option IPv4Address) : List (Fin 65536) :=
  groups.map HexGroup.value ++ (quad.map IPv4Address.groups).getD []

/-- A way to write an IPv6 address, without a zone. -/
inductive Spelling where
  | full (groups : List HexGroup) (quad : Option IPv4Address)
      (complete : (valuesOf groups quad).length = 8)
  | compressed (head tail : List HexGroup) (quad : Option IPv4Address)
      (short : head.length + (valuesOf tail quad).length ≤ 7)

namespace Spelling

/-- The groups after the last `::`, all of them where there is none. -/
def ending : Spelling → List HexGroup
  | full groups _ _ => groups
  | compressed _ tail _ _ => tail

/-- The groups before `::`, if there is one. -/
def leading : Spelling → Option (List HexGroup)
  | full .. => none
  | compressed head _ _ _ => some head

def quad : Spelling → Option IPv4Address
  | full _ quad _ => quad
  | compressed _ _ quad _ => quad

def text : Spelling → Letters
  | full groups quad _ => join ':' (wordsOf groups quad)
  | compressed head tail quad _ =>
    join ':' (head.map HexGroup.text) ++ ':' :: ':' :: join ':' (wordsOf tail quad)

def groups : Spelling → List (Fin 65536)
  | full groups quad _ => valuesOf groups quad
  | compressed head tail quad _ =>
    head.map HexGroup.value ++ List.replicate (8 - head.length - (valuesOf tail quad).length) 0 ++
      valuesOf tail quad

theorem groups_length (s : Spelling) : s.groups.length = 8 := by
  cases s with
  | full groups quad complete => exact complete
  | compressed head tail quad short =>
    simp only [groups, List.length_append, List.length_map, List.length_replicate]
    omega

def address (s : Spelling) : IPv6Address := ⟨s.groups, s.groups_length⟩

end Spelling

def isOctet (w : Letters) : Bool := (List.finRange 256).any fun octet => octetText octet = w

def isIPv4 (t : Letters) : Bool := (t.splitOn '.').length = 4 && (t.splitOn '.').all isOctet

def isHexDigit (c : Char) : Bool :=
  ('0' ≤ c && c ≤ '9') || ('a' ≤ c && c ≤ 'f') || ('A' ≤ c && c ≤ 'F')

def isHexGroup (w : Letters) : Bool := 1 ≤ w.length && w.length ≤ 4 && w.all isHexDigit

/-- How many groups some words stand for: a dotted quad, which may be the last of them, stands for
two. -/
def countGroups : List Letters → Option Nat
  | [] => some 0
  | [w] => if isHexGroup w then some 1 else if isIPv4 w then some 2 else none
  | w :: words => if isHexGroup w then (countGroups words).map (· + 1) else none

def groupsOf (t : Letters) : List Letters := if t = [] then [] else t.splitOn ':'

/-- Of a text without a zone. -/
def isIPv6 (t : Letters) : Bool :=
  match splitDouble ':' t with
  | [whole] => countGroups (groupsOf whole) = some 8
  | [head, tail] =>
    (groupsOf head).all isHexGroup && (countGroups (groupsOf tail)).any fun n =>
      (groupsOf head).length + n ≤ 7
  | _ => false

section Digits

theorem octetText_spec : ∀ octet : Fin 256, octetText octet ≠ [] ∧ '.' ∉ octetText octet ∧
    ':' ∉ octetText octet ∧ '%' ∉ octetText octet := by
  decide +kernel

theorem octetText_inj {o p : Fin 256} (h : octetText o = octetText p) : o = p := by
  have hRead := congrArg (fun w => Nat.ofDigitChars 10 w 0) h
  simp only [octetText, Nat.ofDigitChars_ten_toDigits] at hRead
  exact Fin.ext hRead

theorem char_spec : ∀ (value : Fin 16) (upper : Bool), HexDigit.char ⟨value, upper⟩ ≠ ':' ∧
    HexDigit.char ⟨value, upper⟩ ≠ '.' ∧
    HexDigit.char ⟨value, upper⟩ ≠ '%' ∧ isHexDigit (HexDigit.char ⟨value, upper⟩) ∧
    (HexDigit.char ⟨value, upper⟩).toLower = lowerChar value := by
  decide +kernel

theorem lowerChar_inj : ∀ v w : Fin 16, lowerChar v = lowerChar w → v = w := by decide +kernel

theorem HexGroup.text_ne_nil (g : HexGroup) : g.text ≠ [] := by
  simpa [HexGroup.text] using g.some

theorem HexGroup.mem_text (g : HexGroup) {c : Char} (h : c ∈ g.text) :
    ∃ d : HexDigit, c = d.char := by
  obtain ⟨d, -, hChar⟩ := List.mem_map.1 h
  exact ⟨d, hChar.symm⟩

theorem HexGroup.plain (g : HexGroup) : ':' ∉ g.text ∧ '.' ∉ g.text ∧ '%' ∉ g.text := by
  refine ⟨fun h => ?_, fun h => ?_, fun h => ?_⟩ <;> obtain ⟨d, hChar⟩ := g.mem_text h
  · exact (char_spec d.value d.upper).1 hChar.symm
  · exact (char_spec d.value d.upper).2.1 hChar.symm
  · exact (char_spec d.value d.upper).2.2.1 hChar.symm

theorem HexGroup.isHexGroup_text (g : HexGroup) : isHexGroup g.text := by
  have hLength : 0 < g.digits.length := List.length_pos_iff.2 g.some
  have hFits := g.fits
  simp only [isHexGroup, HexGroup.text, List.length_map, Bool.and_eq_true, decide_eq_true_eq,
    List.all_eq_true, List.mem_map]
  refine ⟨⟨hLength, hFits⟩, ?_⟩
  rintro c ⟨d, -, rfl⟩
  exact (char_spec d.value d.upper).2.2.2.1

end Digits

section Quads

theorem IPv4Address.octets_words (q : IPv4Address) : Words '.' (q.octets.map octetText) := by
  intro w hw
  obtain ⟨octet, -, rfl⟩ := List.mem_map.1 hw
  exact ⟨(octetText_spec octet).1, (octetText_spec octet).2.1⟩

theorem IPv4Address.splitOn_text (q : IPv4Address) : q.text.splitOn '.' = q.octets.map octetText :=
  splitOn_join q.octets_words (by simp [IPv4Address.octets])

theorem IPv4Address.text_inj {q r : IPv4Address} (h : q.text = r.text) : q = r := by
  have hWords : q.octets.map octetText = r.octets.map octetText := by
    rw [← q.splitOn_text, h, r.splitOn_text]
  have hOctets := (List.map_injective_iff.2 fun _ _ => octetText_inj) hWords
  obtain ⟨a, b, c, d⟩ := q
  obtain ⟨a', b', c', d'⟩ := r
  simpa [IPv4Address.octets] using hOctets

theorem isOctet_octetText (octet : Fin 256) : isOctet (octetText octet) :=
  List.any_eq_true.2 ⟨octet, List.mem_finRange octet, by simp⟩

theorem IPv4Address.isIPv4_text (q : IPv4Address) : isIPv4 q.text := by
  simp only [isIPv4, q.splitOn_text, Bool.and_eq_true, decide_eq_true_eq, List.all_eq_true,
    List.mem_map]
  constructor
  · rfl
  · rintro w ⟨octet, -, rfl⟩
    exact isOctet_octetText octet

/-- A dotted quad is read as the address it spells. -/
theorem isIPv4_iff {t : Letters} : isIPv4 t ↔ ∃ q : IPv4Address, t = q.text := by
  constructor
  · intro h
    simp only [isIPv4, Bool.and_eq_true, decide_eq_true_eq, List.all_eq_true, isOctet,
      List.any_eq_true] at h
    obtain ⟨hFour, hOctets⟩ := h
    have hText : join '.' (t.splitOn '.') = t := List.intercalate_splitOn '.'
    match hWords : t.splitOn '.', hFour with
    | [w, x, y, z], _ =>
      rw [hWords] at hOctets hText
      obtain ⟨a, -, ha⟩ := hOctets w (by simp)
      obtain ⟨b, -, hb⟩ := hOctets x (by simp)
      obtain ⟨c, -, hc⟩ := hOctets y (by simp)
      obtain ⟨d, -, hd⟩ := hOctets z (by simp)
      rw [← ha, ← hb, ← hc, ← hd] at hText
      exact ⟨⟨a, b, c, d⟩, hText.symm⟩
  · rintro ⟨q, rfl⟩
    exact q.isIPv4_text

theorem IPv4Address.text_eq (q : IPv4Address) :
    q.text = octetText q.a ++ '.' :: (octetText q.b ++
      '.' :: (octetText q.c ++ '.' :: octetText q.d)) := by
  rw [IPv4Address.text, IPv4Address.octets, List.map_cons, List.map_cons, List.map_cons,
    List.map_cons, List.map_nil, join_cons_cons, join_cons_cons, join_cons_cons, join_singleton]

theorem IPv4Address.plain (q : IPv4Address) :
    q.text ≠ [] ∧ ':' ∉ q.text ∧ '%' ∉ q.text ∧ '.' ∈ q.text := by
  rw [q.text_eq]
  have ha := octetText_spec q.a
  have hb := octetText_spec q.b
  have hc := octetText_spec q.c
  have hd := octetText_spec q.d
  simp [ha, hb, hc, hd]

theorem IPv4Address.not_isHexGroup (q : IPv4Address) : isHexGroup q.text = false := by
  rw [Bool.eq_false_iff]
  intro h
  simp only [isHexGroup, Bool.and_eq_true, List.all_eq_true] at h
  exact absurd (h.2 '.' q.plain.2.2.2) (by decide)

end Quads

section Spellings

variable (groups : List HexGroup) (quad : Option IPv4Address)

theorem mem_wordsOf {w : Letters} (h : w ∈ wordsOf groups quad) :
    (∃ g ∈ groups, w = g.text) ∨ ∃ q, quad = some q ∧ w = q.text := by
  rcases List.mem_append.1 h with hGroup | hQuad
  · obtain ⟨g, hg, rfl⟩ := List.mem_map.1 hGroup
    exact .inl ⟨g, hg, rfl⟩
  · cases quad with
    | none => simp at hQuad
    | some q => exact .inr ⟨q, rfl, by simpa using hQuad⟩

theorem wordsOf_plain : Words ':' (wordsOf groups quad) := by
  intro w hw
  rcases mem_wordsOf groups quad hw with ⟨g, -, rfl⟩ | ⟨q, -, rfl⟩
  · exact ⟨g.text_ne_nil, g.plain.1⟩
  · exact ⟨q.plain.1, q.plain.2.1⟩

theorem map_text_plain : Words ':' (groups.map HexGroup.text) := by
  simpa [wordsOf] using wordsOf_plain groups none

theorem groupsOf_join {words : List Letters} (h : Words ':' words) :
    groupsOf (join ':' words) = words := by
  cases words with
  | nil => rfl
  | cons w words =>
    obtain ⟨d, rest, hRest, -⟩ := h.join_eq_cons
    rw [groupsOf, if_neg (by rw [hRest]; exact List.cons_ne_nil d rest), splitOn_join h (by simp)]

theorem countGroups_wordsOf :
    countGroups (wordsOf groups quad) = some (valuesOf groups quad).length := by
  induction groups with
  | nil =>
    cases quad with
    | none => rfl
    | some q =>
      simp [wordsOf, valuesOf, countGroups, q.not_isHexGroup, q.isIPv4_text, IPv4Address.groups]
  | cons g groups ih =>
    have hStep : ∀ words, countGroups (g.text :: words) = (countGroups words).map (· + 1) := by
      intro words
      cases words with
      | nil => simp [countGroups, g.isHexGroup_text]
      | cons w words => simp [countGroups, g.isHexGroup_text]
    rw [wordsOf, List.map_cons, List.cons_append, hStep, ← wordsOf, ih]
    simp [valuesOf]

theorem splitDouble_full :
    splitDouble ':' (join ':' (wordsOf groups quad)) = [join ':' (wordsOf groups quad)] :=
  splitDouble_join (wordsOf_plain groups quad)

theorem splitDouble_compressed (head : List HexGroup) :
    splitDouble ':' (join ':' (head.map HexGroup.text) ++
      ':' :: ':' :: join ':' (wordsOf groups quad)) =
      [join ':' (head.map HexGroup.text), join ':' (wordsOf groups quad)] := by
  rw [splitDouble_join_double (map_text_plain head), splitDouble_full]

theorem Spelling.isIPv6_text (s : Spelling) : isIPv6 s.text := by
  cases s with
  | full groups quad complete =>
    unfold isIPv6 Spelling.text
    rw [splitDouble_full]
    simp [groupsOf_join (wordsOf_plain groups quad), countGroups_wordsOf, complete]
  | compressed head tail quad short =>
    unfold isIPv6 Spelling.text
    rw [splitDouble_compressed]
    simp only [groupsOf_join (map_text_plain head), groupsOf_join (wordsOf_plain tail quad),
      countGroups_wordsOf, Option.any_some, List.length_map, Bool.and_eq_true, List.all_eq_true,
      List.mem_map, decide_eq_true_eq]
    refine ⟨?_, short⟩
    rintro w ⟨g, -, rfl⟩
    exact g.isHexGroup_text

end Spellings

section Reading

theorem isHexDigit_iff {c : Char} : isHexDigit c ↔ ∃ d : HexDigit, c = d.char := by
  have hTable : ∀ n < 128, isHexDigit (Char.ofNat n) → ∃ (value : Fin 16) (upper : Bool),
    Char.ofNat n = HexDigit.char ⟨value, upper⟩ := by
    decide +kernel
  constructor
  · intro h
    have hSmall : c.toNat < 128 := by
      simp only [isHexDigit, Bool.or_eq_true, Bool.and_eq_true, decide_eq_true_eq, Char.le_def,
        UInt32.le_iff_toNat_le] at h
      simp only [Char.toNat]
      have h9 : '9'.val.toNat = 57 := rfl
      have hF : 'F'.val.toNat = 70 := rfl
      have hf : 'f'.val.toNat = 102 := rfl
      omega
    rw [← Char.ofNat_toNat c] at h ⊢
    obtain ⟨value, upper, hChar⟩ := hTable _ hSmall h
    exact ⟨⟨value, upper⟩, hChar⟩
  · rintro ⟨d, rfl⟩
    exact (char_spec d.value d.upper).2.2.2.1

theorem exists_map_eq {α β : Type} {f : β → α} {xs : List α} (h : ∀ x ∈ xs, ∃ y, x = f y) :
    ∃ ys : List β, xs = ys.map f := by
  induction xs with
  | nil => exact ⟨[], rfl⟩
  | cons x xs ih =>
    obtain ⟨y, rfl⟩ := h x (List.mem_cons_self ..)
    obtain ⟨ys, rfl⟩ := ih fun x hx => h x (List.mem_cons_of_mem _ hx)
    exact ⟨y :: ys, rfl⟩

theorem isHexGroup_iff {w : Letters} : isHexGroup w ↔ ∃ g : HexGroup, w = g.text := by
  constructor
  · intro h
    simp only [isHexGroup, Bool.and_eq_true, decide_eq_true_eq, List.all_eq_true] at h
    obtain ⟨⟨hSome, hFits⟩, hDigits⟩ := h
    obtain ⟨digits, rfl⟩ := exists_map_eq fun c hc => isHexDigit_iff.1 (hDigits c hc)
    rw [List.length_map] at hSome hFits
    exact ⟨⟨digits, List.length_pos_iff.1 hSome, hFits⟩, rfl⟩
  · rintro ⟨g, rfl⟩
    exact g.isHexGroup_text

theorem exists_wordsOf {words : List Letters} {n : Nat} (h : countGroups words = some n) :
    ∃ groups quad, words = wordsOf groups quad ∧ (valuesOf groups quad).length = n := by
  fun_induction countGroups words generalizing n with
  | case1 => exact ⟨[], none, rfl, by simpa [valuesOf] using h⟩
  | case2 w hHex =>
    obtain ⟨g, rfl⟩ := isHexGroup_iff.1 hHex
    exact ⟨[g], none, rfl, by simpa [valuesOf] using h⟩
  | case3 w _ hQuad =>
    obtain ⟨q, rfl⟩ := isIPv4_iff.1 hQuad
    exact ⟨[], some q, rfl, by simpa [valuesOf, IPv4Address.groups] using h⟩
  | case4 => simp at h
  | case5 w words _ hHex ih =>
    obtain ⟨g, rfl⟩ := isHexGroup_iff.1 hHex
    obtain ⟨m, hCount, rfl⟩ := Option.map_eq_some_iff.1 h
    obtain ⟨groups, quad, rfl, hLength⟩ := ih hCount
    refine ⟨g :: groups, quad, rfl, ?_⟩
    simp only [valuesOf, List.map_cons, List.cons_append, List.length_cons] at hLength ⊢
    omega
  | case6 => simp at h

theorem join_groupsOf {t : Letters} : join ':' (groupsOf t) = t := by
  unfold groupsOf
  split
  · next hEmpty => rw [hEmpty, join_nil]
  · exact List.intercalate_splitOn ':'

/-- What is accepted as an IPv6 address is a spelling of one. -/
theorem isIPv6_iff {t : Letters} : isIPv6 t ↔ ∃ s : Spelling, t = s.text := by
  constructor
  · intro h
    have hText : [':', ':'].intercalate (splitDouble ':' t) = t := intercalate_splitDouble
    unfold isIPv6 at h
    split at h
    · next whole hSplit =>
      rw [hSplit, List.intercalate_singleton] at hText
      obtain ⟨groups, quad, hWords, hCount⟩ := exists_wordsOf (of_decide_eq_true h)
      refine ⟨.full groups quad hCount, ?_⟩
      rw [Spelling.text, ← hWords, join_groupsOf, hText]
    · next head tail hSplit =>
      rw [hSplit, List.intercalate_cons_cons, List.intercalate_singleton] at hText
      simp only [Bool.and_eq_true, List.all_eq_true, Option.any_eq_true, decide_eq_true_eq] at h
      obtain ⟨hHead, n, hCount, hShort⟩ := h
      obtain ⟨groups, hGroups⟩ := exists_map_eq fun w hw => isHexGroup_iff.1 (hHead w hw)
      obtain ⟨rest, quad, hWords, rfl⟩ := exists_wordsOf hCount
      refine ⟨.compressed groups rest quad
        (by rw [hGroups, List.length_map] at hShort; exact hShort), ?_⟩
      rw [Spelling.text, ← hWords, ← hGroups, join_groupsOf, join_groupsOf, ← hText]
      simp
    · exact absurd h Bool.false_ne_true
  · rintro ⟨s, rfl⟩
    exact s.isIPv6_text

end Reading

end Pixaeron.Text
