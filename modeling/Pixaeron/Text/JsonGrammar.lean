import Pixaeron.Text.JsonRoundTrip

/-! # The grammar of JSON

The texts that stand for a value, with spaces wherever they may be, and that each of them is read as
that value.
-/

namespace Pixaeron.Text.Json

/-- Spaces between the parts of a text. -/
def Blank (w : JsString) : Prop := ∀ u ∈ w, isSpace u = true

/-- The rest of a string that stands for `s`, with its closing quote. -/
def StringText (t s : JsString) : Prop := ∀ rest, parseString (t ++ rest) = some (s, rest)

/-- What may come after a number. -/
def Stops (rest : JsString) : Prop :=
  ∀ u, rest.head? = some u → isSpace u = true ∨ u = 44 ∨ u = 93 ∨ u = 125

structure NumberText (t : JsString) (n : Number) : Prop where
  first : ∃ u digits, t = u :: digits ∧ (u = 45 ∨ isDigit u = true)
  reads : ∀ rest, Stops rest → parseNumber (t ++ rest) = some (n, rest)

mutual

inductive ValueText : JsString → Value → Prop
  | null : ValueText [110, 117, 108, 108] .null
  | boolTrue : ValueText [116, 114, 117, 101] (.bool true)
  | boolFalse : ValueText [102, 97, 108, 115, 101] (.bool false)
  | number {t : JsString} {n : Number} : NumberText t n → ValueText t (.number n)
  | string {t s : JsString} : StringText t s → ValueText (34 :: t) (.string s)
  | emptyArray {w : JsString} : Blank w → ValueText (91 :: (w ++ [93])) (.array [])
  | array {t : JsString} {elements : List Value} : ElementsText t elements →
      ValueText (91 :: t) (.array elements)
  | emptyObject {w : JsString} : Blank w → ValueText (123 :: (w ++ [125])) (.object [])
  | object {t : JsString} {members : List (JsString × Value)} : MembersText t members →
      ValueText (123 :: t) (.object members)

/-- Elements with the closing bracket. -/
inductive ElementsText : JsString → List Value → Prop
  | last {w t w' : JsString} {v : Value} : Blank w → ValueText t v → Blank w' →
    ElementsText (w ++ (t ++ (w' ++ [93]))) [v]
  | more {w t w' rest : JsString} {v : Value} {elements : List Value} : Blank w →
      ValueText t v → Blank w' →
    ElementsText rest elements → ElementsText (w ++ (t ++ (w' ++ 44 :: rest))) (v :: elements)

/-- Members with the closing brace. -/
inductive MembersText : JsString → List (JsString × Value) → Prop
  | last {w k w₁ w₂ t w₃ key : JsString} {v : Value} : Blank w → StringText k key → Blank w₁ →
      Blank w₂ → ValueText t v →
    Blank w₃ → MembersText (w ++ 34 :: (k ++ (w₁ ++ 58 :: (w₂ ++ (t ++ (w₃ ++ [125])))))) [(key, v)]
  | more {w k w₁ w₂ t w₃ key rest : JsString} {v : Value}
      {members : List (JsString × Value)} : Blank w → StringText k key →
    Blank w₁ → Blank w₂ → ValueText t v → Blank w₃ → MembersText rest members →
    MembersText (w ++ 34 :: (k ++ (w₁ ++ 58 :: (w₂ ++ (t ++ (w₃ ++ 44 :: rest))))))
      ((key, v) :: members)

end

variable {u : UInt16} {w t rest : JsString} {rounds : Nat} {v : Value}

/-! ## Spaces -/

theorem skipSpace_blank (h : Blank w) : skipSpace (w ++ t) = skipSpace t := by
  induction w with
  | nil => rfl
  | cons x w ih =>
    have hFirst : isSpace x = true := h x (List.mem_cons_self ..)
    have hRest : skipSpace (w ++ t) = skipSpace t := ih fun y hy => h y (List.mem_cons_of_mem _ hy)
    rw [← hRest, List.cons_append, skipSpace, List.dropWhile_cons_of_pos hFirst]
    rfl

theorem expect_blank (h : Blank w) : expect u (w ++ t) = expect u t := by
  rw [expect, skipSpace_blank h]
  rfl

theorem parseValue_blank (h : Blank w) : parseValue rounds (w ++ t) = parseValue rounds t := by
  cases rounds with
  | zero => rfl
  | succ rounds => rw [parseValue, parseValue, skipSpace_blank h]

theorem blank_nil : Blank [] := fun _ hMem => nomatch hMem

theorem stops_blank (h : Blank w) (hNext : u = 44 ∨ u = 93 ∨ u = 125) : Stops (w ++ u :: rest) := by
  rintro x hHead
  cases w with
  | nil =>
    cases hHead
    exact .inr hNext
  | cons y w =>
    cases hHead
    exact .inl (h x (List.mem_cons_self ..))

theorem stops_of_blank (h : Blank w) : Stops w := by
  rintro x hHead
  exact .inl (h x (List.mem_of_mem_head? hHead))

/-! ## Strings -/

theorem stringText_quoteUnits (s : JsString) : StringText (quoteUnits s ++ [34]) s := by
  rintro rest
  rw [List.append_assoc]
  exact parseString_quoteUnits s rest

/-! ## First letters -/

theorem ValueText.first (h : ValueText t v) :
    ∃ x rest, t = x :: rest ∧ isSpace x = false ∧ x ≠ 93 := by
  cases h with
  | number hNumber =>
    obtain ⟨x, digits, rfl, hFirst⟩ := hNumber.first
    refine ⟨x, digits, rfl, ?_⟩
    rcases hFirst with rfl | hDigit
    · exact ⟨by decide, by decide⟩
    · exact ⟨isSpace_digit hDigit, ne_of_isDigit hDigit (by decide)⟩
  | _ => exact ⟨_, _, rfl, by decide, by decide⟩

theorem ElementsText.first {elements : List Value} (h : ElementsText t elements) :
    expect 93 (t ++ rest) = none := by
  have hStart {w x y : JsString} {v : Value} (hBlank : Blank w) (hValue : ValueText x v) :
      expect 93 (w ++ (x ++ y)) = none := by
    obtain ⟨u, x, rfl, hSpace, hOther⟩ := hValue.first
    rw [expect_blank hBlank]
    exact expect_other hSpace hOther
  cases h with
  | last hBlank hValue _ =>
    rw [List.append_assoc, List.append_assoc]
    exact hStart hBlank hValue
  | more hBlank hValue _ _ =>
    rw [List.append_assoc, List.append_assoc]
    exact hStart hBlank hValue

theorem MembersText.first {members : List (JsString × Value)} (h : MembersText t members) :
    expect 125 (t ++ rest) = none := by
  cases h with
  | last hBlank =>
    rw [List.append_assoc, expect_blank hBlank]
    exact expect_other (by decide) (by decide)
  | more hBlank =>
    rw [List.append_assoc, expect_blank hBlank]
    exact expect_other (by decide) (by decide)

/-! ## Values -/

theorem parseWord_null : parseWord (110 :: 117 :: 108 :: 108 :: rest) = some (.null, rest) := by
  rw [parseWord, if_pos ⟨rest, by rw [ascii_null]; rfl⟩]
  rfl

theorem ascii_true : ascii "true" = [116, 114, 117, 101] := by decide +kernel

theorem ascii_false : ascii "false" = [102, 97, 108, 115, 101] := by decide +kernel

theorem parseWord_true :
    parseWord (116 :: 114 :: 117 :: 101 :: rest) = some (.bool true, rest) := by
  have hNull : ¬ ascii "null" <+: 116 :: 114 :: 117 :: 101 :: rest := by
    rw [ascii_null]
    rintro ⟨_, h⟩
    exact absurd (List.cons.inj h).1 (by decide)
  rw [parseWord, if_neg hNull, if_pos ⟨rest, by rw [ascii_true]; rfl⟩]
  rfl

theorem parseWord_false :
    parseWord (102 :: 97 :: 108 :: 115 :: 101 :: rest) = some (.bool false, rest) := by
  have hOther {x y : UInt16} {a b : JsString} (hFirst : x ≠ y) : ¬ x :: a <+: y :: b := by
    rintro ⟨_, h⟩
    exact hFirst (List.cons.inj h).1
  rw [parseWord, ascii_null, if_neg (hOther (by decide)), ascii_true, if_neg (hOther (by decide)),
    if_pos ⟨rest, by rw [ascii_false]; rfl⟩]
  rfl

theorem parseValue_word (hSpace : isSpace u = false) (hQuote : u ≠ 34) (hBrace : u ≠ 123)
    (hBracket : u ≠ 91) (hNumber : (u = 45 || isDigit u) = false) :
    parseValue (rounds + 1) (u :: t) = parseWord (u :: t) := by
  rw [parseValue, skipSpace_cons hSpace]
  dsimp only
  rw [if_neg hQuote, if_neg hBrace, if_neg hBracket, hNumber]
  rfl

theorem parseValue_number {n : Number} (h : NumberText t n) (hStops : Stops rest) :
    parseValue (rounds + 1) (t ++ rest) = some (.number n, rest) := by
  have hReads := h.reads rest hStops
  obtain ⟨x, digits, rfl, hFirst⟩ := h.first
  have hSpace : isSpace x = false := by
    rcases hFirst with rfl | hDigit
    · decide
    · exact isSpace_digit hDigit
  have hOther {y : UInt16} (hDash : y ≠ 45) (hDigit : isDigit y = false) : x ≠ y := by
    rcases hFirst with rfl | hHere
    · exact Ne.symm hDash
    · exact ne_of_isDigit hHere hDigit
  rw [List.cons_append] at hReads ⊢
  rw [parseValue, skipSpace_cons hSpace]
  dsimp only
  rw [if_neg (hOther (by decide) (by decide)), if_neg (hOther (by decide) (by decide)),
    if_neg (hOther (by decide) (by decide)), if_pos (by simpa using hFirst), hReads]
  rfl

theorem expect_close (h : Blank w) (hClose : isSpace u = false) :
    expect u (w ++ [u] ++ rest) = some rest := by
  rw [List.append_assoc, expect_blank h]
  exact expect_self hClose

mutual

theorem ValueText.parse {t : JsString} {v : Value} (h : ValueText t v) {rounds : Nat}
    {rest : JsString} (hRounds : t.length ≤ rounds) (hStops : Stops rest) :
    parseValue rounds (t ++ rest) = some (v, rest) := by
  obtain ⟨x, more, hText, hSpace, _⟩ := h.first
  obtain ⟨r, rfl⟩ : ∃ r, rounds = r + 1 :=
    ⟨rounds - 1, by rw [hText, List.length_cons] at hRounds; omega⟩
  cases h with
  | null =>
    exact (parseValue_word (by decide) (by decide) (by decide) (by decide) (by decide)).trans
      parseWord_null
  | boolTrue =>
    exact (parseValue_word (by decide) (by decide) (by decide) (by decide) (by decide)).trans
      parseWord_true
  | boolFalse =>
    exact (parseValue_word (by decide) (by decide) (by decide) (by decide) (by decide)).trans
      parseWord_false
  | number hNumber => exact parseValue_number hNumber hStops
  | string hString =>
    rw [List.cons_append, parseValue, skipSpace_cons (by decide)]
    dsimp only
    rw [if_pos rfl, hString rest]
    rfl
  | emptyArray hBlank =>
    rw [List.cons_append, parseValue, skipSpace_cons (by decide)]
    dsimp only
    rw [if_neg (by decide), if_neg (by decide), if_pos rfl, expect_close hBlank (by decide)]
  | array hElements =>
    rw [List.cons_append, parseValue, skipSpace_cons (by decide)]
    dsimp only
    rw [if_neg (by decide), if_neg (by decide), if_pos rfl, hElements.first,
      hElements.parse (by simpa using hRounds)]
    rfl
  | emptyObject hBlank =>
    rw [List.cons_append, parseValue, skipSpace_cons (by decide)]
    dsimp only
    rw [if_neg (by decide), if_pos rfl, expect_close hBlank (by decide)]
  | object hMembers =>
    rw [List.cons_append, parseValue, skipSpace_cons (by decide)]
    dsimp only
    rw [if_neg (by decide), if_pos rfl, hMembers.first, hMembers.parse (by simpa using hRounds)]
    rfl

theorem ElementsText.parse {t : JsString} {elements : List Value} (h : ElementsText t elements)
    {rounds : Nat} {rest : JsString} (hRounds : t.length ≤ rounds) :
    parseElements rounds (t ++ rest) = some (elements, rest) := by
  cases h with
  | @last w t w' v hBlank hValue hBlank' =>
    obtain ⟨r, rfl⟩ : ∃ r, rounds = r + 1 := ⟨rounds - 1, by simp at hRounds; omega⟩
    have hText : w ++ (t ++ (w' ++ [93])) ++ rest = w ++ (t ++ (w' ++ 93 :: rest)) := by simp
    rw [hText, parseElements, parseValue_blank hBlank,
      hValue.parse (by simp at hRounds; omega) (stops_blank hBlank' (.inr (.inl rfl)))]
    dsimp only [bind, Option.bind]
    rw [expect_blank hBlank', expect_other (by decide) (by decide), expect_blank hBlank',
      expect_self (by decide)]
    rfl
  | @more w t w' others v elements hBlank hValue hBlank' hOthers =>
    obtain ⟨r, rfl⟩ : ∃ r, rounds = r + 1 := ⟨rounds - 1, by simp at hRounds; omega⟩
    have hText : w ++ (t ++ (w' ++ 44 :: others)) ++ rest =
      w ++ (t ++ (w' ++ 44 :: (others ++ rest))) := by simp
    rw [hText, parseElements, parseValue_blank hBlank,
      hValue.parse (by simp at hRounds; omega) (stops_blank hBlank' (.inl rfl))]
    dsimp only [bind, Option.bind]
    rw [expect_blank hBlank', expect_self (by decide)]
    dsimp only
    rw [hOthers.parse (by simp at hRounds; omega)]
    rfl

theorem MembersText.parse {t : JsString} {members : List (JsString × Value)}
    (h : MembersText t members) {rounds : Nat} {rest : JsString} (hRounds : t.length ≤ rounds) :
    parseMembers rounds (t ++ rest) = some (members, rest) := by
  cases h with
  | @last w k w₁ w₂ t w₃ key v hBlank hKey hBlank₁ hBlank₂ hValue hBlank₃ =>
    obtain ⟨r, rfl⟩ : ∃ r, rounds = r + 1 := ⟨rounds - 1, by simp at hRounds; omega⟩
    have hText : w ++ 34 :: (k ++ (w₁ ++ 58 :: (w₂ ++ (t ++ (w₃ ++ [125]))))) ++ rest =
      w ++ 34 :: (k ++ (w₁ ++ 58 :: (w₂ ++ (t ++ (w₃ ++ 125 :: rest))))) := by simp
    rw [hText, parseMembers, expect_blank hBlank, expect_self (by decide)]
    dsimp only [bind, Option.bind]
    rw [hKey]
    dsimp only
    rw [expect_blank hBlank₁, expect_self (by decide)]
    dsimp only
    rw [parseValue_blank hBlank₂,
      hValue.parse (by simp at hRounds; omega) (stops_blank hBlank₃ (.inr (.inr rfl)))]
    dsimp only
    rw [expect_blank hBlank₃, expect_other (by decide) (by decide), expect_blank hBlank₃,
      expect_self (by decide)]
    rfl
  | @more w k w₁ w₂ t w₃ key others v members hBlank hKey hBlank₁ hBlank₂ hValue hBlank₃ hOthers =>
    obtain ⟨r, rfl⟩ : ∃ r, rounds = r + 1 := ⟨rounds - 1, by simp at hRounds; omega⟩
    have hText : w ++ 34 :: (k ++ (w₁ ++ 58 :: (w₂ ++ (t ++ (w₃ ++ 44 :: others))))) ++ rest =
      w ++ 34 :: (k ++ (w₁ ++ 58 :: (w₂ ++ (t ++ (w₃ ++ 44 :: (others ++ rest)))))) := by simp
    rw [hText, parseMembers, expect_blank hBlank, expect_self (by decide)]
    dsimp only [bind, Option.bind]
    rw [hKey]
    dsimp only
    rw [expect_blank hBlank₁, expect_self (by decide)]
    dsimp only
    rw [parseValue_blank hBlank₂,
      hValue.parse (by simp at hRounds; omega) (stops_blank hBlank₃ (.inl rfl))]
    dsimp only
    rw [expect_blank hBlank₃, expect_self (by decide)]
    dsimp only
    rw [hOthers.parse (by simp at hRounds; omega)]
    rfl

end

/-- Every text of a value is read as the value, whatever spaces stand around it. -/
theorem parse_valueText {w' : JsString} (h : ValueText t v) (hBefore : Blank w)
    (hAfter : Blank w') :
    parse (w ++ t ++ w') = some v := by
  have hValue : parseValue ((w ++ t ++ w').length + 1) (w ++ t ++ w') = some (v, w') := by
    rw [List.append_assoc, parseValue_blank hBefore]
    exact h.parse (by simp; omega) (stops_of_blank hAfter)
  have hEnd : skipSpace w' = [] := by
    have hSame := @skipSpace_blank w' [] hAfter
    rwa [List.append_nil] at hSame
  rw [parse, hValue]
  exact if_pos hEnd

/-! ## Writing -/

/-- A value with one of its texts. -/
structure Written where
  text : JsString
  value : Value
  written : ValueText text value

namespace Written

def null : Written := ⟨[110, 117, 108, 108], .null, .null⟩

def string (s : JsString) : Written :=
  ⟨stringifyString s, .string s, .string (stringText_quoteUnits s)⟩

def elementsText : List Written → JsString
  | [] => [93]
  | [x] => x.text ++ [93]
  | x :: y :: rest => x.text ++ 44 :: elementsText (y :: rest)

def membersText : List (JsString × Written) → JsString
  | [] => [125]
  | [m] => 34 :: ((quoteUnits m.1 ++ [34]) ++ 58 :: (m.2.text ++ [125]))
  | m :: n :: rest =>
    34 :: ((quoteUnits m.1 ++ [34]) ++ 58 :: (m.2.text ++ 44 :: membersText (n :: rest)))

theorem elementsText_written (x : Written) (rest : List Written) :
    ElementsText (elementsText (x :: rest)) ((x :: rest).map Written.value) := by
  induction rest generalizing x with
  | nil => exact @ElementsText.last [] x.text [] _ blank_nil x.written blank_nil
  | cons y rest ih =>
    exact @ElementsText.more [] x.text [] _ _ _ blank_nil x.written blank_nil (ih y)

/-- A member as it is read. -/
def member (m : JsString × Written) : JsString × Value := (m.1, m.2.value)

theorem membersText_written (m : JsString × Written) (rest : List (JsString × Written)) :
    MembersText (membersText (m :: rest)) ((m :: rest).map member) := by
  induction rest generalizing m with
  | nil =>
    exact .last (w := []) blank_nil (stringText_quoteUnits m.1) blank_nil blank_nil
      m.2.written blank_nil
  | cons n rest ih =>
    exact .more (w := []) blank_nil (stringText_quoteUnits m.1) blank_nil blank_nil m.2.written
      blank_nil (ih n)

def array (elements : List Written) : Written where
  text := 91 :: elementsText elements
  value := .array (elements.map Written.value)
  written := by
    cases elements with
    | nil => exact .emptyArray blank_nil
    | cons x rest => exact .array (elementsText_written x rest)

def object (members : List (JsString × Written)) : Written where
  text := 123 :: membersText members
  value := .object (members.map member)
  written := by
    cases members with
    | nil => exact .emptyObject blank_nil
    | cons m rest => exact .object (membersText_written m rest)

theorem parse_text (x : Written) : parse x.text = some x.value := by
  have hSame := parse_valueText x.written blank_nil blank_nil
  rwa [List.nil_append, List.append_nil] at hSame

variable {members : List (JsString × Written)} {m : JsString × Written} {key : JsString}

theorem get_object (hNames : (members.map Prod.fst).Nodup) (hMem : m ∈ members) :
    (object members).value.get m.1 = some m.2.value := by
  rw [object, Value.get]
  cases hFound : (members.map member).reverse.find? fun p => p.1 = m.1 with
  | none =>
    have hNone :=
      List.find?_eq_none.mp hFound (member m) (List.mem_reverse.mpr (List.mem_map_of_mem hMem))
    exact absurd (decide_eq_true rfl) hNone
  | some p =>
    obtain ⟨m', hMem', rfl⟩ :=
      List.mem_map.mp (List.mem_reverse.mp (List.mem_of_find?_eq_some hFound))
    have hName := List.find?_some hFound
    replace hName : m'.1 = m.1 := of_decide_eq_true hName
    rw [List.inj_on_of_nodup_map hNames hMem' hMem hName]
    rfl

theorem get_object_none (h : key ∉ members.map Prod.fst) :
    (object members).value.get key = none := by
  rw [object, Value.get, List.find?_eq_none.mpr, Option.map_none]
  rintro p hMem hName
  obtain ⟨m, hHere, rfl⟩ := List.mem_map.mp (List.mem_reverse.mp hMem)
  exact h (List.mem_map.mpr ⟨m, hHere, of_decide_eq_true hName⟩)

end Written

end Pixaeron.Text.Json
