import Pixaeron.Text.Json
import Mathlib.Algebra.Order.Floor.Ring
import Mathlib.Tactic.FieldSimp
import Mathlib.Tactic.Linarith

/-! # Reading what was written

An object of strings and whole numbers is read back from its text.
-/

namespace Pixaeron.Text.Json

variable {u v : UInt16} {s rest : JsString} {n rounds : Nat}

/-! ## Strings -/

theorem parseString_plain (hQuote : u ≠ 34) (hEscape : u ≠ 92) (hPrint : ¬ u < 32) :
    parseString (u :: rest) = (parseString rest).map fun p => (u :: p.1, p.2) := by
  rw [parseString.eq_def]
  dsimp only
  rw [if_neg hQuote, if_neg hEscape, if_neg hPrint]
  cases parseString rest <;> rfl

theorem parseString_short {e : UInt16} (h : escapes.lookup e = some u) (hLetter : e ≠ 117) :
    parseString (92 :: e :: rest) = (parseString rest).map fun p => (u :: p.1, p.2) := by
  rw [parseString.eq_def]
  dsimp only
  rw [if_neg (by decide), if_pos rfl]
  split
  · next hSame => exact absurd (List.cons.inj hSame).1 hLetter
  · next hSame =>
    obtain ⟨rfl, rfl⟩ := List.cons.inj hSame
    rw [h]
    cases parseString rest <;> rfl
  · next hSame => exact nomatch hSame

theorem parseString_unicode {a b c d : UInt16} (h : hexUnit a b c d = some u) :
    parseString (92 :: 117 :: a :: b :: c :: d :: rest) = (parseString rest).map fun p =>
      (u :: p.1, p.2) := by
  rw [parseString.eq_def]
  dsimp only
  rw [if_neg (by decide), if_pos rfl]
  split
  · next hSame =>
    simp only [List.cons.injEq, true_and] at hSame
    obtain ⟨rfl, rfl, rfl, rfl, rfl⟩ := hSame
    rw [h]
    cases parseString rest <;> rfl
  · next hOther hSame =>
    obtain ⟨rfl, rfl⟩ := List.cons.inj hSame
    exact absurd rfl (hOther a b c d rest rfl)
  · next hSame => exact nomatch hSame

theorem parseString_quote : parseString (34 :: rest) = some ([], rest) := by
  rw [parseString.eq_def]
  exact if_pos rfl

theorem hexValue_hexDigit : ∀ n < 16, hexValue (hexDigit n) = some n := by decide

theorem hexUnit_hexDigits (u : UInt16) :
    hexUnit (hexDigit (u.toNat / 4096)) (hexDigit (u.toNat / 256 % 16))
      (hexDigit (u.toNat / 16 % 16)) (hexDigit (u.toNat % 16)) = some u := by
  have hSmall := u.toNat_lt
  rw [hexUnit, hexValue_hexDigit _ (by omega), hexValue_hexDigit _ (by omega),
    hexValue_hexDigit _ (by omega), hexValue_hexDigit _ (by omega)]
  have hWhole : 4096 * (u.toNat / 4096) + 256 * (u.toNat / 256 % 16) + 16 * (u.toNat / 16 % 16) +
    u.toNat % 16 = u.toNat := by omega
  show some (UInt16.ofNat _) = some u
  rw [hWhole, UInt16.ofNat_toNat]

theorem escapes_shortEscapes : ∀ m ∈ shortEscapes, escapes.lookup m.2 = some m.1 ∧ m.2 ≠ 117 := by
  have hAll : (shortEscapes.all fun m => decide (escapes.lookup m.2 = some m.1 ∧ m.2 ≠ 117)) =
    true := by decide
  intro m hMem
  exact of_decide_eq_true (List.all_eq_true.1 hAll m hMem)

theorem parseString_quoteUnit (u : UInt16) (rest : JsString) :
    parseString (quoteUnit u ++ rest) = (parseString rest).map fun p => (u :: p.1, p.2) := by
  unfold quoteUnit
  cases hShort : shortEscapes.lookup u with
  | some letter =>
    have hMem : (u, letter) ∈ shortEscapes := by
      obtain ⟨before, after, hList, -⟩ := List.lookup_eq_some_iff.1 hShort
      rw [hList]
      simp
    obtain ⟨hLookup, hLetter⟩ := escapes_shortEscapes _ hMem
    exact parseString_short hLookup hLetter
  | none =>
    dsimp only
    split
    · exact parseString_unicode (hexUnit_hexDigits u)
    · next hPlain =>
      simp only [Bool.or_eq_true, decide_eq_true_eq, not_or] at hPlain
      refine parseString_plain ?_ ?_ hPlain.1.1
      · rintro rfl
        exact absurd hShort (by decide)
      · rintro rfl
        exact absurd hShort (by decide)

theorem parseString_quoteUnits (s rest : JsString) :
    parseString (quoteUnits s ++ 34 :: rest) = some (s, rest) := by
  fun_induction quoteUnits s with
  | case1 =>
    rw [List.nil_append, parseString_quote]
  | case2 u =>
    rw [parseString_quoteUnit, parseString_quote]
    rfl
  | case3 u v units hPair ih =>
    simp only [Bool.and_eq_true, isHighSurrogate, isLowSurrogate, decide_eq_true_eq] at hPair
    obtain ⟨⟨hHigh, -⟩, hLow, -⟩ := hPair
    have hPlain : ∀ w : UInt16, 0xd800 ≤ w → w ≠ 34 ∧ w ≠ 92 ∧ ¬ w < 32 := by
      intro w hw
      refine ⟨?_, ?_, ?_⟩
      · rintro rfl
        exact absurd hw (by decide)
      · rintro rfl
        exact absurd hw (by decide)
      · intro hSmall
        simp only [UInt16.le_iff_toNat_le, UInt16.lt_iff_toNat_lt] at hw hSmall
        have hLarge : (0xd800 : UInt16).toNat = 55296 := rfl
        have hLimit : (32 : UInt16).toNat = 32 := rfl
        omega
    have hu := hPlain u hHigh
    have hv : v ≠ 34 ∧ v ≠ 92 ∧ ¬ v < 32 := by
      refine hPlain v ?_
      rw [UInt16.le_iff_toNat_le] at hLow ⊢
      exact le_trans (by decide) hLow
    rw [List.cons_append, List.cons_append, parseString_plain hu.1 hu.2.1 hu.2.2,
      parseString_plain hv.1 hv.2.1 hv.2.2, ih]
    rfl
  | case4 u v units _ ih =>
    rw [List.append_assoc, parseString_quoteUnit, ih]
    rfl

/-! ## Numbers -/

theorem roundHalfEven_intCast (n : ℤ) : roundHalfEven n = n := by
  simp [roundHalfEven]

theorem toDouble_natCast (h : n < 2 ^ 53) : toDouble n = .finite n := by
  rcases Nat.eq_zero_or_pos n with rfl | hPos
  · exact if_pos Nat.cast_zero
  · have hNonzero : (n : ℚ) ≠ 0 := Nat.cast_ne_zero.2 hPos.ne'
    obtain ⟨d, hd⟩ : ∃ d, Nat.log 2 n + d = 52 := ⟨52 - Nat.log 2 n, by
      have hLog : Nat.log 2 n < 53 := Nat.log_lt_of_lt_pow hPos.ne' h
      omega⟩
    have hExponent : max (Int.log 2 (n : ℚ) - 52) (-1074) = -(d : ℤ) := by
      rw [Int.log_natCast]
      omega
    have hScaled : (n : ℚ) / 2 ^ (-(d : ℤ)) = ((n * 2 ^ d : ℕ) : ℤ) := by
      rw [zpow_neg, div_inv_eq_mul, zpow_natCast]
      push_cast
      rfl
    have hNearest : ((roundHalfEven ((n : ℚ) / 2 ^ (-(d : ℤ))) : ℤ) : ℚ) * 2 ^ (-(d : ℤ)) = n := by
      rw [hScaled, roundHalfEven_intCast, zpow_neg, zpow_natCast]
      push_cast
      field_simp
    have hSmall : ¬ (2 : ℚ) ^ 1024 ≤ n := by
      rw [not_le]
      exact_mod_cast lt_trans h (Nat.pow_lt_pow_right (by decide) (by decide))
    rw [toDouble, if_neg hNonzero]
    dsimp only
    rw [hExponent, hNearest, if_neg hSmall]

/-- The digits of a number, as code units. -/
def digitUnits (n : Nat) : JsString := (Nat.toDigits 10 n).map fun c => UInt16.ofNat c.toNat

theorem digit_bounds {c : Char} (h : c.isDigit = true) : 48 ≤ c.toNat ∧ c.toNat ≤ 57 := by
  simpa [Char.isDigit, UInt32.le_iff_toNat_le] using h

theorem isDigit_digitUnits (h : u ∈ digitUnits n) : isDigit u = true := by
  obtain ⟨c, hc, rfl⟩ := List.mem_map.1 h
  have hDigit := digit_bounds (Nat.isDigit_of_mem_toDigits (by decide) (by decide) hc)
  simp [isDigit, UInt16.le_iff_toNat_le]
  omega

theorem toNat_ofNat_char {c : Char} (h : c.isDigit = true) :
    (UInt16.ofNat c.toNat).toNat = c.toNat := by
  have hBounds := digit_bounds h
  rw [UInt16.toNat_ofNat']
  omega

theorem digitsValue_digitUnits (n : Nat) : digitsValue (digitUnits n) = n := by
  have hFold : ∀ (letters : List Char) (sofar : Nat), (∀ c ∈ letters, c.isDigit = true) →
      (letters.map fun c => UInt16.ofNat c.toNat).foldl (fun n u => 10 * n + (u.toNat - 48)) sofar =
        Nat.ofDigitChars 10 letters sofar := by
    intro letters
    induction letters with
    | nil => exact fun _ _ => Nat.ofDigitChars_nil.symm
    | cons c letters ih =>
      intro sofar h
      rw [List.map_cons, List.foldl_cons, toNat_ofNat_char (h c (List.mem_cons_self ..)),
        Nat.ofDigitChars_cons]
      exact ih _ fun d hd => h d (List.mem_cons_of_mem _ hd)
  rw [digitsValue, digitUnits, hFold _ _ fun c hc =>
    Nat.isDigit_of_mem_toDigits (by decide) (by decide) hc]
  exact Nat.ofDigitChars_ten_toDigits

theorem digitUnits_ne_nil (n : Nat) : digitUnits n ≠ [] := by
  simp [digitUnits, Nat.toDigits_ne_nil]

theorem head_toDigits (h : 0 < n) :
    ∃ d, 0 < d ∧ d < 10 ∧ (Nat.toDigits 10 n).head? = some d.digitChar := by
  induction n using Nat.strongRecOn with
  | _ n ih =>
    by_cases hSmall : n < 10
    · exact ⟨n, h, hSmall, by rw [Nat.toDigits_of_lt_base hSmall]; rfl⟩
    · obtain ⟨d, hPos, hTen, hHead⟩ := ih (n / 10) (by omega) (by omega)
      refine ⟨d, hPos, hTen, ?_⟩
      rw [Nat.toDigits_of_base_le (by decide) (by omega), List.head?_append, hHead]
      rfl

theorem head_digitUnits (n : Nat) : (digitUnits n).head? ≠ some 48 ∨ (digitUnits n).length = 1 := by
  rcases Nat.eq_zero_or_pos n with rfl | hPos
  · exact .inr rfl
  · obtain ⟨d, hd, hTen, hHead⟩ := head_toDigits hPos
    have hNonzero : ∀ d < 10, 0 < d → UInt16.ofNat (Nat.digitChar d).toNat ≠ 48 := by decide
    left
    rw [digitUnits, List.head?_map, hHead, Option.map_some, ne_eq, Option.some.injEq]
    exact hNonzero d hTen hd

/-- What may stand after a value: a comma or a closing brace. -/
def Ends (u : UInt16) : Prop := u = 44 ∨ u = 125

theorem spanDigits_digitUnits (hEnds : Ends u) :
    spanDigits (digitUnits n ++ u :: rest) = some (digitUnits n, u :: rest) := by
  have hStop : isDigit u = false := by
    rcases hEnds with rfl | rfl <;> decide
  have hAll : ∀ v ∈ digitUnits n, isDigit v = true := fun v hv => isDigit_digitUnits hv
  have hTake : (digitUnits n ++ u :: rest).takeWhile isDigit = digitUnits n := by
    rw [List.takeWhile_append_of_pos hAll, List.takeWhile_cons_of_neg (by simp [hStop]),
      List.append_nil]
  have hDrop : (digitUnits n ++ u :: rest).dropWhile isDigit = u :: rest := by
    rw [List.dropWhile_append_of_pos hAll, List.dropWhile_cons_of_neg (by simp [hStop])]
  rw [spanDigits, hTake, hDrop, if_neg (by simp [digitUnits_ne_nil])]

theorem parseFraction_ends (hEnds : Ends u) : parseFraction (u :: rest) = some ([], u :: rest) := by
  rcases hEnds with rfl | rfl <;> rfl

theorem parseExponent_ends (hEnds : Ends u) : parseExponent (u :: rest) = some (0, u :: rest) := by
  rcases hEnds with rfl | rfl <;> rfl

theorem parseUnsigned_digitUnits (hEnds : Ends u) (h : n < 2 ^ 53) :
    parseUnsigned (digitUnits n ++ u :: rest) = some (.finite n, u :: rest) := by
  have hWhole : parseInteger (digitUnits n ++ u :: rest) = some (digitUnits n, u :: rest) := by
    rw [parseInteger, spanDigits_digitUnits hEnds, Option.filter_some]
    rcases head_digitUnits n with hHead | hOne <;> simp [*]
  have hValue : (digitsValue (digitUnits n ++ []) : ℚ) * 10 ^
    ((0 : ℤ) - (([] : JsString).length : ℤ)) = n := by
    simp [digitsValue_digitUnits]
  rw [parseUnsigned, hWhole]
  change (parseFraction (u :: rest)).bind _ = _
  rw [parseFraction_ends hEnds]
  change (parseExponent (u :: rest)).bind _ = _
  rw [parseExponent_ends hEnds]
  change some (toDouble _, u :: rest) = _
  rw [hValue, toDouble_natCast h]

theorem exists_digitUnits (n : Nat) :
    ∃ d digits, digitUnits n = d :: digits ∧ isDigit d = true := by
  obtain ⟨d, digits, hDigits⟩ := List.exists_cons_of_ne_nil (digitUnits_ne_nil n)
  exact ⟨d, digits, hDigits, isDigit_digitUnits (hDigits ▸ List.mem_cons_self ..)⟩

theorem parseNumber_digitUnits (hEnds : Ends u) (h : n < 2 ^ 53) :
    parseNumber (digitUnits n ++ u :: rest) = some (.finite n, u :: rest) := by
  obtain ⟨d, digits, hDigits, hDigit⟩ := exists_digitUnits n
  have hUnsigned := @parseUnsigned_digitUnits u rest n hEnds h
  rw [hDigits, List.cons_append] at hUnsigned ⊢
  rw [← hUnsigned]
  unfold parseNumber
  split
  · next hSign =>
    rw [(List.cons.inj hSign).1] at hDigit
    exact absurd hDigit (by decide)
  · rfl

/-! ## Objects -/

theorem skipSpace_cons (h : isSpace u = false) : skipSpace (u :: rest) = u :: rest :=
  List.dropWhile_cons_of_neg (by simp [h])

theorem expect_self (h : isSpace u = false) : expect u (u :: rest) = some rest := by
  rw [expect, skipSpace_cons h]
  exact if_pos rfl

theorem expect_other (h : isSpace v = false) (hOther : v ≠ u) : expect u (v :: rest) = none := by
  rw [expect, skipSpace_cons h]
  exact if_neg hOther

/-- Numbers in an object that are written without loss. -/
def Scalar.Fits (x : Scalar) : Prop := ∀ n, x = .number n → n < 2 ^ 53

theorem ne_of_isDigit (h : isDigit u = true) (hOther : isDigit v = false) : u ≠ v := by
  rintro rfl
  exact absurd h (by simp [hOther])

theorem isSpace_digit (h : isDigit u = true) : isSpace u = false := by
  have h₁ : u ≠ 32 := ne_of_isDigit h (by decide)
  have h₂ : u ≠ 9 := ne_of_isDigit h (by decide)
  have h₃ : u ≠ 10 := ne_of_isDigit h (by decide)
  have h₄ : u ≠ 13 := ne_of_isDigit h (by decide)
  simp [isSpace, h₁, h₂, h₃, h₄]

theorem ascii_null : ascii "null" = [110, 117, 108, 108] := by decide +kernel

theorem parseValue_stringify {x : Scalar} (hFits : x.Fits) (hEnds : Ends u) :
    parseValue (rounds + 1) (x.stringify ++ u :: rest) = some (x.value, u :: rest) := by
  cases x with
  | null =>
    have hWord : ascii "null" <+: 110 :: 117 :: 108 :: 108 :: u :: rest := by
      rw [ascii_null]
      exact ⟨u :: rest, rfl⟩
    rw [Scalar.stringify, ascii_null]
    change parseValue (rounds + 1) (110 :: 117 :: 108 :: 108 :: u :: rest) = _
    rw [parseValue, skipSpace_cons (by decide)]
    dsimp only
    rw [if_neg (by decide), if_neg (by decide), if_neg (by decide), if_neg (by decide), parseWord,
      if_pos hWord]
    rfl
  | number n =>
    obtain ⟨d, digits, hDigits, hDigit⟩ := exists_digitUnits n
    have hNumber := @parseNumber_digitUnits u rest n hEnds (hFits n rfl)
    change parseValue (rounds + 1) (digitUnits n ++ u :: rest) = _
    rw [hDigits, List.cons_append] at hNumber ⊢
    rw [parseValue, skipSpace_cons (isSpace_digit hDigit)]
    dsimp only
    rw [if_neg (ne_of_isDigit hDigit (by decide)), if_neg (ne_of_isDigit hDigit (by decide)),
      if_neg (ne_of_isDigit hDigit (by decide)), if_pos (by simp [hDigit]), hNumber]
    rfl
  | string s =>
    change parseValue (rounds + 1) (34 :: (quoteUnits s ++ [34]) ++ u :: rest) = _
    rw [List.cons_append, List.append_assoc, parseValue, skipSpace_cons (by decide)]
    dsimp only
    rw [if_pos rfl, List.singleton_append, parseString_quoteUnits]
    rfl

def member (m : JsString × Scalar) : JsString × Value := (m.1, m.2.value)

variable {m : JsString × Scalar} {members : List (JsString × Scalar)}

theorem parseMembers_member (hFits : m.2.Fits) (hEnds : Ends u) :
    parseMembers (rounds + 2) (stringifyMember m ++ u :: rest) =
      if u = 44 then (parseMembers (rounds + 1) rest).map fun p =>
        (member m :: p.1, p.2) else some ([member m], rest) := by
  obtain ⟨key, x⟩ := m
  have hText : stringifyMember (key, x) ++ u :: rest =
    34 :: (quoteUnits key ++ 34 :: 58 :: (x.stringify ++ u :: rest)) := by
    simp [stringifyMember, stringifyString]
  rw [hText, parseMembers, expect_self (by decide)]
  change (parseString _).bind _ = _
  rw [parseString_quoteUnits, Option.bind_some]
  dsimp only [bind]
  rw [expect_self (by decide), Option.bind_some, parseValue_stringify hFits hEnds, Option.bind_some]
  dsimp only
  rcases hEnds with rfl | rfl
  · rw [expect_self (by decide), if_pos rfl]
    dsimp only
    cases parseMembers (rounds + 1) rest <;> rfl
  · rw [expect_other (by decide) (by decide), if_neg (by decide), expect_self (by decide)]
    rfl

theorem parseMembers_stringify (hSome : members ≠ []) (hFits : ∀ m ∈ members, m.2.Fits)
    (hRounds : members.length < rounds) :
    parseMembers rounds (stringifyMembers members ++ 125 :: rest) =
      some (members.map member, rest) := by
  induction members generalizing rounds with
  | nil => exact absurd rfl hSome
  | cons m members ih =>
    rw [List.length_cons] at hRounds
    obtain ⟨r, rfl⟩ : ∃ r, rounds = r + 2 := ⟨rounds - 2, by omega⟩
    have hFirst := hFits m (List.mem_cons_self ..)
    cases members with
    | nil =>
      rw [stringifyMembers, parseMembers_member hFirst (.inr rfl), if_neg (by decide)]
      rfl
    | cons m' members =>
      rw [stringifyMembers, List.append_assoc, List.cons_append,
        parseMembers_member hFirst (.inl rfl), if_pos rfl,
        ih (by simp) (fun m hm => hFits m (List.mem_cons_of_mem _ hm)) (by omega)]
      · rfl
      · intro hEmpty
        exact nomatch hEmpty

theorem length_le_stringifyMembers (members : List (JsString × Scalar)) :
    members.length ≤ (stringifyMembers members).length := by
  induction members with
  | nil => exact le_rfl
  | cons m members ih =>
    have hOne : 0 < (stringifyMember m).length := by simp [stringifyMember]
    cases members with
    | nil => exact hOne
    | cons m' members =>
      simp only [stringifyMembers, List.length_append, List.length_cons] at ih ⊢
      omega

theorem parse_stringify (hSome : members ≠ []) (hFits : ∀ m ∈ members, m.2.Fits) :
    parse (stringify members) = some (.object (members.map member)) := by
  have hLength := length_le_stringifyMembers members
  have hFirst : ∃ rest, stringifyMembers members ++ [125] = 34 :: rest := by
    match members, hSome with
    | [m], _ => exact ⟨_, rfl⟩
    | m :: m' :: members, _ => exact ⟨_, rfl⟩
  obtain ⟨rest, hRest⟩ := hFirst
  have hMembers : parseMembers (stringify members).length (stringifyMembers members ++ [125]) =
    some (members.map member, []) :=
    parseMembers_stringify hSome hFits (by simp [stringify]; omega)
  have hValue : parseValue ((stringify members).length + 1) (stringify members) =
    some (.object (members.map member), []) := by
    rw [stringify, parseValue, skipSpace_cons (by decide)]
    dsimp only
    rw [if_neg (by decide), if_pos rfl, hRest, expect_other (by decide) (by decide), ← hRest]
    dsimp only
    rw [← stringify, hMembers]
    rfl
  rw [parse, hValue]
  rfl

theorem get_members (hNames : (members.map Prod.fst).Nodup) (hMem : m ∈ members) :
    (Value.object (members.map member)).get m.1 = some m.2.value := by
  rw [Value.get]
  cases hFound : (members.map member).reverse.find? fun p => p.1 = m.1 with
  | none =>
    have hNone :=
      List.find?_eq_none.1 hFound (member m) (List.mem_reverse.2 (List.mem_map_of_mem hMem))
    exact absurd (decide_eq_true rfl) hNone
  | some p =>
    obtain ⟨m', hMem', rfl⟩ :=
      List.mem_map.1 (List.mem_reverse.1 (List.mem_of_find?_eq_some hFound))
    have hName := List.find?_some hFound
    replace hName : m'.1 = m.1 := of_decide_eq_true hName
    rw [List.inj_on_of_nodup_map hNames hMem' hMem hName]
    rfl

end Pixaeron.Text.Json
