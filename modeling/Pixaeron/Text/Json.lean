import Mathlib.Data.Rat.Floor
import Mathlib.Data.Int.Log
import Mathlib.Data.UInt
import Mathlib.Tactic.Common

/-! # JSON texts

Strings of UTF-16 code units, what JSON.parse makes of one, and what JSON.stringify writes for an
object of strings and numbers.
-/

namespace Pixaeron.Text.Json

abbrev JsString := List UInt16

def ascii (text : String) : JsString := text.toList.map fun c => UInt16.ofNat c.toNat

/-- The code units of a character, two of them beyond the first 65536 characters. -/
def charUnits (c : Char) : JsString :=
  if c.toNat < 0x10000 then [UInt16.ofNat c.toNat]
  else [UInt16.ofNat (0xd800 + (c.toNat - 0x10000) / 0x400),
    UInt16.ofNat (0xdc00 + (c.toNat - 0x10000) % 0x400)]

def utf16 (text : String) : JsString := text.toList.flatMap charUnits

theorem utf16_eq_nil {text : String} : utf16 text = [] ↔ text = "" := by
  rw [utf16, List.flatMap_eq_nil_iff]
  constructor
  · intro h
    have hNone : text.toList = [] := by
      rw [List.eq_nil_iff_forall_not_mem]
      intro c hMem
      have hUnits := h c hMem
      rw [charUnits] at hUnits
      split at hUnits <;> cases hUnits
    exact String.toList_eq_nil_iff.1 hNone
  · rintro rfl c ⟨⟩

/-- A double, less the sign of zero. -/
inductive Number where
  | finite (value : ℚ)
  | infinite (negative : Bool)
  deriving DecidableEq

inductive Value where
  | null
  | bool (b : Bool)
  | number (n : Number)
  | string (s : JsString)
  | array (elements : List Value)
  | object (members : List (JsString × Value))

/-! ## Numbers -/

/-- The nearest integer, the even one of two. -/
def roundHalfEven (x : ℚ) : ℤ :=
  if x - ⌊x⌋ < 1 / 2 then ⌊x⌋
  else if 1 / 2 < x - ⌊x⌋ then ⌊x⌋ + 1
  else if ⌊x⌋ % 2 = 0 then ⌊x⌋ else ⌊x⌋ + 1

/-- The nearest double of a number that is not negative: a significand of 53 bits, or fewer below
the normal numbers. -/
def toDouble (x : ℚ) : Number :=
  if x = 0 then .finite 0
  else
    let exponent := max (Int.log 2 x - 52) (-1074)
    let nearest : ℚ := roundHalfEven (x / 2 ^ exponent) * 2 ^ exponent
    if 2 ^ 1024 ≤ nearest then .infinite false else .finite nearest

def Number.negate : Number → Number
  | .finite value => .finite (-value)
  | .infinite negative => .infinite (!negative)

def isDigit (u : UInt16) : Bool := 48 ≤ u && u ≤ 57

def digitsValue (digits : JsString) : Nat := digits.foldl (fun n u => 10 * n + (u.toNat - 48)) 0

/-- The digits at the start of a text, of which there must be some. -/
def spanDigits (t : JsString) : Option (JsString × JsString) :=
  if (t.takeWhile isDigit).isEmpty then none else some (t.takeWhile isDigit, t.dropWhile isDigit)

/-- Digits without a zero in front of others. -/
def parseInteger (t : JsString) : Option (JsString × JsString) :=
  (spanDigits t).filter fun (digits, _) => digits.head? ≠ some 48 || digits.length = 1

def parseFraction : JsString → Option (JsString × JsString)
  | 46 :: rest => spanDigits rest
  | rest => some ([], rest)

def parseExponentDigits : JsString → Option (ℤ × JsString)
  | 43 :: rest => (spanDigits rest).map fun (digits, rest) => ((digitsValue digits : ℤ), rest)
  | 45 :: rest => (spanDigits rest).map fun (digits, rest) => (-(digitsValue digits : ℤ), rest)
  | rest => (spanDigits rest).map fun (digits, rest) => ((digitsValue digits : ℤ), rest)

def parseExponent : JsString → Option (ℤ × JsString)
  | 101 :: rest => parseExponentDigits rest
  | 69 :: rest => parseExponentDigits rest
  | rest => some (0, rest)

def parseUnsigned (t : JsString) : Option (Number × JsString) := do
  let (whole, t) ← parseInteger t
  let (fraction, t) ← parseFraction t
  let (exponent, t) ← parseExponent t
  pure (toDouble (digitsValue (whole ++ fraction) * 10 ^ (exponent - fraction.length)), t)

def parseNumber : JsString → Option (Number × JsString)
  | 45 :: rest => (parseUnsigned rest).map fun (n, rest) => (n.negate, rest)
  | t => parseUnsigned t

/-! ## Strings -/

def hexValue (u : UInt16) : Option Nat :=
  if 48 ≤ u ∧ u ≤ 57 then some (u.toNat - 48)
  else if 97 ≤ u ∧ u ≤ 102 then some (u.toNat - 87)
  else if 65 ≤ u ∧ u ≤ 70 then some (u.toNat - 55)
  else none

def hexUnit (a b c d : UInt16) : Option UInt16 := do
  pure (UInt16.ofNat (4096 * (← hexValue a) + 256 * (← hexValue b) + 16 * (← hexValue c) +
    (← hexValue d)))

/-- The escapes of one letter. -/
def escapes : List (UInt16 × UInt16) :=
  [(34, 34), (92, 92), (47, 47), (98, 8), (102, 12), (110, 10), (114, 13), (116, 9)]

/-- A string from after its opening quote. -/
def parseString : JsString → Option (JsString × JsString)
  | [] => none
  | u :: rest =>
    if u = 34 then some ([], rest)
    else if u = 92 then
      match rest with
      | 117 :: a :: b :: c :: d :: rest => do
        let unit ← hexUnit a b c d
        let (units, rest) ← parseString rest
        pure (unit :: units, rest)
      | e :: rest => do
        let unit ← escapes.lookup e
        let (units, rest) ← parseString rest
        pure (unit :: units, rest)
      | [] => none
    else if u < 32 then none
    else do
      let (units, rest) ← parseString rest
      pure (u :: units, rest)

/-! ## Values -/

def isSpace (u : UInt16) : Bool := u = 32 || u = 9 || u = 10 || u = 13

def skipSpace (t : JsString) : JsString := t.dropWhile isSpace

def expect (u : UInt16) (t : JsString) : Option JsString :=
  match skipSpace t with
  | v :: rest => if v = u then some rest else none
  | [] => none

def parseWord (t : JsString) : Option (Value × JsString) :=
  if ascii "null" <+: t then some (.null, t.drop 4)
  else if ascii "true" <+: t then some (.bool true, t.drop 4)
  else if ascii "false" <+: t then some (.bool false, t.drop 5)
  else none

mutual

/-- Every value, member and element takes at least one code unit, so as many rounds as there are of
those are enough. -/
def parseValue : Nat → JsString → Option (Value × JsString)
  | 0, _ => none
  | rounds + 1, t =>
    match skipSpace t with
    | [] => none
    | u :: rest =>
      if u = 34 then (parseString rest).map fun (s, rest) => (.string s, rest)
      else if u = 123 then
        match expect 125 rest with
        | some rest => some (.object [], rest)
        | none => (parseMembers rounds rest).map fun (members, rest) => (.object members, rest)
      else if u = 91 then
        match expect 93 rest with
        | some rest => some (.array [], rest)
        | none => (parseElements rounds rest).map fun (elements, rest) => (.array elements, rest)
      else if u = 45 || isDigit u then (parseNumber (u :: rest)).map fun (n, rest) =>
        (.number n, rest)
      else parseWord (u :: rest)

def parseMembers : Nat → JsString → Option (List (JsString × Value) × JsString)
  | 0, _ => none
  | rounds + 1, t => do
    let t ← expect 34 t
    let (key, t) ← parseString t
    let t ← expect 58 t
    let (value, t) ← parseValue rounds t
    match expect 44 t with
    | some t => do
      let (members, t) ← parseMembers rounds t
      pure ((key, value) :: members, t)
    | none => do
      let t ← expect 125 t
      pure ([(key, value)], t)

def parseElements : Nat → JsString → Option (List Value × JsString)
  | 0, _ => none
  | rounds + 1, t => do
    let (value, t) ← parseValue rounds t
    match expect 44 t with
    | some t => do
      let (elements, t) ← parseElements rounds t
      pure (value :: elements, t)
    | none => do
      let t ← expect 93 t
      pure ([value], t)

end

/-- JSON.parse, which is none where it throws. -/
def parse (t : JsString) : Option Value := do
  let (value, rest) ← parseValue (t.length + 1) t
  if skipSpace rest = [] then pure value else none

/-- A property of what was parsed. Of members with one name the last counts. -/
def Value.get (key : JsString) : Value → Option Value
  | .object members => (members.reverse.find? fun m => m.1 = key).map Prod.snd
  | _ => none

/-! ## Writing -/

def hexDigit (n : Nat) : UInt16 := UInt16.ofNat (if n < 10 then 48 + n else 87 + n)

def unicodeEscape (u : UInt16) : JsString :=
  [92, 117, hexDigit (u.toNat / 4096), hexDigit (u.toNat / 256 % 16), hexDigit (u.toNat / 16 % 16),
    hexDigit (u.toNat % 16)]

def isHighSurrogate (u : UInt16) : Bool := 0xd800 ≤ u && u ≤ 0xdbff

def isLowSurrogate (u : UInt16) : Bool := 0xdc00 ≤ u && u ≤ 0xdfff

/-- The letter after the backslash, for the code units that have one. -/
def shortEscapes : List (UInt16 × UInt16) :=
  [(34, 34), (92, 92), (8, 98), (12, 102), (10, 110), (13, 114), (9, 116)]

/-- A code unit that is not one of a pair of surrogates. -/
def quoteUnit (u : UInt16) : JsString :=
  match shortEscapes.lookup u with
  | some letter => [92, letter]
  | none => if u < 32 || isHighSurrogate u || isLowSurrogate u then unicodeEscape u else [u]

def quoteUnits : JsString → JsString
  | [] => []
  | [u] => quoteUnit u
  | u :: v :: rest =>
    if isHighSurrogate u && isLowSurrogate v then u :: v :: quoteUnits rest
      else quoteUnit u ++ quoteUnits (v :: rest)

/-- What may stand in an object that is written. -/
inductive Scalar where
  | null
  | number (n : Nat)
  | string (s : JsString)
  deriving DecidableEq

def Scalar.value : Scalar → Value
  | .null => .null
  | .number n => .number (.finite n)
  | .string s => .string s

def stringifyString (s : JsString) : JsString := 34 :: (quoteUnits s ++ [34])

def Scalar.stringify : Scalar → JsString
  | .null => ascii "null"
  | .number n => (Nat.toDigits 10 n).map fun c => UInt16.ofNat c.toNat
  | .string s => stringifyString s

def stringifyMember (m : JsString × Scalar) : JsString := stringifyString m.1 ++ 58 :: m.2.stringify

def stringifyMembers : List (JsString × Scalar) → JsString
  | [] => []
  | [m] => stringifyMember m
  | m :: rest => stringifyMember m ++ 44 :: stringifyMembers rest

def stringify (members : List (JsString × Scalar)) : JsString :=
  123 :: (stringifyMembers members ++ [125])

end Pixaeron.Text.Json
