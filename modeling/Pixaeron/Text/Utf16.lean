import Pixaeron.Text.JsonGrammar
import Mathlib.Data.Char

/-! # Texts and their code units

Two texts with the same code units are one text, and a list of texts is known from what
JSON.stringify writes for it.
-/

namespace Pixaeron.Text.Json

theorem charUnits_append {c d : Char} {x y : JsString}
    (h : charUnits c ++ x = charUnits d ++ y) : c = d ∧ x = y := by
  have hSame {m n : Nat} (hm : m < 65536) (hn : n < 65536)
    (hUnits : UInt16.ofNat m = UInt16.ofNat n) : m = n := by
    have hNat := congrArg UInt16.toNat hUnits
    rwa [UInt16.toNat_ofNat', UInt16.toNat_ofNat', Nat.mod_eq_of_lt hm, Nat.mod_eq_of_lt hn] at hNat
  have hValid (e : Char) : e.toNat < 0xd800 ∨ 0xdfff < e.toNat ∧ e.toNat < 0x110000 := e.valid
  have hc := hValid c
  have hd := hValid d
  rw [charUnits, charUnits] at h
  split at h
  next hSmall =>
    split at h
    next hSmall' =>
      obtain ⟨hFirst, hRest⟩ := List.cons.inj h
      exact ⟨Char.toNat_inj.mp (hSame hSmall hSmall' hFirst), hRest⟩
    next hLarge' =>
      obtain ⟨hFirst, _⟩ := List.cons.inj h
      have hNat := hSame hSmall (by omega) hFirst
      omega
  next hLarge =>
    split at h
    next hSmall' =>
      obtain ⟨hFirst, _⟩ := List.cons.inj h
      have hNat := hSame (by omega) hSmall' hFirst
      omega
    next hLarge' =>
      obtain ⟨hFirst, hMore⟩ := List.cons.inj h
      obtain ⟨hSecond, hRest⟩ := List.cons.inj hMore
      have hHigh := hSame (by omega) (by omega) hFirst
      have hLow := hSame (by omega) (by omega) hSecond
      exact ⟨Char.toNat_inj.mp (by omega), hRest⟩

theorem utf16_injective : Function.Injective utf16 := by
  intro a b h
  rw [← String.toList_inj]
  rw [utf16, utf16] at h
  generalize a.toList = cs at h
  generalize b.toList = ds at h
  have hSome (c : Char) (cs : List Char) : (c :: cs).flatMap charUnits ≠ [] := by
    rw [List.flatMap_cons]
    intro hNil
    have hUnits := (List.append_eq_nil_iff.mp hNil).1
    rw [charUnits] at hUnits
    split at hUnits <;> cases hUnits
  induction cs generalizing ds with
  | nil =>
    cases ds with
    | nil => rfl
    | cons d ds => exact absurd h.symm (hSome d ds)
  | cons c cs ih =>
    cases ds with
    | nil => exact absurd h (hSome c cs)
    | cons d ds =>
      rw [List.flatMap_cons, List.flatMap_cons] at h
      obtain ⟨rfl, hRest⟩ := charUnits_append h
      rw [ih ds hRest]

/-- JSON.stringify of a list of texts. -/
def stringifyTexts (texts : List JsString) : JsString :=
  (Written.array (texts.map Written.string)).text

theorem stringifyTexts_injective : Function.Injective stringifyTexts := by
  intro a b h
  have hValue : (Written.array (a.map Written.string)).value =
    (Written.array (b.map Written.string)).value := by
    rw [stringifyTexts, stringifyTexts] at h
    exact Option.some.inj (by rw [← Written.parse_text, ← Written.parse_text, h])
  simp only [Written.array, List.map_map, Value.array.injEq] at hValue
  refine List.map_injective_iff.mpr (fun s t hSame => ?_) hValue
  exact Value.string.inj hSame

end Pixaeron.Text.Json
