import Pixaeron.Text.Addresses

/-! # Budgets of anonymous clients

The key that a client without an account is counted under, and the spellings of an address that give
the key of its network. -/

namespace Pixaeron.Conversion.AnonymousIdentity

open Pixaeron.Text

def lower (t : Letters) : Letters := t.map Char.toLower

def normalizeGroup (group : Letters) : Letters := lower (group.leftpad 4 '0')

def mappedStart : Letters := [':', ':', 'f', 'f', 'f', 'f', ':']

def budgetKeyFor (ip : Letters) : Letters :=
  if isIPv4 ip then ip
  else
    let withoutZone := ip.takeWhile (· ≠ '%')
    let embeddedIpv4 := lastPart ':' withoutZone
    if isIPv4 embeddedIpv4 ∧ mappedStart <+: lower withoutZone then embeddedIpv4
    else if ¬ isIPv6 withoutZone then withoutZone
    else
      let pieces := splitDouble ':' withoutZone
      let headGroups := groupsOf (pieces.getD 0 [])
      let tailGroups := groupsOf (pieces.getD 1 [])
      let groups :=
        headGroups ++ List.replicate (8 - headGroups.length - tailGroups.length) ['0'] ++ tailGroups
      join ':' ((groups.take 4).map normalizeGroup)

/-- Four lower-case digits. -/
def groupText (value : Fin 65536) : Letters :=
  [lowerChar ⟨value / 4096, by omega⟩, lowerChar ⟨value / 256 % 16, by omega⟩,
    lowerChar ⟨value / 16 % 16, by omega⟩, lowerChar ⟨value % 16, by omega⟩]

/-- One key for a network: an IPv4 address, also an embedded one, or the first half of an IPv6
address. -/
def canonicalKey (x : IPv6Address) : Letters :=
  match x.mapped? with
  | some q => q.text
  | none => join ':' (x.network.map groupText)

/-- The spelling starts like an embedded IPv4 address, and a dotted quad ends it. -/
def StartsMapped (s : Spelling) : Prop :=
  s.leading = some [] ∧ s.quad.isSome ∧ s.ending.head?.map HexGroup.value = some mappedGroup

/-- The groups before a dotted quad come to stand one place too far right, and a nonzero one of them
among the first four. -/
def ShiftsGroups (s : Spelling) : Prop :=
  s.leading.isSome ∧ s.quad.isSome ∧ ∃ g ∈ s.ending.take (s.ending.length - 2), g.value ≠ zeroGroup

/-- The spellings that the key of the network is found for. -/
def IsStraight (s : Spelling) : Prop :=
  if s.address.mapped?.isSome then StartsMapped s else ¬ StartsMapped s ∧ ¬ ShiftsGroups s

section Groups

theorem lower_leftpad (n : Nat) (t : Letters) :
    lower (t.leftpad n '0') = (lower t).leftpad n '0' := by
  simp [lower, List.leftpad, List.map_append]

theorem lower_text (g : HexGroup) : lower g.text = g.digits.map fun d => lowerChar d.value := by
  rw [lower, HexGroup.text, List.map_map]
  exact List.map_congr_left fun d _ => (char_spec d.value d.upper).2.2.2.2

theorem groupText_inj {v w : Fin 65536} (h : groupText v = groupText w) : v = w := by
  simp only [groupText, List.cons.injEq, and_true] at h
  obtain ⟨h₁, h₂, h₃, h₄⟩ := h
  have e₁ := congrArg Fin.val (lowerChar_inj _ _ h₁)
  have e₂ := congrArg Fin.val (lowerChar_inj _ _ h₂)
  have e₃ := congrArg Fin.val (lowerChar_inj _ _ h₃)
  have e₄ := congrArg Fin.val (lowerChar_inj _ _ h₄)
  simp only at e₁ e₂ e₃ e₄
  omega

theorem groupText_digits {v : Fin 65536} (a b c d : Fin 16)
    (h : v.val = 16 * (16 * (16 * a + b) + c) + d) :
    groupText v = [lowerChar a, lowerChar b, lowerChar c, lowerChar d] := by
  have ha : v.val / 4096 = a := by omega
  have hb : v.val / 256 % 16 = b := by omega
  have hc : v.val / 16 % 16 = c := by omega
  have hd : v.val % 16 = d := by omega
  simp only [groupText, ha, hb, hc, hd, Fin.eta]

theorem normalizeGroup_text (g : HexGroup) : normalizeGroup g.text = groupText g.value := by
  have hValue : g.value.val = valueOf g.digits := rfl
  rw [normalizeGroup, lower_leftpad, lower_text]
  rcases g.cases with ⟨a, h⟩ | ⟨a, b, h⟩ | ⟨a, b, c, h⟩ | ⟨a, b, c, d, h⟩ <;> rw [h] at hValue ⊢
  · rw [groupText_digits 0 0 0 a.value (by simp [hValue, valueOf])]
    rfl
  · rw [groupText_digits 0 0 a.value b.value (by simp [hValue, valueOf])]
    rfl
  · rw [groupText_digits 0 a.value b.value c.value (by simp [hValue, valueOf])]
    rfl
  · rw [groupText_digits a.value b.value c.value d.value (by simp [hValue, valueOf])]
    rfl

theorem normalizeGroup_zero : normalizeGroup ['0'] = groupText 0 := by decide

/-- Groups in front of others stay the same one place further right only where all of them are the
group put in. -/
theorem take_cons_eq_take_iff {a : Fin 65536} {xs : List (Fin 65536)} {k : Nat}
    (h : k ≤ xs.length) :
    (a :: xs).take k = xs.take k ↔ ∀ x ∈ xs.take k, x = a := by
  induction k generalizing a xs with
  | zero => simp
  | succ k ih =>
    cases xs with
    | nil => simp at h
    | cons x xs =>
      rw [List.take_succ_cons, List.take_succ_cons, List.cons.injEq, ih (by simpa using h),
        List.forall_mem_cons]
      constructor
      · rintro ⟨rfl, hRest⟩
        exact ⟨rfl, hRest⟩
      · rintro ⟨rfl, hRest⟩
        exact ⟨rfl, hRest⟩

end Groups

section Spellings

variable (s : Spelling)

theorem colon_mem_text : ':' ∈ s.text := by
  cases s with
  | full groups quad complete =>
    refine sep_mem_join ?_
    cases quad <;> simp [valuesOf, wordsOf, IPv4Address.groups] at complete ⊢ <;> omega
  | compressed head tail quad short => simp [Spelling.text]

theorem percent_notMem_text : '%' ∉ s.text := by
  have hWords : ∀ groups quad, '%' ∉ join ':' (wordsOf groups quad) := by
    intro groups quad h
    rcases mem_join h with hColon | ⟨w, hw, hMem⟩
    · exact absurd hColon (by decide)
    · rcases mem_wordsOf groups quad hw with ⟨g, -, rfl⟩ | ⟨q, -, rfl⟩
      · exact g.plain.2.2 hMem
      · exact q.plain.2.2.1 hMem
  cases s with
  | full groups quad complete => exact hWords groups quad
  | compressed head tail quad short =>
    have hHead := hWords head none
    simp only [wordsOf, Option.map_none, Option.toList_none, List.append_nil] at hHead
    simp [Spelling.text, hHead, hWords tail quad]

theorem not_isIPv4_of_colon {t : Letters} (h : ':' ∈ t) : isIPv4 t = false := by
  rw [Bool.eq_false_iff]
  intro hQuad
  obtain ⟨q, rfl⟩ := isIPv4_iff.1 hQuad
  exact q.plain.2.1 h

theorem takeWhile_text (zone : Option Letters) :
    (s.text ++ (zone.map ('%' :: ·)).getD []).takeWhile (· ≠ '%') = s.text := by
  have hPlain : ∀ c ∈ s.text, decide (c ≠ '%') = true := by
    intro c hc
    rw [decide_eq_true_eq]
    rintro rfl
    exact percent_notMem_text s hc
  rw [List.takeWhile_append_of_pos hPlain]
  cases zone <;> simp

theorem getLast_wordsOf (groups : List HexGroup) (quad : Option IPv4Address) :
    isIPv4 ((wordsOf groups quad).getLast?.getD []) ↔ quad.isSome := by
  cases quad with
  | none =>
    simp only [wordsOf, Option.map_none, Option.toList_none, List.append_nil, List.getLast?_map,
      Option.isSome_none, Bool.false_eq_true, iff_false]
    cases hLast : groups.getLast? with
    | none => decide
    | some g =>
      intro hQuad
      obtain ⟨q, hText⟩ := isIPv4_iff.1 hQuad
      exact g.plain.2.1 (by simpa [← hText] using q.plain.2.2.2)
  | some q => simp [wordsOf, q.isIPv4_text]

theorem lastPart_text : lastPart ':' s.text = (wordsOf s.ending s.quad).getLast?.getD [] := by
  cases s with
  | full groups quad complete =>
    refine lastPart_join (wordsOf_plain groups quad) ?_
    intro hEmpty
    cases quad with
    | none => simp_all [wordsOf, valuesOf]
    | some q => simp [wordsOf] at hEmpty
  | compressed head tail quad short => exact lastPart_double (wordsOf_plain tail quad)

theorem lastPart_quad {q : IPv4Address} (h : s.quad = some q) : lastPart ':' s.text = q.text := by
  rw [lastPart_text, h]
  simp [wordsOf]

theorem lower_join_wordsOf (groups : List HexGroup) (quad : Option IPv4Address) :
    lower (join ':' (wordsOf groups quad)) = join ':' ((wordsOf groups quad).map lower) :=
  map_join Char.toLower

theorem lower_text_iff (g : HexGroup) : lower g.text = ['f', 'f', 'f', 'f'] ↔ g.value = 0xffff := by
  have hNormal := normalizeGroup_text g
  rw [normalizeGroup, lower_leftpad] at hNormal
  have hLast : groupText 0xffff = ['f', 'f', 'f', 'f'] := by decide
  constructor
  · intro hLower
    rw [hLower] at hNormal
    exact groupText_inj (hNormal.symm.trans hLast.symm)
  · intro hValue
    rw [hValue, hLast, List.leftpad] at hNormal
    cases hPad : 4 - (lower g.text).length with
    | zero => simpa [hPad] using hNormal
    | succ n => simp [hPad, List.replicate_succ] at hNormal

theorem toLower_eq_colon {c : Char} (h : c.toLower = ':') : c = ':' := by
  unfold Char.toLower at h
  split at h
  · next hUpper =>
    have hVal := congrArg (fun d : Char => d.val.toNat) h
    have hSmall : c.toNat ≤ 90 := hUpper.2
    have hLarge : 65 ≤ c.toNat := hUpper.1
    simp at hVal
    omega
  · exact h

theorem lower_plain {words : List Letters} (h : Words ':' words) : Words ':' (words.map lower) := by
  intro w hw
  obtain ⟨v, hv, rfl⟩ := List.mem_map.1 hw
  constructor
  · simpa [lower] using (h v hv).1
  · intro hColon
    obtain ⟨c, hc, hLower⟩ := List.mem_map.1 hColon
    exact (h v hv).2 (toLower_eq_colon hLower ▸ hc)

theorem not_mappedStart {words : List Letters} (h : Words ':' words) (hSome : words ≠ [])
    (rest : Letters) :
    ¬ mappedStart <+: join ':' words ++ rest := by
  obtain ⟨w, words, rfl⟩ := List.exists_cons_of_ne_nil hSome
  obtain ⟨c, text, hText, hLetter⟩ := h.join_eq_cons
  rw [hText, List.cons_append, mappedStart, List.cons_prefix_cons]
  rintro ⟨hColon, -⟩
  exact hLetter hColon.symm

/-- The groups that the code counts as eight, without the dotted quad at their end. -/
def keyGroups (s : Spelling) : List (Fin 65536) :=
  s.leading.elim [] (fun head => head.map HexGroup.value ++
    List.replicate (8 - head.length - (wordsOf s.ending s.quad).length) zeroGroup) ++
    s.ending.map HexGroup.value

section Shapes

variable {groups head tail : List HexGroup} {quad : Option IPv4Address}

theorem not_startsMapped_full {complete : (valuesOf groups quad).length = 8} :
    ¬ StartsMapped (.full groups quad complete) := by
  rintro ⟨hLeading, -⟩
  exact nomatch hLeading

theorem startsMapped_compressed {short : head.length + (valuesOf tail quad).length ≤ 7} :
    StartsMapped (.compressed head tail quad short) ↔
    head = [] ∧ quad.isSome ∧ tail.head?.map HexGroup.value = some 0xffff := by
  rw [StartsMapped, Spelling.leading, Option.some.injEq]
  rfl

theorem not_shiftsGroups_full {complete : (valuesOf groups quad).length = 8} :
    ¬ ShiftsGroups (.full groups quad complete) := by
  rintro ⟨hLeading, -⟩
  exact nomatch hLeading

theorem shiftsGroups_compressed {short : head.length + (valuesOf tail quad).length ≤ 7} :
    ShiftsGroups (.compressed head tail quad short) ↔
    quad.isSome ∧ ∃ g ∈ tail.take (tail.length - 2), g.value ≠ 0 := by
  rw [ShiftsGroups, Spelling.leading, Option.isSome_some]
  exact and_iff_right rfl

theorem keyGroups_full {complete : (valuesOf groups quad).length = 8} :
    keyGroups (.full groups quad complete) = groups.map HexGroup.value := rfl

theorem keyGroups_compressed {short : head.length + (valuesOf tail quad).length ≤ 7} :
    keyGroups (.compressed head tail quad short) =
    head.map HexGroup.value ++ List.replicate (8 - head.length - (wordsOf tail quad).length) 0 ++
      tail.map HexGroup.value := rfl

end Shapes

theorem startsMapped_iff : (isIPv4 (lastPart ':' s.text) ∧ mappedStart <+: lower s.text) ↔
    StartsMapped s := by
  rw [lastPart_text, getLast_wordsOf]
  cases s with
  | full groups quad complete =>
    simp only [not_startsMapped_full, iff_false, not_and, Spelling.text, lower_join_wordsOf]
    intro _
    have hSome : (wordsOf groups quad).map lower ≠ [] := by
      cases quad <;> simp [valuesOf, wordsOf, IPv4Address.groups] at complete ⊢
      rintro rfl
      simp at complete
    simpa using not_mappedStart (lower_plain (wordsOf_plain groups quad)) hSome []
  | compressed head tail quad short =>
    have hLower : lower (Spelling.compressed head tail quad short).text =
        join ':' ((head.map HexGroup.text).map lower) ++
          ':' :: ':' :: join ':' ((wordsOf tail quad).map lower) := by
      rw [← lower_join_wordsOf]
      simp only [Spelling.text, lower, List.map_append, List.map_cons, map_join]
      rfl
    rw [hLower]
    cases head with
    | cons g head =>
      have hOther := not_mappedStart (lower_plain (map_text_plain (g :: head))) (by simp)
        (':' :: ':' :: join ':' ((wordsOf tail quad).map lower))
      simp only [startsMapped_compressed, reduceCtorEq, false_and, iff_false, not_and]
      exact fun _ => hOther
    | nil =>
      have hStart : mappedStart <+: join ':'
        (([] : List HexGroup).map HexGroup.text |>.map lower) ++
        ':' :: ':' :: join ':' ((wordsOf tail quad).map lower) ↔
          ['f', 'f', 'f', 'f'] ++ [':'] <+: join ':' ((wordsOf tail quad).map lower) := by
        simp [mappedStart, List.cons_prefix_cons]
      rw [hStart]
      simp only [startsMapped_compressed, true_and, Spelling.quad]
      refine and_congr_right fun hQuad => ?_
      obtain ⟨q, rfl⟩ := Option.isSome_iff_exists.1 hQuad
      have hPlain := lower_plain (wordsOf_plain tail (some q))
      cases tail with
      | nil =>
        simp only [wordsOf, List.map_nil, List.nil_append, Option.map_some, Option.toList_some,
          List.map_cons, join_singleton, List.head?_nil, Option.map_none, reduceCtorEq, iff_false]
        intro hPrefix
        exact (hPlain (lower q.text) (by simp [wordsOf])).2 (hPrefix.subset (by simp))
      | cons g tail =>
        have hMore : (wordsOf tail (some q)).map lower ≠ [] := by simp [wordsOf]
        have hWords : (wordsOf (g :: tail) (some q)).map lower =
          lower g.text :: (wordsOf tail (some q)).map lower := rfl
        rw [hWords] at hPlain ⊢
        rw [prefix_join_iff (by decide) hPlain hMore, lower_text_iff]
        simp

theorem four_le_keyGroups : 4 ≤ (keyGroups s).length := by
  cases s with
  | full groups quad complete =>
    cases quad <;> simp [valuesOf, keyGroups_full, IPv4Address.groups] at complete ⊢ <;> omega
  | compressed head tail quad short =>
    cases quad <;> simp [valuesOf, wordsOf, keyGroups_compressed, IPv4Address.groups] at short ⊢
      <;> omega

theorem normalizeGroup_take (before groups : List HexGroup) (n : Nat) (rest : List Letters)
    (hFour : 4 ≤ before.length + n + groups.length) :
    ((before.map HexGroup.text ++ List.replicate n ['0'] ++ (groups.map HexGroup.text ++ rest)).take
      4).map normalizeGroup =
      ((before.map HexGroup.value ++ List.replicate n 0 ++ groups.map HexGroup.value).take 4).map
        groupText := by
  have hGroups : ∀ groups : List HexGroup, (groups.map HexGroup.text).map normalizeGroup =
    (groups.map HexGroup.value).map groupText := by
    intro groups
    rw [List.map_map, List.map_map]
    exact List.map_congr_left fun g _ => normalizeGroup_text g
  have hZeros : (List.replicate n ['0']).map normalizeGroup =
    (List.replicate n (0 : Fin 65536)).map groupText := by
    rw [List.map_replicate, List.map_replicate, normalizeGroup_zero]
  rw [← List.append_assoc, List.take_append_of_le_length (by simpa [Nat.add_assoc] using hFour),
    List.map_take, List.map_append, List.map_append, hGroups, hGroups, hZeros, ← List.map_append,
    ← List.map_append, List.map_take]

theorem budgetKeyFor_of_startsMapped {ip : Letters} (hColon : isIPv4 ip = false)
    (hZone : ip.takeWhile (· ≠ '%') = s.text) (hStarts : StartsMapped s) :
    budgetKeyFor ip = lastPart ':' s.text := by
  simp only [budgetKeyFor, hColon, hZone, (startsMapped_iff s).2 hStarts, Bool.false_eq_true,
    if_false, if_true, and_self]

theorem budgetKeyFor_of_not_startsMapped {ip : Letters} (hColon : isIPv4 ip = false)
    (hZone : ip.takeWhile (· ≠ '%') = s.text) (hStarts : ¬ StartsMapped s) :
    budgetKeyFor ip = join ':' (((keyGroups s).take 4).map groupText) := by
  have hTest := mt (startsMapped_iff s).1 hStarts
  simp only [budgetKeyFor, hColon, hZone, if_neg hTest, s.isIPv6_text, Bool.false_eq_true,
    if_false, not_true]
  congr 1
  have hFour := four_le_keyGroups s
  cases s with
  | full groups quad complete =>
    have hTake :=
      normalizeGroup_take [] groups 0 ((quad.map IPv4Address.text).toList ++
        List.replicate (8 - (wordsOf groups quad).length) ['0'])
      (by simpa [keyGroups_full] using hFour)
    have hNone : groupsOf [] = [] := rfl
    rw [Spelling.text, splitDouble_full]
    simp only [List.getD_cons_zero, List.getD_cons_succ, List.getD_nil,
      groupsOf_join (wordsOf_plain groups quad), hNone]
    simpa [keyGroups_full, wordsOf] using hTake
  | compressed head tail quad short =>
    have hTake :=
      normalizeGroup_take head tail (8 - head.length - (wordsOf tail quad).length)
        ((quad.map IPv4Address.text).toList)
      (by simpa [keyGroups_compressed, Nat.add_assoc] using hFour)
    rw [Spelling.text, splitDouble_compressed]
    simp only [List.getD_cons_zero, List.getD_cons_succ, groupsOf_join (wordsOf_plain tail quad),
      groupsOf_join (map_text_plain head)]
    simpa [keyGroups_compressed, wordsOf] using hTake

theorem keyGroups_iff : (keyGroups s).take 4 = s.address.network ↔ ¬ ShiftsGroups s := by
  cases s with
  | full groups quad complete =>
    have hFour := four_le_keyGroups (.full groups quad complete)
    simp only [not_shiftsGroups_full, not_false_eq_true, iff_true]
    exact (List.take_append_of_le_length hFour).symm
  | compressed head tail quad short =>
    cases quad with
    | none =>
      simp [shiftsGroups_compressed, keyGroups_compressed, IPv6Address.network, Spelling.address,
        Spelling.groups, valuesOf, wordsOf]
    | some q =>
      have hQuad : (valuesOf tail (some q)).length = tail.length + 2 := by
        simp [valuesOf, IPv4Address.groups]
      have hShort : head.length + (tail.length + 2) ≤ 7 := hQuad ▸ short
      -- what stands before the groups of the tail, the zero that the code puts in left out
      obtain ⟨before, hBefore⟩ : ∃ before, before =
        head.map HexGroup.value ++ List.replicate (6 - head.length - tail.length) 0 := ⟨_, rfl⟩
      have hLength : 4 - before.length = tail.length - 2 := by
        rw [hBefore, List.length_append, List.length_map, List.length_replicate]
        omega
      have hKey : keyGroups (.compressed head tail (some q) short) =
        before ++ 0 :: tail.map HexGroup.value := by
        have hCount : 8 - head.length - (wordsOf tail (some q)).length =
          6 - head.length - tail.length + 1 := by
          simp [wordsOf]
          omega
        rw [keyGroups_compressed, hCount, List.replicate_succ', hBefore]
        simp
      have hNetwork : (Spelling.compressed head tail (some q) short).address.network =
          (before ++ (tail.map HexGroup.value ++ q.groups)).take 4 := by
        have hCount : 8 - head.length - (tail.length + 2) = 6 - head.length - tail.length := by
          omega
        simp only [IPv6Address.network, Spelling.address, Spelling.groups, hQuad, hCount, hBefore]
        rfl
      rw [hKey, hNetwork, List.take_append, List.take_append, List.append_cancel_left_eq, hLength,
        List.take_append_of_le_length (by simp), take_cons_eq_take_iff (by simp)]
      simp [shiftsGroups_compressed, ← List.map_take]

theorem quadOf_groups (q : IPv4Address) : quadOf (q.groups.getD 0 0) (q.groups.getD 1 0) = q := by
  obtain ⟨a, b, c, d⟩ := q
  simp only [quadOf, IPv4Address.groups, List.getD_cons_zero, List.getD_cons_succ,
    IPv4Address.mk.injEq, Fin.ext_iff]
  refine ⟨?_, ?_, ?_, ?_⟩ <;> omega

/-- The dotted quad of a spelling that starts like an embedded address is the address where it is
embedded. -/
theorem quad_of_mapped {r : IPv4Address} (hStarts : StartsMapped s)
    (hMapped : s.address.mapped? = some r) : s.quad = some r := by
  cases s with
  | full groups quad complete => exact absurd hStarts not_startsMapped_full
  | compressed head tail quad short =>
    obtain ⟨rfl, hQuad, hFirst⟩ := startsMapped_compressed.1 hStarts
    obtain ⟨q, rfl⟩ := Option.isSome_iff_exists.1 hQuad
    have hLength : (valuesOf tail (some q)).length = tail.length + 2 := by
      simp [valuesOf, IPv4Address.groups]
    have hShort : tail.length + 2 ≤ 7 := by
      rw [hLength, List.length_nil] at short
      omega
    have hGroups : (Spelling.compressed [] tail (some q) short).address.groups =
        List.replicate (6 - tail.length) 0 ++ (tail.map HexGroup.value ++ q.groups) := by
      have hCount : 8 - 0 - (tail.length + 2) = 6 - tail.length := by omega
      simp [Spelling.address, Spelling.groups, valuesOf, IPv4Address.groups, hCount]
    rw [IPv6Address.mapped?, hGroups, Option.ite_none_right_eq_some] at hMapped
    obtain ⟨hPrefix, hRest⟩ := hMapped
    -- the group of ones is the sixth of the address, and so the only one before the dotted quad
    obtain ⟨g, rest, rfl⟩ : ∃ g rest, tail = g :: rest :=
      List.exists_cons_of_ne_nil (by rintro rfl; simp at hFirst)
    cases rest with
    | nil =>
      rw [Spelling.quad, ← Option.some.inj hRest]
      exact congrArg some (quadOf_groups q).symm
    | cons g' rest =>
      simp only [List.length_cons] at hShort
      have hFirst : g.value = 0xffff := by simpa using hFirst
      have hAt := congrArg (fun l => l[6 - (g :: g' :: rest).length]?) hPrefix
      have hBelow : 6 - (g :: g' :: rest).length < 6 := by
        simp only [List.length_cons]
        omega
      simp only [List.getElem?_take_of_lt hBelow] at hAt
      rw [List.getElem?_append_right (by simp), List.length_replicate, Nat.sub_self, List.map_cons,
        List.cons_append, List.getElem?_cons_zero, hFirst] at hAt
      simp only [List.length_cons] at hAt
      obtain ⟨k, hk, hPlace⟩ : ∃ k, k < 5 ∧ 6 - (rest.length + 1 + 1) = k := ⟨_, by omega, rfl⟩
      rw [hPlace] at hAt
      interval_cases k <;> simp at hAt

theorem colon_mem_network (values : List (Fin 65536)) (h : 2 ≤ values.length) :
    ':' ∈ join ':' (values.map groupText) :=
  sep_mem_join (by simpa using h)

theorem groupText_words (values : List (Fin 65536)) : Words ':' (values.map groupText) := by
  have hDigit : ∀ d : Fin 16, ':' ≠ lowerChar d := by decide +kernel
  intro w hw
  obtain ⟨v, -, rfl⟩ := List.mem_map.1 hw
  simp [groupText, hDigit]

theorem join_groupText_inj {values others : List (Fin 65536)} (h : values.length = 4)
    (hOther : others.length = 4)
    (hSame : join ':' (values.map groupText) = join ':' (others.map groupText)) :
    values = others := by
  have hWords :=
    join_inj (groupText_words values) (groupText_words others) (by rintro hNil; simp_all)
      (by rintro hNil; simp_all) hSame
  exact List.map_injective_iff.2 (fun _ _ => groupText_inj) hWords

theorem network_length (x : IPv6Address) : x.network.length = 4 := by
  simp [IPv6Address.network, x.complete]

theorem canonicalKey_of_none {x : IPv6Address} (h : x.mapped? = none) :
    canonicalKey x = join ':' (x.network.map groupText) := by
  simp [canonicalKey, h]

theorem canonicalKey_of_some {x : IPv6Address} {q : IPv4Address} (h : x.mapped? = some q) :
    canonicalKey x = q.text := by
  simp [canonicalKey, h]

theorem budgetKeyFor_quad (q : IPv4Address) : budgetKeyFor q.text = q.text := by
  simp [budgetKeyFor, q.isIPv4_text]

theorem quad_ne_join (q : IPv4Address) {values : List (Fin 65536)} (h : 2 ≤ values.length) :
    q.text ≠ join ':' (values.map groupText) := by
  intro hSame
  exact q.plain.2.1 (hSame ▸ colon_mem_network values h)

theorem budgetKeyFor_eq_canonicalKey_iff (zone : Option Letters) :
    budgetKeyFor (s.text ++ (zone.map ('%' :: ·)).getD []) = canonicalKey s.address ↔
      IsStraight s := by
  have hColon : isIPv4 (s.text ++ (zone.map ('%' :: ·)).getD []) = false :=
    not_isIPv4_of_colon (List.mem_append_left _ (colon_mem_text s))
  have hZone := takeWhile_text s zone
  have hLength := network_length s.address
  by_cases hStarts : StartsMapped s
  · obtain ⟨r, hQuad⟩ : ∃ r, s.quad = some r := by
      cases s with
      | full groups quad complete => exact absurd hStarts not_startsMapped_full
      | compressed head tail quad short => exact Option.isSome_iff_exists.1 hStarts.2.1
    rw [budgetKeyFor_of_startsMapped s hColon hZone hStarts, lastPart_quad s hQuad]
    cases hMapped : s.address.mapped? with
    | some q =>
      have hSame : q = r := Option.some.inj ((quad_of_mapped s hStarts hMapped).symm.trans hQuad)
      simp [canonicalKey_of_some hMapped, IsStraight, hMapped, hStarts, hSame]
    | none =>
      have hOther : r.text ≠ join ':' (s.address.network.map groupText) := quad_ne_join r (by omega)
      simp [canonicalKey_of_none hMapped, IsStraight, hMapped, hStarts, hOther]
  · have hFour : ((keyGroups s).take 4).length = 4 := by simpa using four_le_keyGroups s
    rw [budgetKeyFor_of_not_startsMapped s hColon hZone hStarts]
    cases hMapped : s.address.mapped? with
    | some q =>
      have hOther : q.text ≠ join ':' (((keyGroups s).take 4).map groupText) :=
        quad_ne_join q (by omega)
      simp only [canonicalKey_of_some hMapped, IsStraight, hMapped, hStarts, hOther.symm,
        Option.isSome_some, if_true]
    | none =>
      rw [canonicalKey_of_none hMapped, IsStraight, hMapped, ← keyGroups_iff]
      constructor
      · intro hSame
        exact ⟨hStarts, join_groupText_inj hFour hLength hSame⟩
      · rintro ⟨-, hSame⟩
        rw [hSame]

end Spellings

section Plain

/-- A group in four lower-case digits. -/
def spell (v : Fin 65536) : HexGroup where
  digits :=
    [⟨⟨v / 4096, by omega⟩, false⟩, ⟨⟨v / 256 % 16, by omega⟩, false⟩,
      ⟨⟨v / 16 % 16, by omega⟩, false⟩, ⟨⟨v % 16, by omega⟩, false⟩]
  some := List.cons_ne_nil _ _
  fits := by simp

theorem value_spell (v : Fin 65536) : (spell v).value = v := by
  apply Fin.ext
  simp [spell, HexGroup.value, valueOf]
  omega

theorem map_value_spell (values : List (Fin 65536)) :
    (values.map spell).map HexGroup.value = values := by
  simp [Function.comp_def, value_spell]

theorem drop_six {α : Type} {a : α} {groups : List α} (h : groups.length = 8) :
    groups.drop 6 = [groups.getD 6 a, groups.getD 7 a] := by
  match groups, h with
  | [_, _, _, _, _, _, _, _], _ => rfl

theorem groups_quadOf (high low : Fin 65536) : (quadOf high low).groups = [high, low] := by
  simp only [quadOf, IPv4Address.groups, List.cons.injEq, Fin.ext_iff, and_true]
  constructor <;> omega

theorem exists_isStraight (x : IPv6Address) : ∃ s : Spelling, s.address = x ∧ IsStraight s := by
  cases hMapped : x.mapped? with
  | none =>
    have hComplete : (valuesOf (x.groups.map spell) none).length = 8 := by
      simp [valuesOf, x.complete]
    have hAddress : (Spelling.full (x.groups.map spell) none hComplete).address = x := by
      apply IPv6Address.ext
      simp only [Spelling.address, Spelling.groups, valuesOf, map_value_spell, Option.map_none,
        Option.getD_none, List.append_nil]
    refine ⟨.full (x.groups.map spell) none hComplete, hAddress, ?_⟩
    simp [IsStraight, hAddress, hMapped, not_startsMapped_full, not_shiftsGroups_full]
  | some q =>
    have hShort : ([] : List HexGroup).length + (valuesOf [spell 0xffff] (some q)).length ≤ 7 := by
      simp [valuesOf, IPv4Address.groups]
    have hAddress : (Spelling.compressed [] [spell 0xffff] (some q) hShort).address = x := by
      rw [IPv6Address.mapped?, Option.ite_none_right_eq_some] at hMapped
      obtain ⟨hPrefix, hQuad⟩ := hMapped
      apply IPv6Address.ext
      rw [← List.take_append_drop 6 x.groups, hPrefix, @drop_six _ 0 _ x.complete,
        ← groups_quadOf (x.groups.getD 6 0), Option.some.inj hQuad]
      simp only [Spelling.address, Spelling.groups, valuesOf, List.map_cons, List.map_nil,
        value_spell, Option.map_some, Option.getD_some]
      rfl
    refine ⟨.compressed [] [spell 0xffff] (some q) hShort, hAddress, ?_⟩
    simp [IsStraight, hAddress, hMapped, startsMapped_compressed, value_spell]

end Plain

/-- A spelling gives the key of its network exactly where it is straight: where `::ffff:` before a
dotted quad and an address that embeds an IPv4 address go together, and no nonzero group is shifted.
Straight spellings of one address agree, and only those of one network do. -/
theorem budgetKeyFor_canonical_iff (s : Spelling) (zone : Option Letters) :
    (budgetKeyFor (s.text ++ (zone.map ('%' :: ·)).getD []) = canonicalKey s.address ↔
      IsStraight s) ∧
    ((∀ t : Spelling, t.address = s.address → IsStraight t →
      budgetKeyFor s.text = budgetKeyFor t.text) ↔ IsStraight s) ∧
    (∀ q, s.address.mapped? = some q → (budgetKeyFor s.text = budgetKeyFor q.text ↔ IsStraight s)) ∧
    (∀ q r : IPv4Address, budgetKeyFor q.text = budgetKeyFor r.text → q = r) ∧
    (∀ t : Spelling, IsStraight s → IsStraight t → s.address.mapped? = none →
      t.address.mapped? = none →
      budgetKeyFor s.text = budgetKeyFor t.text → s.address.network = t.address.network) ∧
    (∀ t, isIPv4 t ↔ ∃ q : IPv4Address, t = q.text) ∧
    ∀ t, isIPv6 t ↔ ∃ s : Spelling, t = s.text := by
  have hKey : ∀ s : Spelling, budgetKeyFor s.text = canonicalKey s.address ↔ IsStraight s := by
    intro s
    simpa using budgetKeyFor_eq_canonicalKey_iff s none
  refine ⟨budgetKeyFor_eq_canonicalKey_iff s zone, ?_, ?_, ?_, ?_, fun t => isIPv4_iff,
    fun t => isIPv6_iff⟩
  · constructor
    · intro hAgree
      obtain ⟨t, hAddress, hStraight⟩ := exists_isStraight s.address
      rw [← hKey, hAgree t hAddress hStraight, (hKey t).2 hStraight, hAddress]
    · intro hStraight t hAddress hOther
      rw [(hKey s).2 hStraight, (hKey t).2 hOther, hAddress]
  · intro q hMapped
    rw [budgetKeyFor_quad, ← hKey, canonicalKey_of_some hMapped]
  · intro q r hSame
    rw [budgetKeyFor_quad, budgetKeyFor_quad] at hSame
    exact IPv4Address.text_inj hSame
  · intro t hStraight hOther hMapped hMapped' hSame
    rw [(hKey s).2 hStraight, (hKey t).2 hOther, canonicalKey_of_none hMapped,
      canonicalKey_of_none hMapped'] at hSame
    exact join_groupText_inj (network_length s.address) (network_length t.address) hSame

theorem zero_octet : 0 < 256 := by decide

theorem ten_octet : 10 < 256 := by decide

/-- `203.0.113.10` -/
def documentationQuad : IPv4Address :=
  ⟨⟨203, by decide⟩, ⟨0, zero_octet⟩, ⟨113, by decide⟩, ⟨10, ten_octet⟩⟩

theorem dotted_short : 0 + (valuesOf [spell mappedGroup] (some documentationQuad)).length ≤ 7 := by
  decide

theorem hex_short :
    0 + (valuesOf [spell mappedGroup, spell ⟨0xcb00, by decide⟩,
      spell ⟨0x710a, by decide⟩] none).length ≤ 7 := by decide

/-- `::ffff:203.0.113.10` -/
def dottedSpelling : Spelling :=
  .compressed [] [spell mappedGroup] (some documentationQuad) dotted_short

/-- `::ffff:cb00:710a`, the same address -/
def hexSpelling : Spelling :=
  .compressed [] [spell mappedGroup, spell ⟨0xcb00, by decide⟩,
    spell ⟨0x710a, by decide⟩] none hex_short

theorem dottedSpelling_key :
    budgetKeyFor dottedSpelling.text = budgetKeyFor (documentationQuad.text) :=
  ((budgetKeyFor_canonical_iff dottedSpelling none).2.2.1 documentationQuad (by decide +kernel)).2
    (by
    have hMapped : dottedSpelling.address.mapped?.isSome = true := by decide +kernel
    rw [IsStraight, if_pos hMapped]
    exact ⟨rfl, rfl, by decide⟩)

theorem hexSpelling_key : hexSpelling.address = dottedSpelling.address ∧
    hexSpelling.address.mapped? = some documentationQuad ∧
    budgetKeyFor hexSpelling.text = "0000:0000:0000:0000".toList ∧
    budgetKeyFor (documentationQuad.text) = "203.0.113.10".toList ∧
    ¬ ∀ s t : Spelling, s.address = t.address → budgetKeyFor s.text = budgetKeyFor t.text := by
  have hAddress : hexSpelling.address = dottedSpelling.address := by decide +kernel
  have hKey : budgetKeyFor hexSpelling.text = "0000:0000:0000:0000".toList := by decide +kernel
  have hQuad : budgetKeyFor (documentationQuad.text) = "203.0.113.10".toList := by decide +kernel
  refine ⟨hAddress, by decide +kernel, hKey, hQuad, ?_⟩
  intro hSame
  have hDotted : budgetKeyFor dottedSpelling.text = "203.0.113.10".toList := by decide +kernel
  have hBoth := hSame hexSpelling dottedSpelling hAddress
  rw [hKey, hDotted] at hBoth
  exact absurd hBoth (by decide +kernel)

end Pixaeron.Conversion.AnonymousIdentity
