import Mathlib.Order.Nat
import Pixaeron.Transactions.Soundness

/-! # Ledgers

The committed rows change only by entries of the history. A ledger says which entries are legal
and which of them the holder of a row lock tolerates; what is preserved by every legal entry is
then an invariant, and what is preserved by every tolerated entry is stable while the lock is held.
-/

namespace Pixaeron.Transactions

variable {V : Vocabulary} {κ : Type}

/-- Legal entries, one after the other, lead from one committed state to another. -/
inductive Path (Legal : Entry V κ → Prop) : V.Db → Nat → List (Entry V κ) → V.Db → Nat → Prop
  | rest {db : V.Db} {t t' : Nat} : t ≤ t' → Path Legal db t [] db t'
  | commit {t : Nat} {e : Entry V κ} {entries : List (Entry V κ)} {db' : V.Db} {t' : Nat} :
    t ≤ e.endedAt → Legal e → Path Legal e.after e.endedAt entries db' t' →
      Path Legal e.before t (e :: entries) db' t'

namespace Path

variable {Legal : Entry V κ → Prop} {db db' db'' : V.Db} {t t' t'' : Nat}
  {es es' : List (Entry V κ)}

theorem now_le (h : Path Legal db t es db' t') : t ≤ t' := by
  induction h with
  | rest hTime => exact hTime
  | commit hTime _ _ ih => exact hTime.trans ih

theorem later (h : Path Legal db t es db' t') (hTime : t' ≤ t'') : Path Legal db t es db' t'' := by
  induction h with
  | rest hSoFar => exact .rest (hSoFar.trans hTime)
  | commit hSoFar hLegal _ ih => exact .commit hSoFar hLegal (ih hTime)

theorem sooner (h : Path Legal db t' es db' t'') (hTime : t ≤ t') : Path Legal db t es db' t'' := by
  cases h with
  | rest hSoFar => exact .rest (hTime.trans hSoFar)
  | commit hSoFar hLegal hRest => exact .commit (hTime.trans hSoFar) hLegal hRest

theorem append (h : Path Legal db t es db' t') (h' : Path Legal db' t' es' db'' t'') :
    Path Legal db t (es ++ es') db'' t'' := by
  induction h with
  | rest hTime => exact h'.sooner hTime
  | commit hTime hLegal _ ih => exact .commit hTime hLegal (ih h')

theorem single {e : Entry V κ} (hBefore : e.before = db) (hEnded : e.endedAt = t)
    (hLegal : Legal e) :
    Path Legal db t [e] e.after t := by
  subst hBefore hEnded
  exact .commit le_rfl hLegal (.rest le_rfl)

theorem legal (h : Path Legal db t es db' t') : ∀ e ∈ es, Legal e := by
  induction h with
  | rest _ => exact fun e he => by cases he
  | commit _ hLegal _ ih =>
    intro e he
    rcases List.mem_cons.mp he with rfl | hRest
    · exact hLegal
    · exact ih e hRest

theorem endedAt (h : Path Legal db t es db' t') : ∀ e ∈ es, t ≤ e.endedAt ∧ e.endedAt ≤ t' := by
  induction h with
  | rest _ => exact fun e he => by cases he
  | commit hTime _ hNext ih =>
    intro e he
    rcases List.mem_cons.mp he with rfl | hRest
    · exact ⟨hTime, hNext.now_le⟩
    · exact ⟨hTime.trans (ih e hRest).1, (ih e hRest).2⟩

theorem split (h : Path Legal db t (es ++ es') db'' t'') :
    ∃ db' t', Path Legal db t es db' t' ∧ Path Legal db' t' es' db'' t'' := by
  induction es generalizing db t with
  | nil => exact ⟨db, t, .rest le_rfl, h⟩
  | cons e rest ih =>
    cases h with
    | commit hTime hLegal hRest =>
      obtain ⟨db', t', hFirst, hLast⟩ := ih hRest
      exact ⟨db', t', .commit hTime hLegal hFirst, hLast⟩

theorem of_cons {e : Entry V κ} (h : Path Legal db t (e :: es) db' t') :
    e.before = db ∧ t ≤ e.endedAt ∧ Legal e ∧ Path Legal e.after e.endedAt es db' t' := by
  cases h with
  | commit hTime hLegal hRest => exact ⟨rfl, hTime, hLegal, hRest⟩

theorem of_nil (h : Path Legal db t [] db' t') : db' = db := by
  cases h
  rfl

theorem around {e : Entry V κ} (h : Path Legal db t (es ++ e :: es') db'' t'') :
    (∃ t', Path Legal db t es e.before t') ∧ Legal e ∧
    Path Legal e.after e.endedAt es' db'' t'' := by
  obtain ⟨middle, t', hFirst, hRest⟩ := h.split
  obtain ⟨rfl, _, hLegal, hLast⟩ := hRest.of_cons
  exact ⟨⟨t', hFirst⟩, hLegal, hLast⟩

theorem between {e e' : Entry V κ} (h : Path Legal db t es db'' t'') (hBoth : [e, e'].Sublist es) :
    ∃ first middle last, (∃ t', Path Legal db t first e.before t') ∧ Legal e ∧
      (∃ t', Path Legal e.after e.endedAt middle e'.before t') ∧ Legal e' ∧
      Path Legal e'.after e'.endedAt last db'' t'' := by
  obtain ⟨head, tail, rfl, he, hTail⟩ := List.cons_sublist_iff.mp hBoth
  obtain ⟨first, middle, rfl⟩ := List.append_of_mem he
  obtain ⟨middle', last, rfl⟩ := List.append_of_mem (List.singleton_sublist.mp hTail)
  rw [List.append_assoc, List.cons_append] at h
  obtain ⟨hFirst, hLegal, hAfter⟩ := h.around
  rw [← List.append_assoc] at hAfter
  obtain ⟨hMiddle, hLegal', hLast⟩ := hAfter.around
  exact ⟨first, middle ++ middle', last, hFirst, hLegal, hMiddle, hLegal', hLast⟩

theorem preserves {P : V.Db → Nat → Prop} (h : Path Legal db t es db' t')
    (hTime : ∀ db t t', t ≤ t' → P db t → P db t')
    (hStep : ∀ e ∈ es, Legal e → P e.before e.endedAt → P e.after e.endedAt) (hStart : P db t) :
    P db' t' := by
  induction h with
  | rest hLe => exact hTime _ _ _ hLe hStart
  | @commit t e entries db' t' hLe hLegal _ ih =>
    refine ih (fun e' he' => hStep e' (List.mem_cons_of_mem _ he')) ?_
    exact hStep e List.mem_cons_self hLegal (hTime _ _ _ hLe hStart)

/-- As above, for what also depends on the entries so far. -/
theorem recorded {P : List (Entry V κ) → V.Db → Nat → Prop} {past : List (Entry V κ)}
    (h : Path Legal db t es db' t') (hTime : ∀ past db t t', t ≤ t' → P past db t → P past db t')
    (hStep : ∀ past, ∀ e ∈ es, Legal e → P past e.before e.endedAt →
      P (past ++ [e]) e.after e.endedAt) (hStart : P past db t) : P (past ++ es) db' t' := by
  induction h generalizing past with
  | rest hLe =>
    rw [List.append_nil]
    exact hTime _ _ _ _ hLe hStart
  | @commit t e entries db' t' hLe hLegal _ ih =>
    rw [List.append_cons]
    refine ih (fun past' e' he' => hStep past' e' (List.mem_cons_of_mem _ he')) ?_
    exact hStep past e List.mem_cons_self hLegal (hTime _ _ _ _ hLe hStart)

theorem mono {Legal' : Entry V κ → Prop} (h : Path Legal db t es db' t')
    (hAll : ∀ e ∈ es, Legal' e) :
    Path Legal' db t es db' t' := by
  induction h with
  | rest hTime => exact .rest hTime
  | commit hTime _ _ ih =>
    exact .commit hTime (hAll _ List.mem_cons_self) (ih fun e he =>
      hAll e (List.mem_cons_of_mem _ he))

theorem all {Q : V.Db → Prop} {R : Entry V κ → Prop} (h : Path Legal db t es db' t')
    (hStep : ∀ e, Legal e → Q e.before → Q e.after ∧ R e) (hStart : Q db) : ∀ e ∈ es, R e := by
  induction h with
  | rest _ => exact fun e he => by cases he
  | commit _ hLegal _ ih =>
    obtain ⟨hAfter, hHere⟩ := hStep _ hLegal hStart
    intro e he
    rcases List.mem_cons.mp he with rfl | hRest
    · exact hHere
    · exact ih hAfter e hRest

/-- `Q e` is what an entry `e` leaves behind for good, and `R e e'` what follows about any later
one. -/
theorem pairwise {Q : Entry V κ → V.Db → Prop} {R : Entry V κ → Entry V κ → Prop}
    (h : Path Legal db t es db' t') (hAfter : ∀ e, Legal e → Q e e.after)
    (hStep : ∀ e e', Legal e → Legal e' → Q e e'.before → Q e e'.after ∧ R e e') :
    es.Pairwise R := by
  induction h with
  | rest _ => exact .nil
  | commit _ hLegal hRest ih =>
    exact .cons (hRest.all (fun e' hLegal' => hStep _ e' hLegal hLegal') (hAfter _ hLegal)) ih

end Path

/-- The entries that lead from one shared state to another. -/
def Since (Legal : Entry V κ → Prop) (s s' : Shared V κ) (es : List (Entry V κ)) : Prop :=
  s'.history = s.history ++ es ∧ Path Legal s.db s.now es s'.db s'.now

/-- What a system records and how far its parts spare the rows others have locked. `Moves` says
how the other systems change, `Spares` how they change while a row is locked, and `Traffic` ties
them to the rows. -/
structure Ledger (V : Vocabulary) (κ : Type) where
  genesis : V.Db
  Legal : Entry V κ → Prop
  Respects : V.Res → Entry V κ → Prop
  Moves : V.Ext → V.Ext → Prop
  Spares : V.Res → Shared V κ → Shared V κ → Prop
  Traffic : Shared V κ → Prop
  Free : V.Res → Shared V κ → Prop
  Assume : Entry V κ → Prop
  moves_refl : ∀ x, Moves x x
  moves_trans : ∀ x y z, Moves x y → Moves y z → Moves x z
  spares_refl : ∀ r s, Spares r s s
  spares_trans : ∀ r s₁ s₂ s₃ es, Since Legal s₁ s₂ es → (∀ e ∈ es, Respects r e) →
    Spares r s₁ s₂ → Spares r s₂ s₃ → Spares r s₁ s₃

namespace Ledger

variable (L : Ledger V κ)

/-- A committed state that legal entries lead to. -/
def Reached (db : V.Db) (t : Nat) : Prop := ∃ es, Path L.Legal L.genesis 0 es db t

def Sound (s : Shared V κ) : Prop := Path L.Legal L.genesis 0 s.history s.db s.now ∧ L.Traffic s

def discipline : Discipline V κ where
  Inv := L.Sound
  Evolves s s' := (∃ es, Since L.Legal s s' es) ∧ L.Moves s.ext s'.ext
  Keeps r s s' := (∀ e ∈ s'.history.drop s.history.length, L.Respects r e) ∧ L.Spares r s s'
  Free := L.Free
  Assume := L.Assume
  evolves_refl s _ := ⟨⟨[], by simp, .rest le_rfl⟩, L.moves_refl s.ext⟩
  evolves_trans s₁ s₂ s₃ _ _ _ h h' := by
    obtain ⟨⟨es, hHistory, hPath⟩, hMoves⟩ := h
    obtain ⟨⟨es', hHistory', hPath'⟩, hMoves'⟩ := h'
    refine ⟨⟨es ++ es', ?_, hPath.append hPath'⟩, L.moves_trans _ _ _ hMoves hMoves'⟩
    rw [hHistory', hHistory, List.append_assoc]
  keeps_refl r s _ := ⟨by simp, L.spares_refl r s⟩
  keeps_trans r s₁ s₂ s₃ _ _ _ hEvolves hEvolves' h h' := by
    obtain ⟨⟨es, hHistory, hPath⟩, _⟩ := hEvolves
    obtain ⟨⟨es', hHistory', _⟩, _⟩ := hEvolves'
    have hFirst : s₂.history.drop s₁.history.length = es := by simp [hHistory]
    have hSecond : s₃.history.drop s₂.history.length = es' := by simp [hHistory']
    have hBoth : s₃.history.drop s₁.history.length = es ++ es' := by
      simp [hHistory', hHistory]
    refine ⟨fun e he => ?_, L.spares_trans r _ _ _ es ⟨hHistory, hPath⟩ (hFirst ▸ h.1) h.2 h'.2⟩
    rw [hBoth] at he
    rcases List.mem_append.mp he with hOld | hNew
    · exact h.1 e (hFirst ▸ hOld)
    · exact h'.1 e (hSecond ▸ hNew)

variable {L} {s s' : Shared V κ} {held : V.Res → Prop}

theorem Reached.later {db : V.Db} {t t' : Nat} (h : L.Reached db t)
    (hTime : t ≤ t') : L.Reached db t' := by
  obtain ⟨es, hPath⟩ := h
  exact ⟨es, hPath.later hTime⟩

theorem Sound.reached (h : L.Sound s) : L.Reached s.db s.now := ⟨s.history, h.1⟩

theorem Reached.holds {P : V.Db → Nat → Prop} {db : V.Db} {t : Nat} (h : L.Reached db t)
    (hGenesis : P L.genesis 0) (hTime : ∀ db t t', t ≤ t' → P db t → P db t')
    (hStep : ∀ e, L.Legal e → P e.before e.endedAt → P e.after e.endedAt) : P db t := by
  obtain ⟨es, hPath⟩ := h
  exact hPath.preserves hTime (fun e _ => hStep e) hGenesis

theorem reached_entries {db db' : V.Db} {t t' : Nat} {es : List (Entry V κ)}
    (hReached : L.Reached db t) (h : Path L.Legal db t es db' t') :
    ∀ e ∈ es, L.Reached e.before e.endedAt := by
  induction h with
  | rest _ => exact fun e he => by cases he
  | commit hTime hLegal _ ih =>
    intro e he
    rcases List.mem_cons.mp he with rfl | hRest
    · exact hReached.later hTime
    · obtain ⟨es, hPath⟩ := hReached.later hTime
      exact ih ⟨_, hPath.append (.single rfl rfl hLegal)⟩ e hRest

/-- What is true when the others' entries are legal and spare the locked rows stays true while
they move. -/
theorem rely_preserves {P : V.Db → Nat → Prop}
    (h : L.discipline.Rely held s s') (hTime : ∀ db t t', t ≤ t' → P db t → P db t')
    (hStep : ∀ e, L.Legal e → L.Reached e.before e.endedAt → (∀ r, held r → L.Respects r e) →
      P e.before e.endedAt → P e.after e.endedAt) (hStart : P s.db s.now) : P s'.db s'.now := by
  obtain ⟨⟨es, hHistory, hPath⟩, _⟩ := h.evolves
  have hNew : s'.history.drop s.history.length = es := by simp [hHistory]
  refine hPath.preserves hTime (fun e he hLegal hHere => ?_) hStart
  refine hStep e hLegal (reached_entries (Sound.reached h.before) hPath e he) (fun r hr => ?_) hHere
  exact (h.keeps r hr).1 e (hNew ▸ he)

theorem rely_moves (h : L.discipline.Rely held s s') : L.Moves s.ext s'.ext := h.evolves.2

theorem rely_now (h : L.discipline.Rely held s s') : s.now ≤ s'.now := by
  obtain ⟨⟨_, _, hPath⟩, _⟩ := h.evolves
  exact hPath.now_le

/-! ## What a step owes -/

theorem Sound.record {e : Entry V κ} (h : L.Sound s) (hBefore : e.before = s.db)
    (hEnded : e.endedAt = s.now) (hLegal : L.Legal e)
    (hTraffic : L.Traffic (s.record e)) : L.Sound (s.record e) :=
  ⟨h.1.append (.single hBefore hEnded hLegal), hTraffic⟩

theorem guarantee_record {e : Entry V κ} (h : L.Sound s) (hBefore : e.before = s.db)
    (hEnded : e.endedAt = s.now) (hLegal : L.Legal e) (hTraffic : L.Traffic (s.record e))
    (hRespects : ∀ r, ¬ held r → L.Respects r e)
    (hSpares : ∀ r, ¬ held r → L.Spares r s (s.record e))
    (hFree : ∀ r, ¬ held r → L.Free r s → L.Free r (s.record e)) :
    L.discipline.Guarantee held s (s.record e) where
  inv := h.record hBefore hEnded hLegal hTraffic
  evolves := ⟨⟨[e], rfl, .single hBefore hEnded hLegal⟩, L.moves_refl _⟩
  keeps r hr := by
    refine ⟨fun e' he' => ?_, hSpares r hr⟩
    have hEq : e' = e := by simpa using he'
    exact hEq ▸ hRespects r hr
  free := hFree

theorem guarantee_setExt {x : V.Ext} (h : L.Sound s) (hTraffic : L.Traffic (s.setExt x))
    (hMoves : L.Moves s.ext x) (hSpares : ∀ r, ¬ held r → L.Spares r s (s.setExt x))
    (hFree : ∀ r, ¬ held r → L.Free r s → L.Free r (s.setExt x)) :
    L.discipline.Guarantee held s (s.setExt x) where
  inv := ⟨h.1, hTraffic⟩
  evolves := ⟨⟨[], by simp, .rest le_rfl⟩, hMoves⟩
  keeps r hr := ⟨by simp, hSpares r hr⟩
  free := hFree

theorem guarantee_tick {ms : Nat} (h : L.Sound s) (hTraffic : L.Traffic (s.tick ms))
    (hSpares : ∀ r, L.Spares r s (s.tick ms)) (hFree : ∀ r, L.Free r s → L.Free r (s.tick ms)) :
    L.discipline.Guarantee held s (s.tick ms) where
  inv := ⟨h.1.later (Nat.le_add_right _ _), hTraffic⟩
  evolves := ⟨⟨[], by simp, .rest (Nat.le_add_right _ _)⟩, L.moves_refl _⟩
  keeps r _ := ⟨by simp, hSpares r⟩
  free r _ := hFree r

end Ledger

end Pixaeron.Transactions
