import Pixaeron.Transactions.Rules

/-! # Scripts whose every write is harmless

If each write of a script, on its own, keeps what all others rely on, the script needs no other
proof: whatever it commits is a composition of such writes. The same is true of the part of a
transaction that such writes are left of.
-/

namespace Pixaeron.Transactions

variable {V : Vocabulary} {α β : Type}

/-- Every statement of the script changes the rows calmly and every question is a mild one. -/
def Script.Writes (Calm : (V.Db → V.Db) → Prop)
    (Mild : (V.Reply → V.Ext → Option V.Ext) → Prop) : Script V α → Prop
  | .done _ => True
  | .fail _ => True
  | .sql _ _ write next => ∀ v, Calm (write v) ∧ (next v).Writes Calm Mild
  | .call effect next => Mild effect ∧ ∀ reply, (next reply).Writes Calm Mild
  | .clock next => ∀ t, (next t).Writes Calm Mild
  | .begin _ handler next => (∀ e, (handler e).Writes Calm Mild) ∧ next.Writes Calm Mild
  | .commit next => next.Writes Calm Mild

namespace Script

/-- The body of a transaction: only statements, questions and errors. -/
def Body : Script V β → Prop
  | .done _ => True
  | .fail _ => True
  | .sql _ _ _ next => ∀ v, (next v).Body
  | .call _ next => ∀ reply, (next reply).Body
  | .clock next => ∀ t, (next t).Body
  | .begin _ _ _ => False
  | .commit _ => False

theorem Body.bind {p : Script V α} {k : α → Script V β} (h : p.Body)
    (hk : ∀ a, (k a).Body) : (p.bind k).Body := by
  induction p with
  | done a => exact hk a
  | fail e => trivial
  | sql name locks write next ih => exact fun v => ih v (h v)
  | call effect next ih => exact fun reply => ih reply (h reply)
  | clock next ih => exact fun t => ih t (h t)
  | begin _ _ _ => exact h.elim
  | commit _ => exact h.elim

theorem Body.check {condition : Prop} [Decidable condition] {error : V.Err} :
    (if condition then .done () else .fail error : Script V Unit).Body := by
  split <;> trivial

variable {Calm : (V.Db → V.Db) → Prop} {Mild : (V.Reply → V.Ext → Option V.Ext) → Prop}

theorem Writes.bind {p : Script V α} {k : α → Script V β} (h : p.Writes Calm Mild)
    (hk : ∀ a, (k a).Writes Calm Mild) :
    (p.bind k).Writes Calm Mild := by
  induction p with
  | done a => exact hk a
  | fail e => trivial
  | sql name locks write next ih => exact fun v => ⟨(h v).1, ih v (h v).2⟩
  | call effect next ih => exact ⟨h.1, fun reply => ih reply (h.2 reply)⟩
  | clock next ih => exact fun t => ih t (h t)
  | begin limit handler next ihHandler ih => exact ⟨fun e => ihHandler e (h.1 e), ih h.2⟩
  | commit next ih => exact ih h

theorem Writes.check {condition : Prop} [Decidable condition] {error : V.Err} :
    (if condition then .done () else .fail error : Script V Unit).Writes Calm Mild := by
  split <;> trivial

theorem Writes.transaction {limit : Nat} {body : Script V α} {handler : V.Err → Script V α}
    (h : body.Writes Calm Mild) (hHandler : ∀ e, (handler e).Writes Calm Mild) :
    (Script.transaction limit body handler).Writes Calm Mild :=
  ⟨hHandler, h.bind fun _ => trivial⟩

theorem Writes.forEach {action : α → Script V Unit} (h : ∀ a, (action a).Writes Calm Mild)
    (items : List α) :
    (Script.forEach action items).Writes Calm Mild := by
  induction items with
  | nil => trivial
  | cons a rest ih => exact (h a).bind fun _ => ih

theorem Writes.query {name : V.Name} {answer : View V → α} (hId : Calm id) :
    (Script.query name answer).Writes Calm Mild :=
  fun _ => ⟨hId, trivial⟩

theorem Writes.change {name : V.Name} {locks : View V → List V.Res} {write : View V → V.Db → V.Db}
    {answer : View V → α} (h : ∀ v, Calm (write v)) :
    (Script.change name locks write answer).Writes Calm Mild :=
  fun v => ⟨h v, trivial⟩

theorem Writes.readClock : (Script.readClock : Script V Nat).Writes Calm Mild := fun _ => trivial

theorem Writes.mono {Calm' : (V.Db → V.Db) → Prop} {Mild' : (V.Reply → V.Ext → Option V.Ext) → Prop}
    {p : Script V α} (h : p.Writes Calm Mild) (hCalm : ∀ write, Calm write → Calm' write)
    (hMild : ∀ effect, Mild effect → Mild' effect) :
    p.Writes Calm' Mild' := by
  induction p with
  | done a => trivial
  | fail e => trivial
  | sql name locks write next ih => exact fun v => ⟨hCalm _ (h v).1, ih v (h v).2⟩
  | call effect next ih => exact ⟨hMild _ h.1, fun reply => ih reply (h.2 reply)⟩
  | clock next ih => exact fun t => ih t (h t)
  | begin limit handler next ihHandler ih => exact ⟨fun e => ihHandler e (h.1 e), ih h.2⟩
  | commit next ih => exact ih h

/-- Only statements, all of them calm. -/
def Only (Calm : (V.Db → V.Db) → Prop) : Script V α → Prop
  | .done _ => True
  | .fail _ => True
  | .sql _ _ write next => ∀ v, Calm (write v) ∧ (next v).Only Calm
  | .call _ _ => False
  | .clock next => ∀ t, (next t).Only Calm
  | .begin _ _ _ => False
  | .commit _ => False

theorem Only.writes {p : Script V α} (h : p.Only Calm) : p.Writes Calm Mild := by
  induction p with
  | done a => trivial
  | fail e => trivial
  | sql name locks write next ih => exact fun v => ⟨(h v).1, ih v (h v).2⟩
  | call effect next _ => exact h.elim
  | clock next ih => exact fun t => ih t (h t)
  | begin _ _ _ => exact h.elim
  | commit _ => exact h.elim

theorem Only.mono {Calm' : (V.Db → V.Db) → Prop} {p : Script V α} (h : p.Only Calm)
    (hCalm : ∀ write, Calm write → Calm' write) :
    p.Only Calm' := by
  induction p with
  | done a => trivial
  | fail e => trivial
  | sql name locks write next ih => exact fun v => ⟨hCalm _ (h v).1, ih v (h v).2⟩
  | call effect next _ => exact h.elim
  | clock next ih => exact fun t => ih t (h t)
  | begin _ _ _ => exact h.elim
  | commit _ => exact h.elim

theorem Only.bind {p : Script V α} {k : α → Script V β} (h : p.Only Calm)
    (hk : ∀ a, (k a).Only Calm) : (p.bind k).Only Calm := by
  induction p with
  | done a => exact hk a
  | fail e => trivial
  | sql name locks write next ih => exact fun v => ⟨(h v).1, ih v (h v).2⟩
  | call effect next _ => exact h.elim
  | clock next ih => exact fun t => ih t (h t)
  | begin _ _ _ => exact h.elim
  | commit _ => exact h.elim

theorem Only.check {condition : Prop} [Decidable condition] {error : V.Err} :
    (if condition then .done () else .fail error : Script V Unit).Only Calm := by
  split <;> trivial

theorem Only.query {name : V.Name} {answer : View V → α} (hId : Calm id) :
    (Script.query name answer).Only Calm :=
  fun _ => ⟨hId, trivial⟩

theorem Only.change {name : V.Name} {locks : View V → List V.Res} {write : View V → V.Db → V.Db}
    {answer : View V → α} (h : ∀ v, Calm (write v)) :
    (Script.change name locks write answer).Only Calm :=
  fun v => ⟨h v, trivial⟩

theorem Only.readClock : (Script.readClock : Script V Nat).Only Calm := fun _ => trivial

theorem Only.forEach {action : α → Script V Unit} {items : List α}
    (h : ∀ a ∈ items, (action a).Only Calm) :
    (Script.forEach action items).Only Calm := by
  induction items with
  | nil => trivial
  | cons a rest ih =>
    exact (h a List.mem_cons_self).bind fun _ => ih fun b hb => h b (List.mem_cons_of_mem a hb)

end Script

section Wp

variable {κ : Type} {D : Discipline V κ} {call : κ} {Calm : (V.Db → V.Db) → Prop}
  {Mild : (V.Reply → V.Ext → Option V.Ext) → Prop}

/-- What makes the writes of a call harmless: a calm change may be recorded and a mild question
asked at any time, by anyone. -/
structure Harmless (D : Discipline V κ) (call : κ) (Calm : (V.Db → V.Db) → Prop)
    (Mild : (V.Reply → V.Ext → Option V.Ext) → Prop) : Prop where
  same : Calm id
  comp : ∀ f g, Calm f → Calm g → Calm (f ∘ g)
  free : ∀ r s, D.Free r s
  record : ∀ (held : V.Res → Prop) (s : Shared V κ) (e : Entry V κ) change,
    D.Inv s → D.Assume e → e.call = call →
    e.before = s.db → e.endedAt = s.now → Calm change → e.after = change s.db →
      (e.error ≠ none → e.after = s.db) →
    D.Guarantee held s (s.record e)
  ask : ∀ (held : V.Res → Prop) s effect reply ext,
    D.Inv s → Mild effect → effect reply s.ext = some ext →
    D.Guarantee held s (s.setExt ext)

theorem Harmless.undoable (h : Harmless D call Calm Mild) {l : Local V} {tx : LocalTx V}
    {error : V.Err} {s : Shared V κ} (hInv : D.Inv s) : Undoable D call l tx error s := by
  intro hAssume
  exact ⟨h.record _ s _ id hInv hAssume rfl rfl rfl h.same rfl fun _ => rfl, fun r _ => h.free r _⟩

theorem Wp.of_writes (h : Harmless D call Calm Mild) {p : Script V α} {l : Local V} {s : Shared V κ}
    (hWrites : p.Writes Calm Mild) (hPending : ∀ tx, l.tx = some tx → Calm tx.pending) :
    Wp D call p (fun _ _ _ => True) l s := by
  have hUndo {l : Local V} {s s' : Shared V κ} (hRely : D.Rely l.held s s') (tx : LocalTx V)
    (_ : l.tx = some tx) :
      Undoable D call l tx V.rolledBack s' := h.undoable hRely.inv
  induction p generalizing l s with
  | done a => exact fun s' hRely => ⟨hUndo hRely, trivial⟩
  | fail error => exact fun s' hRely => ⟨hUndo hRely, fun _ _ => h.undoable hRely.inv⟩
  | sql name locks write next ih =>
    refine fun s' hRely => ⟨hUndo hRely, fun hTx v hSees _ hAssume => ?_, fun tx hTx _ v _ _ => ?_⟩
    · refine ⟨?_, fun r _ => h.free r _, ih v (hWrites v).2 fun tx hOpen =>
        by cases hTx.symm.trans hOpen⟩
      exact h.record _ s' _ (write v) hRely.inv hAssume rfl rfl rfl (hWrites v).1 rfl fun hError =>
        absurd rfl hError
    · refine ih v (hWrites v).2 fun tx' hTx' => ?_
      cases hTx'
      exact h.comp (write v) tx.pending (hWrites v).1 (hPending tx hTx)
  | call effect next ih =>
    refine fun s' hRely =>
      ⟨hUndo hRely, fun reply ext hEffect => ⟨?_, ih reply (hWrites.2 reply) fun tx' hTx' => ?_⟩⟩
    · exact h.ask _ s' effect reply ext hRely.inv hWrites.1 hEffect
    · obtain ⟨tx, hTx, rfl⟩ := Option.map_eq_some_iff.mp hTx'
      exact hPending tx hTx
  | clock next ih => exact fun s' hRely => ⟨hUndo hRely, ih s'.now (hWrites s'.now) hPending⟩
  | begin limit handler next ihHandler ih =>
    refine fun s' hRely =>
      ⟨hUndo hRely, fun _ => ⟨fun error replies s'' _ => ?_, ih hWrites.2 fun tx hTx => ?_⟩⟩
    · exact ihHandler error (hWrites.1 error) fun tx hTx => by cases hTx
    · cases hTx
      exact h.same
  | commit next ih =>
    refine fun s' hRely => ⟨hUndo hRely, fun tx hTx _ hAssume => ⟨?_, fun r _ => h.free r _, ?_⟩⟩
    · exact h.record _ s' _ tx.pending hRely.inv hAssume rfl rfl rfl
        (hPending tx hTx) rfl fun hError => absurd rfl hError
    · exact ih hWrites fun tx hOpen => by cases hOpen

/-- The rule for the body of a transaction whose every statement is calm: what calm statements keep
holds at its end. -/
theorem Wp.of_body {I : Local V → Shared V κ → Prop} {Q : α → Local V → Shared V κ → Prop}
    {p : Script V α} (hBody : p.Body) (hWrites : p.Writes Calm fun _ => False)
    (hOpen : ∀ l s, I l s → ∃ tx, l.tx = some tx)
    (hLater : ∀ l s s', I l s → D.Rely l.held s s' → I l s')
    (hRan : ∀ l s tx name locks write v, I l s → l.tx = some tx → Calm (write v) →
      I (l.ran tx name locks write v) s) (hUndo : ∀ l s tx error,
      I l s → D.Inv s → l.tx = some tx → Undoable D call l tx error s)
    (hDone : ∀ a l s, I l s → Q a l s) {l : Local V} {s : Shared V κ}
    (h : I l s) : Wp D call p Q l s := by
  have hSafe {l : Local V} {s s' : Shared V κ} (h : I l s) (hRely : D.Rely l.held s s')
    (tx : LocalTx V) (hTx : l.tx = some tx) :
      Undoable D call l tx V.rolledBack s' := hUndo l s' tx _ (hLater l s s' h hRely) hRely.inv hTx
  induction p generalizing l s with
  | done a => exact fun s' hRely => ⟨hSafe h hRely, hDone a l s' (hLater l s s' h hRely)⟩
  | fail error =>
    exact fun s' hRely =>
      ⟨hSafe h hRely, fun tx hTx => hUndo l s' tx error (hLater l s s' h hRely) hRely.inv hTx⟩
  | sql name locks write next ih =>
    refine fun s' hRely => ⟨hSafe h hRely, fun hNone => ?_, fun tx hTx _ v _ _ => ?_⟩
    · obtain ⟨tx, hTx⟩ := hOpen l s h
      cases hNone.symm.trans hTx
    · exact ih v (hBody v) (hWrites v).2
        (hRan l s' tx name locks write v (hLater l s s' h hRely) hTx (hWrites v).1)
  | call effect next _ => exact hWrites.1.elim
  | clock next ih =>
    exact fun s' hRely =>
      ⟨hSafe h hRely, ih s'.now (hBody s'.now) (hWrites s'.now) (hLater l s s' h hRely)⟩
  | begin _ _ _ => exact hBody.elim
  | commit _ => exact hBody.elim

end Wp

end Pixaeron.Transactions
