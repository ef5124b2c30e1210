import Pixaeron.Transactions.Endings

/-! # Questions asked at most once

A session asks a question of another system only with a permit, and it gets the permit only from a
statement of its own that marks rows which have not been marked before. Marks stay, so no two
sessions ever hold the permit, and whoever has asked has given it up.
-/

namespace Pixaeron.Transactions

variable {V : Vocabulary} {κ ω α β : Type}

/-- What is asked at most once: the mark on the rows, and how often the question has been asked. -/
structure Permit (V : Vocabulary) where
  Marked : V.Db → Prop
  asked : V.Ext → Nat

/-- The question is not asked by `effect`. -/
def Permit.Mild (O : Permit V) (effect : V.Reply → V.Ext → Option V.Ext) : Prop :=
  ∀ reply ext ext', effect reply ext = some ext' → O.asked ext' = O.asked ext

/-- The question is asked once by `effect`. -/
def Permit.Asks (O : Permit V) (effect : V.Reply → V.Ext → Option V.Ext) : Prop :=
  ∀ reply ext ext', effect reply ext = some ext' → O.asked ext' = O.asked ext + 1

/-- The script asks only with the permit; `tx` tells whether a transaction is open. All its writes
are calm, and `Q` holds of its results. -/
def Script.Permitted (O : Permit V) (Calm : (V.Db → V.Db) → Prop) (Q : Bool → Bool → α → Prop) :
    Script V α → (tx permit : Bool) → Prop
  | .done a, tx, permit => Q tx permit a
  | .fail _, _, _ => True
  | .sql _ _ write next, tx, permit =>
    ∀ v, Calm (write v) ∧ ((next v).Permitted O Calm Q tx permit ∨
    tx = false ∧ ¬ O.Marked v.db ∧ O.Marked (write v v.db) ∧ (next v).Permitted O Calm Q tx true)
  | .call effect next, tx, permit =>
    (O.Mild effect ∧ ∀ reply, (next reply).Permitted O Calm Q tx permit) ∨
    permit = true ∧ O.Asks effect ∧ ∀ reply, (next reply).Permitted O Calm Q tx false
  | .clock next, tx, permit => ∀ t, (next t).Permitted O Calm Q tx permit
  | .begin _ handler next, _, _ =>
    (∀ error, (handler error).Permitted O Calm Q false false) ∧ next.Permitted O Calm Q true false
  | .commit next, _, permit => next.Permitted O Calm Q false permit

namespace Script

variable {O : Permit V} {Calm : (V.Db → V.Db) → Prop}

theorem Permitted.bind {Q : Bool → Bool → β → Prop} {p : Script V α} {k : α → Script V β}
    {tx permit : Bool}
    (h : p.Permitted O Calm (fun tx permit a => (k a).Permitted O Calm Q tx permit) tx permit) :
    (p.bind k).Permitted O Calm Q tx permit := by
  induction p generalizing tx permit with
  | done a => exact h
  | fail error => trivial
  | sql name locks write next ih =>
    refine fun v => ⟨(h v).1, (h v).2.imp (fun hNext => ih v hNext) ?_⟩
    rintro ⟨hTx, hBefore, hAfter, hNext⟩
    exact ⟨hTx, hBefore, hAfter, ih v hNext⟩
  | call effect next ih =>
    rcases h with ⟨hMild, hNext⟩ | ⟨hPermit, hAsks, hNext⟩
    · exact .inl ⟨hMild, fun reply => ih reply (hNext reply)⟩
    · exact .inr ⟨hPermit, hAsks, fun reply => ih reply (hNext reply)⟩
  | clock next ih => exact fun t => ih t (h t)
  | begin limit handler next ihHandler ih =>
    exact ⟨fun error => ihHandler error (h.1 error), ih h.2⟩
  | commit next ih => exact ih h

theorem Permitted.mono {Q Q' : Bool → Bool → α → Prop} {p : Script V α} {tx permit : Bool}
    (h : p.Permitted O Calm Q tx permit) (hPost : ∀ tx permit a, Q tx permit a → Q' tx permit a) :
    p.Permitted O Calm Q' tx permit := by
  induction p generalizing tx permit with
  | done a => exact hPost tx permit a h
  | fail error => trivial
  | sql name locks write next ih =>
    refine fun v => ⟨(h v).1, (h v).2.imp (fun hNext => ih v hNext) ?_⟩
    rintro ⟨hTx, hBefore, hAfter, hNext⟩
    exact ⟨hTx, hBefore, hAfter, ih v hNext⟩
  | call effect next ih =>
    rcases h with ⟨hMild, hNext⟩ | ⟨hPermit, hAsks, hNext⟩
    · exact .inl ⟨hMild, fun reply => ih reply (hNext reply)⟩
    · exact .inr ⟨hPermit, hAsks, fun reply => ih reply (hNext reply)⟩
  | clock next ih => exact fun t => ih t (h t)
  | begin limit handler next ihHandler ih =>
    exact ⟨fun error => ihHandler error (h.1 error), ih h.2⟩
  | commit next ih => exact ih h

theorem Permitted.of_writes {Q : Bool → Bool → α → Prop} {p : Script V α} {tx permit : Bool}
    (h : p.Writes Calm O.Mild) (hQ : ∀ tx permit a, Q tx permit a) :
    p.Permitted O Calm Q tx permit := by
  induction p generalizing tx permit with
  | done a => exact hQ tx permit a
  | fail error => trivial
  | sql name locks write next ih => exact fun v => ⟨(h v).1, .inl (ih v (h v).2)⟩
  | call effect next ih => exact .inl ⟨h.1, fun reply => ih reply (h.2 reply)⟩
  | clock next ih => exact fun t => ih t (h t)
  | begin limit handler next ihHandler ih =>
    exact ⟨fun error => ihHandler error (h.1 error), ih h.2⟩
  | commit next ih => exact ih h

theorem Permitted.transaction {Q : Bool → Bool → α → Prop} {limit : Nat} {body : Script V α}
    {handler : V.Err → Script V α} {tx permit : Bool}
    (hHandler : ∀ error, (handler error).Permitted O Calm Q false false)
    (hBody : body.Permitted O Calm (fun _ permit a => Q false permit a) true false) :
    (Script.transaction limit body handler).Permitted O Calm Q tx permit :=
  ⟨hHandler, hBody.bind⟩

theorem Permitted.query {Q : Bool → Bool → α → Prop} {name : V.Name} {answer : View V → α}
    {tx permit : Bool} (hId : Calm id) (hQ : ∀ v, Q tx permit (answer v)) :
    (Script.query name answer).Permitted O Calm Q tx permit :=
  fun v => ⟨hId, .inl (hQ v)⟩

theorem Permitted.check {Q : Bool → Bool → Unit → Prop} {condition : Prop} [Decidable condition]
    {error : V.Err} {tx permit : Bool} (hQ : Q tx permit ()) :
    (if condition then .done () else .fail error : Script V Unit).Permitted O Calm Q tx permit := by
  split
  · exact hQ
  · trivial

end Script

namespace World

variable {O : Permit V} {calm : κ → (V.Db → V.Db) → Prop}

/-- A session whose script and handler ask only with the permit. -/
structure SessionPermitted (O : Permit V) (calm : κ → (V.Db → V.Db) → Prop)
    (session : Session V κ ω) (permit : Bool) :
    Prop where
  script : session.script.Permitted O (calm session.call)
    (fun _ _ _ => True) session.tx.isSome permit
  pending : ∀ tx, session.tx = some tx → calm session.call tx.pending
  handler : ∀ tx, session.tx = some tx → ∀ error,
    (tx.handler error).Permitted O (calm session.call) (fun _ _ _ => True) false false

/-- Who holds the permit, and that nobody does once the question has been asked. -/
structure Granted (O : Permit V) (calm : κ → (V.Db → V.Db) → Prop) (w : World V κ ω)
    (permits : Nat → Bool) : Prop where
  sessions : ∀ sid session, w.sessions sid = some session →
    SessionPermitted O calm session (permits sid)
  idle : ∀ sid, w.sessions sid = none → permits sid = false
  single : ∀ sid sid', permits sid = true → permits sid' = true → sid = sid'
  marked : ∀ sid, permits sid = true → O.Marked w.shared.db
  asked : O.asked w.shared.ext ≤ 1
  spent : O.asked w.shared.ext = 1 → O.Marked w.shared.db ∧ ∀ sid, permits sid = false

variable {w w' : World V κ ω} {permits : Nat → Bool} {sid : Nat}

theorem Granted.update (h : Granted O calm w permits) {next : Option (Session V κ ω)}
    {permit : Bool} (hSessions : w'.sessions = Function.update w.sessions sid next)
    (hNext : ∀ session, next = some session → SessionPermitted O calm session permit)
    (hIdle : next = none → permit = false) (hLess : permit = true → permits sid = true)
    (hMarked : O.Marked w.shared.db → O.Marked w'.shared.db)
    (hAsked : O.asked w'.shared.ext = O.asked w.shared.ext) :
    Granted O calm w' (Function.update permits sid permit) := by
  have hOld : ∀ other, Function.update permits sid permit other = true → permits other = true := by
    intro other hOther
    by_cases hSame : other = sid
    · subst hSame
      rw [Function.update_self] at hOther
      exact hLess hOther
    · rwa [Function.update_of_ne hSame] at hOther
  constructor
  · intro other session hSession
    rw [hSessions] at hSession
    by_cases hSame : other = sid
    · subst hSame
      rw [Function.update_self] at hSession ⊢
      exact hNext session hSession
    · rw [Function.update_of_ne hSame] at hSession ⊢
      exact h.sessions other session hSession
  · intro other hNone
    rw [hSessions] at hNone
    by_cases hSame : other = sid
    · subst hSame
      rw [Function.update_self] at hNone ⊢
      exact hIdle hNone
    · rw [Function.update_of_ne hSame] at hNone ⊢
      exact h.idle other hNone
  · exact fun other other' hOther hOther' =>
      h.single other other' (hOld other hOther) (hOld other' hOther')
  · exact fun other hOther => hMarked (h.marked other (hOld other hOther))
  · rw [hAsked]
    exact h.asked
  · intro hOnce
    rw [hAsked] at hOnce
    obtain ⟨hHere, hNobody⟩ := h.spent hOnce
    refine ⟨hMarked hHere, fun other => ?_⟩
    by_contra hHolds
    cases (hNobody other).symm.trans (hOld other (Bool.not_eq_false _ ▸ hHolds))

theorem Granted.grant (h : Granted O calm w permits) {next : Session V κ ω}
    (hSessions : w'.sessions = Function.update w.sessions sid (some next))
    (hNext : SessionPermitted O calm next true) (hBefore : ¬ O.Marked w.shared.db)
    (hAfter : O.Marked w'.shared.db) (hExt : w'.shared.ext = w.shared.ext) :
    Granted O calm w' (Function.update permits sid true) := by
  have hNobody : ∀ other, permits other = false := by
    intro other
    by_contra hHolds
    exact hBefore (h.marked other (Bool.not_eq_false _ ▸ hHolds))
  have hOnly : ∀ other, Function.update permits sid true other = true → other = sid := by
    intro other hOther
    by_contra hSame
    rw [Function.update_of_ne hSame, hNobody] at hOther
    cases hOther
  constructor
  · intro other session hSession
    rw [hSessions] at hSession
    by_cases hSame : other = sid
    · subst hSame
      rw [Function.update_self] at hSession ⊢
      cases hSession
      exact hNext
    · rw [Function.update_of_ne hSame] at hSession ⊢
      exact h.sessions other session hSession
  · intro other hNone
    rw [hSessions] at hNone
    by_cases hSame : other = sid
    · subst hSame
      rw [Function.update_self] at hNone
      cases hNone
    · rw [Function.update_of_ne hSame] at hNone ⊢
      exact h.idle other hNone
  · exact fun other other' hOther hOther' => (hOnly other hOther).trans (hOnly other' hOther').symm
  · exact fun _ _ => hAfter
  · rw [hExt]
    exact h.asked
  · intro hOnce
    rw [hExt] at hOnce
    exact absurd (h.spent hOnce).1 hBefore

theorem Granted.ask (h : Granted O calm w permits) {next : Session V κ ω}
    (hPermit : permits sid = true)
    (hSessions : w'.sessions = Function.update w.sessions sid (some next))
    (hNext : SessionPermitted O calm next false) (hDb : w'.shared.db = w.shared.db)
    (hAsked : O.asked w'.shared.ext = O.asked w.shared.ext + 1) :
    Granted O calm w' (Function.update permits sid false) := by
  have hFirst : O.asked w.shared.ext = 0 := by
    have hMost := h.asked
    by_contra hNot
    have hOnce : O.asked w.shared.ext = 1 := by omega
    cases hPermit.symm.trans ((h.spent hOnce).2 sid)
  have hNobody : ∀ other, Function.update permits sid false other = false := by
    intro other
    by_cases hSame : other = sid
    · rw [hSame, Function.update_self]
    · rw [Function.update_of_ne hSame]
      by_contra hHolds
      exact hSame (h.single other sid (Bool.not_eq_false _ ▸ hHolds) hPermit)
  constructor
  · intro other session hSession
    rw [hSessions] at hSession
    by_cases hSame : other = sid
    · subst hSame
      rw [Function.update_self] at hSession ⊢
      cases hSession
      exact hNext
    · rw [Function.update_of_ne hSame] at hSession ⊢
      exact h.sessions other session hSession
  · exact fun other _ => hNobody other
  · exact fun other _ hOther => by cases (hNobody other).symm.trans hOther
  · exact fun other hOther => by cases (hNobody other).symm.trans hOther
  · omega
  · intro _
    rw [hDb]
    exact ⟨h.marked sid hPermit, hNobody⟩

/-- What the calls of a system keep for the question: their changes are closed under composition,
and a change that retains the rows keeps the mark. -/
structure Keeping (O : Permit V) (calm : κ → (V.Db → V.Db) → Prop)
    (Retained : V.Db → V.Db → Prop) : Prop where
  same : ∀ call, calm call id
  comp : ∀ call f g, calm call f → calm call g → calm call (f ∘ g)
  marked : ∀ call f db, calm call f → O.Marked db → Retained db (f db) → O.Marked (f db)

variable [DecidableEq V.Res] {Retained : V.Db → V.Db → Prop} {program : Program V κ ω}
  {action : Action V κ}

omit [DecidableEq V.Res] in
theorem Granted.undo (h : Granted O calm w permits) {session : Session V κ ω}
    (hSession : w.sessions sid = some session) {tx : Tx V ω} (hTx : session.tx = some tx)
    (error : V.Err) :
    Granted O calm (w.undo sid session tx error) (Function.update permits sid false) := by
  refine h.update rfl (fun next hNext => ?_) (fun _ => rfl) (fun hFalse => by cases hFalse)
    (fun hMarked => hMarked) rfl
  cases hNext
  exact ⟨(h.sessions sid session hSession).handler tx hTx error, fun _ hNone => (by cases hNone),
    fun _ hNone => by cases hNone⟩

theorem Granted.runs (hKeeping : Keeping O calm Retained) (h : Granted O calm w permits)
    {session : Session V κ ω} (hSession : w.sessions sid = some session)
    (hRun : w.runSession sid session = some w')
    (hRetained : w'.shared.db = w.shared.db ∨ Retained w.shared.db w'.shared.db) :
    ∃ permits', Granted O calm w' permits' := by
  have hHere := h.sessions sid session hSession
  have hScript := hHere.script
  have hMarks {f : V.Db → V.Db} (hCalm : calm session.call f) (hDb : w'.shared.db = f w.shared.db)
      (hMarked : O.Marked w.shared.db) : O.Marked w'.shared.db := by
    rcases hRetained with hSame | hKept
    · rwa [hSame]
    · rw [hDb] at hKept ⊢
      exact hKeeping.marked session.call f _ hCalm hMarked hKept
  unfold World.runSession at hRun
  split at hRun
  next error tx hFail hTx =>
    cases hRun
    exact ⟨_, h.undo hSession hTx error⟩
  next name locks write next hSql hTx =>
    rw [hSql, hTx] at hScript
    obtain ⟨hCalm, hNext⟩ := hScript (w.view sid w.shared.db w.shared.now)
    unfold World.autocommit at hRun
    dsimp only at hRun
    split at hRun <;> cases hRun
    rcases hNext with hNext | ⟨_, hBefore, hAfter, hNext⟩
    · refine ⟨_, h.update rfl (fun session' hSession' => ?_) (fun hNone => by cases hNone)
        (fun hPermit => hPermit)
        (hMarks hCalm rfl) rfl⟩
      cases hSession'
      exact ⟨by simpa [hTx] using hNext, hHere.pending, hHere.handler⟩
    · exact ⟨_, h.grant rfl ⟨by simpa [hTx] using hNext, hHere.pending, hHere.handler⟩
        hBefore hAfter rfl⟩
  next name locks write next tx hSql hTx =>
    rw [hSql, hTx] at hScript
    obtain ⟨hCalm, hNext⟩ := hScript (w.view sid (tx.pending w.shared.db) tx.startedAt)
    unfold World.execute at hRun
    dsimp only at hRun
    split at hRun <;> cases hRun
    rcases hNext with hNext | ⟨hClosed, _⟩
    · refine ⟨_, h.update rfl (fun session' hSession' => ?_) (fun hNone => by cases hNone)
        (fun hPermit => hPermit)
        (fun hMarked => hMarked) rfl⟩
      cases hSession'
      refine ⟨hNext, fun tx' hTx' => ?_, fun tx' hTx' => ?_⟩
      · cases hTx'
        exact hKeeping.comp session.call _ tx.pending hCalm (hHere.pending tx hTx)
      · cases hTx'
        exact hHere.handler tx hTx
    · cases hClosed
  next next _ hClock =>
    cases hRun
    rw [hClock] at hScript
    refine ⟨_, h.update rfl (fun session' hSession' => ?_) (fun hNone => by cases hNone)
      (fun hPermit => hPermit)
      (fun hMarked => hMarked) rfl⟩
    cases hSession'
    exact ⟨hScript _, hHere.pending, hHere.handler⟩
  next limit handler next hBegin hTx =>
    cases hRun
    rw [hBegin, hTx] at hScript
    refine ⟨_, h.update rfl (fun session' hSession' => ?_) (fun _ => rfl) (fun hFalse =>
      by cases hFalse)
      (fun hMarked => hMarked) rfl⟩
    cases hSession'
    refine ⟨hScript.2, fun tx' hTx' => ?_, fun tx' hTx' => ?_⟩
    · cases hTx'
      exact hKeeping.same _
    · cases hTx'
      exact hScript.1
  next next tx hCommit hTx =>
    rw [hCommit, hTx] at hScript
    unfold World.commit at hRun
    split at hRun <;> cases hRun
    refine ⟨_, h.update rfl (fun session' hSession' => ?_) (fun hNone => by cases hNone)
      (fun hPermit => hPermit)
      (hMarks (hHere.pending tx hTx) rfl) rfl⟩
    cases hSession'
    exact ⟨hScript, fun _ hNone => (by cases hNone), fun _ hNone => by cases hNone⟩
  next => cases hRun

omit [DecidableEq V.Res] in
theorem Granted.answers (h : Granted O calm w permits) {session : Session V κ ω}
    (hSession : w.sessions sid = some session) {reply : V.Reply}
    (hAnswer : w.answerSession sid session reply = some w') :
    ∃ permits', Granted O calm w' permits' := by
  have hHere := h.sessions sid session hSession
  have hScript := hHere.script
  unfold World.answerSession at hAnswer
  split at hAnswer
  next effect next hCall =>
    obtain ⟨ext, hEffect, hWorld⟩ := Option.map_eq_some_iff.mp hAnswer
    subst hWorld
    rw [hCall] at hScript
    have hTx : ∀ tx', (session.tx.map fun tx => { tx with answers := tx.answers ++ [reply] }) =
      some tx' →
        ∃ tx, session.tx = some tx ∧ tx'.pending = tx.pending ∧ tx'.handler = tx.handler := by
      intro tx' hTx'
      obtain ⟨tx, hTx, rfl⟩ := Option.map_eq_some_iff.mp hTx'
      exact ⟨tx, hTx, rfl, rfl⟩
    have hRest (permit : Bool) (hNext : (next reply).Permitted O (calm session.call)
      (fun _ _ _ => True) session.tx.isSome permit) :
        SessionPermitted O calm { session with
          script := next reply
          tx := session.tx.map fun tx => { tx with answers := tx.answers ++ [reply] }
          replies := session.replies ++ [reply] } permit := by
      refine ⟨by simpa using hNext, fun tx' hTx' => ?_, fun tx' hTx' => ?_⟩
      · obtain ⟨tx, hOpen, hPending, _⟩ := hTx tx' hTx'
        rw [hPending]
        exact hHere.pending tx hOpen
      · obtain ⟨tx, hOpen, _, hHandler⟩ := hTx tx' hTx'
        rw [hHandler]
        exact hHere.handler tx hOpen
    rcases hScript with ⟨hMild, hNext⟩ | ⟨hPermit, hAsks, hNext⟩
    · refine ⟨_, h.update rfl (fun session' hSession' => ?_) (fun hNone => by cases hNone)
        (fun hPermit => hPermit)
        (fun hMarked => hMarked) (hMild reply _ _ hEffect)⟩
      cases hSession'
      exact hRest _ (hNext reply)
    · exact ⟨_, h.ask hPermit rfl (hRest _ (hNext reply)) rfl (hAsks reply _ _ hEffect)⟩
  next => cases hAnswer

theorem Granted.step (hKeeping : Keeping O calm Retained)
    (hSpawn : ∀ call s ext script, program call s = some (ext, script) →
      O.asked ext = O.asked s.ext ∧ script.Permitted O (calm call) (fun _ _ _ => True) false false)
    (h : Granted O calm w permits) (hStep : step program w action = some w')
    (hRetained : w'.shared.db = w.shared.db ∨ Retained w.shared.db w'.shared.db) :
    ∃ permits', Granted O calm w' permits' := by
  cases action with
  | tick ms =>
    cases hStep
    exact ⟨permits, h.sessions, h.idle, h.single, h.marked, h.asked, h.spent⟩
  | spawn sid call =>
    simp only [World.step] at hStep
    split at hStep
    · cases hStep
    · obtain ⟨⟨ext, script⟩, hProgram, hWorld⟩ := Option.map_eq_some_iff.mp hStep
      subst hWorld
      obtain ⟨hAsked, hScript⟩ := hSpawn call _ ext script hProgram
      refine ⟨_, h.update rfl (fun session hSession => ?_) (fun _ => rfl) (fun hFalse =>
        by cases hFalse)
        (fun hMarked => hMarked) hAsked⟩
      cases hSession
      exact ⟨hScript, fun _ hNone => (by cases hNone), fun _ hNone => by cases hNone⟩
  | run sid =>
    obtain ⟨session, hSession, hRun⟩ := Option.bind_eq_some_iff.mp hStep
    exact h.runs hKeeping hSession hRun hRetained
  | answer sid reply =>
    obtain ⟨session, hSession, hAnswer⟩ := Option.bind_eq_some_iff.mp hStep
    exact h.answers hSession hAnswer
  | rollback sid =>
    obtain ⟨session, hSession, hRolled⟩ := Option.bind_eq_some_iff.mp hStep
    obtain ⟨tx, hTx, hWorld⟩ := Option.map_eq_some_iff.mp hRolled
    subst hWorld
    exact ⟨_, h.undo hSession hTx _⟩
  | kill sid =>
    obtain ⟨session, hSession, hWorld⟩ := Option.map_eq_some_iff.mp hStep
    subst hWorld
    cases hTx : session.tx with
    | none =>
      refine ⟨_, h.update rfl (fun _ hNone => by cases hNone) (fun _ => rfl) (fun hFalse =>
        by cases hFalse)
        (fun hMarked => hMarked) rfl⟩
    | some tx =>
      have hUndone := h.undo hSession hTx V.rolledBack
      refine ⟨_, hUndone.update rfl (fun _ hNone => by cases hNone) (fun _ => rfl) (fun hFalse =>
        by cases hFalse)
        (fun hMarked => hMarked) rfl⟩

theorem asked_once (hKeeping : Keeping O calm Retained)
    (hSpawn : ∀ call s ext script, program call s = some (ext, script) →
      O.asked ext = O.asked s.ext ∧ script.Permitted O (calm call) (fun _ _ _ => True) false false)
    {w₀ : World V κ ω} (hNone : ∀ sid, w₀.sessions sid = none)
    (hUnasked : O.asked w₀.shared.ext = 0) (h : Leads program w₀ w)
    (hRetained : ∀ e ∈ w.shared.history.drop w₀.shared.history.length, Retained e.before e.after) :
    ∃ permits, Granted O calm w permits := by
  induction h with
  | refl =>
    refine ⟨fun _ => false, fun sid session hSession => ?_, fun _ _ => rfl,
      fun _ _ hFalse => (by cases hFalse),
      fun _ hFalse => (by cases hFalse), by omega, fun hOnce => by omega⟩
    cases (hNone sid).symm.trans hSession
  | @tail middle last hMiddle hStep ih =>
    obtain ⟨action, hStep⟩ := hStep
    have hPrefix := leads_history hMiddle
    rcases step_records hStep with ⟨hHistory, hDb⟩ | ⟨_, _, e, _, _, _, hHistory, hBefore, hAfter⟩
    · rw [hHistory] at hRetained
      obtain ⟨permits, hGranted⟩ := ih hRetained
      exact hGranted.step hKeeping hSpawn hStep (.inl hDb)
    · rw [hHistory, List.drop_append_of_le_length hPrefix.length_le] at hRetained
      obtain ⟨permits, hGranted⟩ := ih fun e' he' => hRetained e' (List.mem_append_left _ he')
      refine hGranted.step hKeeping hSpawn hStep (.inr ?_)
      rw [← hBefore, ← hAfter]
      exact hRetained e (List.mem_append_right _ List.mem_cons_self)

end World

end Pixaeron.Transactions
