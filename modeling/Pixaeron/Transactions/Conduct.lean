import Pixaeron.Transactions.Following
import Pixaeron.Transactions.Writes

/-! # The conduct of a session

What the steps of one session do to the rows, read off its script alone. `Calm` says which changes
are harmless, and `Loud` which commits are not, together with what is left of the script after
such a commit: a call whose only loud step is its last one has done nothing unless it succeeds.
-/

namespace Pixaeron.Transactions

variable {V : Vocabulary} {α β : Type}

/-- All changes of the script are calm, up to a loud commit; `tx` holds the writes of an open
transaction, and `Q` holds of the results that are reached without a loud commit. -/
def Script.Conducts (Calm : (V.Db → V.Db) → Prop) (Loud : (V.Db → V.Db) → Script V α → Prop)
    (Q : Option (V.Db → V.Db) → α → Prop) : Script V α → Option (V.Db → V.Db) → Prop
  | .done a, tx => Q tx a
  | .fail _, _ => True
  | .sql _ _ write next, none => ∀ v, Calm (write v) ∧ (next v).Conducts Calm Loud Q none
  | .sql _ _ write next, some p => ∀ v, (next v).Conducts Calm Loud Q (some (write v ∘ p))
  | .call _ next, tx => ∀ reply, (next reply).Conducts Calm Loud Q tx
  | .clock next, tx => ∀ t, (next t).Conducts Calm Loud Q tx
  | .begin _ handler next, _ =>
    (∀ e, (handler e).Conducts Calm Loud Q none) ∧ next.Conducts Calm Loud Q (some id)
  | .commit next, none => next.Conducts Calm Loud Q none
  | .commit next, some p => (Calm p ∧ next.Conducts Calm Loud Q none) ∨ Loud p next

namespace Script

variable {Calm : (V.Db → V.Db) → Prop} {Loud : (V.Db → V.Db) → Script V β → Prop}

theorem Conducts.mono {Q Q' : Option (V.Db → V.Db) → β → Prop} {p : Script V β}
    {tx : Option (V.Db → V.Db)} (h : p.Conducts Calm Loud Q tx) (hPost : ∀ tx a, Q tx a → Q' tx a) :
    p.Conducts Calm Loud Q' tx := by
  induction p generalizing tx with
  | done a => exact hPost tx a h
  | fail e => trivial
  | sql name locks write next ih =>
    cases tx with
    | none => exact fun v => ⟨(h v).1, ih v (h v).2⟩
    | some p => exact fun v => ih v (h v)
  | call effect next ih => exact fun reply => ih reply (h reply)
  | clock next ih => exact fun t => ih t (h t)
  | begin limit handler next ihHandler ih => exact ⟨fun e => ihHandler e (h.1 e), ih h.2⟩
  | commit next ih =>
    cases tx with
    | none => exact ih h
    | some p => exact h.imp_left fun hBoth => ⟨hBoth.1, ih hBoth.2⟩

theorem Conducts.bind {Q : Option (V.Db → V.Db) → β → Prop} {p : Script V α} {k : α → Script V β}
    {tx : Option (V.Db → V.Db)}
    (h : p.Conducts Calm (fun _ _ => False) (fun tx a => (k a).Conducts Calm Loud Q tx) tx) :
    (p.bind k).Conducts Calm Loud Q tx := by
  induction p generalizing tx with
  | done a => exact h
  | fail e => trivial
  | sql name locks write next ih =>
    cases tx with
    | none => exact fun v => ⟨(h v).1, ih v (h v).2⟩
    | some p => exact fun v => ih v (h v)
  | call effect next ih => exact fun reply => ih reply (h reply)
  | clock next ih => exact fun t => ih t (h t)
  | begin limit handler next ihHandler ih => exact ⟨fun e => ihHandler e (h.1 e), ih h.2⟩
  | commit next ih =>
    cases tx with
    | none => exact ih h
    | some p =>
      rcases h with ⟨hCalm, hNext⟩ | hNo
      · exact .inl ⟨hCalm, ih hNext⟩
      · exact hNo.elim

/-- A transaction is calm or loud as a whole, when it commits. -/
theorem Conducts.transaction {Q : Option (V.Db → V.Db) → β → Prop} {limit : Nat} {body : Script V α}
    {handler : V.Err → Script V α} {k : α → Script V β}
    (hHandler : ∀ e, ((handler e).bind k).Conducts Calm Loud Q none)
    (hBody : body.Conducts Calm (fun _ _ => False) (fun tx a =>
      ∃ p, tx = some p ∧ ((Calm p ∧ (k a).Conducts Calm Loud Q none) ∨ Loud p (k a))) (some id)) :
    ((Script.transaction limit body handler).bind k).Conducts Calm Loud Q none := by
  refine ⟨hHandler, ?_⟩
  rw [Script.bind_assoc]
  refine Conducts.bind (hBody.mono fun tx a hPost => ?_)
  obtain ⟨p, rfl, hCommit⟩ := hPost
  exact hCommit

/-- Where each write is calm on its own, and so is what they compose to, no commit is loud. -/
theorem Writes.conducts {Mild : (V.Reply → V.Ext → Option V.Ext) → Prop} {p : Script V β}
    {tx : Option (V.Db → V.Db)} (h : p.Writes Calm Mild) (hSame : Calm id)
    (hComp : ∀ f g, Calm f → Calm g → Calm (f ∘ g))
    (hOpen : ∀ pending, tx = some pending → Calm pending) :
    p.Conducts Calm Loud (fun _ _ => True) tx := by
  have hClosed : ∀ pending : V.Db → V.Db, none = some pending → Calm pending :=
    fun _ hNo => by cases hNo
  induction p generalizing tx with
  | done a => trivial
  | fail e => trivial
  | sql name locks write next ih =>
    cases tx with
    | none => exact fun v => ⟨(h v).1, ih v (h v).2 hClosed⟩
    | some pending =>
      refine fun v => ih v (h v).2 fun pending' hPending => ?_
      cases hPending
      exact hComp (write v) pending (h v).1 (hOpen pending rfl)
  | call effect next ih => exact fun reply => ih reply (h.2 reply) hOpen
  | clock next ih => exact fun t => ih t (h t) hOpen
  | begin limit handler next ihHandler ih =>
    refine ⟨fun e => ihHandler e (h.1 e) hClosed, ih h.2 fun pending hPending => ?_⟩
    cases hPending
    exact hSame
  | commit next ih =>
    cases tx with
    | none => exact ih h hClosed
    | some pending => exact .inl ⟨hOpen pending rfl, ih h hClosed⟩

end Script

namespace World

variable {κ ω : Type} {Calm : (V.Db → V.Db) → Prop} {Loud : (V.Db → V.Db) → Script V ω → Prop}
  {Q : Option (V.Db → V.Db) → ω → Prop}

/-- The rest of a session's script, and the handler of its transaction. -/
structure SessionConducts (Calm : (V.Db → V.Db) → Prop) (Loud : (V.Db → V.Db) → Script V ω → Prop)
    (Q : Option (V.Db → V.Db) → ω → Prop) (session : Session V κ ω) : Prop where
  script : session.script.Conducts Calm Loud Q (session.tx.map Tx.pending)
  handler : ∀ tx, session.tx = some tx → ∀ error, (tx.handler error).Conducts Calm Loud Q none

/-- What a step of a session has done: nothing, something calm, or something loud. -/
inductive Did (Calm : (V.Db → V.Db) → Prop) (Loud : (V.Db → V.Db) → Script V ω → Prop)
    (Q : Option (V.Db → V.Db) → ω → Prop) (w w' : World V κ ω) (sid : Nat) : Prop
  | nothing (session : Session V κ ω) : w'.shared.db = w.shared.db →
      w'.sessions sid = some session →
    SessionConducts Calm Loud Q session → Did Calm Loud Q w w' sid
  | calm (session : Session V κ ω) (change : V.Db → V.Db) : Calm change →
      w'.shared.db = change w.shared.db →
    w'.sessions sid = some session → SessionConducts Calm Loud Q session → Did Calm Loud Q w w' sid
  | loud (session : Session V κ ω) (change : V.Db → V.Db)
      (e : Entry V κ) : Loud change session.script →
    w'.shared = w.shared.record e → e.before = w.shared.db → e.after = change w.shared.db →
      e.call = session.call →
    w'.sessions sid = some session → session.tx = none → Did Calm Loud Q w w' sid

variable {w w' : World V κ ω} {sid : Nat}

theorem SessionConducts.undone {session : Session V κ ω} {tx : Tx V ω} {error : V.Err}
    (h : SessionConducts Calm Loud Q session) (hTx : session.tx = some tx) :
    SessionConducts Calm Loud Q { session with script := tx.handler error, tx := none } where
  script := h.handler tx hTx error
  handler tx' hTx' := by cases hTx'

theorem SessionConducts.answers {session : Session V κ ω} {reply : V.Reply}
    (h : SessionConducts Calm Loud Q session)
    (hAnswer : w.answerSession sid session reply = some w') : Did Calm Loud Q w w' sid := by
  have hScript := h.script
  unfold World.answerSession at hAnswer
  split at hAnswer
  next effect next hCall =>
    obtain ⟨ext, _, hWorld⟩ := Option.map_eq_some_iff.mp hAnswer
    subst hWorld
    rw [hCall] at hScript
    refine .nothing _ rfl (Function.update_self _ _ _) ⟨?_, fun tx' hTx' error => ?_⟩
    · rw [Option.map_map]
      exact hScript reply
    · obtain ⟨tx, hTx, rfl⟩ := Option.map_eq_some_iff.mp hTx'
      exact h.handler tx hTx error
  next => cases hAnswer

variable [DecidableEq V.Res] {program : Program V κ ω} {action : Action V κ}

theorem SessionConducts.runs {session : Session V κ ω} (h : SessionConducts Calm Loud Q session)
    (hRun : w.runSession sid session = some w') : Did Calm Loud Q w w' sid := by
  have hScript := h.script
  unfold World.runSession at hRun
  split at hRun
  next error tx hFail hTx =>
    cases hRun
    exact .nothing _ rfl (Function.update_self _ _ _) (h.undone hTx)
  next name locks write next hSql hTx =>
    rw [hSql, hTx] at hScript
    unfold World.autocommit at hRun
    dsimp only at hRun
    split at hRun <;> cases hRun
    refine .calm _ (write (w.view sid w.shared.db w.shared.now)) (hScript _).1 rfl
      (Function.update_self _ _ _) ?_
    exact ⟨by rw [hTx]; exact (hScript _).2, fun tx' hTx' => by cases hTx.symm.trans hTx'⟩
  next name locks write next tx hSql hTx =>
    rw [hSql, hTx] at hScript
    unfold World.execute at hRun
    dsimp only at hRun
    split at hRun <;> cases hRun
    refine .nothing _ rfl (Function.update_self _ _ _) ⟨hScript _, fun tx' hTx' error => ?_⟩
    cases hTx'
    exact h.handler tx hTx error
  next next _ hClock =>
    cases hRun
    rw [hClock] at hScript
    exact .nothing _ rfl (Function.update_self _ _ _) ⟨hScript _, h.handler⟩
  next limit handler next hBegin hTx =>
    cases hRun
    rw [hBegin] at hScript
    refine .nothing _ rfl (Function.update_self _ _ _) ⟨hScript.2, fun tx' hTx' error => ?_⟩
    cases hTx'
    exact hScript.1 error
  next next tx hCommit hTx =>
    rw [hCommit, hTx] at hScript
    unfold World.commit at hRun
    split at hRun <;> cases hRun
    rcases hScript with ⟨hCalm, hNext⟩ | hLoud
    · exact .calm _ tx.pending hCalm rfl (Function.update_self _ _ _) ⟨hNext,
        fun tx' hTx' => by cases hTx'⟩
    · exact .loud { session with script := next, tx := none } tx.pending _ hLoud rfl rfl rfl rfl
        (Function.update_self _ _ _) rfl
  next => cases hRun

/-- One step of a session, whatever kind of step it is, unless the session is killed. -/
theorem SessionConducts.steps {session : Session V κ ω} (h : SessionConducts Calm Loud Q session)
    (hSession : w.sessions sid = some session) (hStep : step program w action = some w')
    (hActor : Action.actor action = some sid) (hAlive : action ≠ .kill sid) :
    Did Calm Loud Q w w' sid := by
  cases action with
  | tick ms => cases hActor
  | spawn other call =>
    cases hActor
    simp [World.step, hSession] at hStep
  | run other =>
    cases hActor
    obtain ⟨found, hFound, hRun⟩ := Option.bind_eq_some_iff.mp hStep
    cases hSession.symm.trans hFound
    exact h.runs hRun
  | answer other reply =>
    cases hActor
    obtain ⟨found, hFound, hAnswer⟩ := Option.bind_eq_some_iff.mp hStep
    cases hSession.symm.trans hFound
    exact h.answers hAnswer
  | rollback other =>
    cases hActor
    obtain ⟨found, hFound, hRolled⟩ := Option.bind_eq_some_iff.mp hStep
    cases hSession.symm.trans hFound
    obtain ⟨tx, hTx, hWorld⟩ := Option.map_eq_some_iff.mp hRolled
    subst hWorld
    exact .nothing _ rfl (Function.update_self _ _ _) (h.undone hTx)
  | kill other =>
    cases hActor
    exact absurd rfl hAlive

/-- A session that is never loud keeps its conduct for as long as it is not killed. -/
theorem SessionConducts.stays {session : Session V κ ω}
    (h : SessionConducts Calm (fun _ _ => False) Q session)
    (hSession : w.sessions sid = some session) (hStays : Stays program sid w w') :
    ∃ session', w'.sessions sid = some session' ∧
      SessionConducts Calm (fun _ _ => False) Q session' := by
  induction hStays with
  | refl => exact ⟨session, hSession, h⟩
  | tail _ hStep ih =>
    obtain ⟨action, hAlive, hStep⟩ := hStep
    obtain ⟨before, hBefore, hConducts⟩ := ih
    by_cases hActor : Action.actor action = some sid
    · rcases hConducts.steps hBefore hStep hActor hAlive with ⟨after, _, hAfter, hOk⟩ |
        ⟨after, _, _, _, hAfter, hOk⟩ | ⟨_, _, _, hNo, _⟩
      · exact ⟨after, hAfter, hOk⟩
      · exact ⟨after, hAfter, hOk⟩
      · exact hNo.elim
    · exact ⟨before, (step_other hStep hActor).trans hBefore, hConducts⟩

/-- A loud session has nothing left to do. -/
def Over (Loud : (V.Db → V.Db) → Script V ω → Prop) (session : Session V κ ω) : Prop :=
  (∃ change, Loud change session.script) ∧ session.tx = none

theorem Over.stuck {session : Session V κ ω}
    (hEnds : ∀ change script, Loud change script → ∃ a, script = .done a) (h : Over Loud session)
    (hSession : w.sessions sid = some session) (hStep : step program w action = some w')
    (hActor : Action.actor action = some sid) : action = .kill sid := by
  obtain ⟨⟨change, hLoud⟩, hTx⟩ := h
  obtain ⟨a, hDone⟩ := hEnds change _ hLoud
  cases action with
  | tick ms => cases hActor
  | spawn other call =>
    cases hActor
    simp [World.step, hSession] at hStep
  | run other =>
    cases hActor
    simp [World.step, hSession, World.runSession, hDone] at hStep
  | answer other reply =>
    cases hActor
    simp [World.step, hSession, World.answerSession, hDone] at hStep
  | rollback other =>
    cases hActor
    simp [World.step, hSession, hTx] at hStep
  | kill other =>
    cases hActor
    rfl

/-- In every reachable world each session of these calls still has its conduct, or has had its
loud step. -/
theorem conduct_of_leads {calls : κ → Prop} {w₀ : World V κ ω}
    (hEnds : ∀ change script, Loud change script → ∃ a, script = .done a)
    (hSpawn : ∀ call s ext script, calls call → program call s = some (ext, script) →
      script.Conducts Calm Loud Q none) (hNone : ∀ sid, w₀.sessions sid = none)
    (h : Leads program w₀ w) {session : Session V κ ω} (hSession : w.sessions sid = some session)
    (hCall : calls session.call) :
    SessionConducts Calm Loud Q session ∨ Over Loud session := by
  induction h generalizing session with
  | refl => cases (hNone sid).symm.trans hSession
  | @tail middle last _ hStep ih =>
    obtain ⟨action, hStep⟩ := hStep
    by_cases hActor : Action.actor action = some sid
    · cases hBefore : middle.sessions sid with
      | none =>
        obtain ⟨call, rfl⟩ := spawn_of_step hStep hBefore hActor
        obtain ⟨_, _, ext, script, hProgram, hNew⟩ := step_spawn hStep
        cases hNew.symm.trans hSession
        exact .inl ⟨hSpawn call _ ext script hCall hProgram, fun tx hTx => by cases hTx⟩
      | some before =>
        have hAlive : action ≠ .kill sid := by
          rintro rfl
          cases (step_kill hStep).2.symm.trans hSession
        obtain ⟨after, hAfter, hSame⟩ := step_session hStep hBefore hAlive
        cases hSession.symm.trans hAfter
        rcases ih hBefore (hSame ▸ hCall) with hConducts | ⟨⟨change, hLoud⟩, hTx⟩
        · rcases hConducts.steps hBefore hStep hActor hAlive with ⟨_, _, hFound, hOk⟩ |
            ⟨_, _, _, _, hFound, hOk⟩ |
            ⟨_, change, _, hLoud, _, _, _, _, hFound, hTx⟩
          · cases hSession.symm.trans hFound
            exact .inl hOk
          · cases hSession.symm.trans hFound
            exact .inl hOk
          · cases hSession.symm.trans hFound
            exact .inr ⟨⟨change, hLoud⟩, hTx⟩
        · exact absurd (Over.stuck hEnds ⟨⟨change, hLoud⟩, hTx⟩ hBefore hStep hActor) hAlive
    · rw [step_other hStep hActor] at hSession
      exact ih hSession hCall

theorem did_of_step {calls : κ → Prop} {w₀ : World V κ ω}
    (hEnds : ∀ change script, Loud change script → ∃ a, script = .done a)
    (hSpawn : ∀ call s ext script, calls call → program call s = some (ext, script) →
      script.Conducts Calm Loud Q none) (hNone : ∀ sid, w₀.sessions sid = none)
    (h : Leads program w₀ w) (hStep : step program w action = some w')
    (hActor : Action.actor action = some sid) {session : Session V κ ω}
    (hSession : w.sessions sid = some session ∨ w'.sessions sid = some session)
    (hCall : calls session.call) :
    (w'.shared.db = w.shared.db ∧ w'.sessions sid = none) ∨
      ∃ session', w'.sessions sid = some session' ∧ session'.call = session.call ∧
        Did Calm Loud Q w w' sid := by
  by_cases hKilled : action = .kill sid
  · subst hKilled
    exact .inl (step_kill hStep)
  right
  cases hBefore : w.sessions sid with
  | none =>
    replace hSession := hSession.resolve_left fun hOld => by cases hBefore.symm.trans hOld
    obtain ⟨call, rfl⟩ := spawn_of_step hStep hBefore hActor
    obtain ⟨_, hDb, ext, script, hProgram, hNew⟩ := step_spawn hStep
    cases hNew.symm.trans hSession
    exact ⟨_, hNew, rfl, .nothing _ hDb hNew ⟨hSpawn call _ ext script hCall hProgram,
      fun tx hTx => by cases hTx⟩⟩
  | some before =>
    obtain ⟨after, hAfter, hSame⟩ := step_session hStep hBefore hKilled
    have hBeforeCall : before.call = session.call := by
      rcases hSession with hOld | hNew
      · rw [Option.some.inj (hBefore.symm.trans hOld)]
      · rw [← hSame, Option.some.inj (hAfter.symm.trans hNew)]
    refine ⟨after, hAfter, hSame.trans hBeforeCall, ?_⟩
    rcases conduct_of_leads hEnds hSpawn hNone h hBefore (hBeforeCall ▸ hCall) with hConducts |
      hOver
    · exact hConducts.steps hBefore hStep hActor hKilled
    · exact absurd (Over.stuck hEnds hOver hBefore hStep hActor) hKilled

end World

end Pixaeron.Transactions
