import Pixaeron.Transactions.Conduct
import Pixaeron.Transactions.Writes

/-! # How calls end

What a call returns and what its last transaction or statement has done belong together. A script
says which results may follow an entry at once and with which rest it may go on, so the step in
which a call returns is the step that records the entry its result is about.
-/

namespace Pixaeron.Transactions

variable {V : Vocabulary} {κ ω α β γ : Type}

/-- What is said about the ends of a call's transactions and of its statements outside of one: which
results may follow an entry, after the `past` entries of the call, which rest of the script may, and
which results come from no entry. -/
structure Endings (V : Vocabulary) (κ α : Type) where
  Result : (past : List (Entry V κ)) → Entry V κ → α → Prop
  Rest : (past : List (Entry V κ)) → Entry V κ → Script V α → Prop
  Refused : (past : List (Entry V κ)) → α → Prop

/-- The script after an entry has come to a result, or goes on. -/
def Endings.Follows (E : Endings V κ α) (past : List (Entry V κ)) (e : Entry V κ) (p : Script V α)
    (Goes : Prop) : Prop :=
  (∃ a, p = .done a ∧ E.Result past e a) ∨ (E.Rest past e p ∧ Goes)

/-- The script may raise the error, before any bracket of a transaction. -/
def Script.MayFail : Script V α → V.Err → Prop
  | .fail error, e => error = e
  | .sql _ _ _ next, e => ∃ v, (next v).MayFail e
  | .call _ next, e => ∃ reply, (next reply).MayFail e
  | .clock next, e => ∃ t, (next t).MayFail e
  | _, _ => False

/-- The script ends as it is said, after the `past` entries of its call; `tx` holds what the open
transaction has read. -/
def Script.Ends (E : Endings V κ α) :
    Script V α → (past : List (Entry V κ)) → (tx : Option (List (V.Name × V.Db))) → Prop
  | .done a, past, none => E.Refused past a
  | .done _, _, some _ => False
  | .fail _, _, _ => True
  | .sql name _ _ next, past, none => ∀ v e, e.reads = [(name, v.db)] → e.error = none →
    E.Follows past e (next v) ((next v).Ends E (past ++ [e]) none)
  | .sql name _ _ next, past, some reads =>
    ∀ v, (next v).Ends E past (some (reads ++ [(name, v.db)]))
  | .call _ next, past, tx => ∀ reply, (next reply).Ends E past tx
  | .clock next, past, tx => ∀ t, (next t).Ends E past tx
  | .begin _ handler next, past, none =>
    (∀ error e, e.error = some error → error = V.rolledBack ∨ next.MayFail error →
      E.Follows past e (handler error) ((handler error).Ends E (past ++ [e]) none)) ∧
        next.Ends E past (some [])
  | .begin _ _ _, _, some _ => False
  | .commit next, past, some reads => ∀ e, e.reads = reads → e.error = none →
    E.Follows past e next (next.Ends E (past ++ [e]) none)
  | .commit _, _, none => False

namespace Script

theorem Body.ends {E : Endings V κ α} {p : Script V β} {k : β → Script V α}
    {past : List (Entry V κ)} {reads : List (V.Name × V.Db)} (h : p.Body)
    (hk : ∀ b more, (k b).Ends E past (some (reads ++ more))) :
    (p.bind k).Ends E past (some reads) := by
  induction p generalizing reads with
  | done b =>
    have hEmpty := hk b []
    rwa [List.append_nil] at hEmpty
  | fail e => trivial
  | sql name locks write next ih =>
    refine fun v => ih v (h v) fun b more => ?_
    rw [List.append_assoc]
    exact hk b _
  | call effect next ih => exact fun reply => ih reply (h reply) hk
  | clock next ih => exact fun t => ih t (h t) hk
  | begin _ _ _ => exact h.elim
  | commit _ => exact h.elim

end Script

namespace World

variable [DecidableEq V.Res] {program : Program V κ ω} {w w' : World V κ ω}
  {action : Action V κ} {sid : Nat}

/-- The rows change only with an entry, and that belongs to the session whose step it is. -/
theorem step_records (hStep : step program w action = some w') :
    (w'.shared.history = w.shared.history ∧ w'.shared.db = w.shared.db) ∨
      ∃ sid session e, Action.actor action = some sid ∧ w.sessions sid = some session ∧
        e.call = session.call ∧
        w'.shared.history = w.shared.history ++ [e] ∧ e.before = w.shared.db ∧
        e.after = w'.shared.db := by
  cases action with
  | tick ms =>
    cases hStep
    exact .inl ⟨rfl, rfl⟩
  | spawn other call =>
    simp only [World.step] at hStep
    split at hStep
    · cases hStep
    · obtain ⟨_, _, hWorld⟩ := Option.map_eq_some_iff.mp hStep
      subst hWorld
      exact .inl ⟨rfl, rfl⟩
  | run other =>
    obtain ⟨session, hSession, hRun⟩ := Option.bind_eq_some_iff.mp hStep
    unfold World.runSession World.autocommit World.execute World.commit at hRun
    dsimp only at hRun
    split at hRun <;> (try split at hRun) <;> cases hRun
    all_goals first
      | exact .inl ⟨rfl, rfl⟩
      | exact .inr ⟨other, session, _, rfl, hSession, rfl, rfl, rfl, rfl⟩
  | answer other reply =>
    obtain ⟨session, _, hAnswer⟩ := Option.bind_eq_some_iff.mp hStep
    unfold World.answerSession at hAnswer
    split at hAnswer
    · obtain ⟨_, _, hWorld⟩ := Option.map_eq_some_iff.mp hAnswer
      subst hWorld
      exact .inl ⟨rfl, rfl⟩
    · cases hAnswer
  | rollback other =>
    obtain ⟨session, hSession, hRolled⟩ := Option.bind_eq_some_iff.mp hStep
    obtain ⟨tx, _, hWorld⟩ := Option.map_eq_some_iff.mp hRolled
    subst hWorld
    exact .inr ⟨other, session, _, rfl, hSession, rfl, rfl, rfl, rfl⟩
  | kill other =>
    obtain ⟨session, hSession, hWorld⟩ := Option.map_eq_some_iff.mp hStep
    subst hWorld
    dsimp only
    split
    · exact .inr ⟨other, session, _, rfl, hSession, rfl, rfl, rfl, rfl⟩
    · exact .inl ⟨rfl, rfl⟩

/-- The call of the session that takes the step, which may start or end with it. -/
def Plays (w w' : World V κ ω) (sid : Nat) (call : κ) : Prop :=
  ∃ session, (w.sessions sid = some session ∨ w'.sessions sid = some session) ∧ session.call = call

variable {E : Endings V κ ω} {past : List (Entry V κ)}

/-- An error that the rest of a transaction may raise is followed as it is said. -/
def Handles (E : Endings V κ ω) (past : List (Entry V κ)) (p : Script V ω)
    (handler : V.Err → Script V ω) : Prop :=
  ∀ error e, e.error = some error → error = V.rolledBack ∨ p.MayFail error →
    E.Follows past e (handler error) ((handler error).Ends E (past ++ [e]) none)

omit [DecidableEq V.Res] in
theorem Handles.rest {p p' : Script V ω} {handler : V.Err → Script V ω}
    (h : Handles E past p handler) (hRest : ∀ error, p'.MayFail error → p.MayFail error) :
    Handles E past p' handler :=
  fun error e hError hMay => h error e hError (hMay.imp_right (hRest error))

/-- A session in the middle of such a call or at its end, after the `past` entries of its call. -/
structure SessionEnds (E : Endings V κ ω) (past : List (Entry V κ))
    (session : Session V κ ω) : Prop where
  script : session.script.Ends E past (session.tx.map Tx.reads) ∨ ∃ a, session.script = .done a ∧
    session.tx = none
  handler : ∀ tx, session.tx = some tx → Handles E past session.script tx.handler

/-- What a step of its own adds to its entries, and what is left of it. -/
inductive Ending (E : Endings V κ ω) (past : List (Entry V κ))
    (session' : Session V κ ω) : List (Entry V κ) → Prop
  | proceeds : session'.script.Ends E past (session'.tx.map Tx.reads) →
    (∀ tx, session'.tx = some tx → Handles E past session'.script tx.handler) →
      Ending E past session' []
  | records (e : Entry V κ) : session'.tx = none →
    E.Follows past e session'.script (session'.script.Ends E (past ++ [e]) none) →
      Ending E past session' [e]

omit [DecidableEq V.Res] in
theorem Ending.session {added : List (Entry V κ)} {session' : Session V κ ω}
    (h : Ending E past session' added) :
    SessionEnds E (past ++ added) session' := by
  cases h with
  | proceeds hScript hHandler =>
    rw [List.append_nil]
    exact ⟨.inl hScript, hHandler⟩
  | records e hTx hFollows =>
    have hClosed : ∀ tx, session'.tx = some tx →
      Handles E (past ++ [e]) session'.script tx.handler := fun tx hOpen => by
      cases hTx.symm.trans hOpen
    rcases hFollows with ⟨a, hDone, _⟩ | ⟨_, hGoes⟩
    · exact ⟨.inr ⟨a, hDone, hTx⟩, hClosed⟩
    · exact ⟨.inl (by rw [hTx]; exact hGoes), hClosed⟩

theorem SessionEnds.runs {session : Session V κ ω} (h : SessionEnds E past session)
    (hRun : w.runSession sid session = some w') :
    ∃ session' added, w'.sessions sid = some session' ∧
      w'.shared.history = w.shared.history ++ added ∧
      Ending E past session' added := by
  have hScript : session.script.Ends E past (session.tx.map Tx.reads) := by
    rcases h.script with hScript | ⟨a, hDone, _⟩
    · exact hScript
    · simp [World.runSession, hDone] at hRun
  unfold World.runSession at hRun
  split at hRun
  next error tx hFail hTx =>
    cases hRun
    exact ⟨_, _, Function.update_self _ _ _, rfl,
      .records _ rfl (h.handler tx hTx error _ rfl (.inr (by rw [hFail]; rfl)))⟩
  next name locks write next hSql hTx =>
    rw [hSql, hTx] at hScript
    unfold World.autocommit at hRun
    dsimp only at hRun
    split at hRun <;> cases hRun
    exact ⟨_, _, Function.update_self _ _ _, rfl, .records _ hTx (hScript _ _ rfl rfl)⟩
  next name locks write next tx hSql hTx =>
    rw [hSql, hTx] at hScript
    unfold World.execute at hRun
    dsimp only at hRun
    split at hRun <;> cases hRun
    refine ⟨_, [], Function.update_self _ _ _, (List.append_nil _).symm,
      .proceeds (hScript _) fun tx' hTx' => ?_⟩
    cases hTx'
    exact (h.handler tx hTx).rest fun error hMay => by
      rw [hSql]
      exact ⟨_, hMay⟩
  next next _ hClock =>
    cases hRun
    rw [hClock] at hScript
    refine ⟨_, [], Function.update_self _ _ _, (List.append_nil _).symm,
      .proceeds (hScript _) fun tx hTx => ?_⟩
    exact (h.handler tx hTx).rest fun error hMay => by
      rw [hClock]
      exact ⟨_, hMay⟩
  next limit handler next hBegin hTx =>
    cases hRun
    rw [hBegin, hTx] at hScript
    refine ⟨_, [], Function.update_self _ _ _, (List.append_nil _).symm,
      .proceeds hScript.2 fun tx' hTx' => ?_⟩
    cases hTx'
    exact hScript.1
  next next tx hCommit hTx =>
    rw [hCommit, hTx] at hScript
    unfold World.commit at hRun
    split at hRun <;> cases hRun
    exact ⟨_, _, Function.update_self _ _ _, rfl, .records _ rfl (hScript _ rfl rfl)⟩
  next => cases hRun

/-- Any step of its own, unless it is killed. -/
theorem SessionEnds.steps {session : Session V κ ω} (h : SessionEnds E past session)
    (hSession : w.sessions sid = some session) (hStep : step program w action = some w')
    (hActor : Action.actor action = some sid) (hAlive : action ≠ .kill sid) :
    ∃ session' added, w'.sessions sid = some session' ∧
      w'.shared.history = w.shared.history ++ added ∧
      Ending E past session' added := by
  cases action with
  | tick ms => cases hActor
  | spawn other call =>
    cases hActor
    simp [World.step, hSession] at hStep
  | run other =>
    cases hActor
    obtain ⟨found, hFound, hRun⟩ := Option.bind_eq_some_iff.mp hStep
    cases hSession.symm.trans hFound
    exact h.runs hRun
  | answer other reply =>
    cases hActor
    obtain ⟨found, hFound, hAnswer⟩ := Option.bind_eq_some_iff.mp hStep
    cases hSession.symm.trans hFound
    unfold World.answerSession at hAnswer
    split at hAnswer
    next effect next hCall =>
      obtain ⟨_, _, hWorld⟩ := Option.map_eq_some_iff.mp hAnswer
      subst hWorld
      have hScript : (Script.call effect next).Ends E past (session.tx.map Tx.reads) := by
        rcases h.script with hScript | ⟨a, hDone, _⟩
        · exact hCall ▸ hScript
        · cases hCall.symm.trans hDone
      refine ⟨_, [], Function.update_self _ _ _, (List.append_nil _).symm,
        .proceeds ?_ fun tx' hTx' => ?_⟩
      · dsimp only
        rw [Option.map_map]
        exact hScript reply
      · obtain ⟨tx, hTx, rfl⟩ := Option.map_eq_some_iff.mp hTx'
        exact (h.handler tx hTx).rest fun error hMay => by
          rw [hCall]
          exact ⟨_, hMay⟩
    next => cases hAnswer
  | rollback other =>
    cases hActor
    obtain ⟨found, hFound, hRolled⟩ := Option.bind_eq_some_iff.mp hStep
    cases hSession.symm.trans hFound
    obtain ⟨tx, hTx, hWorld⟩ := Option.map_eq_some_iff.mp hRolled
    subst hWorld
    exact ⟨_, _, Function.update_self _ _ _, rfl,
      .records _ rfl (h.handler tx hTx V.rolledBack _ rfl (.inl rfl))⟩
  | kill other =>
    cases hActor
    exact absurd rfl hAlive

section Calls

variable (calls : κ → Prop) (endings : κ → Endings V κ ω) {w₀ : World V κ ω}
  (hSpawn : ∀ call s ext script, calls call → program call s = some (ext, script) →
    script.Ends (endings call) [] none)
  (hNone : ∀ sid, w₀.sessions sid = none) (h : Leads program w₀ w)

structure OwnEntries (w : World V κ ω) (call : κ) (past : List (Entry V κ)) : Prop where
  sublist : past.Sublist w.shared.history
  call : ∀ e ∈ past, e.call = call

omit [DecidableEq V.Res] in
theorem ownEntries_nil {call : κ} : OwnEntries w call [] :=
  ⟨List.nil_sublist _, fun e he => by cases he⟩

theorem OwnEntries.steps {session : Session V κ ω} (h : OwnEntries w session.call past)
    (hSession : w.sessions sid = some session) (hStep : step program w action = some w')
    (hActor : Action.actor action = some sid) {added : List (Entry V κ)}
    (hHistory : w'.shared.history = w.shared.history ++ added) :
    OwnEntries w' session.call (past ++ added) := by
  refine ⟨by rw [hHistory]; exact h.sublist.append_right added, fun e he => ?_⟩
  rcases List.mem_append.mp he with hOld | hNew
  · exact h.call e hOld
  rcases step_records hStep with ⟨hSame, _⟩ |
    ⟨other, session', e', hOther, hSession', hOf, hAdds, _⟩
  · rw [List.self_eq_append_right.mp (hSame.symm.trans hHistory)] at hNew
    cases hNew
  · obtain rfl := List.append_cancel_left (hHistory.symm.trans hAdds)
    obtain rfl := List.mem_singleton.mp hNew
    cases hActor.symm.trans hOther
    cases hSession.symm.trans hSession'
    exact hOf

theorem OwnEntries.later {call : κ} (h : OwnEntries w call past)
    (hStep : step program w action = some w') :
    OwnEntries w' call past := by
  refine ⟨?_, h.call⟩
  rcases step_records hStep with ⟨hSame, _⟩ | ⟨_, _, e, _, _, _, hAdds, _⟩
  · rw [hSame]
    exact h.sublist
  · rw [hAdds]
    exact h.sublist.trans (List.sublist_append_left _ _)

include hSpawn hNone h

/-- In every reachable world the sessions of such calls are in the middle of them or at their end.
-/
theorem ends_of_leads {session : Session V κ ω} (hSession : w.sessions sid = some session)
    (hCall : calls session.call) :
    ∃ past, OwnEntries w session.call past ∧ SessionEnds (endings session.call) past session := by
  induction h generalizing session with
  | refl => cases (hNone sid).symm.trans hSession
  | @tail middle last _ hStep ih =>
    obtain ⟨action, hStep⟩ := hStep
    by_cases hActor : Action.actor action = some sid
    · cases hBefore : middle.sessions sid with
      | none =>
        obtain ⟨call, rfl⟩ := spawn_of_step hStep hBefore hActor
        obtain ⟨_, _, ext, script, hProgram, hNew⟩ := step_spawn hStep
        cases hNew.symm.trans hSession
        exact ⟨[], ownEntries_nil, .inl (hSpawn call _ ext script hCall hProgram),
          fun tx hTx => by cases hTx⟩
      | some before =>
        have hAlive : action ≠ .kill sid := by
          rintro rfl
          cases (step_kill hStep).2.symm.trans hSession
        obtain ⟨after, hAfter, hSame⟩ := step_session hStep hBefore hAlive
        cases hSession.symm.trans hAfter
        obtain ⟨past, hOwn, hEnds⟩ := ih hBefore (hSame ▸ hCall)
        obtain ⟨session', added, hSession', hHistory, hEnding⟩ :=
          hEnds.steps hBefore hStep hActor hAlive
        cases hSession'.symm.trans hSession
        rw [hSame]
        exact ⟨past ++ added, hOwn.steps hBefore hStep hActor hHistory, hEnding.session⟩
    · rw [step_other hStep hActor] at hSession
      obtain ⟨past, hOwn, hEnds⟩ := ih hSession hCall
      exact ⟨past, hOwn.later hStep, hEnds⟩

/-- A step of such a call records nothing and changes nothing, or it records an entry, and then the
call has come to a result or goes on as it is said, unless it has been killed. -/
theorem ending_of_step (hStep : step program w action = some w')
    (hActor : Action.actor action = some sid) {call : κ} (hPlays : Plays w w' sid call)
    (hCall : calls call) : ∃ past, OwnEntries w call past ∧
    ((w'.shared.history = w.shared.history ∧ w'.shared.db = w.shared.db ∧
      ∀ a, w'.returned sid = some a → (endings call).Refused past a) ∨
    ∃ e, e.call = call ∧ w'.shared.history = w.shared.history ++ [e] ∧ e.before = w.shared.db ∧
      e.after = w'.shared.db ∧
      ((w'.sessions sid = none ∧ w'.shared.db = w.shared.db) ∨ ∃ session',
        w'.sessions sid = some session' ∧
        session'.tx = none ∧ (endings call).Follows past e session'.script
          (session'.script.Ends (endings call) (past ++ [e]) none))) := by
  by_cases hKilled : action = .kill sid
  · subst hKilled
    obtain ⟨hSame, hGone⟩ := step_kill hStep
    refine ⟨[], ownEntries_nil, ?_⟩
    have hNothing (a : ω) : w'.returned sid ≠ some a := by simp [returned, hGone]
    rcases step_records hStep with ⟨hHistory, hDb⟩ |
      ⟨other, session, e, hOther, hSession, hOf, hHistory, hFrom, hTo⟩
    · exact .inl ⟨hHistory, hDb, fun a hReturned => absurd hReturned (hNothing a)⟩
    · cases hActor.symm.trans hOther
      obtain ⟨played, hPlayed | hPlayed, rfl⟩ := hPlays
      · cases hSession.symm.trans hPlayed
        exact .inr ⟨e, hOf, hHistory, hFrom, hTo, .inl ⟨hGone, hSame⟩⟩
      · cases hGone.symm.trans hPlayed
  cases hBefore : w.sessions sid with
  | none =>
    refine ⟨[], ownEntries_nil, .inl ?_⟩
    obtain ⟨call', rfl⟩ := spawn_of_step hStep hBefore hActor
    obtain ⟨_, _, ext, script, hProgram, hNew⟩ := step_spawn hStep
    obtain ⟨played, hPlayed | hPlayed, rfl⟩ := hPlays
    · cases hBefore.symm.trans hPlayed
    cases hNew.symm.trans hPlayed
    rcases step_records hStep with ⟨hHistory, hDb⟩ | ⟨_, _, _, hOther, hSession, _⟩
    · refine ⟨hHistory, hDb, fun a hReturned => ?_⟩
      obtain ⟨found, hFound, hDone⟩ := returned_eq_some.mp hReturned
      cases hNew.symm.trans hFound
      dsimp only at hDone
      subst hDone
      exact hSpawn call' _ ext _ hCall hProgram
    · cases hActor.symm.trans hOther
      cases hBefore.symm.trans hSession
  | some before =>
    obtain ⟨after, hAfter, hSame⟩ := step_session hStep hBefore hKilled
    have hBeforeCall : before.call = call := by
      obtain ⟨played, hPlayed | hPlayed, rfl⟩ := hPlays
      · cases hBefore.symm.trans hPlayed
        rfl
      · cases hAfter.symm.trans hPlayed
        exact hSame.symm
    obtain ⟨past, hOwn, hEnds⟩ :=
      ends_of_leads calls endings hSpawn hNone h hBefore (hBeforeCall ▸ hCall)
    obtain ⟨session', added, hSession', hAdds, hEnding⟩ := hEnds.steps hBefore hStep hActor hKilled
    rw [hBeforeCall] at hEnding hOwn
    refine ⟨past, hOwn, ?_⟩
    cases hEnding with
    | proceeds hScript =>
      rw [List.append_nil] at hAdds
      rcases step_records hStep with ⟨_, hDb⟩ | ⟨_, _, e, _, _, _, hHistory, _⟩
      · refine .inl ⟨hAdds, hDb, fun a hReturned => ?_⟩
        obtain ⟨found, hFound, hDone⟩ := returned_eq_some.mp hReturned
        cases hSession'.symm.trans hFound
        rw [hDone] at hScript
        cases hTx : session'.tx with
        | none =>
          rw [hTx] at hScript
          exact hScript
        | some tx =>
          rw [hTx] at hScript
          exact hScript.elim
      · simpa [hAdds] using congrArg List.length hHistory
    | records e hTx hFollows =>
      rcases step_records hStep with ⟨hHistory, _⟩ |
        ⟨other, session, e', hOther, hSession, hOf, hHistory, hFrom, hTo⟩
      · simpa [hHistory] using congrArg List.length hAdds
      · cases hActor.symm.trans hOther
        cases hBefore.symm.trans hSession
        obtain rfl := List.singleton_inj.mp (List.append_cancel_left (hHistory.symm.trans hAdds))
        exact .inr ⟨e', hOf.trans hBeforeCall, hHistory, hFrom, hTo,
          .inr ⟨session', hSession', hTx, hFollows⟩⟩

end Calls

end World

end Pixaeron.Transactions
