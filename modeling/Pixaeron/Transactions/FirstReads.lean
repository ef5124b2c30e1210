import Pixaeron.Transactions.Following

/-! # What a transaction has read first

The first statement of a transaction reads committed rows as they are at some time after the
transaction has begun.
-/

namespace Pixaeron.Transactions

variable {V : Vocabulary} {κ ω : Type}

namespace World

variable {w₀ w w' : World V κ ω} {sid : Nat} {action : Action V κ}

/-- Where an open transaction comes from, one step earlier. -/
inductive TxOrigin (w : World V κ ω) (sid : Nat) (tx : Tx V ω) : Prop
  | same (session : Session V κ ω) (old : Tx V ω) : w.sessions sid = some session →
      session.tx = some old →
    tx.reads = old.reads → tx.pending = old.pending → TxOrigin w sid tx
  | begun : tx.reads = [] → tx.pending = id → TxOrigin w sid tx
  | read (session : Session V κ ω) (old : Tx V ω) (name : V.Name) : w.sessions sid = some session →
    session.tx = some old → tx.reads = old.reads ++ [(name, old.pending w.shared.db)] →
      TxOrigin w sid tx

theorem TxOrigin.unchanged {session : Session V κ ω} {tx : Tx V ω}
    (h : w.sessions sid = some session) (hTx : session.tx = some tx) : TxOrigin w sid tx :=
  .same session tx h hTx rfl rfl

variable [DecidableEq V.Res] {program : Program V κ ω}

theorem tx_origin (hStep : step program w action = some w') {session : Session V κ ω} {tx : Tx V ω}
    (hSession : w'.sessions sid = some session) (hTx : session.tx = some tx) :
    TxOrigin w sid tx := by
  by_cases hActor : Action.actor action = some sid
  swap
  · exact .unchanged ((step_other hStep hActor).symm.trans hSession) hTx
  have hMine {f : Nat → Option (Session V κ ω)} {new : Session V κ ω}
      (hNew : Function.update f sid (some new) sid = some session) : new = session := by
    rw [Function.update_self, Option.some.injEq] at hNew
    exact hNew
  cases action with
  | tick ms => cases hActor
  | spawn other call =>
    cases hActor
    simp only [World.step] at hStep
    split at hStep
    · cases hStep
    · obtain ⟨_, _, hWorld⟩ := Option.map_eq_some_iff.mp hStep
      subst hWorld
      rw [← hMine hSession] at hTx
      cases hTx
  | run other =>
    cases hActor
    obtain ⟨old, hOld, hRun⟩ := Option.bind_eq_some_iff.mp hStep
    unfold World.runSession at hRun
    split at hRun
    next error oldTx hFail hOldTx =>
      cases hRun
      rw [← hMine hSession] at hTx
      cases hTx
    next name locks write next hSql hOldTx =>
      unfold World.autocommit at hRun
      dsimp only at hRun
      split at hRun <;> cases hRun
      rw [← hMine hSession] at hTx
      cases hOldTx.symm.trans hTx
    next name locks write next oldTx hSql hOldTx =>
      unfold World.execute at hRun
      dsimp only at hRun
      split at hRun <;> cases hRun
      rw [← hMine hSession, Option.some.injEq] at hTx
      subst hTx
      exact .read old oldTx name hOld hOldTx rfl
    next next _ hClock =>
      cases hRun
      rw [← hMine hSession] at hTx
      exact .unchanged hOld hTx
    next limit handler next hBegin hOldTx =>
      cases hRun
      rw [← hMine hSession, Option.some.injEq] at hTx
      subst hTx
      exact .begun rfl rfl
    next next oldTx hCommit hOldTx =>
      unfold World.commit at hRun
      split at hRun <;> cases hRun
      rw [← hMine hSession] at hTx
      cases hTx
    next => cases hRun
  | answer other reply =>
    cases hActor
    obtain ⟨old, hOld, hAnswer⟩ := Option.bind_eq_some_iff.mp hStep
    unfold World.answerSession at hAnswer
    split at hAnswer
    · obtain ⟨_, _, hWorld⟩ := Option.map_eq_some_iff.mp hAnswer
      subst hWorld
      rw [← hMine hSession] at hTx
      obtain ⟨oldTx, hOldTx, rfl⟩ := Option.map_eq_some_iff.mp hTx
      exact .same old oldTx hOld hOldTx rfl rfl
    · cases hAnswer
  | rollback other =>
    cases hActor
    obtain ⟨old, _, hRolled⟩ := Option.bind_eq_some_iff.mp hStep
    obtain ⟨_, _, hWorld⟩ := Option.map_eq_some_iff.mp hRolled
    subst hWorld
    rw [← hMine hSession] at hTx
    cases hTx
  | kill other =>
    cases hActor
    obtain ⟨old, _, hWorld⟩ := Option.map_eq_some_iff.mp hStep
    subst hWorld
    cases (Function.update_self _ _ _).symm.trans hSession

/-- The rows are those of a world between the two. -/
def Between (program : Program V κ ω) (w₀ w : World V κ ω) (db : V.Db) : Prop :=
  ∃ middle, Leads program w₀ middle ∧ Leads program middle w ∧ middle.shared.db = db

/-- The transaction has not read yet, or has first read rows since `w₀`. -/
def ReadsSince (program : Program V κ ω) (w₀ w : World V κ ω) (tx : Tx V ω) : Prop :=
  (tx.reads = [] ∧ tx.pending = id) ∨ ∃ name db rest, tx.reads = (name, db) :: rest ∧
    Between program w₀ w db

/-- A transaction that a session begins after `w₀` reads rows since `w₀`. -/
theorem readsSince_of_leads (hOutside : ∀ session,
      w₀.sessions sid = some session → session.tx = none) (h : Leads program w₀ w)
    {session : Session V κ ω} {tx : Tx V ω} (hSession : w.sessions sid = some session)
    (hTx : session.tx = some tx) : ReadsSince program w₀ w tx := by
  induction h generalizing session tx with
  | refl => cases (hOutside session hSession).symm.trans hTx
  | @tail middle last hMiddle hStep ih =>
    obtain ⟨action, hStep⟩ := hStep
    have hLater {db : V.Db} (hBetween : Between program w₀ middle db) : Between program w₀
      last db := by
      obtain ⟨found, hFrom, hTo, hDb⟩ := hBetween
      exact ⟨found, hFrom, hTo.tail ⟨action, hStep⟩, hDb⟩
    cases tx_origin hStep hSession hTx with
    | same old oldTx hOld hOldTx hReads hPending =>
      rcases ih hOld hOldTx with ⟨hNone, hId⟩ | ⟨name, db, rest, hHead, hBetween⟩
      · exact .inl ⟨hReads.trans hNone, hPending.trans hId⟩
      · exact .inr ⟨name, db, rest, hReads.trans hHead, hLater hBetween⟩
    | begun hReads hPending => exact .inl ⟨hReads, hPending⟩
    | read old oldTx name hOld hOldTx hReads =>
      rcases ih hOld hOldTx with ⟨hNone, hId⟩ | ⟨first, db, rest, hHead, hBetween⟩
      · refine .inr ⟨name, middle.shared.db, [], ?_, middle, hMiddle, .single ⟨action, hStep⟩, rfl⟩
        rw [hReads, hNone, hId]
        rfl
      · refine .inr ⟨first, db, rest ++ [(name, oldTx.pending middle.shared.db)], ?_,
          hLater hBetween⟩
        rw [hReads, hHead]
        rfl

theorem head_of_entry (hOutside : ∀ session, w₀.sessions sid = some session → session.tx = none)
    (h : Leads program w₀ w) (hStep : step program w (.run sid) = some w') {e : Entry V κ}
    (hRecords : w'.shared.history = w.shared.history ++ [e]) {name : V.Name} {db : V.Db}
    (hHead : e.reads.head? = some (name, db)) : Between program w₀ w db := by
  obtain ⟨session, hSession, hRun⟩ := Option.bind_eq_some_iff.mp hStep
  have hOfTx {tx : Tx V ω} (hTx : session.tx = some tx)
    (hReads : e.reads = tx.reads) : Between program w₀ w db := by
    rcases readsSince_of_leads hOutside h hSession hTx with ⟨hNone, _⟩ |
      ⟨first, db', rest, hFirst, hBetween⟩
    · rw [hReads, hNone] at hHead
      cases hHead
    · rw [hReads, hFirst] at hHead
      cases hHead
      exact hBetween
  have hNothing (hSame : w'.shared.history = w.shared.history) : False := by
    rw [hSame] at hRecords
    simpa using congrArg List.length hRecords
  have hEntry {e' : Entry V κ} (hNew : w'.shared.history = w.shared.history ++ [e']) : e = e' :=
    List.singleton_inj.mp (List.append_cancel_left (hRecords.symm.trans hNew))
  unfold World.runSession at hRun
  split at hRun
  next error tx hFail hTx =>
    cases hRun
    exact hOfTx hTx (congrArg Entry.reads (hEntry rfl))
  next name' locks write next hSql hTx =>
    unfold World.autocommit at hRun
    dsimp only at hRun
    split at hRun <;> cases hRun
    rw [hEntry rfl] at hHead
    cases hHead
    exact ⟨w, h, .refl, rfl⟩
  next name' locks write next tx hSql hTx =>
    unfold World.execute at hRun
    dsimp only at hRun
    split at hRun <;> cases hRun
    exact (hNothing rfl).elim
  next next _ hClock =>
    cases hRun
    exact (hNothing rfl).elim
  next limit handler next hBegin hTx =>
    cases hRun
    exact (hNothing rfl).elim
  next next tx hCommit hTx =>
    unfold World.commit at hRun
    split at hRun <;> cases hRun
    exact hOfTx hTx (congrArg Entry.reads (hEntry rfl))
  next => cases hRun

end World

end Pixaeron.Transactions
