import Pixaeron.Transactions.World

/-! # Scripts that run alone

What a script does when nobody else moves: every statement sees what the ones before it have
left, and no time passes. A script that calls another system has no such run.
-/

namespace Pixaeron.Transactions

variable {V : Vocabulary} {α β ω : Type}

/-- How a run ends: with a value or an error, and the rows it leaves. -/
abbrev Ending (V : Vocabulary) (ω : Type) := Option (Except V.Err ω × V.Db)

namespace Script

/-- The view of a statement that runs alone. -/
def viewAlone (V : Vocabulary) (now : Nat) (db : V.Db) : View V := ⟨db, now, now, fun _ => false⟩

/-- `undo` is how the run goes on if the open transaction fails, and `next` what follows. -/
def aloneThen (now : Nat) : Script V α → Option (V.Err → Ending V ω) → V.Db →
    (α → Option (V.Err → Ending V ω) → V.Db → Ending V ω) → Ending V ω
  | .done a, undo, db, next => next a undo db
  | .fail e, none, db, _ => some (.error e, db)
  | .fail e, some undo, _, _ => undo e
  | .sql _ _ write rest, undo, db, next =>
    (rest (viewAlone V now db)).aloneThen now undo (write (viewAlone V now db) db) next
  | .call _ _, _, _, _ => none
  | .clock rest, undo, db, next => (rest now).aloneThen now undo db next
  | .begin _ handler rest, none, db, next =>
    rest.aloneThen now (some fun e => (handler e).aloneThen now none db next) db next
  | .begin _ _ _, some _, _, _ => none
  | .commit rest, some _, db, next => rest.aloneThen now none db next
  | .commit _, none, _, _ => none

def ends (value : ω) : Option (V.Err → Ending V ω) → V.Db → Ending V ω
  | none, db => some (.ok value, db)
  | some _, _ => none

def alone (now : Nat) (p : Script V ω) (db : V.Db) : Ending V ω := p.aloneThen now none db ends

variable {now : Nat} {undo : Option (V.Err → Ending V ω)} {db : V.Db}
  {next : β → Option (V.Err → Ending V ω) → V.Db → Ending V ω}

theorem aloneThen_bind (p : Script V α) (k : α → Script V β) :
    (p.bind k).aloneThen now undo db next = p.aloneThen now undo db fun a undo db =>
      (k a).aloneThen now undo db next := by
  induction p generalizing undo db with
  | done a => rfl
  | fail e => cases undo <;> rfl
  | sql name locks write rest ih => exact ih _
  | call effect rest ih => rfl
  | clock rest ih => exact ih now
  | begin limit handler rest ihHandler ih =>
    cases undo with
    | some undo => rfl
    | none =>
      refine Eq.trans ?_ ih
      exact congrArg (fun undo => (rest.bind k).aloneThen now (some undo) db next) (funext fun e =>
        ihHandler e)
  | commit rest ih =>
    cases undo with
    | none => rfl
    | some undo => exact ih

end Script

/-! ## The same run in a world -/

section World

variable {κ : Type} [DecidableEq V.Res] {program : World.Program V κ ω} {sid now : Nat} {call : κ}

/-- The session is at `script`, nobody else holds a lock, and it is `now`. -/
structure World.OnlyAt (w : World V κ ω) (sid now : Nat) (call : κ) (script : Script V ω)
    (tx : Option (Tx V ω)) : Prop where
  session : ∃ replies, w.sessions sid = some ⟨call, script, tx, replies⟩
  locks : ∀ r holder, w.owner r = some holder → holder = sid
  now : w.shared.now = now

/-- The session can end that way, with those rows. -/
def World.CanEnd (program : World.Program V κ ω) (w : World V κ ω) (sid now : Nat) (call : κ)
    (ending : Except V.Err ω) (db : V.Db) : Prop :=
  ∃ w', World.Leads program w w' ∧ w'.shared.db = db ∧
    w'.OnlyAt sid now call (match ending with | .ok value => .done value | .error e => .fail e) none

def Script.EndsAlone (program : World.Program V κ ω) (sid now : Nat) (call : κ)
    (p : Script V ω) : Prop :=
  ∀ w ending db, World.OnlyAt w sid now call p none → p.alone now w.shared.db = some (ending, db) →
    World.CanEnd program w sid now call ending db

variable {w w' : World V κ ω} {script : Script V ω} {tx : Option (Tx V ω)}
  {ending : Except V.Err ω} {db : V.Db}

theorem World.CanEnd.after (w' : World V κ ω) (h : World.CanEnd program w' sid now call ending db)
    (hRun : World.step program w (.run sid) = some w') :
    World.CanEnd program w sid now call ending db := by
  obtain ⟨w'', hLeads, hRest⟩ := h
  exact ⟨w'', .head ⟨_, hRun⟩ hLeads, hRest⟩

omit [DecidableEq V.Res] in
theorem World.OnlyAt.not_busy (h : w.OnlyAt sid now call script tx) (r : V.Res) :
    w.busyFor sid r = false := by
  unfold World.busyFor
  cases hOwner : w.owner r with
  | none => rfl
  | some holder => simp [h.locks r holder hOwner]

omit [DecidableEq V.Res] in
theorem World.OnlyAt.view (h : w.OnlyAt sid now call script tx) (db : V.Db) :
    w.view sid db now = Script.viewAlone V now db :=
  congrArg₂ (View.mk db now) h.now (funext h.not_busy)

omit [DecidableEq V.Res] in
theorem World.OnlyAt.no_wait (h : w.OnlyAt sid now call script tx) (rows : List V.Res)
    (db : V.Db) (t : Nat) :
    (rows.all fun r => !(w.view sid db t).busy r) = true := by
  simp [World.view, h.not_busy]

/-- What the session's transaction would leave if it committed now. -/
def World.rowsOf (w : World V κ ω) (tx : Option (Tx V ω)) : V.Db :=
  (tx.map Tx.pending).getD id w.shared.db

/-- How the session goes on if its transaction fails. -/
def World.undoOf (w : World V κ ω) (now : Nat) (tx : Option (Tx V ω)) :
    Option (V.Err → Ending V ω) :=
  tx.map fun tx e => (tx.handler e).alone now w.shared.db

theorem Script.endsAlone_within (p : Script V ω) : ∀ w tx, w.OnlyAt sid now call p tx →
    (∀ t, tx = some t → t.startedAt = now ∧ ∀ e, (t.handler e).EndsAlone program sid now call) →
    ∀ {ending db}, p.aloneThen now (w.undoOf now tx) (w.rowsOf tx) ends = some (ending, db) →
      World.CanEnd program w sid now call ending db := by
  induction p with
  | done value =>
    intro w tx hOnly _ ending db h
    cases tx with
    | none =>
      cases h
      exact ⟨w, .refl, rfl, hOnly⟩
    | some tx => cases h
  | fail error =>
    intro w tx hOnly hTx ending db h
    cases tx with
    | none =>
      cases h
      exact ⟨w, .refl, rfl, hOnly⟩
    | some tx =>
      obtain ⟨replies, hSession⟩ := hOnly.session
      let w' := w.undo sid ⟨call, .fail error, some tx, replies⟩ tx error
      have hStep : World.step program w (.run sid) = some w' := by
        simp [World.step, hSession, World.runSession, w']
      refine World.CanEnd.after w' ((hTx tx rfl).2 error w' ending db
        ⟨⟨replies, ?_⟩, fun r holder hOwner => ?_, hOnly.now⟩ h) hStep
      · simp [w', World.undo]
      · refine hOnly.locks r holder ?_
        simp only [w', World.undo, World.release] at hOwner
        split at hOwner <;> simp_all
  | sql name locks write rest ih =>
    intro w tx hOnly hTx ending db h
    obtain ⟨replies, hSession⟩ := hOnly.session
    have hView := hOnly.view (w.rowsOf tx)
    cases tx with
    | none =>
      refine World.CanEnd.after { w with
        shared :=
          w.shared.record (w.shared.entry call w.shared.now [(name, w.shared.db)] [] replies none
          (write (viewAlone V now w.shared.db) w.shared.db))
        sessions := Function.update w.sessions sid
          (some ⟨call, rest (viewAlone V now w.shared.db), none, replies⟩) } ?_ ?_
      · refine ih (viewAlone V now w.shared.db) _ none ?_ ?_ ?_
        · exact ⟨⟨replies, Function.update_self ..⟩, hOnly.locks, hOnly.now⟩
        · exact fun _ hNone => by cases hNone
        · exact h
      · simp only [World.step, hSession, Option.bind_some, World.runSession, World.autocommit]
        rw [if_pos (hOnly.no_wait _ _ _), hOnly.now, show w.view sid w.shared.db now = _ from hView]
        rfl
    | some tx =>
      obtain ⟨hStarted, hHandler⟩ := hTx tx rfl
      let v := viewAlone V now (tx.pending w.shared.db)
      let tx' : Tx V ω := { tx with
        startedAt := now
        pending := write v ∘ tx.pending
        reads := tx.reads ++ [(name, tx.pending w.shared.db)] }
      refine World.CanEnd.after { w with
        owner := w.acquire sid (locks v)
        sessions := Function.update w.sessions sid (some ⟨call, rest v, some tx', replies⟩) } ?_ ?_
      · refine ih v _ (some tx') ?_ (fun t hSome => ?_) ?_
        · refine ⟨⟨replies, Function.update_self ..⟩, fun r holder hOwner => ?_, hOnly.now⟩
          unfold World.acquire at hOwner
          dsimp only at hOwner
          split at hOwner
          · exact (Option.some.inj hOwner).symm
          · exact hOnly.locks r holder hOwner
        · cases hSome
          exact ⟨rfl, hHandler⟩
        · exact h
      · simp only [World.step, hSession, Option.bind_some, World.runSession, World.execute]
        rw [if_pos ⟨by rw [hOnly.now, hStarted]; exact Nat.le_add_right _ _, hOnly.no_wait _ _ _⟩,
          hStarted, show w.view sid (tx.pending w.shared.db) now = _ from hView]
        rfl
  | call effect rest ih =>
    intro w tx hOnly hTx ending db h
    cases h
  | clock rest ih =>
    intro w tx hOnly hTx ending db h
    obtain ⟨replies, hSession⟩ := hOnly.session
    refine World.CanEnd.after (w.setSession sid ⟨call, rest now, tx, replies⟩) ?_ ?_
    · refine ih now _ tx ?_ hTx ?_
      · exact ⟨⟨replies, Function.update_self ..⟩, hOnly.locks, hOnly.now⟩
      · exact h
    · simp only [World.step, hSession, Option.bind_some, World.runSession, hOnly.now]
  | begin limit handler rest ihHandler ih =>
    intro w tx hOnly hTx ending db h
    obtain ⟨replies, hSession⟩ := hOnly.session
    cases tx with
    | some tx => cases h
    | none =>
      refine World.CanEnd.after (w.setSession sid
        ⟨call, rest, some ⟨now, limit, id, [], [], handler⟩, replies⟩) ?_ ?_
      · refine ih _ (some ⟨now, limit, id, [], [], handler⟩) ?_ (fun t hSome => ?_) ?_
        · exact ⟨⟨replies, Function.update_self ..⟩, hOnly.locks, hOnly.now⟩
        · cases hSome
          exact ⟨rfl, fun e w' ending' db' hOnly' h' =>
            ihHandler e w' none hOnly' (fun _ hNone => by cases hNone) h'⟩
        · exact h
      · simp only [World.step, hSession, Option.bind_some, World.runSession, hOnly.now]
  | commit rest ih =>
    intro w tx hOnly hTx ending db h
    obtain ⟨replies, hSession⟩ := hOnly.session
    cases tx with
    | none => cases h
    | some tx =>
      obtain ⟨hStarted, _⟩ := hTx tx rfl
      refine World.CanEnd.after {
        shared :=
          w.shared.record (w.shared.entry call tx.startedAt tx.reads tx.answers replies none
          (tx.pending w.shared.db))
        owner := w.release sid
        sessions := Function.update w.sessions sid (some ⟨call, rest, none, replies⟩) } ?_ ?_
      · refine ih _ none ?_ ?_ ?_
        · refine ⟨⟨replies, Function.update_self ..⟩, fun r holder hOwner => ?_, hOnly.now⟩
          simp only [World.release] at hOwner
          split at hOwner
          · cases hOwner
          · exact hOnly.locks r holder hOwner
        · exact fun _ hNone => by cases hNone
        · exact h
      · simp only [World.step, hSession, Option.bind_some, World.runSession, World.commit]
        rw [if_pos (by rw [hOnly.now, hStarted]; exact Nat.le_add_right _ _)]

/-- What a script does alone, its session can do in any world where nobody else holds a lock. -/
theorem Script.endsAlone (p : Script V ω) : p.EndsAlone program sid now call :=
  fun _ _ _ hOnly h => p.endsAlone_within _ none hOnly (fun _ hNone => by cases hNone) h

end World

end Pixaeron.Transactions
