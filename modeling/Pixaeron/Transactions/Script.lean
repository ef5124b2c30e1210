import Mathlib.Data.List.Basic
import Mathlib.Logic.Function.Basic

/-! # Transaction scripts over a READ COMMITTED database

A script is the body of a service call: SQL statements, calls to other systems and
transaction brackets, in the order in which the program issues them. A statement sees the
committed rows as they are when it runs, together with the writes of its own transaction.
-/

namespace Pixaeron.Transactions

/-- What scripts are written over: committed rows, lockable resources, the state of the other
systems, the answers those systems give, errors, and names for the statements. -/
structure Vocabulary where
  Db : Type
  Res : Type
  Ext : Type
  Reply : Type
  Err : Type
  Name : Type
  /-- The error a caller sees when the database gives its transaction up. -/
  rolledBack : Err

/-- What one statement sees. `now` is the database's `now()`, fixed when the transaction
began; `clock` is the wall clock; `busy` tells which rows another transaction has locked. -/
structure View (V : Vocabulary) where
  db : V.Db
  now : Nat
  clock : Nat
  busy : V.Res → Bool

/-- A statement locks `locks v` and changes the rows by `write v`. A `call` leaves the
database: `effect reply` is its effect on the other system, `none` when that answer cannot
come. Between `begin` and `commit` the script is inside a transaction; if that fails, the
script goes on with `handler`. -/
inductive Script (V : Vocabulary) (α : Type) : Type where
  | done (value : α)
  | fail (error : V.Err)
  | sql (name : V.Name) (locks : View V → List V.Res) (write : View V → V.Db → V.Db)
      (next : View V → Script V α)
  | call (effect : V.Reply → V.Ext → Option V.Ext) (next : V.Reply → Script V α)
  | clock (next : Nat → Script V α)
  | begin (limit : Nat) (handler : V.Err → Script V α) (next : Script V α)
  | commit (next : Script V α)

namespace Script

variable {V : Vocabulary} {α β : Type}

def bind : Script V α → (α → Script V β) → Script V β
  | .done a, k => k a
  | .fail e, _ => .fail e
  | .sql name locks write next, k => .sql name locks write fun v => (next v).bind k
  | .call effect next, k => .call effect fun reply => (next reply).bind k
  | .clock next, k => .clock fun t => (next t).bind k
  | .begin limit handler next, k => .begin limit (fun e => (handler e).bind k) (next.bind k)
  | .commit next, k => .commit (next.bind k)

instance : Monad (Script V) where
  pure := .done
  bind := bind

@[simp] theorem pure_eq (a : α) : (pure a : Script V α) = .done a := rfl

@[simp] theorem bind_eq (p : Script V α) (k : α → Script V β) : p >>= k = p.bind k := rfl

@[simp] theorem bind_done (a : α) (k : α → Script V β) :
    (Script.done a : Script V α).bind k = k a := rfl

theorem bind_assoc {γ : Type} (p : Script V α) (k : α → Script V β) (k' : β → Script V γ) :
    (p.bind k).bind k' = p.bind fun a => (k a).bind k' := by
  induction p with
  | done a => rfl
  | fail e => rfl
  | sql name locks write next ih => exact congrArg (Script.sql name locks write) (funext ih)
  | call effect next ih => exact congrArg (Script.call effect) (funext ih)
  | clock next ih => exact congrArg Script.clock (funext ih)
  | begin limit handler next ihHandler ih =>
    exact congrArg₂ (Script.begin limit) (funext ihHandler) ih
  | commit next ih => exact congrArg Script.commit ih

/-- A statement that only reads: no lock, no write, and the answer is `query` of the view. -/
def query (name : V.Name) (answer : View V → α) : Script V α :=
  .sql name (fun _ => []) (fun _ => id) fun v => .done (answer v)

/-- `SELECT … FOR UPDATE`: locks the rows it answers with. -/
def lockRows (name : V.Name) (locks : View V → List V.Res) (answer : View V → α) : Script V α :=
  .sql name locks (fun _ => id) fun v => .done (answer v)

/-- A data-changing statement, with the answer its caller gets. -/
def change (name : V.Name) (locks : View V → List V.Res) (write : View V → V.Db → V.Db)
    (answer : View V → α) : Script V α :=
  .sql name locks write fun v => .done (answer v)

def readClock : Script V Nat := .clock .done

def callOut (effect : V.Reply → V.Ext → Option V.Ext) : Script V V.Reply := .call effect .done

/-- An interactive transaction: `body` between BEGIN and COMMIT, given up after `limit`
milliseconds; an error of the body, or of the database, goes to `handler`. -/
def transaction (limit : Nat) (body : Script V α) (handler : V.Err → Script V α) : Script V α :=
  .begin limit handler (body.bind fun a => .commit (.done a))

/-- Runs `action` for every element, one after the other. -/
def forEach (action : α → Script V Unit) : List α → Script V Unit
  | [] => .done ()
  | a :: rest => (action a).bind fun _ => forEach action rest

end Script

end Pixaeron.Transactions
