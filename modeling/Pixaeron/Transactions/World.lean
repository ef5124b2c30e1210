import Mathlib.Logic.Relation
import Pixaeron.Transactions.Script

/-! # Interleaved sessions

A world is the committed state, a table of row locks and any number of sessions, each in the
middle of its script. One action lets one session take its next step, so a sequence of actions
is an arbitrary interleaving. Rows a transaction has written stay invisible to the others until
it commits, and rows it has locked stay locked until then.
-/

namespace Pixaeron.Transactions

variable (V : Vocabulary) (κ ω : Type)

structure Tx where
  startedAt : Nat
  limit : Nat
  /-- The transaction's own writes, replayed on the committed rows. -/
  pending : V.Db → V.Db
  reads : List (V.Name × V.Db)
  answers : List V.Reply
  handler : V.Err → Script V ω

structure Session where
  call : κ
  script : Script V ω
  tx : Option (Tx V ω)
  replies : List V.Reply

/-- A finished transaction or single statement of some call. Entries are an observer's record;
no script reads them. `reads` holds what each of its statements saw, `answers` what the other
systems answered while it was open and `replies` what they had answered to the call so far. -/
structure Entry where
  call : κ
  startedAt : Nat
  endedAt : Nat
  reads : List (V.Name × V.Db)
  answers : List V.Reply
  replies : List V.Reply
  error : Option V.Err
  before : V.Db
  after : V.Db

structure Shared where
  now : Nat
  db : V.Db
  ext : V.Ext
  history : List (Entry V κ)

structure World where
  shared : Shared V κ
  owner : V.Res → Option Nat
  sessions : Nat → Option (Session V κ ω)

/-- Time passes, a call starts, a session takes a step of its own, a session gets an answer
from outside, the database gives a transaction up, or a session's process dies. -/
inductive Action where
  | tick (ms : Nat)
  | spawn (sid : Nat) (call : κ)
  | run (sid : Nat)
  | answer (sid : Nat) (reply : V.Reply)
  | rollback (sid : Nat)
  | kill (sid : Nat)

variable {V κ ω}

def Entry.saw [DecidableEq V.Name] (e : Entry V κ) (name : V.Name) : Option V.Db :=
  (e.reads.find? (·.1 = name)).map (·.2)

namespace Shared

def tick (s : Shared V κ) (ms : Nat) : Shared V κ := { s with now := s.now + ms }

def setExt (s : Shared V κ) (ext : V.Ext) : Shared V κ := { s with ext := ext }

/-- The entry of a transaction of `call` that ends now and leaves the rows `after`. -/
def entry (s : Shared V κ) (call : κ) (startedAt : Nat) (reads : List (V.Name × V.Db))
    (answers replies : List V.Reply) (error : Option V.Err) (after : V.Db) : Entry V κ :=
  { call, startedAt, endedAt := s.now, reads, answers, replies, error, before := s.db, after }

def record (s : Shared V κ) (e : Entry V κ) : Shared V κ :=
  { s with db := e.after, history := s.history ++ [e] }

@[simp] theorem record_now (s : Shared V κ) (e : Entry V κ) : (s.record e).now = s.now := rfl

@[simp] theorem record_db (s : Shared V κ) (e : Entry V κ) : (s.record e).db = e.after := rfl

@[simp] theorem record_ext (s : Shared V κ) (e : Entry V κ) : (s.record e).ext = s.ext := rfl

@[simp] theorem record_history (s : Shared V κ) (e : Entry V κ) :
    (s.record e).history = s.history ++ [e] := rfl

@[simp] theorem setExt_db (s : Shared V κ) (x : V.Ext) : (s.setExt x).db = s.db := rfl

@[simp] theorem setExt_now (s : Shared V κ) (x : V.Ext) : (s.setExt x).now = s.now := rfl

@[simp] theorem setExt_ext (s : Shared V κ) (x : V.Ext) : (s.setExt x).ext = x := rfl

@[simp] theorem setExt_history (s : Shared V κ) (x : V.Ext) :
    (s.setExt x).history = s.history := rfl

@[simp] theorem tick_db (s : Shared V κ) (d : Nat) : (s.tick d).db = s.db := rfl

@[simp] theorem tick_now (s : Shared V κ) (d : Nat) : (s.tick d).now = s.now + d := rfl

@[simp] theorem tick_ext (s : Shared V κ) (d : Nat) : (s.tick d).ext = s.ext := rfl

@[simp] theorem tick_history (s : Shared V κ) (d : Nat) : (s.tick d).history = s.history := rfl

end Shared

namespace World

variable [DecidableEq V.Res]

def setSession (w : World V κ ω) (sid : Nat) (session : Session V κ ω) : World V κ ω :=
  { w with sessions := Function.update w.sessions sid (some session) }

def busyFor (w : World V κ ω) (sid : Nat) (r : V.Res) : Bool :=
  match w.owner r with
  | none => false
  | some holder => holder != sid

def acquire (w : World V κ ω) (sid : Nat) (rows : List V.Res) : V.Res → Option Nat :=
  fun r => if r ∈ rows then some sid else w.owner r

def release (w : World V κ ω) (sid : Nat) : V.Res → Option Nat :=
  fun r => if w.owner r = some sid then none else w.owner r

def view (w : World V κ ω) (sid : Nat) (db : V.Db) (now : Nat) : View V :=
  { db, now, clock := w.shared.now, busy := w.busyFor sid }

/-- The transaction ends with `error`: nothing of it is kept and its handler goes on. -/
def undo (w : World V κ ω) (sid : Nat) (session : Session V κ ω) (tx : Tx V ω) (error : V.Err) :
    World V κ ω :=
  { shared := w.shared.record
      (w.shared.entry session.call tx.startedAt tx.reads tx.answers session.replies
        (some error) w.shared.db)
    owner := w.release sid
    sessions := Function.update w.sessions sid
      (some { session with script := tx.handler error, tx := none }) }

/-- A statement outside a transaction commits by itself. -/
def autocommit (w : World V κ ω) (sid : Nat) (session : Session V κ ω) (name : V.Name)
    (locks : View V → List V.Res) (write : View V → V.Db → V.Db) (next : View V → Script V ω) :
    Option (World V κ ω) :=
  let v := w.view sid w.shared.db w.shared.now
  if (locks v).all fun r => !v.busy r then
    some { w with
      shared := w.shared.record (w.shared.entry session.call w.shared.now [(name, v.db)]
        [] session.replies none (write v w.shared.db))
      sessions := Function.update w.sessions sid (some { session with script := next v }) }
  else none

/-- A statement of a transaction waits for the rows it locks; a transaction past its time limit
runs no more statements. -/
def execute (w : World V κ ω) (sid : Nat) (session : Session V κ ω) (tx : Tx V ω) (name : V.Name)
    (locks : View V → List V.Res) (write : View V → V.Db → V.Db) (next : View V → Script V ω) :
    Option (World V κ ω) :=
  let v := w.view sid (tx.pending w.shared.db) tx.startedAt
  if w.shared.now ≤ tx.startedAt + tx.limit ∧ (locks v).all fun r => !v.busy r then
    some { w with
      owner := w.acquire sid (locks v)
      sessions := Function.update w.sessions sid (some { session with
        script := next v
        tx := some { tx with
          pending := write v ∘ tx.pending
          reads := tx.reads ++ [(name, v.db)] } }) }
  else none

def commit (w : World V κ ω) (sid : Nat) (session : Session V κ ω) (tx : Tx V ω)
    (next : Script V ω) :
    Option (World V κ ω) :=
  if w.shared.now ≤ tx.startedAt + tx.limit then
    some {
      shared := w.shared.record (w.shared.entry session.call tx.startedAt tx.reads tx.answers
        session.replies none (tx.pending w.shared.db))
      owner := w.release sid
      sessions :=
        Function.update w.sessions sid (some { session with script := next, tx := none }) }
  else none

/-- The next step of a session that needs no answer from outside. -/
def runSession (w : World V κ ω) (sid : Nat) (session : Session V κ ω) : Option (World V κ ω) :=
  match session.script, session.tx with
  | .fail e, some tx => some (w.undo sid session tx e)
  | .sql name locks write next, none => w.autocommit sid session name locks write next
  | .sql name locks write next, some tx => w.execute sid session tx name locks write next
  | .clock next, _ => some (w.setSession sid { session with script := next w.shared.now })
  | .begin limit handler next, none =>
    some (w.setSession sid { session with
      script := next, tx := some ⟨w.shared.now, limit, id, [], [], handler⟩ })
  | .commit next, some tx => w.commit sid session tx next
  | _, _ => none

def answerSession (w : World V κ ω) (sid : Nat) (session : Session V κ ω) (reply : V.Reply) :
    Option (World V κ ω) :=
  match session.script with
  | .call effect next => (effect reply w.shared.ext).map fun ext =>
    { w.setSession sid { session with
        script := next reply
        tx := session.tx.map fun tx => { tx with answers := tx.answers ++ [reply] }
        replies := session.replies ++ [reply] } with
      shared := w.shared.setExt ext }
  | _ => none

/-- The calls a system serves: the script of a call and the state of the other systems once it
has started, `none` when the call cannot start. -/
abbrev Program (V : Vocabulary) (κ ω : Type) := κ → Shared V κ → Option (V.Ext × Script V ω)

def step (program : Program V κ ω) (w : World V κ ω) : Action V κ → Option (World V κ ω)
  | .tick ms => some { w with shared := w.shared.tick ms }
  | .spawn sid call =>
    match w.sessions sid with
    | some _ => none
    | none => (program call w.shared).map fun (ext, script) =>
      { w.setSession sid ⟨call, script, none, []⟩ with shared := w.shared.setExt ext }
  | .run sid => (w.sessions sid).bind (w.runSession sid)
  | .answer sid reply => (w.sessions sid).bind fun session => w.answerSession sid session reply
  | .rollback sid => (w.sessions sid).bind fun session =>
    session.tx.map fun tx => w.undo sid session tx V.rolledBack
  | .kill sid => (w.sessions sid).map fun session =>
    let w' := match session.tx with
      | some tx => w.undo sid session tx V.rolledBack
      | none => w
    { w' with sessions := Function.update w'.sessions sid none }

def run (program : Program V κ ω) (w : World V κ ω)
    (actions : List (Action V κ)) : Option (World V κ ω) :=
  actions.foldlM (step program) w

theorem run_append {program : Program V κ ω} {w : World V κ ω} {first later : List (Action V κ)} :
    run program w (first ++ later) = (run program w first).bind fun w' => run program w' later :=
  List.foldlM_append

theorem run_singleton {program : Program V κ ω} {w : World V κ ω} {action : Action V κ} :
    run program w [action] = step program w action := bind_pure (step program w action)

/-- Some sequence of actions leads from the first world to the second. -/
def Leads (program : Program V κ ω) : World V κ ω → World V κ ω → Prop :=
  Relation.ReflTransGen fun w w' => ∃ action, step program w action = some w'

theorem leads_of_run {program : Program V κ ω} {w w' : World V κ ω} {actions : List (Action V κ)}
    (h : run program w actions = some w') : Leads program w w' := by
  induction actions generalizing w with
  | nil =>
    cases h
    exact .refl
  | cons action rest ih =>
    obtain ⟨middle, hStep, hRest⟩ := Option.bind_eq_some_iff.mp h
    exact .head ⟨action, hStep⟩ (ih hRest)

/-- No session and no lock, at time `now`. -/
def idle (now : Nat) (db : V.Db) (ext : V.Ext) : World V κ ω where
  shared := { now, db, ext, history := [] }
  owner _ := none
  sessions _ := none

end World

end Pixaeron.Transactions
