import Pixaeron.Transactions.Alone

/-! # Straight runs

What a piece of a transaction does when it runs by itself and raises no error: from these rows it
goes to those rows, with this answer.
-/

namespace Pixaeron.Transactions.Script

variable {V : Vocabulary} {α β : Type} {now : Nat} {db db' db'' : V.Db} {a : α} {b : β}

/-- Alone, `p` goes from the rows `db` to the rows `db'` and answers `a`. -/
structure Runs (now : Nat) (p : Script V α) (db : V.Db) (a : α) (db' : V.Db) : Prop where
  eq : ∀ (ω : Type) (undo : Option (V.Err → Ending V ω))
    (next : α → Option (V.Err → Ending V ω) → V.Db → Ending V ω),
    p.aloneThen now undo db next = next a undo db'

namespace Runs

theorem done : Runs now (.done a : Script V α) db a db := ⟨fun _ _ _ => rfl⟩

theorem bind {p : Script V α} {k : α → Script V β} (h : Runs now p db a db')
    (hk : Runs now (k a) db' b db'') :
    Runs now (p.bind k) db b db'' := by
  refine ⟨fun ω undo next => ?_⟩
  rw [aloneThen_bind, h.eq]
  exact hk.eq ω undo next

theorem change {name : V.Name} {locks : View V → List V.Res} {write : View V → V.Db → V.Db}
    {answer : View V → α} :
    Runs now (Script.change name locks write answer) db (answer (viewAlone V now db))
      (write (viewAlone V now db) db) :=
  ⟨fun _ _ _ => rfl⟩

theorem changes {name : V.Name} {locks : View V → List V.Res} {write : View V → V.Db → V.Db}
    {answer : View V → α} (hAnswer : answer (viewAlone V now db) = a)
    (hWrite : write (viewAlone V now db) db = db') :
    Runs now (Script.change name locks write answer) db a db' := by
  subst hAnswer hWrite
  exact change

theorem lockRows {name : V.Name} {locks : View V → List V.Res} {answer : View V → α} :
    Runs now (Script.lockRows name locks answer) db (answer (viewAlone V now db)) db :=
  ⟨fun _ _ _ => rfl⟩

theorem query {name : V.Name} {answer : View V → α} :
    Runs now (Script.query name answer) db (answer (viewAlone V now db)) db :=
  ⟨fun _ _ _ => rfl⟩

theorem readClock : Runs now (Script.readClock : Script V Nat) db now db := ⟨fun _ _ _ => rfl⟩

theorem forEach {action : α → Script V Unit} {f : V.Db → α → V.Db}
    (h : ∀ a db, Runs now (action a) db () (f db a)) (l : List α) :
    Runs now (Script.forEach action l) db () (l.foldl f db) := by
  induction l generalizing db with
  | nil => exact done
  | cons a rest ih => exact bind (h a db) ih

theorem forEach_same {action : α → Script V Unit} {l : List α}
    (h : ∀ a ∈ l, Runs now (action a) db () db) :
    Runs now (Script.forEach action l) db () db := by
  induction l with
  | nil => exact done
  | cons a rest ih =>
    exact bind (h a List.mem_cons_self) (ih fun a hMem => h a (List.mem_cons_of_mem _ hMem))

theorem transaction {limit : Nat} {body : Script V α} {handler : V.Err → Script V α}
    (h : Runs now body db a db') :
    (Script.transaction limit body handler).alone now db = some (.ok a, db') := by
  show (body.bind fun a => .commit (.done a)).aloneThen now _ db ends = _
  rw [aloneThen_bind, h.eq]
  rfl

end Runs

end Pixaeron.Transactions.Script
