import Pixaeron.Transactions.Soundness

/-! # Rules for scripts

One rule for each construct of a script. Each asks for what follows from any state that the
others may have led to in the meantime.
-/

namespace Pixaeron.Transactions

variable {V : Vocabulary} {κ : Type} {D : Discipline V κ} {call : κ} {α β : Type} {l : Local V}
  {s : Shared V κ}

/-- From now on the database may give the session's transaction up at any moment. -/
def Safe (D : Discipline V κ) (call : κ) (l : Local V) (s : Shared V κ) : Prop :=
  ∀ s', D.Rely l.held s s' → ∀ tx, l.tx = some tx → Undoable D call l tx V.rolledBack s'

theorem safe_outside {replies : List V.Reply} : Safe D call (.outside replies) s :=
  fun _ _ _ hTx => by cases hTx

theorem Safe.later {s' : Shared V κ} (h : Safe D call l s)
    (hRely : D.Rely l.held s s') : Safe D call l s' :=
  fun s'' hNext => h s'' (hRely.trans hNext)

namespace Wp

variable {Q : α → Local V → Shared V κ → Prop}

theorem done {a : α} (hSafe : Safe D call l s) (h : ∀ s', D.Rely l.held s s' → Q a l s') :
    Wp D call (.done a) Q l s :=
  fun s' hRely => ⟨hSafe s' hRely, h s' hRely⟩

theorem fail_outside {error : V.Err} {replies : List V.Reply} :
    Wp D call (.fail error) Q (.outside replies) s :=
  fun _ _ => ⟨fun _ hTx => (by cases hTx), fun _ hTx => by cases hTx⟩

theorem fail {error : V.Err} (hSafe : Safe D call l s)
    (h : ∀ s', D.Rely l.held s s' → ∀ tx, l.tx = some tx → Undoable D call l tx error s') :
    Wp D call (.fail error) Q l s :=
  fun s' hRely => ⟨hSafe s' hRely, h s' hRely⟩

variable {name : V.Name} {locks : View V → List V.Res} {write : View V → V.Db → V.Db}
  {next : View V → Script V α}

/-- A statement of a transaction. -/
theorem statement {tx : LocalTx V} (hTx : l.tx = some tx) (hSafe : Safe D call l s)
    (h : ∀ s' v, D.Rely l.held s s' → s'.now ≤ tx.startedAt + tx.limit →
      Sees l (tx.pending s'.db) tx.startedAt s' locks v →
      (∀ r ∈ locks v, ¬ l.held r → D.Free r s') →
      Wp D call (next v) Q (l.ran tx name locks write v) s') :
    Wp D call (.sql name locks write next) Q l s := by
  intro s' hRely
  refine ⟨hSafe s' hRely, fun hNone => ?_, fun tx' hTx' hTime v hSees hFree => ?_⟩
  · cases hNone.symm.trans hTx
  · cases hTx.symm.trans hTx'
    exact h s' v hRely hTime hSees hFree

/-- A statement that commits by itself. -/
theorem autocommit {replies : List V.Reply}
    (h : ∀ s' v, D.Rely (fun _ => False) s s' → Sees (.outside replies) s'.db s'.now s' locks v →
      (∀ r ∈ locks v, D.Free r s') →
      Commits D (· ∈ locks v) s' (s'.entry call s'.now [(name, v.db)] [] replies none
        (write v s'.db))
        (Wp D call (next v) Q (.outside replies))) :
    Wp D call (.sql name locks write next) Q (.outside replies) s := by
  intro s' hRely
  refine ⟨fun _ hTx => (by cases hTx), fun _ v hSees hFree => h s' v hRely hSees hFree,
    fun _ hTx => by cases hTx⟩

theorem answer {effect : V.Reply → V.Ext → Option V.Ext} {next : V.Reply → Script V α}
    (hSafe : Safe D call l s) (h : ∀ s' reply ext,
      D.Rely l.held s s' → effect reply s'.ext = some ext →
      D.Guarantee l.held s' (s'.setExt ext) ∧
      Wp D call (next reply) Q (l.answered reply) (s'.setExt ext)) :
    Wp D call (.call effect next) Q l s :=
  fun s' hRely => ⟨hSafe s' hRely, fun reply ext hEffect => h s' reply ext hRely hEffect⟩

theorem clock {next : Nat → Script V α} (hSafe : Safe D call l s)
    (h : ∀ s', D.Rely l.held s s' → Wp D call (next s'.now) Q l s') :
    Wp D call (.clock next) Q l s :=
  fun s' hRely => ⟨hSafe s' hRely, h s' hRely⟩

theorem commit {tx : LocalTx V} {next : Script V α} (hTx : l.tx = some tx) (hSafe : Safe D call l s)
    (h : ∀ s', D.Rely l.held s s' → s'.now ≤ tx.startedAt + tx.limit →
      Commits D l.held s' (s'.entry call tx.startedAt tx.reads tx.answers l.replies none
        (tx.pending s'.db))
        (Wp D call next Q (.outside l.replies))) :
    Wp D call (.commit next) Q l s := by
  intro s' hRely
  refine ⟨hSafe s' hRely, fun tx' hTx' hTime => ?_⟩
  cases hTx.symm.trans hTx'
  exact h s' hRely hTime

/-- The body of a transaction is verified up to its commit; an error goes to the handler. -/
theorem transaction {limit : Nat} {body : Script V α} {handler : V.Err → Script V α}
    {replies : List V.Reply} (hHandler : ∀ error replies s',
      D.Rely (fun _ => False) s s' → Wp D call (handler error) Q (.outside replies) s')
    (hBody : ∀ s', D.Rely (fun _ => False) s s' →
      Wp D call body (fun a => Wp D call (.commit (.done a)) Q)
      ((Local.outside replies).opened s'.now limit) s') :
    Wp D call (.transaction limit body handler) Q (.outside replies) s := by
  intro s' hRely
  refine ⟨fun _ hTx => (by cases hTx), fun _ =>
    ⟨fun error replies s'' hNext => hHandler error replies s'' (hRely.trans hNext), ?_⟩⟩
  exact Wp.bind hRely.inv (hBody s' hRely)

/-- The rule for a loop: what one round keeps holds at its end. -/
theorem forEach {action : β → Script V Unit} {I : List β → Local V → Shared V κ → Prop}
    (hInv : ∀ rest l s, I rest l s → D.Inv s)
    (hRound : ∀ b rest l s, I (b :: rest) l s → Wp D call (action b) (fun _ => I rest) l s)
    (hDone : ∀ l s, I [] l s → Wp D call (.done ()) (fun _ => I []) l s) {items : List β}
    (h : I items l s) :
    Wp D call (Script.forEach action items) (fun _ => I []) l s := by
  induction items generalizing l s with
  | nil => exact hDone l s h
  | cons b rest ih =>
    refine Wp.bind (hInv _ _ _ h) ?_
    exact (hRound b rest l s h).mono fun _ l s _ hRest => ih hRest

end Wp

end Pixaeron.Transactions
