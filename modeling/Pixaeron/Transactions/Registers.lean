import Mathlib.Logic.Relation
import Pixaeron.Transactions.Following
import Pixaeron.Transactions.Ledger
import Pixaeron.Transactions.Writes

/-! # One value of the database

A register is what the database says about one row, with the lock of that row and the steps that a
call may make it take. If every statement of a script either leaves the value alone or locks it and
takes one of its steps, then every transaction of every run takes it along such steps, and a script
may rely on whatever no step undoes.
-/

namespace Pixaeron.Transactions

variable {V : Vocabulary} {κ ω ρ α β : Type}

namespace World

variable [DecidableEq V.Res] {program : Program V κ ω} {w w₀ : World V κ ω} {sid : Nat}

/-- A session that there is now has started once and stayed since. -/
theorem spawned (hLeads : Leads program w₀ w) (hNone : w₀.sessions sid = none)
    {session : Session V κ ω} (hSession : w.sessions sid = some session) :
    ∃ w₁ w₂, Leads program w₀ w₁ ∧ step program w₁ (.spawn sid session.call) = some w₂ ∧
      Stays program sid w₂ w := by
  induction hLeads generalizing session with
  | refl => cases hNone.symm.trans hSession
  | @tail middle last hLeads hStep ih =>
    obtain ⟨action, hStep⟩ := hStep
    cases hMiddle : middle.sessions sid with
    | none =>
      by_cases hActor : Action.actor action = some sid
      · obtain ⟨call, rfl⟩ := spawn_of_step hStep hMiddle hActor
        obtain ⟨_, _, _, _, _, hStarted⟩ := step_spawn hStep
        cases hSession.symm.trans hStarted
        exact ⟨middle, last, hLeads, hStep, .refl⟩
      · cases hSession.symm.trans ((step_other hStep hActor).trans hMiddle)
    | some before =>
      have hAlive : action ≠ .kill sid := by
        rintro rfl
        cases (step_kill hStep).2.symm.trans hSession
      obtain ⟨after, hAfter, hCall⟩ := step_session hStep hMiddle hAlive
      cases hSession.symm.trans hAfter
      obtain ⟨w₁, w₂, hBefore, hSpawn, hStays⟩ := ih hMiddle
      exact ⟨w₁, w₂, hBefore, hCall ▸ hSpawn, hStays.tail ⟨action, hAlive, hStep⟩⟩

end World

/-- `Fit` is what every committed value is. Only runs are considered whose transactions change the
value as `Keeps` says. -/
structure Register (V : Vocabulary) (κ ρ : Type) where
  read : V.Db → ρ
  lock : V.Res
  Step : κ → ρ → ρ → Prop
  Fit : ρ → Prop
  Keeps : ρ → ρ → Prop

/-- Where a script is: outside a transaction, in one that has not locked the register, in one that
has. -/
inductive Stage where
  | outside
  | unlocked
  | locked
deriving DecidableEq

def Stage.after : Stage → Bool → Stage
  | .outside, _ => .outside
  | .unlocked, false => .unlocked
  | .unlocked, true => .locked
  | .locked, _ => .locked

namespace Register

variable (R : Register V κ ρ)

/-- What a transaction of the call may do to the value. -/
def Moves (call : κ) : ρ → ρ → Prop := Relation.ReflTransGen (R.Step call)

structure Commits (call : κ) (a b : ρ) : Prop where
  moves : R.Moves call a b
  keeps : R.Keeps a b
  fit : R.Fit b

/-- What the transactions of any calls may make of the value. -/
def Later : ρ → ρ → Prop := Relation.ReflTransGen fun a b => ∃ call, R.Commits call a b

def Legal (e : Entry V κ) : Prop := R.Commits e.call (R.read e.before) (R.read e.after)

/-- What a script that has last seen `seen` may find. -/
def Sees : Stage → ρ → ρ → Prop
  | .locked, seen, r => r = seen
  | _, seen, r => R.Later seen r

/-- The statement leaves the value alone, or takes a step while it is locked. -/
def Permits (call : κ) (stage : Stage) (locks : List V.Res) (write : V.Db → V.Db)
    (db : V.Db) : Prop :=
  (∀ db', R.read (write db') = R.read db') ∨ (R.lock ∈ locks ∨ stage = .locked) ∧
    R.Step call (R.read db) (R.read (write db)) ∧
    (∀ db', R.read db' = R.read db → R.read (write db') = R.read (write db)) ∧
      (stage = .outside → R.Fit (R.read (write db)))

/-- Whatever the script finds, its statements are permitted, what it commits is fit, and its result
is as `Q` says. -/
def Follows [DecidableEq V.Res] (call : κ) (Q : Stage → α → ρ → Prop) :
    Script V α → Stage → ρ → Prop
  | .done a, stage, seen => Q stage a seen
  | .fail _, _, _ => True
  | .sql _ locks write next, stage, seen =>
    ∀ v, R.Sees stage seen (R.read v.db) → (stage ≠ .locked → R.Fit (R.read v.db)) →
    R.Permits call stage (locks v) (write v) v.db ∧
      Follows call Q (next v) (stage.after (decide (R.lock ∈ locks v))) (R.read (write v v.db))
  | .call _ next, stage, seen => ∀ reply, Follows call Q (next reply) stage seen
  | .clock next, stage, seen => ∀ t, Follows call Q (next t) stage seen
  | .begin _ handler next, stage, seen => stage = .outside →
    (∀ error, Follows call Q (handler error) .outside seen) ∧ Follows call Q next .unlocked seen
  | .commit next, stage, seen =>
    stage ≠ .outside → (stage = .locked → R.Fit seen) ∧ Follows call Q next .outside seen

/-- Only statements that neither lock the register nor change it. -/
def Aside : Script V α → Prop
  | .done _ => True
  | .fail _ => True
  | .sql _ locks write next =>
    ∀ v, R.lock ∉ locks v ∧ (∀ db, R.read (write v db) = R.read db) ∧ Aside (next v)
  | .call _ _ => False
  | .clock next => ∀ t, Aside (next t)
  | .begin _ _ _ => False
  | .commit _ => False

variable {R} {call : κ} {stage : Stage} {seen r : ρ}

theorem Moves.refl {a : ρ} : R.Moves call a a := Relation.ReflTransGen.refl

theorem Sees.refl : R.Sees stage r r := by
  cases stage with
  | locked => rfl
  | outside => exact .refl
  | unlocked => exact .refl

/-! ## Rules -/

theorem Aside.bind {p : Script V α} {k : α → Script V β} (h : R.Aside p)
    (hk : ∀ a, R.Aside (k a)) : R.Aside (p.bind k) := by
  induction p with
  | done a => exact hk a
  | fail error => trivial
  | sql name locks write next ih => exact fun v => ⟨(h v).1, (h v).2.1, ih v (h v).2.2⟩
  | call _ _ => exact h.elim
  | clock next ih => exact fun t => ih t (h t)
  | begin _ _ _ => exact h.elim
  | commit _ => exact h.elim

theorem Aside.writes {Calm : (V.Db → V.Db) → Prop} {Mild : (V.Reply → V.Ext → Option V.Ext) → Prop}
    {p : Script V α} (h : R.Aside p) (hCalm : ∀ write,
      (∀ db, R.read (write db) = R.read db) → Calm write) : p.Writes Calm Mild := by
  induction p with
  | done a => trivial
  | fail error => trivial
  | sql name locks write next ih => exact fun v => ⟨hCalm (write v) (h v).2.1, ih v (h v).2.2⟩
  | call _ _ => exact h.elim
  | clock next ih => exact fun t => ih t (h t)
  | begin _ _ _ => exact h.elim
  | commit _ => exact h.elim

theorem Aside.query {name : V.Name} {answer : View V → α} : R.Aside (Script.query name answer) :=
  fun _ => ⟨List.not_mem_nil, fun _ => rfl, trivial⟩

theorem Aside.change {name : V.Name} {locks : View V → List V.Res} {write : View V → V.Db → V.Db}
    {answer : View V → α} (hLocks : ∀ v, R.lock ∉ locks v)
    (hWrite : ∀ v db, R.read (write v db) = R.read db) :
    R.Aside (Script.change name locks write answer) :=
  fun v => ⟨hLocks v, hWrite v, trivial⟩

theorem Aside.check {condition : Prop} [Decidable condition] {error : V.Err} :
    R.Aside (if condition then .done () else .fail error : Script V Unit) := by
  split <;> trivial

theorem Aside.forEach {action : α → Script V Unit} (h : ∀ a, R.Aside (action a)) (items : List α) :
    R.Aside (Script.forEach action items) := by
  induction items with
  | nil => trivial
  | cons a rest ih => exact (h a).bind fun _ => ih

section Rules

variable [DecidableEq V.Res] {Q : Stage → β → ρ → Prop}

theorem Follows.bind {p : Script V α} {k : α → Script V β}
    (h : R.Follows call (fun stage a r => R.Follows call Q (k a) stage r) p stage seen) :
    R.Follows call Q (p.bind k) stage seen := by
  induction p generalizing stage seen with
  | done a => exact h
  | fail error => trivial
  | sql name locks write next ih =>
    exact fun v hSees hFit => ⟨(h v hSees hFit).1, ih v (h v hSees hFit).2⟩
  | call effect next ih => exact fun reply => ih reply (h reply)
  | clock next ih => exact fun t => ih t (h t)
  | begin limit handler next ihHandler ih =>
    exact fun hStage => ⟨fun error => ihHandler error ((h hStage).1 error), ih (h hStage).2⟩
  | commit next ih => exact fun hStage => ⟨(h hStage).1, ih (h hStage).2⟩

theorem Follows.mono {Q' : Stage → β → ρ → Prop} {p : Script V β}
    (h : R.Follows call Q p stage seen) (hPost : ∀ stage a r, Q stage a r → Q' stage a r) :
    R.Follows call Q' p stage seen := by
  induction p generalizing stage seen with
  | done a => exact hPost stage a seen h
  | fail error => trivial
  | sql name locks write next ih =>
    exact fun v hSees hFit => ⟨(h v hSees hFit).1, ih v (h v hSees hFit).2⟩
  | call effect next ih => exact fun reply => ih reply (h reply)
  | clock next ih => exact fun t => ih t (h t)
  | begin limit handler next ihHandler ih =>
    exact fun hStage => ⟨fun error => ihHandler error ((h hStage).1 error), ih (h hStage).2⟩
  | commit next ih => exact fun hStage => ⟨(h hStage).1, ih (h hStage).2⟩

theorem Follows.query {name : V.Name} {answer : View V → β}
    (h : ∀ v, R.Sees stage seen (R.read v.db) → (stage ≠ .locked → R.Fit (R.read v.db)) →
      Q stage (answer v) (R.read v.db)) :
    R.Follows call Q (Script.query name answer) stage seen := by
  refine fun v hSees hFit => ⟨.inl fun _ => rfl, ?_⟩
  have hStage : stage.after (decide (R.lock ∈ ([] : List V.Res))) = stage := by cases stage <;> rfl
  rw [hStage]
  exact h v hSees hFit

theorem Follows.readClock {Q : Stage → Nat → ρ → Prop} (h : ∀ t, Q stage t seen) :
    R.Follows call Q (Script.readClock : Script V Nat) stage seen := h

theorem Follows.check {Q : Stage → Unit → ρ → Prop} {condition : Prop} [Decidable condition]
    {error : V.Err} (h : condition → Q stage () seen) :
    R.Follows call Q (if condition then .done () else .fail error : Script V Unit) stage seen := by
  split
  next hCondition => exact h hCondition
  next => trivial

theorem Follows.transaction {limit : Nat} {body : Script V β} {handler : V.Err → Script V β}
    (hHandler : ∀ error, R.Follows call Q (handler error) .outside seen)
    (hBody : R.Follows call (fun stage a r => stage ≠ .outside ∧ (stage = .locked → R.Fit r) ∧
      Q .outside a r) body .unlocked seen) :
    R.Follows call Q (Script.transaction limit body handler) .outside seen :=
  fun _ => ⟨hHandler, Follows.bind (hBody.mono fun _ _ _ hEnd => (fun _ => hEnd.2 : _ → _))⟩

theorem Follows.transaction_free {limit : Nat} {body : Script V β} {handler : V.Err → Script V β}
    (hFit : ∀ r, R.Fit r) (hHandler : ∀ error,
      R.Follows call (fun _ _ _ => True) (handler error) .outside seen)
    (hBody : R.Follows call (fun _ _ _ => True) body .unlocked seen) :
    R.Follows call (fun _ _ _ => True) (Script.transaction limit body handler) .outside seen :=
  fun _ =>
    ⟨hHandler, Follows.bind (hBody.mono fun _ _ _ _ =>
    (fun _ => ⟨fun _ => hFit _, trivial⟩ : _ → _))⟩

theorem Follows.of_writes {Mild : (V.Reply → V.Ext → Option V.Ext) → Prop} {p : Script V β}
    (hFit : ∀ r, R.Fit r) (h : p.Writes (fun write => ∀ db, R.read (write db) = R.read db) Mild) :
    R.Follows call (fun _ _ _ => True) p stage seen := by
  induction p generalizing stage seen with
  | done a => trivial
  | fail error => trivial
  | sql name locks write next ih => exact fun v _ _ => ⟨.inl (h v).1, ih v (h v).2⟩
  | call effect next ih => exact fun reply => ih reply (h.2 reply)
  | clock next ih => exact fun t => ih t (h t)
  | begin limit handler next ihHandler ih =>
    exact fun _ => ⟨fun error => ihHandler error (h.1 error), ih h.2⟩
  | commit next ih => exact fun _ => ⟨fun _ => hFit _, ih h⟩

theorem Follows.of_aside {I : ρ → Prop} {p : Script V β} (h : R.Aside p)
    (hLater : ∀ r r', I r → R.Sees stage r r' → (stage ≠ .locked → R.Fit r') → I r')
    (hSeen : I seen) :
    R.Follows call (fun stage' _ r => stage' = stage ∧ I r) p stage seen := by
  induction p generalizing seen with
  | done a => exact ⟨rfl, hSeen⟩
  | fail error => trivial
  | sql name locks write next ih =>
    refine fun v hSees hFit => ⟨.inl (h v).2.1, ?_⟩
    have hStage : stage.after (decide (R.lock ∈ locks v)) = stage := by
      rw [decide_eq_false (h v).1]
      cases stage <;> rfl
    rw [hStage, (h v).2.1]
    exact ih v (h v).2.2 (hLater _ _ hSeen hSees hFit)
  | call _ _ => exact h.elim
  | clock next ih => exact fun t => ih t (h t) hSeen
  | begin _ _ _ => exact h.elim
  | commit _ => exact h.elim

end Rules

/-! ## Scripts among others -/

variable (R) in
/-- The register as a ledger, from a first state on. -/
def ledger (genesis : V.Db) : Ledger V κ where
  genesis := genesis
  Legal := R.Legal
  Respects r e := r = R.lock → R.read e.after = R.read e.before
  Moves _ _ := True
  Spares _ _ _ := True
  Traffic _ := True
  Free _ _ := True
  Assume e := R.Keeps (R.read e.before) (R.read e.after)
  moves_refl _ := trivial
  moves_trans _ _ _ _ _ := trivial
  spares_refl _ _ := trivial
  spares_trans _ _ _ _ _ _ _ _ _ := trivial

def Starts (R : Register V κ ρ) (genesis : V.Db) : Prop := R.Fit (R.read genesis)

variable {genesis : V.Db} {l : Local V} {s s' : Shared V κ} {held : V.Res → Prop}

theorem fit_of_sound (hStart : R.Starts genesis)
    (hSound : (R.ledger genesis).Sound s) : R.Fit (R.read s.db) :=
  hSound.reached.holds (P := fun db _ => R.Fit (R.read db)) hStart
    (fun _ _ _ _ h => h) fun _ hLegal _ => hLegal.fit

theorem later_of_rely (hRely : (R.ledger genesis).discipline.Rely held s s') :
    R.Later (R.read s.db) (R.read s'.db) := by
  refine Ledger.rely_preserves (P := fun db _ => R.Later (R.read s.db) (R.read db)) hRely
    (fun _ _ _ _ h => h) ?_ .refl
  exact fun e hLegal _ _ hSoFar => hSoFar.tail ⟨e.call, hLegal⟩

theorem same_of_rely (hRely : (R.ledger genesis).discipline.Rely held s s') (hHeld : held R.lock) :
    R.read s'.db = R.read s.db := by
  refine Ledger.rely_preserves (P := fun db _ => R.read db = R.read s.db) hRely
    (fun _ _ _ _ h => h) ?_ rfl
  exact fun e _ _ hRespects hSoFar => (hRespects R.lock hHeld rfl).trans hSoFar

variable (R call) in
/-- What a session at `stage` that has last seen `seen` can count on. -/
inductive At (l : Local V) (s : Shared V κ) : Stage → ρ → Prop
  | outside {seen : ρ} : l.tx = none → R.Later seen (R.read s.db) → At l s .outside seen
  | unlocked {seen : ρ} {tx : LocalTx V} : l.tx = some tx → ¬ l.held R.lock →
      (∀ db, R.read (tx.pending db) = R.read db) →
    R.Later seen (R.read s.db) → At l s .unlocked seen
  | locked {seen : ρ} {tx : LocalTx V} : l.tx = some tx → l.held R.lock →
      R.Moves call (R.read s.db) seen →
    (∀ db, R.read db = R.read s.db → R.read (tx.pending db) = seen) → At l s .locked seen

theorem At.later (h : R.At call l s stage seen)
    (hRely : (R.ledger genesis).discipline.Rely l.held s s') :
    R.At call l s' stage seen := by
  cases h with
  | outside hTx hSeen => exact .outside hTx (hSeen.trans (later_of_rely hRely))
  | unlocked hTx hHeld hAlone hSeen =>
    exact .unlocked hTx hHeld hAlone (hSeen.trans (later_of_rely hRely))
  | locked hTx hHeld hMoves hFixed =>
    have hSame := same_of_rely hRely hHeld
    exact .locked hTx hHeld (hSame ▸ hMoves) fun db hDb => hFixed db (hDb.trans hSame)

theorem legal_same {e : Entry V κ} (hFit : R.Fit (R.read e.before))
    (hKeeps : R.Keeps (R.read e.before) (R.read e.after))
    (hSame : R.read e.after = R.read e.before) : R.Legal e :=
  ⟨hSame ▸ Moves.refl, hKeeps, hSame ▸ hFit⟩

theorem guarantee_of_legal {e : Entry V κ} (hSound : (R.ledger genesis).Sound s)
    (hBefore : e.before = s.db) (hEnded : e.endedAt = s.now) (hLegal : R.Legal e)
    (hSpares : ¬ held R.lock → R.read e.after = R.read e.before) :
    (R.ledger genesis).discipline.Guarantee held s (s.record e) :=
  Ledger.guarantee_record hSound hBefore hEnded hLegal trivial
    (fun _ hr hLock => hSpares (hLock ▸ hr)) (fun _ _ => trivial)
    fun _ _ _ => trivial

theorem undoable (hStart : R.Starts genesis) {tx : LocalTx V} {error : V.Err}
    (hSound : (R.ledger genesis).Sound s) :
    Undoable (R.ledger genesis).discipline call l tx error s :=
  fun hKeeps =>
    ⟨guarantee_of_legal hSound rfl rfl (legal_same (fit_of_sound hStart hSound) hKeeps rfl)
      fun _ => rfl, fun _ _ => trivial⟩

section Permits

variable {locks : List V.Res} {write : V.Db → V.Db} {db : V.Db}

theorem Permits.moves (h : R.Permits call stage locks write db) :
    R.Moves call (R.read db) (R.read (write db)) := by
  rcases h with hAlone | ⟨_, hStep, _⟩
  · rw [hAlone]
    exact .refl
  · exact Relation.ReflTransGen.single hStep

theorem Permits.fixed (h : R.Permits call stage locks write db) {db' : V.Db}
    (hSame : R.read db' = R.read db) :
    R.read (write db') = R.read (write db) := by
  rcases h with hAlone | ⟨_, _, hFixed, _⟩
  · rw [hAlone, hAlone, hSame]
  · exact hFixed db' hSame

theorem Permits.alone (h : R.Permits call stage locks write db) (hLock : R.lock ∉ locks)
    (hStage : stage ≠ .locked) (db' : V.Db) : R.read (write db') = R.read db' := by
  rcases h with hAlone | ⟨hHere | hBefore, _⟩
  · exact hAlone db'
  · exact absurd hHere hLock
  · exact absurd hBefore hStage

theorem Permits.fit (h : R.Permits call .outside locks write db) (hFit : R.Fit (R.read db)) :
    R.Fit (R.read (write db)) := by
  rcases h with hAlone | ⟨_, _, _, hAfter⟩
  · rwa [hAlone]
  · exact hAfter rfl

end Permits

theorem At.view (h : R.At call l s stage seen) {tx : LocalTx V} (hTx : l.tx = some tx) :
    R.Sees stage seen (R.read (tx.pending s.db)) ∧
    (stage ≠ .locked → R.read (tx.pending s.db) = R.read s.db) := by
  cases h with
  | outside hNone _ => cases hNone.symm.trans hTx
  | unlocked hOpen hHeld hAlone hSeen =>
    cases hTx.symm.trans hOpen
    exact ⟨(hAlone s.db).symm ▸ hSeen, fun _ => hAlone s.db⟩
  | locked hOpen hHeld hSoFar hFixed =>
    cases hTx.symm.trans hOpen
    exact ⟨hFixed s.db rfl, fun hNot => absurd rfl hNot⟩

section Wp

variable [DecidableEq V.Res] {Q : Stage → α → ρ → Prop} {p : Script V α}

theorem At.ran (h : R.At call l s stage seen) {tx : LocalTx V} (hTx : l.tx = some tx)
    {name : V.Name} {locks : View V → List V.Res} {write : View V → V.Db → V.Db} {v : View V}
    (hView : v.db = tx.pending s.db) (hPermits : R.Permits call stage (locks v) (write v) v.db) :
    R.At call (l.ran tx name locks write v) s (stage.after (decide (R.lock ∈ locks v)))
      (R.read (write v v.db)) := by
  have hMoves := hPermits.moves
  cases h with
  | outside hNone _ => cases hNone.symm.trans hTx
  | unlocked hOpen hHeld hAlone _ =>
    cases hTx.symm.trans hOpen
    have hHere : R.read v.db = R.read s.db := by rw [hView, hAlone]
    by_cases hLock : R.lock ∈ locks v
    · simp only [hLock, decide_true, Stage.after]
      refine .locked rfl (.inr hLock) (hHere ▸ hMoves) fun db hDb => hPermits.fixed ?_
      rw [hAlone, hDb, hHere]
    · simp only [hLock, decide_false, Stage.after]
      refine .unlocked rfl (fun hNow => hNow.elim hHeld hLock) (fun db => ?_) ?_
      · exact (hPermits.alone hLock (by simp) _).trans (hAlone db)
      · rw [hPermits.alone hLock (by simp), hHere]
        exact .refl
  | locked hOpen hHeld hSoFar hFixed =>
    cases hTx.symm.trans hOpen
    have hHere : R.read v.db = seen := by rw [hView, hFixed s.db rfl]
    refine .locked rfl (.inl hHeld) (hSoFar.trans (hHere ▸ hMoves)) fun db hDb => hPermits.fixed ?_
    rw [hHere, hFixed db hDb]

theorem Follows.wp (hStart : R.Starts genesis) (h : R.Follows call Q p stage seen)
    (hAt : R.At call l s stage seen) :
    Wp (R.ledger genesis).discipline call p (fun a l s => ∃ stage seen,
      R.At call l s stage seen ∧ Q stage a seen) l s := by
  induction p generalizing stage seen l s with
  | done a =>
    exact fun s' hRely => ⟨fun _ _ => undoable hStart hRely.inv, stage, seen, hAt.later hRely, h⟩
  | fail error =>
    exact fun s' hRely =>
      ⟨fun _ _ => undoable hStart hRely.inv, fun _ _ => undoable hStart hRely.inv⟩
  | sql name locks write next ih =>
    refine fun s' hRely =>
      ⟨fun _ _ => undoable hStart hRely.inv, fun hTx v hView _ => ?_, fun tx hTx _ v hView _ => ?_⟩
    · cases hAt.later hRely with
      | unlocked hOpen _ _ _ => cases hTx.symm.trans hOpen
      | locked hOpen _ _ _ => cases hTx.symm.trans hOpen
      | outside _ hSeen =>
        have hFit := fit_of_sound hStart hRely.inv
        rw [← hView.db] at hSeen hFit
        obtain ⟨hPermits, hNext⟩ := h v hSeen fun _ => hFit
        rw [← hView.db]
        refine fun hKeeps => ⟨?_, fun _ _ => trivial, ih v hNext (.outside hTx .refl)⟩
        refine guarantee_of_legal hRely.inv rfl rfl ⟨?_, hKeeps, hPermits.fit hFit⟩ fun hLock => ?_
        · exact hView.db ▸ hPermits.moves
        · exact hView.db ▸ hPermits.alone hLock (by simp) v.db
    · have hHere := hAt.later hRely
      obtain ⟨hSees, hSame⟩ := hHere.view hTx
      rw [← hView.db] at hSees hSame
      obtain ⟨hPermits, hNext⟩ := h v hSees fun hStage =>
        hSame hStage ▸ fit_of_sound hStart hRely.inv
      exact ih v hNext (hHere.ran hTx hView.db hPermits)
  | call effect next ih =>
    refine fun s' hRely => ⟨fun _ _ => undoable hStart hRely.inv, fun reply ext hEffect => ⟨?_, ?_⟩⟩
    · exact Ledger.guarantee_setExt hRely.inv trivial trivial (fun _ _ => trivial) fun _ _ _ =>
        trivial
    · refine ih reply (h reply) ?_
      cases hAt.later hRely with
      | outside hTx hSeen => exact .outside (congrArg (Option.map _) hTx) hSeen
      | unlocked hTx hHeld hAlone hSeen =>
        exact .unlocked (congrArg (Option.map _) hTx) hHeld hAlone hSeen
      | locked hTx hHeld hMoves hFixed =>
        exact .locked (congrArg (Option.map _) hTx) hHeld hMoves hFixed
  | clock next ih =>
    exact fun s' hRely =>
      ⟨fun _ _ => undoable hStart hRely.inv, ih s'.now (h s'.now) (hAt.later hRely)⟩
  | begin limit handler next ihHandler ih =>
    refine fun s' hRely => ⟨fun _ _ => undoable hStart hRely.inv, fun hTx => ?_⟩
    cases hAt.later hRely with
    | unlocked hOpen _ _ _ => cases hTx.symm.trans hOpen
    | locked hOpen _ _ _ => cases hTx.symm.trans hOpen
    | outside _ hSeen =>
      obtain ⟨hHandler, hNext⟩ := h rfl
      refine ⟨fun error replies s'' hOutside => ?_,
        ih hNext (.unlocked rfl (fun hNo => hNo) (fun _ => rfl) hSeen)⟩
      exact ihHandler error (hHandler error) (.outside rfl (hSeen.trans (later_of_rely hOutside)))
  | commit next ih =>
    refine fun s' hRely => ⟨fun _ _ => undoable hStart hRely.inv, fun tx hTx _ hKeeps => ?_⟩
    cases hAt.later hRely with
    | outside hNone _ => cases hNone.symm.trans hTx
    | unlocked hOpen hHeld hAlone hSeen =>
      cases hTx.symm.trans hOpen
      obtain ⟨_, hNext⟩ := h (by simp)
      refine ⟨?_, fun _ _ => trivial, ih hNext (.outside rfl ?_)⟩
      · exact guarantee_of_legal hRely.inv rfl rfl
          (legal_same (fit_of_sound hStart hRely.inv) hKeeps (hAlone s'.db)) fun _ => hAlone s'.db
      · exact (hAlone s'.db).symm ▸ hSeen
    | locked hOpen hHeld hMoves hFixed =>
      cases hTx.symm.trans hOpen
      obtain ⟨hFit, hNext⟩ := h (by simp)
      have hEnd : R.read (tx.pending s'.db) = seen := hFixed s'.db rfl
      refine ⟨?_, fun _ _ => trivial, ih hNext (.outside rfl ?_)⟩
      · refine guarantee_of_legal hRely.inv rfl rfl ⟨?_, hKeeps, ?_⟩ fun hNot => absurd hHeld hNot
        · exact hEnd.symm ▸ hMoves
        · exact hEnd.symm ▸ hFit rfl
      · exact hEnd.symm ▸ Relation.ReflTransGen.refl

end Wp

/-! ## Runs -/

section Runs

variable [DecidableEq V.Res] {program : World.Program V κ ω} {now : Nat} {ext : V.Ext}
  {w w₁ w₂ : World V κ ω} {sid : Nat}

/-- Every call of the program follows the register. -/
def FollowedBy (R : Register V κ ρ) (program : World.Program V κ ω) : Prop :=
  ∀ call s ext script, program call s = some (ext, script) →
    ∀ seen, R.Fit seen → R.Follows call (fun _ _ _ => True) script .outside seen

theorem FollowedBy.verified (h : R.FollowedBy program) (hStart : R.Starts genesis) :
    Verified (R.ledger genesis).discipline program where
  tick s ms hSound := Ledger.guarantee_tick hSound trivial (fun _ => trivial) fun _ _ => trivial
  spawn s call ext script hSound hProgram := by
    refine ⟨Ledger.guarantee_setExt hSound trivial trivial (fun _ _ => trivial) fun _ _ _ =>
      trivial, ?_⟩
    have hFollows := h call s ext script hProgram _ (fit_of_sound hStart hSound)
    exact (hFollows.wp (l := .outside []) (s := s.setExt ext) hStart (.outside rfl .refl)).mono
      fun _ _ _ _ _ => trivial

omit [DecidableEq V.Res] in
theorem meets_start :
    World.Meets (R.ledger genesis).discipline (World.idle (κ := κ) (ω := ω) now genesis ext) :=
  World.meets_idle ⟨.rest (Nat.zero_le now), trivial⟩ fun _ => trivial

theorem FollowedBy.path (h : R.FollowedBy program) (hStart : R.Starts genesis)
    (hLeads : World.Leads program (World.idle now genesis ext) w)
    (hKeeps : ∀ e ∈ w.shared.history, R.Keeps (R.read e.before) (R.read e.after)) :
    Path R.Legal genesis 0 w.shared.history w.shared.db w.shared.now :=
  (meets_start.leads (h.verified hStart) hLeads hKeeps).1.inv.1

/-- What a call has last seen when it returns, and what has become of it since. -/
theorem FollowedBy.returned (h : R.FollowedBy program) (hStart : R.Starts genesis)
    {Q : ω → ρ → Prop} (hFollows : ∀ s ext script, program call s = some (ext, script) →
      ∀ seen, R.Fit seen →
      R.Follows call (fun stage a r => stage = .outside ∧ Q a r) script .outside seen)
      (hLeads : World.Leads program (World.idle now genesis ext) w)
      (hKeeps : ∀ e ∈ w.shared.history, R.Keeps (R.read e.before) (R.read e.after))
      {session : Session V κ ω} (hSession : w.sessions sid = some session)
      (hCall : session.call = call) {a : ω} (hReturned : w.returned sid = some a) :
    ∃ seen, Q a seen ∧ R.Later seen (R.read w.shared.db) := by
  have hVerified := h.verified hStart
  obtain ⟨w₁, w₂, hBefore, hSpawn, hStays⟩ := World.spawned hLeads rfl hSession
  rw [hCall] at hSpawn
  have hSoFar : w₁.shared.history <+: w.shared.history :=
    (World.leads_history (.single ⟨_, hSpawn⟩)).trans (World.leads_history hStays.leads)
  obtain ⟨hMeets, _⟩ := meets_start.leads hVerified hBefore fun e he => hKeeps e (hSoFar.subset he)
  obtain ⟨_, _, seen, hAt, rfl, hQ⟩ := hMeets.returned hVerified hSpawn
    (fun ext script hProgram hSound =>
      (hFollows _ ext script hProgram _ (fit_of_sound hStart hSound)).wp hStart
        (.outside rfl .refl))
    hStays hKeeps hReturned
  cases hAt with
  | outside _ hSeen => exact ⟨seen, hQ, hSeen⟩

end Runs

end Register

end Pixaeron.Transactions
