import Pixaeron.Transactions.World

/-! # Rely–guarantee reasoning for transaction scripts

A discipline says what always holds of the shared state, how any step may change it, and what
nobody else changes while a row is locked. `Wp` is the weakest precondition of a script under a
discipline: at every statement the script has to cope with whatever the others have done since
the last one. If every call of a system meets its discipline, the invariant holds in every
reachable world.
-/

namespace Pixaeron.Transactions

/-- `Inv` holds in every committed state and `Evolves` relates it to every later one; `Keeps r`
is what the holder of the lock on `r` may rely on; `Free r` holds while nobody has locked `r`.
Only runs whose entries all satisfy `Assume` are considered. -/
structure Discipline (V : Vocabulary) (κ : Type) where
  Inv : Shared V κ → Prop
  Evolves : Shared V κ → Shared V κ → Prop
  Keeps : V.Res → Shared V κ → Shared V κ → Prop
  Free : V.Res → Shared V κ → Prop
  Assume : Entry V κ → Prop
  evolves_refl : ∀ s, Inv s → Evolves s s
  evolves_trans : ∀ s₁ s₂ s₃, Inv s₁ → Inv s₂ → Inv s₃ → Evolves s₁ s₂ → Evolves s₂ s₃ →
    Evolves s₁ s₃
  keeps_refl : ∀ r s, Inv s → Keeps r s s
  keeps_trans : ∀ r s₁ s₂ s₃, Inv s₁ → Inv s₂ → Inv s₃ → Evolves s₁ s₂ → Evolves s₂ s₃ →
    Keeps r s₁ s₂ → Keeps r s₂ s₃ → Keeps r s₁ s₃

namespace Discipline

variable {V : Vocabulary} {κ : Type} (D : Discipline V κ)

/-- What a session that has locked the rows `held` relies on between two of its statements. -/
structure Rely (held : V.Res → Prop) (s s' : Shared V κ) : Prop where
  before : D.Inv s
  inv : D.Inv s'
  evolves : D.Evolves s s'
  keeps : ∀ r, held r → D.Keeps r s s'

/-- What one step of a session that has locked the rows `held` owes to all others. -/
structure Guarantee (held : V.Res → Prop) (s s' : Shared V κ) : Prop where
  inv : D.Inv s'
  evolves : D.Evolves s s'
  keeps : ∀ r, ¬ held r → D.Keeps r s s'
  free : ∀ r, ¬ held r → D.Free r s → D.Free r s'

variable {D}

theorem Rely.refl {held : V.Res → Prop} {s : Shared V κ} (h : D.Inv s) : D.Rely held s s :=
  ⟨h, h, D.evolves_refl s h, fun r _ => D.keeps_refl r s h⟩

theorem Rely.trans {held : V.Res → Prop} {s₁ s₂ s₃ : Shared V κ} (h₁ : D.Rely held s₁ s₂)
    (h₂ : D.Rely held s₂ s₃) : D.Rely held s₁ s₃ where
  before := h₁.before
  inv := h₂.inv
  evolves := D.evolves_trans s₁ s₂ s₃ h₁.before h₁.inv h₂.inv h₁.evolves h₂.evolves
  keeps r hr := D.keeps_trans r s₁ s₂ s₃ h₁.before h₁.inv h₂.inv h₁.evolves h₂.evolves
    (h₁.keeps r hr) (h₂.keeps r hr)

theorem Rely.weaken {held held' : V.Res → Prop} {s s' : Shared V κ} (h : D.Rely held s s')
    (hLess : ∀ r, held' r → held r) : D.Rely held' s s' :=
  ⟨h.before, h.inv, h.evolves, fun r hr => h.keeps r (hLess r hr)⟩

/-- A step of a session is within the rely of any session that holds none of its rows. -/
theorem Guarantee.rely {held other : V.Res → Prop} {s s' : Shared V κ} (h : D.Guarantee held s s')
    (hInv : D.Inv s) (hApart : ∀ r, other r → ¬ held r) : D.Rely other s s' :=
  ⟨hInv, h.inv, h.evolves, fun r hr => h.keeps r (hApart r hr)⟩

theorem Guarantee.rely_outside {held : V.Res → Prop} {s s' : Shared V κ} (h : D.Guarantee held s s')
    (hInv : D.Inv s) :
    D.Rely (fun _ => False) s s' :=
  h.rely hInv fun _ hNo => hNo.elim

end Discipline

/-- The part of a transaction that its script can refer to. -/
structure LocalTx (V : Vocabulary) where
  startedAt : Nat
  limit : Nat
  pending : V.Db → V.Db
  reads : List (V.Name × V.Db)
  answers : List V.Reply

/-- What a session knows about itself. -/
structure Local (V : Vocabulary) where
  tx : Option (LocalTx V)
  replies : List V.Reply
  held : V.Res → Prop

namespace Local

variable {V : Vocabulary}

def outside (replies : List V.Reply) : Local V := ⟨none, replies, fun _ => False⟩

def opened (l : Local V) (now limit : Nat) : Local V :=
  { l with tx := some ⟨now, limit, id, [], []⟩, held := fun _ => False }

def ran (l : Local V) (tx : LocalTx V) (name : V.Name) (locks : View V → List V.Res)
    (write : View V → V.Db → V.Db) (v : View V) : Local V :=
  { l with
    tx := some { tx with pending := write v ∘ tx.pending, reads := tx.reads ++ [(name, v.db)] }
    held := fun r => l.held r ∨ r ∈ locks v }

def answered (l : Local V) (reply : V.Reply) : Local V :=
  { l with
    tx := l.tx.map fun tx => { tx with answers := tx.answers ++ [reply] }
    replies := l.replies ++ [reply] }

end Local

section Wp

variable {V : Vocabulary} {κ : Type} (D : Discipline V κ) (call : κ)

/-- The transaction `tx` may end with `error` in the state `s`. -/
def Undoable (l : Local V) (tx : LocalTx V) (error : V.Err) (s : Shared V κ) : Prop :=
  let e := s.entry call tx.startedAt tx.reads tx.answers l.replies (some error) s.db
  D.Assume e → D.Guarantee l.held s (s.record e) ∧ ∀ r, l.held r → D.Free r (s.record e)

/-- `P` holds whatever the others do before this session's next step, and until then the
database may give the session's transaction up. -/
def Settled (l : Local V) (s : Shared V κ) (P : Shared V κ → Prop) : Prop :=
  ∀ s', D.Rely l.held s s' → (∀ tx, l.tx = some tx → Undoable D call l tx V.rolledBack s') ∧ P s'

/-- The entry `e` may be recorded by a session that holds `held`, and `Next` holds after it. -/
def Commits (held : V.Res → Prop) (s : Shared V κ) (e : Entry V κ)
    (Next : Shared V κ → Prop) : Prop :=
  D.Assume e → D.Guarantee held s (s.record e) ∧ (∀ r, held r → D.Free r (s.record e)) ∧
    Next (s.record e)

/-- What a view of a statement may be: the rows the session has locked are not busy. -/
structure Sees (l : Local V) (db : V.Db) (now : Nat) (s : Shared V κ) (locks : View V → List V.Res)
    (v : View V) : Prop where
  db : v.db = db
  now : v.now = now
  clock : v.clock = s.now
  waited : ∀ r ∈ locks v, v.busy r = false
  own : ∀ r, l.held r → v.busy r = false

def Wp {α : Type} : Script V α → (α → Local V → Shared V κ → Prop) → Local V → Shared V κ → Prop
  | .done a, Q, l, s => Settled D call l s (Q a l)
  | .fail error, _, l, s =>
    Settled D call l s fun s' => ∀ tx, l.tx = some tx → Undoable D call l tx error s'
  | .sql name locks write next, Q, l, s => Settled D call l s fun s' =>
    (l.tx = none → ∀ v, Sees l s'.db s'.now s' locks v → (∀ r ∈ locks v, D.Free r s') →
      Commits D (· ∈ locks v) s'
        (s'.entry call s'.now [(name, v.db)] [] l.replies none (write v s'.db)) (Wp (next v) Q l)) ∧
    ∀ tx, l.tx = some tx → s'.now ≤ tx.startedAt + tx.limit →
      ∀ v, Sees l (tx.pending s'.db) tx.startedAt s' locks v →
        (∀ r ∈ locks v, ¬ l.held r → D.Free r s') → Wp (next v) Q (l.ran tx name locks write v) s'
  | .call effect next, Q, l, s => Settled D call l s fun s' =>
    ∀ reply ext, effect reply s'.ext = some ext →
      D.Guarantee l.held s' (s'.setExt ext) ∧ Wp (next reply) Q (l.answered reply) (s'.setExt ext)
  | .clock next, Q, l, s => Settled D call l s fun s' => Wp (next s'.now) Q l s'
  | .begin limit handler next, Q, l, s => Settled D call l s fun s' =>
    l.tx = none → (∀ error replies s'', D.Rely (fun _ => False) s' s'' →
        Wp (handler error) Q (.outside replies) s'') ∧
      Wp next Q (l.opened s'.now limit) s'
  | .commit next, Q, l, s => Settled D call l s fun s' =>
    ∀ tx, l.tx = some tx → s'.now ≤ tx.startedAt + tx.limit →
      Commits D l.held s' (s'.entry call tx.startedAt tx.reads tx.answers l.replies none
        (tx.pending s'.db))
        (Wp next Q (.outside l.replies))

variable {D call} {α β : Type} {l : Local V} {s s' : Shared V κ}

theorem Settled.settle {P : Shared V κ → Prop} (h : Settled D call l s P)
    (hRely : D.Rely l.held s s') :
    Settled D call l s' P :=
  fun s'' hNext => h s'' (hRely.trans hNext)

theorem Settled.mono {P P' : Shared V κ → Prop} (h : Settled D call l s P)
    (hPost : ∀ s', D.Rely l.held s s' → P s' → P' s') : Settled D call l s P' :=
  fun s' hRely => ⟨(h s' hRely).1, hPost s' hRely (h s' hRely).2⟩

theorem Settled.here {P : Shared V κ → Prop} (h : Settled D call l s P) (hInv : D.Inv s) : P s :=
  (h s (.refl hInv)).2

theorem Commits.mono {held : V.Res → Prop} {e : Entry V κ} {Next Next' : Shared V κ → Prop}
    (h : Commits D held s e Next)
    (hNext : D.Inv (s.record e) → Next (s.record e) → Next' (s.record e)) :
    Commits D held s e Next' := by
  intro hAssume
  obtain ⟨hGuarantee, hFreed, hAfter⟩ := h hAssume
  exact ⟨hGuarantee, hFreed, hNext hGuarantee.inv hAfter⟩

/-- Whatever step comes next, the database may give the transaction up before it. -/
theorem Wp.undoable {p : Script V α} {Q : α → Local V → Shared V κ → Prop} (h : Wp D call p Q l s)
    (hInv : D.Inv s) {tx : LocalTx V} (hTx : l.tx = some tx) :
    Undoable D call l tx V.rolledBack s := by
  cases p <;> exact (h s (.refl hInv)).1 tx hTx

/-- A verified script stays verified while the others move. -/
theorem Wp.settle {p : Script V α} {Q : α → Local V → Shared V κ → Prop} (h : Wp D call p Q l s)
    (hRely : D.Rely l.held s s') : Wp D call p Q l s' := by
  cases p <;> exact Settled.settle h hRely

theorem Wp.mono {p : Script V α} {Q Q' : α → Local V → Shared V κ → Prop} (h : Wp D call p Q l s)
    (hPost : ∀ a l s, D.Inv s → Q a l s → Q' a l s) : Wp D call p Q' l s := by
  induction p generalizing l s with
  | done a => exact Settled.mono h fun s' hRely hQ => hPost a l s' hRely.inv hQ
  | fail error => exact h
  | sql name locks write next ih =>
    refine Settled.mono h fun s' hRely hBody => ⟨?_, ?_⟩
    · exact fun hTx v hSees hFree => (hBody.1 hTx v hSees hFree).mono fun _ hNext => ih v hNext
    · exact fun tx hTx hTime v hSees hFree => ih v (hBody.2 tx hTx hTime v hSees hFree)
  | call effect next ih =>
    refine Settled.mono h fun s' hRely hBody reply ext hEffect => ?_
    exact ⟨(hBody reply ext hEffect).1, ih reply (hBody reply ext hEffect).2⟩
  | clock next ih => exact Settled.mono h fun s' hRely hBody => ih s'.now hBody
  | begin limit handler next ihHandler ih =>
    refine Settled.mono h fun s' hRely hBody hTx =>
      ⟨fun error replies s'' hNext => ?_, ih (hBody hTx).2⟩
    exact ihHandler error ((hBody hTx).1 error replies s'' hNext)
  | commit next ih =>
    exact Settled.mono h fun s' hRely hBody tx hTx hTime =>
      (hBody tx hTx hTime).mono fun _ hNext => ih hNext

/-- The rule for sequencing: the second script starts where the first one ends. -/
theorem Wp.bind {p : Script V α} {k : α → Script V β} {Q : β → Local V → Shared V κ → Prop}
    (hInv : D.Inv s) (h : Wp D call p (fun a l s => Wp D call (k a) Q l s) l s) :
    Wp D call (p.bind k) Q l s := by
  induction p generalizing l s with
  | done a => exact Settled.here h hInv
  | fail error => exact h
  | sql name locks write next ih =>
    refine Settled.mono h fun s' hRely hBody => ⟨?_, ?_⟩
    · exact fun hTx v hSees hFree => (hBody.1 hTx v hSees hFree).mono fun hInv hNext =>
        ih v hInv hNext
    · exact fun tx hTx hTime v hSees hFree => ih v hRely.inv (hBody.2 tx hTx hTime v hSees hFree)
  | call effect next ih =>
    refine Settled.mono h fun s' hRely hBody reply ext hEffect => ?_
    obtain ⟨hGuarantee, hNext⟩ := hBody reply ext hEffect
    exact ⟨hGuarantee, ih reply hGuarantee.inv hNext⟩
  | clock next ih => exact Settled.mono h fun s' hRely hBody => ih s'.now hRely.inv hBody
  | begin limit handler next ihHandler ih =>
    refine Settled.mono h fun s' hRely hBody hTx =>
      ⟨fun error replies s'' hNext => ?_, ih hRely.inv (hBody hTx).2⟩
    exact ihHandler error hNext.inv ((hBody hTx).1 error replies s'' hNext)
  | commit next ih =>
    exact Settled.mono h fun s' hRely hBody tx hTx hTime =>
      (hBody tx hTx hTime).mono fun hInv hNext => ih hInv hNext

/-- The second script may assume the invariant, too. -/
theorem Wp.bind_inv {p : Script V α} {k : α → Script V β} {Q : β → Local V → Shared V κ → Prop}
    (hInv : D.Inv s) (h : Wp D call p (fun a l s => D.Inv s → Wp D call (k a) Q l s) l s) :
    Wp D call (p.bind k) Q l s :=
  Wp.bind hInv (h.mono fun _ _ _ hHere hNext => hNext hHere)

end Wp

end Pixaeron.Transactions
