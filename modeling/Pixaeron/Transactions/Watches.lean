import Pixaeron.Transactions.Registers

/-! # Transactions as functions, and what they have seen

A transaction is judged when it commits: by the function that its statements make up, and by whether
it has seen under a lock that a value is open. Whoever closes the value does so under the same lock,
so what has been seen still holds then. -/

namespace Pixaeron.Transactions

variable {V : Vocabulary} {κ ω ρ α β : Type}

/-- `Legal` says what a transaction of a call may do. Only runs are considered in which no `Trusted`
call closes the value; every other call has to show that it does not, or hold the lock. -/
structure Watch (V : Vocabulary) (κ ρ : Type) where
  read : V.Db → ρ
  lock : V.Res
  Open : ρ → Prop
  Legal : κ → V.Db → V.Db → Prop
  Trusted : κ → Prop

/-- How far a script has come: `change` is what its transaction has done so far. -/
inductive Phase (V : Vocabulary) where
  | outside
  | inside (locked : Bool) (change : V.Db → V.Db) (seen : Prop)

namespace Watch

variable (W : Watch V κ ρ)

def Neutral (change : V.Db → V.Db) : Prop := ∀ db, W.read (change db) = W.read db

/-- The value stays open. -/
def Spares (db db' : V.Db) : Prop := W.Open (W.read db) → W.Open (W.read db')

/-- The change may be committed. -/
structure Commits (call : κ) (locked : Bool) (change : V.Db → V.Db) (seen : Prop) : Prop where
  legal : ∀ db, (seen → W.Open (W.read db)) → W.Legal call db (change db)
  spares : locked = false → ¬ W.Trusted call → ∀ db, W.Spares db (change db)

/-- Nothing stands against a commit. -/
def MayCommit (call : κ) : Phase V → Prop
  | .outside => True
  | .inside locked change seen => W.Commits call locked change seen

/-- What leaves the rows as they are is legal. -/
def Rests : Prop := ∀ call db, W.Legal call db db

/-- What the script does when each of its transactions commits. -/
def Careful [DecidableEq V.Res] (call : κ) (Q : Phase V → α → Prop) : Script V α → Phase V → Prop
  | .done a, phase => Q phase a
  | .fail _, _ => True
  | .sql _ _ write next, .outside =>
    ∀ v, W.Legal call v.db (write v v.db) ∧ (¬ W.Trusted call → W.Spares v.db (write v v.db)) ∧
    Careful call Q (next v) .outside
  | .sql _ locks write next, .inside locked change seen => ∀ v,
    Careful call Q (next v) (.inside (locked || decide (W.lock ∈ locks v)) (write v ∘ change)
      ((locked || decide (W.lock ∈ locks v)) = true ∧
        (seen ∨ W.Neutral change ∧ W.Open (W.read v.db))))
  | .call _ next, phase => ∀ reply, Careful call Q (next reply) phase
  | .clock next, phase => ∀ t, Careful call Q (next t) phase
  | .begin _ handler next, .outside =>
    (∀ error, Careful call Q (handler error) .outside) ∧
      Careful call Q next (.inside false id False)
  | .begin _ _ _, .inside _ _ _ => True
  | .commit _, .outside => True
  | .commit next, .inside locked change seen =>
    W.MayCommit call (.inside locked change seen) ∧ Careful call Q next .outside

variable {W} {call : κ} {phase : Phase V}

/-! ## Rules -/

section Rules

variable [DecidableEq V.Res]

theorem Careful.bind {Q : Phase V → β → Prop} {p : Script V α} {k : α → Script V β}
    (h : W.Careful call (fun phase a => W.Careful call Q (k a) phase) p phase) :
    W.Careful call Q (p.bind k) phase := by
  induction p generalizing phase with
  | done a => exact h
  | fail error => trivial
  | sql name locks write next ih =>
    cases phase with
    | outside => exact fun v => ⟨(h v).1, (h v).2.1, ih v (h v).2.2⟩
    | inside locked change seen => exact fun v => ih v (h v)
  | call effect next ih => exact fun reply => ih reply (h reply)
  | clock next ih => exact fun t => ih t (h t)
  | begin limit handler next ihHandler ih =>
    cases phase with
    | outside => exact ⟨fun error => ihHandler error (h.1 error), ih h.2⟩
    | inside _ _ _ => trivial
  | commit next ih =>
    cases phase with
    | outside => trivial
    | inside _ _ _ => exact ⟨h.1, ih h.2⟩

theorem Careful.mono {Q Q' : Phase V → α → Prop} {p : Script V α} (h : W.Careful call Q p phase)
    (hPost : ∀ phase a, Q phase a → Q' phase a) : W.Careful call Q' p phase := by
  induction p generalizing phase with
  | done a => exact hPost phase a h
  | fail error => trivial
  | sql name locks write next ih =>
    cases phase with
    | outside => exact fun v => ⟨(h v).1, (h v).2.1, ih v (h v).2.2⟩
    | inside locked change seen => exact fun v => ih v (h v)
  | call effect next ih => exact fun reply => ih reply (h reply)
  | clock next ih => exact fun t => ih t (h t)
  | begin limit handler next ihHandler ih =>
    cases phase with
    | outside => exact ⟨fun error => ihHandler error (h.1 error), ih h.2⟩
    | inside _ _ _ => trivial
  | commit next ih =>
    cases phase with
    | outside => trivial
    | inside _ _ _ => exact ⟨h.1, ih h.2⟩

theorem Careful.check {Q : Phase V → Unit → Prop} {condition : Prop} [Decidable condition]
    {error : V.Err} (h : condition → Q phase ()) :
    W.Careful call Q (if condition then .done () else .fail error : Script V Unit) phase := by
  split
  next hCondition => exact h hCondition
  next => trivial

theorem Careful.readClock {Q : Phase V → Nat → Prop} (h : ∀ t, Q phase t) :
    W.Careful call Q (Script.readClock : Script V Nat) phase := h

theorem Careful.query {Q : Phase V → α → Prop} {name : V.Name} {answer : View V → α} {locked : Bool}
    {change : V.Db → V.Db} {seen : Prop}
    (h : ∀ v, Q (.inside locked change (locked = true ∧
      (seen ∨ W.Neutral change ∧ W.Open (W.read v.db)))) (answer v)) :
    W.Careful call Q (Script.query name answer) (.inside locked change seen) := by
  intro v
  have hLocks : (locked || decide (W.lock ∈ ([] : List V.Res))) = locked := by simp
  rw [hLocks]
  exact h v

theorem Careful.query_outside {Q : Phase V → α → Prop} {name : V.Name} {answer : View V → α}
    (hRests : W.Rests) (h : ∀ v, Q .outside (answer v)) :
    W.Careful call Q (Script.query name answer) .outside :=
  fun v => ⟨hRests call v.db, fun _ hOpen => hOpen, h v⟩

/-- The change of the body is judged as a whole. -/
theorem Careful.transaction {Q : Phase V → α → Prop} {limit : Nat} {body : Script V α}
    {handler : V.Err → Script V α} (hHandler : ∀ error, W.Careful call Q (handler error) .outside)
    (hBody : W.Careful call (fun phase a => W.MayCommit call phase ∧ Q .outside a) body
      (.inside false id False)) :
    W.Careful call Q (Script.transaction limit body handler) .outside := by
  refine ⟨hHandler, Careful.bind (hBody.mono fun phase a hEnd => ?_)⟩
  cases phase with
  | outside => trivial
  | inside locked change seen => exact hEnd

/-- Statements of one kind make up a change of that kind. What has been seen under the lock stays
seen. -/
theorem Careful.of_only {P : (V.Db → V.Db) → Prop} (hId : P id)
    (hComp : ∀ f g, P f → P g → P (f ∘ g)) {Q : Phase V → α → Prop} {p : Script V α} {locked : Bool}
    {change : V.Db → V.Db} {seen : Prop} (h : p.Only P)
    (hQ : ∀ taken added seen' a, P added → (locked = true → seen → seen') →
      Q (.inside (locked || taken) (added ∘ change) seen') a) :
    W.Careful call Q p (.inside locked change seen) := by
  suffices hAll : ∀ taken added seen', P added → (locked = true → seen → seen') →
      W.Careful call Q p (.inside (locked || taken) (added ∘ change) seen') by
    have hStart := hAll false id seen hId fun _ hSeen => hSeen
    rwa [Bool.or_false] at hStart
  induction p with
  | done a => exact fun taken added seen' hAdded hSeen => hQ taken added seen' a hAdded hSeen
  | fail error => exact fun _ _ _ _ _ => trivial
  | sql name locks write next ih =>
    intro taken added seen' hAdded hSeen v
    rw [Bool.or_assoc]
    refine ih v (h v).2 (taken || decide (W.lock ∈ locks v)) (write v ∘ added) _
      (hComp _ _ (h v).1 hAdded) fun hLocked hOld => ?_
    exact ⟨by simp [hLocked], .inl (hSeen hLocked hOld)⟩
  | call _ _ => exact h.elim
  | clock next ih =>
    exact fun taken added seen' hAdded hSeen t => ih t (h t) taken added seen' hAdded hSeen
  | begin _ _ _ => exact h.elim
  | commit _ => exact h.elim

/-- Changes that a call may commit at any time. -/
structure Admits (W : Watch V κ ρ) (call : κ) (P : (V.Db → V.Db) → Prop) : Prop where
  same : P id
  comp : ∀ f g, P f → P g → P (f ∘ g)
  legal : ∀ f, P f → ∀ db, W.Legal call db (f db)
  spares : ∀ f, P f → ¬ W.Trusted call → ∀ db, W.Spares db (f db)

omit [DecidableEq V.Res] in
theorem Admits.commits {P : (V.Db → V.Db) → Prop} (hAdmits : W.Admits call P) {locked : Bool}
    {change : V.Db → V.Db} {seen : Prop} (h : P change) : W.Commits call locked change seen :=
  ⟨fun db _ => hAdmits.legal _ h db, fun _ hNot => hAdmits.spares _ h hNot⟩

/-- The transaction has made such changes only. -/
def Inside (P : (V.Db → V.Db) → Prop) : Phase V → Prop
  | .outside => False
  | .inside _ change _ => P change

omit [DecidableEq V.Res] in
theorem Admits.mayCommit {P : (V.Db → V.Db) → Prop} (hAdmits : W.Admits call P)
    (h : Inside P phase) : W.MayCommit call phase := by
  cases phase with
  | outside => trivial
  | inside locked change seen => exact hAdmits.commits h

omit [DecidableEq V.Res] in
theorem inside_id {P : (V.Db → V.Db) → Prop} {locked : Bool} {seen : Prop} (h : P id) :
    Inside P (.inside locked id seen) := h

theorem Careful.stays {P : (V.Db → V.Db) → Prop} {p : Script V α} (hAdmits : W.Admits call P)
    (h : p.Only P) (hInside : Inside P phase) :
    W.Careful call (fun phase _ => Inside P phase) p phase := by
  cases phase with
  | outside => exact hInside.elim
  | inside locked change seen =>
    exact Careful.of_only hAdmits.same hAdmits.comp h fun _ added _ _ hAdded _ =>
      hAdmits.comp _ _ hAdded hInside

theorem Careful.of_writes {P : (V.Db → V.Db) → Prop} {M : (V.Reply → V.Ext → Option V.Ext) → Prop}
    {p : Script V α} (hAdmits : W.Admits call P) (h : p.Writes P M)
    (hPhase : phase = .outside ∨ Inside P phase) :
    W.Careful call (fun _ _ => True) p phase := by
  induction p generalizing phase with
  | done a => trivial
  | fail error => trivial
  | sql name locks write next ih =>
    cases phase with
    | outside =>
      exact fun v =>
        ⟨hAdmits.legal _ (h v).1 _, fun hNot => hAdmits.spares _ (h v).1 hNot _,
        ih v (h v).2 (.inl rfl)⟩
    | inside locked change seen =>
      exact fun v => ih v (h v).2 (.inr (hAdmits.comp _ _ (h v).1 (hPhase.resolve_left (by simp))))
  | call effect next ih => exact fun reply => ih reply (h.2 reply) hPhase
  | clock next ih => exact fun t => ih t (h t) hPhase
  | begin limit handler next ihHandler ih =>
    cases phase with
    | outside =>
      exact ⟨fun error => ihHandler error (h.1 error) (.inl rfl), ih h.2 (.inr hAdmits.same)⟩
    | inside _ _ _ => trivial
  | commit next ih =>
    cases phase with
    | outside => trivial
    | inside locked change seen =>
      exact ⟨hAdmits.commits (hPhase.resolve_left (by simp)), ih h (.inl rfl)⟩

end Rules

/-! ## Scripts among others -/

variable (W) in
/-- The watch as a ledger, from a first state on. -/
def ledger (genesis : V.Db) : Ledger V κ where
  genesis := genesis
  Legal e := W.Legal e.call e.before e.after
  Respects r e := r = W.lock → W.Spares e.before e.after
  Moves _ _ := True
  Spares _ _ _ := True
  Traffic _ := True
  Free _ _ := True
  Assume e := W.Trusted e.call → W.Spares e.before e.after
  moves_refl _ := trivial
  moves_trans _ _ _ _ _ := trivial
  spares_refl _ _ := trivial
  spares_trans _ _ _ _ _ _ _ _ _ := trivial

variable {genesis : V.Db} {l : Local V} {s s' : Shared V κ} {held : V.Res → Prop}

theorem open_of_rely (hRely : (W.ledger genesis).discipline.Rely held s s') (hHeld : held W.lock)
    (hOpen : W.Open (W.read s.db)) :
    W.Open (W.read s'.db) :=
  Ledger.rely_preserves (P := fun db _ => W.Open (W.read db)) hRely (fun _ _ _ _ h => h)
    (fun _ _ _ hRespects hSoFar => hRespects W.lock hHeld rfl hSoFar) hOpen

variable (W) in
/-- What a session in a phase can count on. -/
inductive At (l : Local V) (s : Shared V κ) : Phase V → Prop
  | outside : l.tx = none → At l s .outside
  | inside {locked : Bool} {change : V.Db → V.Db} {seen : Prop} {tx : LocalTx V} : l.tx = some tx →
      tx.pending = change →
    (locked = true → l.held W.lock) → (seen → locked = true ∧ W.Open (W.read s.db)) →
      At l s (.inside locked change seen)

theorem At.later (h : W.At l s phase) (hRely : (W.ledger genesis).discipline.Rely l.held s s') :
    W.At l s' phase := by
  cases h with
  | outside hTx => exact .outside hTx
  | inside hTx hChange hHeld hSeen =>
    exact .inside hTx hChange hHeld fun hKnown =>
      ⟨(hSeen hKnown).1, open_of_rely hRely (hHeld (hSeen hKnown).1) (hSeen hKnown).2⟩

theorem guarantee_of_legal {e : Entry V κ} (hSound : (W.ledger genesis).Sound s)
    (hBefore : e.before = s.db) (hEnded : e.endedAt = s.now)
    (hLegal : W.Legal e.call e.before e.after)
    (hSpares : ¬ held W.lock → W.Spares e.before e.after) :
    (W.ledger genesis).discipline.Guarantee held s (s.record e) :=
  Ledger.guarantee_record hSound hBefore hEnded hLegal trivial
    (fun _ hr hLock => hSpares (hLock ▸ hr)) (fun _ _ => trivial)
    fun _ _ _ => trivial

theorem undoable (hRests : W.Rests) {tx : LocalTx V} {error : V.Err}
    (hSound : (W.ledger genesis).Sound s) :
    Undoable (W.ledger genesis).discipline call l tx error s :=
  fun _ => ⟨guarantee_of_legal hSound rfl rfl (hRests _ _) fun _ hOpen => hOpen, fun _ _ => trivial⟩

section Wp

variable [DecidableEq V.Res] {p : Script V α}

theorem Careful.wp (hRests : W.Rests) (h : W.Careful call (fun _ _ => True) p phase)
    (hAt : W.At l s phase) :
    Wp (W.ledger genesis).discipline call p (fun _ _ _ => True) l s := by
  induction p generalizing phase l s with
  | done a => exact fun s' hRely => ⟨fun _ _ => undoable hRests hRely.inv, trivial⟩
  | fail error =>
    exact fun s' hRely =>
      ⟨fun _ _ => undoable hRests hRely.inv, fun _ _ => undoable hRests hRely.inv⟩
  | sql name locks write next ih =>
    refine fun s' hRely =>
      ⟨fun _ _ => undoable hRests hRely.inv, fun hTx v hView _ => ?_, fun tx hTx _ v hView _ => ?_⟩
    · cases hAt.later hRely with
      | inside hOpen _ _ _ => cases hTx.symm.trans hOpen
      | outside _ =>
        obtain ⟨hLegal, hSpares, hNext⟩ := h v
        rw [hView.db] at hLegal hSpares
        refine fun hTrusted =>
          ⟨guarantee_of_legal hRely.inv rfl rfl hLegal fun _ => ?_, fun _ _ => trivial,
          ih v hNext (.outside hTx)⟩
        by_cases hCall : W.Trusted call
        · exact hTrusted hCall
        · exact hSpares hCall
    · cases hAt.later hRely with
      | outside hNone => cases hNone.symm.trans hTx
      | @inside locked change seen tx' hOpen hChange hHeld hSeen =>
        cases hTx.symm.trans hOpen
        subst hChange
        refine ih v (h v) (.inside rfl rfl (fun hLocked => ?_) fun hKnown => ⟨hKnown.1, ?_⟩)
        · rcases Bool.or_eq_true_iff.mp hLocked with hOld | hNew
          · exact .inl (hHeld hOld)
          · exact .inr (of_decide_eq_true hNew)
        · rcases hKnown.2 with hOld | ⟨hNeutral, hNow⟩
          · exact (hSeen hOld).2
          · rwa [hView.db, hNeutral] at hNow
  | call effect next ih =>
    refine fun s' hRely => ⟨fun _ _ => undoable hRests hRely.inv, fun reply ext hEffect => ⟨?_, ?_⟩⟩
    · exact Ledger.guarantee_setExt hRely.inv trivial trivial (fun _ _ => trivial) fun _ _ _ =>
        trivial
    · refine ih reply (h reply) ?_
      cases hAt.later hRely with
      | outside hTx => exact .outside (congrArg (Option.map _) hTx)
      | inside hTx hChange hHeld hSeen =>
        exact .inside (congrArg (Option.map _) hTx) hChange hHeld hSeen
  | clock next ih =>
    exact fun s' hRely =>
      ⟨fun _ _ => undoable hRests hRely.inv, ih s'.now (h s'.now) (hAt.later hRely)⟩
  | begin limit handler next ihHandler ih =>
    refine fun s' hRely => ⟨fun _ _ => undoable hRests hRely.inv, fun hTx => ?_⟩
    cases hAt.later hRely with
    | inside hOpen _ _ _ => cases hTx.symm.trans hOpen
    | outside _ =>
      refine ⟨fun error replies s'' _ => ihHandler error (h.1 error) (.outside rfl),
        ih h.2 (.inside rfl rfl (fun hNo => by cases hNo) ?_)⟩
      exact fun hNo => hNo.elim
  | commit next ih =>
    refine fun s' hRely => ⟨fun _ _ => undoable hRests hRely.inv, fun tx hTx _ hTrusted => ?_⟩
    cases hAt.later hRely with
    | outside hNone => cases hNone.symm.trans hTx
    | @inside locked change seen tx' hOpen hChange hHeld hSeen =>
      cases hTx.symm.trans hOpen
      subst hChange
      obtain ⟨hCommits, hNext⟩ : W.Commits call locked tx.pending seen ∧ _ := h
      refine ⟨guarantee_of_legal hRely.inv rfl rfl ?_ fun hNot => ?_, fun _ _ => trivial,
        ih hNext (.outside rfl)⟩
      · exact hCommits.legal _ fun hKnown => (hSeen hKnown).2
      · by_cases hCall : W.Trusted call
        · exact hTrusted hCall
        · exact hCommits.spares ((Bool.not_eq_true _).mp fun hLocked => hNot (hHeld hLocked)) hCall
            _

end Wp

/-! ## Runs -/

section Runs

variable [DecidableEq V.Res] {program : World.Program V κ ω} {now : Nat} {ext : V.Ext}
  {w w' : World V κ ω}

/-- Every call of the program is careful. -/
def KeptBy (W : Watch V κ ρ) (program : World.Program V κ ω) : Prop :=
  ∀ call s ext script, program call s = some (ext, script) →
    W.Careful call (fun _ _ => True) script .outside

theorem KeptBy.verified (hRests : W.Rests) (h : W.KeptBy program) :
    Verified (W.ledger genesis).discipline program where
  tick _ _ hSound := Ledger.guarantee_tick hSound trivial (fun _ => trivial) fun _ _ => trivial
  spawn s call ext script hSound hProgram :=
    ⟨Ledger.guarantee_setExt hSound trivial trivial (fun _ _ => trivial) fun _ _ _ => trivial,
      (h call s ext script hProgram).wp hRests (l := .outside []) (s := s.setExt ext)
        (.outside rfl)⟩

theorem KeptBy.path (hRests : W.Rests) (h : W.KeptBy program)
    (hLeads : World.Leads program (World.idle now genesis ext) w)
    (hTrusted : ∀ e ∈ w.shared.history, W.Trusted e.call → W.Spares e.before e.after) :
    Path (fun e => W.Legal e.call e.before e.after) genesis 0 w.shared.history w.shared.db
      w.shared.now := by
  have hStart : World.Meets (W.ledger genesis).discipline
    (World.idle (κ := κ) (ω := ω) now genesis ext) :=
    World.meets_idle ⟨.rest (Nat.zero_le now), trivial⟩ fun _ => trivial
  exact (hStart.leads (h.verified hRests) hLeads hTrusted).1.inv.1

end Runs

end Watch

end Pixaeron.Transactions
