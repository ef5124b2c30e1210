import Pixaeron.Transactions.Ledger
import Pixaeron.Transactions.Writes

/-! # The grounds of a commit

A call decides by the rows that it has read. A commit is judged by the committed states among them,
which include the ones that the call has read before the transaction began, and by what the
transaction has done. Nothing is asked of the other sessions here. -/

namespace Pixaeron.Transactions

variable {V : Vocabulary} {κ ω α β : Type}

/-- What an open transaction has done so far. -/
structure Progress (V : Vocabulary) where
  startedAt : Nat
  reads : List (V.Name × V.Db)
  change : V.Db → V.Db

/-- Whether a call may commit, by the committed states that it knows and what the transaction has
done. -/
abbrev Grounds (V : Vocabulary) (κ : Type) := κ → (V.Db → Prop) → Progress V → Prop

/-- As long as a transaction has changed nothing, it reads committed states. -/
def Progress.sees (p : Progress V) (known : V.Db → Prop) (v : View V) (db : V.Db) : Prop :=
  known db ∨ p.change = id ∧ db = v.db

def Progress.ran (p : Progress V) (name : V.Name) (write : V.Db → V.Db) (v : View V) : Progress V :=
  { p with reads := p.reads ++ [(name, v.db)], change := write ∘ p.change }

theorem Progress.ran_read {p : Progress V} {name : V.Name} {v : View V} (h : p.change = id) :
    (p.ran name id v).change = id := by
  rw [ran, h]
  rfl

/-- The commits of the script have their grounds, whatever its statements find. -/
def Script.Grounded (G : Grounds V κ) (call : κ)
    (Q : (V.Db → Prop) → Option (Progress V) → α → Prop) :
    Script V α → (V.Db → Prop) → Option (Progress V) → Prop
  | .done a, known, tx => Q known tx a
  | .fail _, _, _ => True
  | .sql name _ write next, known, none => ∀ v t,
    G call (fun db => known db ∨ db = v.db) ⟨t, [(name, v.db)], write v⟩ ∧
      (next v).Grounded G call Q (fun db => known db ∨ db = v.db) none
  | .sql name _ write next, known, some p =>
    ∀ v, (next v).Grounded G call Q (p.sees known v) (some (p.ran name (write v) v))
  | .call effect next, known, tx =>
    ∀ reply, (∃ ext ext', effect reply ext = some ext') → (next reply).Grounded G call Q known tx
  | .clock next, known, tx =>
    ∀ t, (∀ p, tx = some p → p.startedAt ≤ t) → (next t).Grounded G call Q known tx
  | .begin _ handler next, known, none =>
    (∀ error, (handler error).Grounded G call Q known none) ∧
      ∀ t, next.Grounded G call Q known (some ⟨t, [], id⟩)
  | .begin _ _ _, _, some _ => True
  | .commit _, _, none => True
  | .commit next, known, some p => G call known p ∧ next.Grounded G call Q known none

namespace Script

variable {G : Grounds V κ} {call : κ} {known : V.Db → Prop} {tx : Option (Progress V)}

/-! ## Rules -/

theorem Grounded.mono {Q Q' : (V.Db → Prop) → Option (Progress V) → α → Prop} {p : Script V α}
    (h : p.Grounded G call Q known tx) (hPost : ∀ known tx a, Q known tx a → Q' known tx a) :
    p.Grounded G call Q' known tx := by
  induction p generalizing known tx with
  | done a => exact hPost known tx a h
  | fail error => trivial
  | sql name locks write next ih =>
    cases tx with
    | none => exact fun v t => ⟨(h v t).1, ih v (h v t).2⟩
    | some progress => exact fun v => ih v (h v)
  | call effect next ih => exact fun reply hReply => ih reply (h reply hReply)
  | clock next ih => exact fun t hTime => ih t (h t hTime)
  | begin limit handler next ihHandler ih =>
    cases tx with
    | none => exact ⟨fun error => ihHandler error (h.1 error), fun t => ih (h.2 t)⟩
    | some _ => trivial
  | commit next ih =>
    cases tx with
    | none => trivial
    | some _ => exact ⟨h.1, ih h.2⟩

theorem Grounded.bind {Q : (V.Db → Prop) → Option (Progress V) → β → Prop} {p : Script V α}
    {k : α → Script V β}
    (h : p.Grounded G call (fun known tx a => (k a).Grounded G call Q known tx) known tx) :
    (p.bind k).Grounded G call Q known tx := by
  induction p generalizing known tx with
  | done a => exact h
  | fail error => trivial
  | sql name locks write next ih =>
    cases tx with
    | none => exact fun v t => ⟨(h v t).1, ih v (h v t).2⟩
    | some progress => exact fun v => ih v (h v)
  | call effect next ih => exact fun reply hReply => ih reply (h reply hReply)
  | clock next ih => exact fun t hTime => ih t (h t hTime)
  | begin limit handler next ihHandler ih =>
    cases tx with
    | none => exact ⟨fun error => ihHandler error (h.1 error), fun t => ih (h.2 t)⟩
    | some _ => trivial
  | commit next ih =>
    cases tx with
    | none => trivial
    | some _ => exact ⟨h.1, ih h.2⟩

theorem Grounded.check {Q : (V.Db → Prop) → Option (Progress V) → Unit → Prop} {condition : Prop}
    [Decidable condition] {error : V.Err} (h : condition → Q known tx ()) :
    (if condition then .done () else .fail error : Script V Unit).Grounded G call Q known tx := by
  split
  next hCondition => exact h hCondition
  next => trivial

theorem Grounded.transaction {Q : (V.Db → Prop) → Option (Progress V) → α → Prop} {limit : Nat}
    {body : Script V α} {handler : V.Err → Script V α}
    (hHandler : ∀ error, (handler error).Grounded G call Q known none)
    (hBody : ∀ t, body.Grounded G call (fun known tx a => ∀ p,
      tx = some p → G call known p ∧ Q known none a) known (some ⟨t, [], id⟩)) :
    (Script.transaction limit body handler).Grounded G call Q known none := by
  refine ⟨hHandler, fun t => Grounded.bind ((hBody t).mono fun known tx a hEnd => ?_)⟩
  cases tx with
  | none => trivial
  | some p => exact hEnd p rfl

/-- Changes of one kind, for which what is known so far is ground enough. -/
theorem Grounded.of_writes {P : (V.Db → V.Db) → Prop} {M : (V.Reply → V.Ext → Option V.Ext) → Prop}
    {p : Script V α} (hId : P id) (hComp : ∀ f g, P f → P g → P (f ∘ g))
    (hFair : ∀ known' progress, (∀ db, known db → known' db) → P progress.change →
      G call known' progress) (h : p.Writes P M)
    (hTx : ∀ progress, tx = some progress → P progress.change) :
    p.Grounded G call (fun _ tx _ => ∀ progress,
      tx = some progress → P progress.change) known tx := by
  induction p generalizing known tx with
  | done a => exact hTx
  | fail error => trivial
  | sql name locks write next ih =>
    cases tx with
    | none =>
      refine fun v t =>
        ⟨hFair _ _ (fun _ => .inl) (h v).1,
        ih v (fun known' progress hKnown => ?_) (h v).2 fun _ hNo => by cases hNo⟩
      exact hFair known' progress fun db hDb => hKnown db (.inl hDb)
    | some progress =>
      refine fun v =>
        ih v (fun known' progress hKnown => hFair known' progress fun db hDb => hKnown db
        (.inl hDb)) (h v).2 fun ran hRan => ?_
      cases hRan
      exact hComp (write v) _ (h v).1 (hTx progress rfl)
  | call effect next ih => exact fun reply _ => ih reply hFair (h.2 reply) hTx
  | clock next ih => exact fun t _ => ih t hFair (h t) hTx
  | begin limit handler next ihHandler ih =>
    cases tx with
    | none =>
      refine ⟨fun error => ihHandler error hFair (h.1 error) fun _ hNo => (by cases hNo),
        fun t => ih hFair h.2 fun begun hBegun => ?_⟩
      cases hBegun
      exact hId
    | some _ => trivial
  | commit next ih =>
    cases tx with
    | none => trivial
    | some progress =>
      exact ⟨hFair _ _ (fun _ hDb => hDb) (hTx progress rfl), ih hFair h fun _ hNo => by cases hNo⟩

theorem Grounded.of_only {P : (V.Db → V.Db) → Prop} {p : Script V α} {progress : Progress V}
    (hComp : ∀ f g, P f → P g → P (f ∘ g)) (h : p.Only P) (hTx : P progress.change) :
    p.Grounded G call (fun known' tx _ => (∀ db, known db → known' db) ∧ ∃ ended,
      tx = some ended ∧ P ended.change) known
      (some progress) := by
  induction p generalizing known progress with
  | done a => exact ⟨fun _ hDb => hDb, progress, rfl, hTx⟩
  | fail error => trivial
  | sql name locks write next ih =>
    intro v
    have hRan : P (progress.ran name (write v) v).change := hComp (write v) _ (h v).1 hTx
    exact (ih v (h v).2 hRan).mono fun _ _ _ hEnd => ⟨fun db hDb => hEnd.1 db (.inl hDb), hEnd.2⟩
  | call effect next _ => exact h.elim
  | clock next ih => exact fun t _ => ih t (h t) hTx
  | begin _ _ _ => exact h.elim
  | commit _ => exact h.elim

theorem Grounded.of_always {p : Script V α} (hAlways : ∀ known progress, G call known progress) :
    p.Grounded G call (fun _ _ _ => True) known tx := by
  induction p generalizing known tx with
  | done a => trivial
  | fail error => trivial
  | sql name locks write next ih =>
    cases tx with
    | none => exact fun v t => ⟨hAlways _ _, ih v⟩
    | some progress => exact fun v => ih v
  | call effect next ih => exact fun reply _ => ih reply
  | clock next ih => exact fun t _ => ih t
  | begin limit handler next ihHandler ih =>
    cases tx with
    | none => exact ⟨fun error => ihHandler error, fun t => ih⟩
    | some _ => trivial
  | commit next ih =>
    cases tx with
    | none => trivial
    | some progress => exact ⟨hAlways _ _, ih⟩

end Script

/-! ## Histories -/

/-- The rows have been committed by one of the entries, or nothing had been committed. -/
def Occurred (genesis : V.Db) (past : List (Entry V κ)) (db : V.Db) : Prop :=
  db = genesis ∨ ∃ e ∈ past, e.after = db

theorem Occurred.later {genesis db : V.Db} {past es : List (Entry V κ)}
    (h : Occurred genesis past db) :
    Occurred genesis (past ++ es) db :=
  h.imp_right fun ⟨e, he, hAfter⟩ => ⟨e, List.mem_append_left _ he, hAfter⟩

/-- The legal entries since then lead from these rows to the present ones. -/
theorem Occurred.path {Legal : Entry V κ → Prop} {genesis db db' : V.Db} {t' : Nat}
    {past : List (Entry V κ)} (h : Occurred genesis past db)
    (hPath : Path Legal genesis 0 past db' t') :
    ∃ earlier es t, Path Legal genesis 0 earlier db t ∧ Path Legal db t es db' t' := by
  rcases h with rfl | ⟨e, he, rfl⟩
  · exact ⟨[], past, 0, .rest le_rfl, hPath⟩
  · obtain ⟨pre, post, rfl⟩ := List.append_of_mem he
    obtain ⟨_, t, hFirst, hRest⟩ := hPath.split
    obtain ⟨rfl, hTime, hLegal, hLast⟩ := hRest.of_cons
    exact ⟨pre ++ [e], post, e.endedAt, hFirst.append (.commit hTime hLegal (.rest le_rfl)), hLast⟩

/-- The entry has changed nothing, or it is a commit that has its grounds in what came before. -/
def Justified (G : Grounds V κ) (genesis : V.Db) (past : List (Entry V κ)) (e : Entry V κ) : Prop :=
  e.error ≠ none ∧ e.after = e.before ∨ e.error = none ∧ ∃ known p, G e.call known p ∧
    p.startedAt = e.startedAt ∧
    p.reads = e.reads ∧ e.after = p.change e.before ∧ ∀ db, known db → Occurred genesis past db

namespace Grounds

variable (G : Grounds V κ) (genesis : V.Db)

/-- Every entry is justified by the ones before it. -/
def Told (s : Shared V κ) : Prop :=
  ∀ past e later, s.history = past ++ e :: later → Justified G genesis past e

def ledger : Ledger V κ where
  genesis := genesis
  Legal _ := True
  Respects _ _ := True
  Moves _ _ := True
  Spares _ _ _ := True
  Traffic := G.Told genesis
  Free _ _ := True
  Assume _ := True
  moves_refl _ := trivial
  moves_trans _ _ _ _ _ := trivial
  spares_refl _ _ := trivial
  spares_trans _ _ _ _ _ _ _ _ _ := trivial

variable {G genesis} {call : κ} {s s' : Shared V κ} {held : V.Res → Prop} {l : Local V}
  {known : V.Db → Prop} {tx : Option (Progress V)}

theorem occurred_here (h : (G.ledger genesis).Sound s) : Occurred genesis s.history s.db := by
  suffices hAll : ∀ {db db' : V.Db} {t t' : Nat} {es : List (Entry V κ)},
    Path (fun _ => True) db t es db' t' → Occurred db es db' from
    hAll h.1
  intro db db' t t' es hPath
  induction hPath with
  | rest _ => exact .inl rfl
  | @commit t e es db' t' _ _ _ ih =>
    rcases ih with rfl | ⟨e', he', hAfter⟩
    · exact .inr ⟨e, List.mem_cons_self, rfl⟩
    · exact .inr ⟨e', List.mem_cons_of_mem _ he', hAfter⟩

theorem Told.record {e : Entry V κ} (h : G.Told genesis s)
    (hNew : Justified G genesis s.history e) : G.Told genesis (s.record e) := by
  intro past e' later hSplit
  rw [Shared.record_history] at hSplit
  rcases List.append_eq_append_iff.mp hSplit with ⟨a, hPast, hRest⟩ | ⟨a, hHistory, hRest⟩
  · cases a with
    | nil =>
      obtain ⟨rfl, -⟩ := List.cons.inj hRest
      rwa [hPast, List.append_nil]
    | cons b rest => simp at hRest
  · cases a with
    | nil =>
      obtain ⟨rfl, -⟩ := List.cons.inj hRest
      rwa [hHistory, List.append_nil] at hNew
    | cons b rest =>
      obtain ⟨rfl, -⟩ := List.cons.inj hRest
      exact h past _ rest hHistory

theorem guarantee_of_justified {e : Entry V κ} (hSound : (G.ledger genesis).Sound s)
    (hBefore : e.before = s.db) (hEnded : e.endedAt = s.now)
    (hNew : Justified G genesis s.history e) :
    (G.ledger genesis).discipline.Guarantee held s (s.record e) :=
  Ledger.guarantee_record hSound hBefore hEnded trivial (hSound.2.record hNew) (fun _ _ => trivial)
    (fun _ _ => trivial)
    fun _ _ _ => trivial

theorem undoable {tx : LocalTx V} {error : V.Err} (hSound : (G.ledger genesis).Sound s) :
    Undoable (G.ledger genesis).discipline call l tx error s :=
  fun _ =>
    ⟨guarantee_of_justified hSound rfl rfl (.inl ⟨by simp [Shared.entry], rfl⟩), fun _ _ => trivial⟩

/-- What the session has seen has been committed, and `tx` is what its transaction has done. -/
structure At (genesis : V.Db) (l : Local V) (s : Shared V κ) (known : V.Db → Prop)
    (tx : Option (Progress V)) : Prop where
  occurred : ∀ db, known db → Occurred genesis s.history db
  open_ : tx = l.tx.map fun open_ => ⟨open_.startedAt, open_.reads, open_.pending⟩
  begun : ∀ open_, l.tx = some open_ → open_.startedAt ≤ s.now

theorem At.later (h : At genesis l s known tx)
    (hRely : (G.ledger genesis).discipline.Rely l.held s s') : At genesis l s' known tx := by
  obtain ⟨⟨es, hHistory, _⟩, _⟩ := hRely.evolves
  refine ⟨fun db hKnown => ?_, h.open_, fun open_ hOpen =>
    (h.begun open_ hOpen).trans (Ledger.rely_now hRely)⟩
  rw [hHistory]
  exact (h.occurred db hKnown).later

theorem wp_of_grounded [DecidableEq V.Res] {p : Script V α}
    (h : p.Grounded G call (fun _ _ _ => True) known tx) (hAt : At genesis l s known tx) :
    Wp (G.ledger genesis).discipline call p (fun _ _ _ => True) l s := by
  induction p generalizing known tx l s with
  | done a => exact fun s' hRely => ⟨fun _ _ => undoable hRely.inv, trivial⟩
  | fail error =>
    exact fun s' hRely => ⟨fun _ _ => undoable hRely.inv, fun _ _ => undoable hRely.inv⟩
  | sql name locks write next ih =>
    refine fun s' hRely =>
      ⟨fun _ _ => undoable hRely.inv, fun hTx v hView _ => ?_, fun open_ hOpen _ v hView _ => ?_⟩
    all_goals
      have hHere := hAt.later hRely
      have hNow : Occurred genesis s'.history s'.db := occurred_here hRely.inv
    · cases hHere.open_.trans (congrArg _ hTx)
      obtain ⟨hLegal, hNext⟩ := h v s'.now
      have hSeen : ∀ db, known db ∨ db = v.db → Occurred genesis s'.history db := by
        rintro db (hKnown | rfl)
        · exact hHere.occurred db hKnown
        · rwa [hView.db]
      refine fun _ =>
        ⟨guarantee_of_justified hRely.inv rfl rfl (.inr ⟨rfl, _, _, hLegal, rfl, rfl, rfl, hSeen⟩),
        fun _ _ => trivial, ?_⟩
      exact ih v hNext ⟨fun db hKnown => (hSeen db hKnown).later,
        by rw [hTx]; rfl, fun open_ hOpen => by cases hTx.symm.trans hOpen⟩
    · cases hHere.open_.trans (congrArg _ hOpen)
      refine ih v (h v) ⟨fun db hKnown => ?_, rfl, fun ran hRan => ?_⟩
      · rcases hKnown with hOld | ⟨hSame, rfl⟩
        · exact hHere.occurred db hOld
        · rw [hView.db, show open_.pending = id from hSame]
          exact hNow
      · cases hRan
        exact hHere.begun open_ hOpen
  | call effect next ih =>
    refine fun s' hRely => ⟨fun _ _ => undoable hRely.inv, fun reply ext hEffect => ⟨?_, ?_⟩⟩
    · exact Ledger.guarantee_setExt hRely.inv hRely.inv.2 trivial (fun _ _ => trivial) fun _ _ _ =>
        trivial
    · obtain ⟨hOccurred, hOpen, hBegun⟩ := hAt.later hRely
      refine ih reply (h reply ⟨_, _, hEffect⟩) ⟨hOccurred, ?_, fun open_ hAnswered => ?_⟩
      · rw [hOpen, Local.answered, Option.map_map]
        rfl
      · obtain ⟨old, hOld, rfl⟩ := Option.map_eq_some_iff.mp hAnswered
        exact hBegun old hOld
  | clock next ih =>
    refine fun s' hRely =>
      ⟨fun _ _ => undoable hRely.inv, ih s'.now (h s'.now fun progress hTx => ?_) (hAt.later hRely)⟩
    obtain ⟨open_, hOpen, rfl⟩ := Option.map_eq_some_iff.mp (hAt.open_.symm.trans hTx)
    exact (hAt.later hRely).begun open_ hOpen
  | begin limit handler next ihHandler ih =>
    refine fun s' hRely => ⟨fun _ _ => undoable hRely.inv, fun hTx => ?_⟩
    have hHere := hAt.later hRely
    cases hHere.open_.trans (congrArg _ hTx)
    refine ⟨fun error replies s'' hNext => ihHandler error (h.1 error) ?_,
      ih (h.2 s'.now) ⟨hHere.occurred, rfl, fun open_ hOpen => ?_⟩⟩
    · have hOutside : At genesis (Local.outside replies) s' known none :=
        ⟨hHere.occurred, rfl, fun _ hNo => by cases hNo⟩
      exact hOutside.later hNext
    · cases hOpen
      exact le_rfl
  | commit next ih =>
    refine fun s' hRely => ⟨fun _ _ => undoable hRely.inv, fun open_ hOpen _ _ => ?_⟩
    have hHere := hAt.later hRely
    cases hHere.open_.trans (congrArg _ hOpen)
    refine ⟨guarantee_of_justified hRely.inv rfl rfl
      (.inr ⟨rfl, known, _, h.1, rfl, rfl, rfl, hHere.occurred⟩), fun _ _ => trivial, ?_⟩
    exact ih h.2 ⟨fun db hKnown => (hHere.occurred db hKnown).later, rfl, fun _ hNo => by cases hNo⟩

/-! ## Runs -/

variable [DecidableEq V.Res] {program : World.Program V κ ω}

/-- The commits of every call have their grounds. -/
def KeptBy (G : Grounds V κ) (program : World.Program V κ ω) : Prop :=
  ∀ call s ext script, program call s = some (ext, script) →
    script.Grounded G call (fun _ _ _ => True) (fun _ => False) none

theorem KeptBy.verified (h : G.KeptBy program) :
    Verified (G.ledger genesis).discipline program where
  tick _ _ hSound := Ledger.guarantee_tick hSound hSound.2 (fun _ => trivial) fun _ _ => trivial
  spawn s call ext script hSound hProgram := by
    refine ⟨Ledger.guarantee_setExt hSound hSound.2 trivial (fun _ _ => trivial) fun _ _ _ =>
      trivial, ?_⟩
    exact wp_of_grounded (l := .outside []) (s := s.setExt ext) (h call s ext script hProgram)
      ⟨fun _ hNo => hNo.elim, rfl, fun _ hNo => by cases hNo⟩

theorem KeptBy.told (h : G.KeptBy program) {now : Nat} {ext : V.Ext} {w : World V κ ω}
    (hLeads : World.Leads program (World.idle now genesis ext) w) : G.Told genesis w.shared := by
  have hStart : World.Meets (G.ledger genesis).discipline
    (World.idle (κ := κ) (ω := ω) now genesis ext) :=
    World.meets_idle ⟨.rest (Nat.zero_le now),
      fun past e later hSplit => by simp [World.idle] at hSplit⟩ fun _ => trivial
  exact (hStart.leads h.verified hLeads fun _ _ => trivial).1.inv.2

end Grounds

end Pixaeron.Transactions
