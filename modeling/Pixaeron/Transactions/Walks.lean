import Pixaeron.Transactions.Registers

/-! # Scripts that follow a register by their statements alone

Where a register may have any value, a script follows it as soon as each of its statements is
permitted, whatever has been seen before.
-/

namespace Pixaeron.Transactions

variable {V : Vocabulary} {κ ρ ω α β : Type} [DecidableEq V.Res] {R : Register V κ ρ} {call : κ}

namespace Path

variable {Legal : Entry V κ → Prop} {db db' db'' : V.Db} {t t' t₁ t₂ : Nat} {es : List (Entry V κ)}

omit [DecidableEq V.Res] in
theorem unique (h : Path Legal db t es db' t₁) (h' : Path Legal db t' es db'' t₂) : db' = db'' := by
  induction h generalizing t' with
  | rest _ => exact h'.of_nil.symm
  | commit _ _ _ ih =>
    obtain ⟨_, _, _, hRest⟩ := h'.of_cons
    exact ih hRest

end Path

namespace Register

variable (R call) in
/-- Every statement is permitted, whatever has been seen. -/
def Walks (p : Script V α) : Prop := ∀ stage seen, R.Follows call (fun _ _ _ => True) p stage seen

theorem Walks.bind {p : Script V α} {k : α → Script V β} (h : R.Walks call p)
    (hk : ∀ a, R.Walks call (k a)) :
    R.Walks call (p.bind k) :=
  fun stage seen => Follows.bind ((h stage seen).mono fun stage' a r _ => hk a stage' r)

theorem Walks.query {name : V.Name} {answer : View V → α} {k : α → Script V β}
    (hk : ∀ v, R.Walks call (k (answer v))) :
    R.Walks call ((Script.query name answer).bind k) :=
  fun _ _ => Follows.bind (Follows.query fun v _ _ => hk v _ _)

theorem Walks.readClock : R.Walks call (Script.readClock : Script V Nat) :=
  fun _ _ => Follows.readClock fun _ => trivial

theorem Walks.check {condition : Prop} [Decidable condition] {error : V.Err} :
    R.Walks call (if condition then .done () else .fail error : Script V Unit) :=
  fun _ _ => Follows.check fun _ => trivial

theorem Walks.checked {condition : Prop} [Decidable condition] {error : V.Err}
    {k : Unit → Script V β} (hk : condition → R.Walks call (k ())) :
    R.Walks call ((if condition then .done () else .fail error : Script V Unit).bind k) :=
  fun _ _ => Follows.bind (Follows.check fun hCondition => hk hCondition _ _)

theorem Walks.forEach {action : α → Script V Unit} (h : ∀ a, R.Walks call (action a))
    (items : List α) :
    R.Walks call (Script.forEach action items) := by
  induction items with
  | nil => exact fun _ _ => trivial
  | cons a rest ih => exact (h a).bind fun _ => ih

theorem Walks.transaction (hFree : ∀ r, R.Fit r) {limit : Nat} {body : Script V β}
    {handler : V.Err → Script V β} (h : R.Walks call body)
    (hHandler : ∀ error, R.Walks call (handler error)) :
    R.Walks call (Script.transaction limit body handler) := by
  rintro stage seen rfl
  have hFollows : R.Follows call (fun _ _ _ => True)
    (Script.transaction limit body handler) .outside seen :=
    Follows.transaction_free hFree (fun error => hHandler error _ _) (h _ _)
  exact hFollows rfl

theorem Walks.of_writes (hFree : ∀ r, R.Fit r) {Mild : (V.Reply → V.Ext → Option V.Ext) → Prop}
    {p : Script V β} (h : p.Writes (fun write => ∀ db, R.read (write db) = R.read db) Mild) :
    R.Walks call p :=
  fun _ _ => Follows.of_writes hFree h

/-- A statement that leaves the value alone, or locks it and takes a step that only depends on it.
-/
theorem Walks.change (hFree : ∀ r, R.Fit r) {name : V.Name} {locks : View V → List V.Res}
    {write : View V → V.Db → V.Db} {answer : View V → α}
    (h : ∀ v, (∀ db, R.read (write v db) = R.read db) ∨ R.lock ∈ locks v ∧
      R.Step call (R.read v.db) (R.read (write v v.db)) ∧
      ∀ db, R.read db = R.read v.db → R.read (write v db) = R.read (write v v.db)) :
    R.Walks call (Script.change name locks write answer) := by
  intro stage seen v _ _
  refine ⟨?_, trivial⟩
  rcases h v with hAlone | ⟨hLock, hStep, hFixed⟩
  · exact .inl hAlone
  · exact .inr ⟨.inl hLock, hStep, hFixed, fun _ => hFree _⟩

theorem FollowedBy.of_walks {program : World.Program V κ ω}
    (h : ∀ call s ext script, program call s = some (ext, script) → R.Walks call script) :
    R.FollowedBy program :=
  fun call s ext script hProgram _ _ => h call s ext script hProgram _ _

theorem FollowedBy.between {program : World.Program V κ ω} {genesis : V.Db} {now : Nat}
    {ext : V.Ext} {w w' : World V κ ω} (h : R.FollowedBy program) (hStart : R.Starts genesis)
    (hFirst : World.Leads program (World.idle now genesis ext) w) (hThen : World.Leads program w w')
    (hKeeps : ∀ e ∈ w'.shared.history, R.Keeps (R.read e.before) (R.read e.after)) :
    ∃ es, w'.shared.history = w.shared.history ++ es ∧
      ∃ t, Path R.Legal w.shared.db t es w'.shared.db w'.shared.now := by
  obtain ⟨es, hHistory⟩ := World.leads_history hThen
  have hAll := h.path hStart (hFirst.trans hThen) hKeeps
  have hSoFar := h.path hStart hFirst fun e he => hKeeps e (hHistory ▸ List.mem_append_left es he)
  rw [← hHistory] at hAll
  obtain ⟨db, t, hBefore, hAfter⟩ := hAll.split
  refine ⟨es, hHistory.symm, t, ?_⟩
  rwa [hSoFar.unique hBefore]

end Register

end Pixaeron.Transactions
