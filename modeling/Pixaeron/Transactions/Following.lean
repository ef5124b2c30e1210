import Pixaeron.Transactions.Soundness

/-! # Following one session

From the moment a call starts until it returns, whatever the other sessions do: what has been
proved of its script then holds. The session must not be killed, since a killed call does not
return.
-/

namespace Pixaeron.Transactions

variable {V : Vocabulary} {κ ω : Type}

def Script.result {α : Type} : Script V α → Option α
  | .done a => some a
  | _ => none

def Script.error {α : Type} : Script V α → Option V.Err
  | .fail e => some e
  | _ => none

theorem Script.result_eq_some {α : Type} {script : Script V α} {a : α} :
    script.result = some a ↔ script = .done a := by
  cases script <;> simp [Script.result]

namespace World

def returned (w : World V κ ω) (sid : Nat) : Option ω :=
  (w.sessions sid).bind fun session => session.script.result

def failed (w : World V κ ω) (sid : Nat) : Option V.Err :=
  (w.sessions sid).bind fun session => session.script.error

theorem returned_eq_some {w : World V κ ω} {sid : Nat} {a : ω} :
    w.returned sid = some a ↔ ∃ session, w.sessions sid = some session ∧
      session.script = .done a := by
  simp only [returned, Option.bind_eq_some_iff, Script.result_eq_some]

variable [DecidableEq V.Res] {D : Discipline V κ} {program : Program V κ ω}
  {w w' w₁ w₂ : World V κ ω} {sid : Nat} {action : Action V κ}

def Action.actor : Action V κ → Option Nat
  | .tick _ => none
  | .spawn sid _ | .run sid | .answer sid _ | .rollback sid | .kill sid => some sid

/-- Some sequence of actions, none of which kills the session. -/
def Stays (program : Program V κ ω) (sid : Nat) : World V κ ω → World V κ ω → Prop :=
  Relation.ReflTransGen fun w w' => ∃ action, action ≠ .kill sid ∧ step program w action = some w'

theorem Stays.leads (h : Stays program sid w w') : Leads program w w' := by
  induction h with
  | refl => exact .refl
  | tail _ hStep ih =>
    obtain ⟨action, _, hStep⟩ := hStep
    exact ih.tail ⟨action, hStep⟩

theorem stays_of_run {actions : List (Action V κ)} (h : run program w actions = some w')
    (hAlive : ∀ action ∈ actions, action ≠ .kill sid) : Stays program sid w w' := by
  induction actions generalizing w with
  | nil =>
    cases h
    exact .refl
  | cons action rest ih =>
    obtain ⟨middle, hStep, hRest⟩ := Option.bind_eq_some_iff.mp h
    refine .head ⟨action, hAlive action List.mem_cons_self, hStep⟩ (ih hRest fun other hMem => ?_)
    exact hAlive other (List.mem_cons_of_mem _ hMem)

theorem step_other (hStep : step program w action = some w')
    (hOther : Action.actor action ≠ some sid) :
    w'.sessions sid = w.sessions sid := by
  have hUpdate (other : Nat) (hActor : Action.actor action = some other)
    (f : Nat → Option (Session V κ ω))
      (session : Option (Session V κ ω)) : Function.update f other session sid = f sid := by
    refine Function.update_of_ne (fun hSame => hOther ?_) _ _
    rw [hActor, hSame]
  cases action with
  | tick ms =>
    cases hStep
    rfl
  | spawn other call =>
    simp only [World.step] at hStep
    split at hStep
    · cases hStep
    · obtain ⟨_, _, hWorld⟩ := Option.map_eq_some_iff.mp hStep
      subst hWorld
      exact hUpdate other rfl _ _
  | run other =>
    obtain ⟨session, _, hRun⟩ := Option.bind_eq_some_iff.mp hStep
    unfold World.runSession World.autocommit World.execute World.commit at hRun
    dsimp only at hRun
    split at hRun <;> (try split at hRun) <;> cases hRun
    all_goals exact hUpdate other rfl _ _
  | answer other reply =>
    obtain ⟨session, _, hAnswer⟩ := Option.bind_eq_some_iff.mp hStep
    unfold World.answerSession at hAnswer
    split at hAnswer
    · obtain ⟨_, _, hWorld⟩ := Option.map_eq_some_iff.mp hAnswer
      subst hWorld
      exact hUpdate other rfl _ _
    · cases hAnswer
  | rollback other =>
    obtain ⟨session, _, hRolled⟩ := Option.bind_eq_some_iff.mp hStep
    obtain ⟨tx, _, hWorld⟩ := Option.map_eq_some_iff.mp hRolled
    subst hWorld
    exact hUpdate other rfl _ _
  | kill other =>
    obtain ⟨session, _, hWorld⟩ := Option.map_eq_some_iff.mp hStep
    subst hWorld
    dsimp only
    split
    · rw [hUpdate other rfl]
      exact hUpdate other rfl _ _
    · exact hUpdate other rfl _ _

theorem step_session {session : Session V κ ω} (hStep : step program w action = some w')
    (hSession : w.sessions sid = some session) (hAlive : action ≠ .kill sid) :
    ∃ session', w'.sessions sid = some session' ∧ session'.call = session.call := by
  by_cases hActor : Action.actor action = some sid
  · cases action with
    | tick ms => cases hActor
    | spawn other call =>
      cases hActor
      simp [World.step, hSession] at hStep
    | run other =>
      cases hActor
      obtain ⟨found, hFound, hRun⟩ := Option.bind_eq_some_iff.mp hStep
      cases hSession.symm.trans hFound
      unfold World.runSession World.autocommit World.execute World.commit at hRun
      dsimp only at hRun
      split at hRun <;> (try split at hRun) <;> cases hRun
      all_goals exact ⟨_, Function.update_self _ _ _, rfl⟩
    | answer other reply =>
      cases hActor
      obtain ⟨found, hFound, hAnswer⟩ := Option.bind_eq_some_iff.mp hStep
      cases hSession.symm.trans hFound
      unfold World.answerSession at hAnswer
      split at hAnswer
      · obtain ⟨_, _, hWorld⟩ := Option.map_eq_some_iff.mp hAnswer
        subst hWorld
        exact ⟨_, Function.update_self _ _ _, rfl⟩
      · cases hAnswer
    | rollback other =>
      cases hActor
      obtain ⟨found, hFound, hRolled⟩ := Option.bind_eq_some_iff.mp hStep
      cases hSession.symm.trans hFound
      obtain ⟨tx, _, hWorld⟩ := Option.map_eq_some_iff.mp hRolled
      subst hWorld
      exact ⟨_, Function.update_self _ _ _, rfl⟩
    | kill other =>
      cases hActor
      exact absurd rfl hAlive
  · exact ⟨session, (step_other hStep hActor).trans hSession, rfl⟩

/-- A killed session leaves the rows as they are. -/
theorem step_kill (hStep : step program w (.kill sid) = some w') :
    w'.shared.db = w.shared.db ∧ w'.sessions sid = none := by
  obtain ⟨session, _, hWorld⟩ := Option.map_eq_some_iff.mp hStep
  subst hWorld
  refine ⟨?_, Function.update_self _ _ _⟩
  dsimp only
  split <;> rfl

/-- A call that starts leaves the rows as they are. -/
theorem step_spawn {call : κ} (hStep : step program w (.spawn sid call) = some w') :
    w.sessions sid = none ∧ w'.shared.db = w.shared.db ∧
    ∃ ext script, program call w.shared = some (ext, script) ∧
      w'.sessions sid = some ⟨call, script, none, []⟩ := by
  simp only [World.step] at hStep
  split at hStep
  · cases hStep
  next hNone =>
  obtain ⟨⟨ext, script⟩, hProgram, hWorld⟩ := Option.map_eq_some_iff.mp hStep
  subst hWorld
  exact ⟨hNone, rfl, ext, script, hProgram, Function.update_self _ _ _⟩

theorem spawn_of_step (hStep : step program w action = some w') (hNone : w.sessions sid = none)
    (hActor : Action.actor action = some sid) : ∃ call, action = .spawn sid call := by
  cases action with
  | tick ms => cases hActor
  | spawn other call =>
    cases hActor
    exact ⟨call, rfl⟩
  | _ =>
    cases hActor
    simp [World.step, hNone] at hStep

/-- What a followed session has been proved to end with stays proved while it is not killed. -/
theorem Meets.stays {Post : Nat → ω → Local V → Shared V κ → Prop} (hVerified : Verified D program)
    (hMeets : Meets D w Post) (hPlain : ∀ other, other ≠ sid → Post other = fun _ _ _ => True)
    {session : Session V κ ω} (hSession : w.sessions sid = some session)
    (hStays : Stays program sid w w') (hAssume : ∀ e ∈ w'.shared.history, D.Assume e) :
    Meets D w' Post ∧ D.Evolves w.shared w'.shared ∧
      ∃ session', w'.sessions sid = some session' ∧ session'.call = session.call := by
  induction hStays with
  | refl => exact ⟨hMeets, D.evolves_refl _ hMeets.inv, session, hSession, rfl⟩
  | @tail middle last _ hStep ih =>
    obtain ⟨action, hAlive, hStep⟩ := hStep
    have hPrefix := step_history hStep
    obtain ⟨hMiddle, hSoFar, session', hSession', hCall⟩ :=
      ih fun e he => hAssume e (hPrefix.subset he)
    have hFreshPlain (other : Nat) (hNone : middle.sessions other = none) : Post other =
      fun _ _ _ => True := by
      refine hPlain other fun hSame => ?_
      subst hSame
      cases hNone.symm.trans hSession'
    obtain ⟨hLast, hNext⟩ := hMiddle.step hVerified hFreshPlain hStep hAssume
    obtain ⟨session'', hSession'', hCall'⟩ := step_session hStep hSession' hAlive
    exact ⟨hLast, D.evolves_trans _ _ _ hMeets.inv hMiddle.inv hLast.inv hSoFar hNext,
      session'', hSession'',
      hCall'.trans hCall⟩

/-- A call starts, runs among the others and returns: what its script has been proved to end with,
from the state in which it started, then holds. -/
theorem Meets.returned {call : κ} {Q : ω → Local V → Shared V κ → Prop}
    (hVerified : Verified D program) (hMeets : Meets D w)
    (hSpawn : World.step program w (.spawn sid call) = some w₁)
    (hWp : ∀ ext script, program call w.shared = some (ext, script) → D.Inv (w.shared.setExt ext) →
      Wp D call script Q (.outside []) (w.shared.setExt ext))
    (hStays : Stays program sid w₁ w₂) (hAssume : ∀ e ∈ w₂.shared.history, D.Assume e) {a : ω}
    (hReturned : w₂.returned sid = some a) : ∃ l, Q a l w₂.shared := by
  obtain ⟨session, hSession, hDone⟩ := returned_eq_some.mp hReturned
  have hAssume₁ : ∀ e ∈ w₁.shared.history, D.Assume e :=
    fun e he => hAssume e ((leads_history hStays.leads).subset he)
  have hMeets₁ := (hMeets.step hVerified (fun _ _ => rfl) hSpawn hAssume₁).1
  simp only [World.step] at hSpawn
  split at hSpawn
  · cases hSpawn
  next hFresh =>
  obtain ⟨⟨ext, script⟩, hProgram, hWorld⟩ := Option.map_eq_some_iff.mp hSpawn
  subst hWorld
  have hMine : Meets D _ (Function.update (fun _ _ _ _ => True) sid Q) := {
    inv := hMeets₁.inv
    free := hMeets₁.free
    owned := hMeets₁.owned
    safe := fun other found hFound => by
      by_cases hSame : other = sid
      · subst hSame
        have hEq := Option.some.inj ((Function.update_self other _ w.sessions).symm.trans hFound)
        subst hEq
        rw [Function.update_self]
        refine ⟨?_, fun tx hOpen => by cases hOpen⟩
        rw [hMeets₁.localOf_outside hFound rfl]
        exact hWp ext script hProgram hMeets₁.inv
      · rw [Function.update_of_ne hSame]
        exact hMeets₁.safe other found hFound }
  obtain ⟨hMeets₂, _⟩ :=
    hMine.stays hVerified (fun other hOther => Function.update_of_ne hOther _ _)
    (Function.update_self _ _ _) hStays hAssume
  have hWp₂ := (hMeets₂.safe sid session hSession).1
  rw [Function.update_self, hDone] at hWp₂
  exact ⟨_, Settled.here hWp₂ hMeets₂.inv⟩

end World

end Pixaeron.Transactions
