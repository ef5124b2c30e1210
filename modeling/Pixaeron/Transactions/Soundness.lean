import Pixaeron.Transactions.Rely

/-! # Verified programs keep their invariant

`Verified` asks each call for a proof in `Wp`, one call at a time. From that the invariant of
the discipline holds in every world that any interleaving of any number of calls can reach. A
session can be followed further, to what its call has been proved to end with.
-/

namespace Pixaeron.Transactions

variable {V : Vocabulary} {κ ω : Type}

/-- Every call of the program, and the passing of time, respects the discipline. -/
structure Verified (D : Discipline V κ) (program : World.Program V κ ω) : Prop where
  tick : ∀ s ms, D.Inv s → D.Guarantee (fun _ => False) s (s.tick ms)
  spawn : ∀ s call ext script, D.Inv s → program call s = some (ext, script) →
    D.Guarantee (fun _ => False) s (s.setExt ext) ∧
      Wp D call script (fun _ _ _ => True) (.outside []) (s.setExt ext)

namespace World

variable {D : Discipline V κ} {w w' : World V κ ω} {sid : Nat}
  {Post : Nat → ω → Local V → Shared V κ → Prop}

def localOf (w : World V κ ω) (sid : Nat) (session : Session V κ ω) : Local V where
  tx := session.tx.map fun tx => ⟨tx.startedAt, tx.limit, tx.pending, tx.reads, tx.answers⟩
  replies := session.replies
  held r := w.owner r = some sid

theorem localOf_tx {session : Session V κ ω} {tx : Tx V ω} (hTx : session.tx = some tx) :
    (w.localOf sid session).tx = some ⟨tx.startedAt, tx.limit, tx.pending, tx.reads,
      tx.answers⟩ := by
  simp [localOf, hTx]

/-- The rest of a session's script is verified from the present state, and so is the handler
of the transaction it is in from every later one. -/
def SessionMeets (D : Discipline V κ) (w : World V κ ω) (sid : Nat) (session : Session V κ ω)
    (Q : ω → Local V → Shared V κ → Prop) : Prop :=
  Wp D session.call session.script Q (w.localOf sid session) w.shared ∧
  ∀ tx, session.tx = some tx → ∀ error replies s, D.Rely (fun _ => False) w.shared s →
    Wp D session.call (tx.handler error) Q (.outside replies) s

structure Meets (D : Discipline V κ) (w : World V κ ω)
    (Post : Nat → ω → Local V → Shared V κ → Prop := fun _ _ _ _ => True) : Prop where
  inv : D.Inv w.shared
  free : ∀ r, w.owner r = none → D.Free r w.shared
  owned : ∀ r sid, w.owner r = some sid → ∃ session,
    w.sessions sid = some session ∧ session.tx ≠ none
  safe : ∀ sid session, w.sessions sid = some session → SessionMeets D w sid session (Post sid)

/-- What has to be shown of a step of the session `sid`; the other sessions follow. -/
structure Acts (D : Discipline V κ) (w w' : World V κ ω) (sid : Nat) (acting : V.Res → Prop)
    (Q : ω → Local V → Shared V κ → Prop) : Prop where
  guarantee : D.Guarantee acting w.shared w'.shared
  apart : ∀ r other, other ≠ sid → w.owner r = some other → ¬ acting r
  owners : ∀ r other, other ≠ sid → (w'.owner r = some other ↔ w.owner r = some other)
  sessions : ∀ other, other ≠ sid → w'.sessions other = w.sessions other
  free : ∀ r, w'.owner r = none → D.Free r w'.shared
  owned : ∀ r, w'.owner r = some sid → ∃ session, w'.sessions sid = some session ∧ session.tx ≠ none
  own : ∀ session, w'.sessions sid = some session → SessionMeets D w' sid session Q

theorem Meets.act (hMeets : Meets D w Post) (sid : Nat) {acting : V.Res → Prop}
    (h : Acts D w w' sid acting (Post sid)) :
    Meets D w' Post where
  inv := h.guarantee.inv
  free := h.free
  owned r other hOwner := by
    by_cases hSame : other = sid
    · subst hSame
      exact h.owned r hOwner
    · rw [h.sessions other hSame]
      exact hMeets.owned r other ((h.owners r other hSame).mp hOwner)
  safe other session hSession := by
    by_cases hSame : other = sid
    · subst hSame
      exact h.own session hSession
    · rw [h.sessions other hSame] at hSession
      obtain ⟨hWp, hHandler⟩ := hMeets.safe other session hSession
      have hHeld : (fun r => w'.owner r = some other) = fun r => w.owner r = some other := by
        funext r
        exact propext (h.owners r other hSame)
      have hLocal : w'.localOf other session = w.localOf other session := by
        unfold localOf
        rw [hHeld]
      refine ⟨?_, fun tx hTx error replies s hNext =>
        hHandler tx hTx error replies s ((h.guarantee.rely_outside hMeets.inv).trans hNext)⟩
      rw [hLocal]
      exact hWp.settle (h.guarantee.rely hMeets.inv fun r hr => h.apart r other hSame hr)

/-- Outside a transaction a session holds nothing. -/
theorem Meets.localOf_outside (hMeets : Meets D w Post) {session : Session V κ ω}
    (hSession : w.sessions sid = some session) (hTx : session.tx = none) :
    w.localOf sid session = .outside session.replies := by
  have hHeld : (fun r => w.owner r = some sid) = fun _ => False := by
    funext r
    refine eq_false fun hOwner => ?_
    obtain ⟨other, hOther, hOpen⟩ := hMeets.owned r sid hOwner
    rw [hSession] at hOther
    cases hOther
    exact hOpen hTx
  unfold localOf Local.outside
  rw [hTx, hHeld]
  rfl

theorem guarantee_refl {acting : V.Res → Prop} {s : Shared V κ}
    (h : D.Inv s) : D.Guarantee acting s s :=
  ⟨h, D.evolves_refl s h, fun r _ => D.keeps_refl r s h, fun _ _ hFree => hFree⟩

/-- A step inside the session: rows, locks and the other systems stay as they are. -/
theorem Meets.setSession (hMeets : Meets D w Post) {session session' : Session V κ ω}
    (hSession : w.sessions sid = some session) (hOpen : session.tx ≠ none → session'.tx ≠ none)
    (hOwn : SessionMeets D (w.setSession sid session') sid session' (Post sid)) :
    Meets D (w.setSession sid session') Post := by
  have hActs : Acts D w (w.setSession sid session') sid (fun _ => False) (Post sid) := by
    refine ⟨guarantee_refl hMeets.inv, fun _ _ _ _ h => h, fun _ _ _ => Iff.rfl, ?_,
      hMeets.free, ?_, ?_⟩
    · intro other hOther
      exact Function.update_of_ne hOther _ _
    · intro r hOwner
      obtain ⟨old, hOld, hTx⟩ := hMeets.owned r sid hOwner
      rw [hSession] at hOld
      cases hOld
      exact ⟨session', Function.update_self _ _ _, hOpen hTx⟩
    · intro found hFound
      have hEq : session' = found := by simpa [World.setSession] using hFound
      subst hEq
      exact hOwn
  exact hMeets.act sid hActs

theorem release_eq_none {r : V.Res} :
    w.release sid r = none ↔ w.owner r = none ∨ w.owner r = some sid := by
  unfold release
  split <;> simp_all

theorem release_ne_self {r : V.Res} : w.release sid r ≠ some sid := by
  unfold release
  split <;> simp_all

theorem release_eq_some {r : V.Res} {other : Nat} (h : other ≠ sid) :
    w.release sid r = some other ↔ w.owner r = some other := by
  unfold release
  split
  · next hOwn => simp [hOwn, Ne.symm h]
  · rfl

/-- The end of a transaction, whether it commits or not: its rows are free again. -/
theorem Meets.finish (hMeets : Meets D w Post) {shared : Shared V κ}
    {after : Option (Session V κ ω)}
    (hGuarantee : D.Guarantee (fun r => w.owner r = some sid) w.shared shared)
    (hFreed : ∀ r, w.owner r = some sid → D.Free r shared)
    (hAfter : ∀ session, after = some session → session.tx = none ∧
      Wp D session.call session.script (Post sid) (.outside session.replies) shared) :
    Meets D ⟨shared, w.release sid, Function.update w.sessions sid after⟩ Post := by
  refine hMeets.act sid ⟨hGuarantee, ?_, fun r other hOther => release_eq_some hOther, ?_, ?_,
    fun r hOwner => absurd hOwner release_ne_self, ?_⟩
  · intro r other hOther hOwner hActing
    rw [hOwner] at hActing
    exact hOther (Option.some.inj hActing)
  · intro other hOther
    exact Function.update_of_ne hOther _ _
  · intro r hOwner
    rcases release_eq_none.mp hOwner with hNone | hOwn
    · exact hGuarantee.free r (by simp [hNone]) (hMeets.free r hNone)
    · exact hFreed r hOwn
  · intro session hFound
    have hEq : after = some session := by simpa using hFound
    obtain ⟨hTx, hWp⟩ := hAfter session hEq
    have hLocal : World.localOf ⟨shared, w.release sid, Function.update w.sessions sid after⟩ sid
      session
        = .outside session.replies := by
      unfold localOf Local.outside
      rw [hTx]
      congr
      funext r
      exact eq_false release_ne_self
    refine ⟨?_, fun tx hOpen => ?_⟩
    · rw [hLocal]
      exact hWp
    · rw [hTx] at hOpen
      cases hOpen

/-- A session outside a transaction may vanish at any time. -/
theorem Meets.forget (hMeets : Meets D w Post) {session : Session V κ ω}
    (hSession : w.sessions sid = some session) (hTx : session.tx = none) :
    Meets D { w with sessions := Function.update w.sessions sid none } Post := by
  have hNobody : ∀ r, w.owner r ≠ some sid := by
    intro r hOwner
    obtain ⟨old, hOld, hOpen⟩ := hMeets.owned r sid hOwner
    rw [hSession] at hOld
    cases hOld
    exact hOpen hTx
  have hGuarantee : D.Guarantee (fun _ => False) w.shared w.shared := guarantee_refl hMeets.inv
  refine hMeets.act sid ⟨hGuarantee, fun _ _ _ _ h => h, fun _ _ _ => Iff.rfl, ?_, hMeets.free,
    fun r hOwner => absurd hOwner (hNobody r), ?_⟩
  · intro other hOther
    exact Function.update_of_ne hOther _ _
  · intro found hFound
    cases (Function.update_self sid _ w.sessions).symm.trans hFound

theorem Meets.undo (hMeets : Meets D w Post) {session : Session V κ ω} {tx : Tx V ω} {error : V.Err}
    (hSession : w.sessions sid = some session) (hTx : session.tx = some tx)
    (hUndo : Undoable D session.call (w.localOf sid session)
      ⟨tx.startedAt, tx.limit, tx.pending, tx.reads, tx.answers⟩ error w.shared)
    (hAssume : ∀ e ∈ (w.undo sid session tx error).shared.history, D.Assume e) :
    Meets D (w.undo sid session tx error) Post := by
  obtain ⟨hGuarantee, hFreed⟩ := hUndo (hAssume _ (by simp [World.undo, localOf]))
  refine hMeets.finish hGuarantee hFreed fun after hAfter => ?_
  cases hAfter
  exact ⟨rfl, (hMeets.safe sid session hSession).2 tx hTx error _ _
    (hGuarantee.rely_outside hMeets.inv)⟩

theorem busyFor_eq_false {r : V.Res} :
    w.busyFor sid r = false ↔ w.owner r = none ∨ w.owner r = some sid := by
  unfold busyFor
  cases hOwner : w.owner r <;> simp

theorem all_not_busy {v : View V} {rows : List V.Res} :
    (rows.all fun r => !v.busy r) = true ↔ ∀ r ∈ rows, v.busy r = false := by
  simp

theorem Meets.autocommit (hMeets : Meets D w Post) {session : Session V κ ω} {name : V.Name}
    {locks : View V → List V.Res} {write : View V → V.Db → V.Db} {next : View V → Script V ω}
    (hSession : w.sessions sid = some session) (hTx : session.tx = none)
    (hScript : session.script = .sql name locks write next)
    (hStep : w.autocommit sid session name locks write next = some w')
    (hAssume : ∀ e ∈ w'.shared.history, D.Assume e) :
    Meets D w' Post ∧ D.Evolves w.shared w'.shared := by
  unfold World.autocommit at hStep
  dsimp only at hStep
  split at hStep <;> cases hStep
  next hFree =>
  rw [all_not_busy] at hFree
  have hWp := (hMeets.safe sid session hSession).1
  rw [hScript, hMeets.localOf_outside hSession hTx] at hWp
  have hNone : ∀ r ∈ locks (w.view sid w.shared.db w.shared.now), w.owner r = none := by
    intro r hr
    rcases busyFor_eq_false.mp (hFree r hr) with hNone | hOwn
    · exact hNone
    · obtain ⟨other, hOther, hOpen⟩ := hMeets.owned r sid hOwn
      rw [hSession] at hOther
      cases hOther
      exact absurd hTx hOpen
  have hSees : Sees (.outside session.replies) w.shared.db w.shared.now w.shared locks
      (w.view sid w.shared.db w.shared.now) := ⟨rfl, rfl, rfl, hFree, fun _ h => h.elim⟩
  obtain ⟨hGuarantee, hFreed, hNext⟩ := (Settled.here hWp hMeets.inv).1 rfl _ hSees
    (fun r hr => hMeets.free r (hNone r hr)) (hAssume _ (by simp [Local.outside]))
  refine ⟨?_, hGuarantee.evolves⟩
  refine hMeets.act sid ⟨hGuarantee, ?_, fun _ _ _ => Iff.rfl, ?_, ?_, ?_, ?_⟩
  · intro r other _ hOwner hActing
    rw [hNone r hActing] at hOwner
    cases hOwner
  · intro other hOther
    exact Function.update_of_ne hOther _ _
  · intro r hOwner
    by_cases hActing : r ∈ locks (w.view sid w.shared.db w.shared.now)
    · exact hFreed r hActing
    · exact hGuarantee.free r hActing (hMeets.free r hOwner)
  · intro r hOwner
    obtain ⟨other, hOther, hOpen⟩ := hMeets.owned r sid hOwner
    rw [hSession] at hOther
    cases hOther
    exact absurd hTx hOpen
  · intro found hFound
    have hEq : { session with script := next (w.view sid w.shared.db w.shared.now) } = found := by
      simpa using hFound
    subst hEq
    refine ⟨?_, fun tx hOpen => ?_⟩
    · have hLocal := hMeets.localOf_outside hSession hTx
      unfold localOf at hLocal ⊢
      simp only [hLocal]
      exact hNext
    · rw [show session.tx = some tx from hOpen] at hTx
      cases hTx

theorem Meets.execute [DecidableEq V.Res] (hMeets : Meets D w Post) {session : Session V κ ω}
    {tx : Tx V ω} {name : V.Name} {locks : View V → List V.Res} {write : View V → V.Db → V.Db}
    {next : View V → Script V ω} (hSession : w.sessions sid = some session)
    (hTx : session.tx = some tx) (hScript : session.script = .sql name locks write next)
    (hStep : w.execute sid session tx name locks write next = some w') :
    Meets D w' Post ∧ D.Evolves w.shared w'.shared := by
  unfold World.execute at hStep
  dsimp only at hStep
  split at hStep <;> cases hStep
  next hReady =>
  obtain ⟨hTime, hFree⟩ := hReady
  rw [all_not_busy] at hFree
  obtain ⟨hWp, hHandler⟩ := hMeets.safe sid session hSession
  rw [hScript] at hWp
  have hOwn : ∀ r ∈ locks (w.view sid (tx.pending w.shared.db) tx.startedAt),
      w.owner r = none ∨ w.owner r = some sid := fun r hr => busyFor_eq_false.mp (hFree r hr)
  have hSees : Sees (w.localOf sid session) (tx.pending w.shared.db) tx.startedAt w.shared locks
      (w.view sid (tx.pending w.shared.db) tx.startedAt) :=
    ⟨rfl, rfl, rfl, hFree, fun r hr => busyFor_eq_false.mpr (.inr hr)⟩
  have hNext :=
    (Settled.here hWp hMeets.inv).2 ⟨tx.startedAt, tx.limit, tx.pending, tx.reads, tx.answers⟩
    (by simp [localOf, hTx]) hTime _ hSees
    (fun r hr hNot => hMeets.free r ((hOwn r hr).resolve_right hNot))
  refine ⟨?_, D.evolves_refl _ hMeets.inv⟩
  have hGuarantee : D.Guarantee (fun _ => False) w.shared w.shared := guarantee_refl hMeets.inv
  refine hMeets.act sid ⟨hGuarantee, fun _ _ _ _ h => h, ?_, ?_, ?_, ?_, ?_⟩
  · intro r other hOther
    unfold World.acquire
    dsimp only
    split
    · next hMem => rcases hOwn r hMem with hNone | hMine <;> simp [*, Ne.symm hOther]
    · rfl
  · intro other hOther
    exact Function.update_of_ne hOther _ _
  · intro r hOwner
    unfold World.acquire at hOwner
    dsimp only at hOwner
    split at hOwner
    · cases hOwner
    · exact hMeets.free r hOwner
  · intro r _
    exact ⟨_, Function.update_self _ _ _, by simp⟩
  · intro found hFound
    have hEq := Option.some.inj ((Function.update_self sid _ w.sessions).symm.trans hFound)
    subst hEq
    refine ⟨?_, fun tx' hOpen => ?_⟩
    · convert hNext using 1
      unfold localOf Local.ran World.acquire
      simp only [Option.map_some, Local.mk.injEq, true_and]
      funext r
      refine propext ⟨fun h => ?_, fun h => ?_⟩
      · split at h
        · next hMem => exact .inr hMem
        · exact .inl h
      · split
        · rfl
        · next hMem => exact h.resolve_right hMem
    · cases hOpen
      exact hHandler tx hTx

theorem Meets.commit (hMeets : Meets D w Post) {session : Session V κ ω} {tx : Tx V ω}
    {next : Script V ω} (hSession : w.sessions sid = some session) (hTx : session.tx = some tx)
    (hScript : session.script = .commit next) (hStep : w.commit sid session tx next = some w')
    (hAssume : ∀ e ∈ w'.shared.history, D.Assume e) :
    Meets D w' Post ∧ D.Evolves w.shared w'.shared := by
  unfold World.commit at hStep
  split at hStep <;> cases hStep
  next hTime =>
  have hWp := (hMeets.safe sid session hSession).1
  rw [hScript] at hWp
  obtain ⟨hGuarantee, hFreed, hNext⟩ := Settled.here hWp hMeets.inv
    ⟨tx.startedAt, tx.limit, tx.pending, tx.reads, tx.answers⟩ (by simp [localOf, hTx]) hTime
    (hAssume _ (by simp [localOf]))
  refine ⟨hMeets.finish hGuarantee hFreed fun after hAfter => ?_, hGuarantee.evolves⟩
  cases hAfter
  exact ⟨rfl, hNext⟩

theorem Meets.runSession [DecidableEq V.Res] (hMeets : Meets D w Post) {session : Session V κ ω}
    (hSession : w.sessions sid = some session) (hStep : w.runSession sid session = some w')
    (hAssume : ∀ e ∈ w'.shared.history, D.Assume e) :
    Meets D w' Post ∧ D.Evolves w.shared w'.shared := by
  obtain ⟨hWp, hHandler⟩ := hMeets.safe sid session hSession
  unfold World.runSession at hStep
  split at hStep
  next error tx hScript hTx =>
    cases hStep
    rw [hScript] at hWp
    have hUndo :=
      Settled.here hWp hMeets.inv ⟨tx.startedAt, tx.limit, tx.pending, tx.reads, tx.answers⟩
      (by simp [localOf, hTx])
    exact ⟨hMeets.undo hSession hTx hUndo hAssume,
      (hUndo (hAssume _ (by simp [World.undo, localOf]))).1.evolves⟩
  next name locks write next hScript hTx =>
    exact hMeets.autocommit hSession hTx hScript hStep hAssume
  next name locks write next tx hScript hTx => exact hMeets.execute hSession hTx hScript hStep
  next next _ hScript =>
    cases hStep
    rw [hScript] at hWp
    have hNext := Settled.here hWp hMeets.inv
    exact ⟨hMeets.setSession hSession (fun h => h) ⟨hNext, hHandler⟩, D.evolves_refl _ hMeets.inv⟩
  next limit handler next hScript hTx =>
    cases hStep
    rw [hScript, hMeets.localOf_outside hSession hTx] at hWp
    obtain ⟨hAborted, hNext⟩ := Settled.here hWp hMeets.inv rfl
    have hOutside := hMeets.localOf_outside hSession hTx
    refine ⟨hMeets.setSession hSession (fun _ => by simp) ⟨?_, ?_⟩, D.evolves_refl _ hMeets.inv⟩
    · have hHeld : (fun r => w.owner r = some sid) = fun _ => False := congrArg Local.held hOutside
      unfold localOf
      change Wp D session.call next _ ⟨_, _, fun r => w.owner r = some sid⟩ w.shared
      rw [hHeld]
      exact hNext
    · intro tx hOpen
      cases hOpen
      exact hAborted
  next next tx hScript hTx => exact hMeets.commit hSession hTx hScript hStep hAssume
  next => cases hStep

theorem Meets.answerSession (hMeets : Meets D w Post) {session : Session V κ ω} {reply : V.Reply}
    (hSession : w.sessions sid = some session)
    (hStep : w.answerSession sid session reply = some w') :
    Meets D w' Post ∧ D.Evolves w.shared w'.shared := by
  obtain ⟨hWp, hHandler⟩ := hMeets.safe sid session hSession
  unfold World.answerSession at hStep
  split at hStep
  next effect next hScript =>
    obtain ⟨ext, hEffect, hWorld⟩ := Option.map_eq_some_iff.mp hStep
    rw [hScript] at hWp
    obtain ⟨hGuarantee, hNext⟩ := Settled.here hWp hMeets.inv reply ext hEffect
    subst hWorld
    refine ⟨?_, hGuarantee.evolves⟩
    refine hMeets.act sid ⟨hGuarantee, ?_, fun _ _ _ => Iff.rfl, ?_, ?_, ?_, ?_⟩
    · intro r other hOther hOwner hActing
      exact hOther (Option.some.inj (hOwner.symm.trans hActing))
    · intro other hOther
      exact Function.update_of_ne hOther _ _
    · intro r hOwner
      refine hGuarantee.free r (fun hOwn => ?_) (hMeets.free r hOwner)
      cases hOwn.symm.trans hOwner
    · intro r hOwner
      obtain ⟨old, hOld, hOpen⟩ := hMeets.owned r sid hOwner
      rw [hSession] at hOld
      cases hOld
      exact ⟨_, Function.update_self _ _ _, by simpa using hOpen⟩
    · intro found hFound
      have hEq := Option.some.inj ((Function.update_self sid _ w.sessions).symm.trans hFound)
      subst hEq
      refine ⟨?_, fun tx hTx => ?_⟩
      · have hLocal (after : World V κ ω) (hOwner : after.owner = w.owner) :
            after.localOf sid { session with
              script := next reply
              tx := session.tx.map fun tx => { tx with answers := tx.answers ++ [reply] }
              replies := session.replies ++ [reply] } = (w.localOf sid session).answered reply := by
          simp [localOf, Local.answered, Function.comp_def, hOwner]
        dsimp only
        rw [hLocal]
        · exact hNext
        · rfl
      · obtain ⟨old, hOld, rfl⟩ := Option.map_eq_some_iff.mp hTx
        exact fun error replies s hLater =>
          hHandler old hOld error replies s ((hGuarantee.rely_outside hMeets.inv).trans hLater)
  next => cases hStep

/-- One action of a verified program, whoever takes it. -/
theorem Meets.step [DecidableEq V.Res] {program : Program V κ ω} (hVerified : Verified D program)
    (hMeets : Meets D w Post) (hPlain : ∀ sid, w.sessions sid = none → Post sid = fun _ _ _ => True)
    {action : Action V κ} (hStep : step program w action = some w')
    (hAssume : ∀ e ∈ w'.shared.history, D.Assume e) :
    Meets D w' Post ∧ D.Evolves w.shared w'.shared := by
  cases action with
  | tick ms =>
    cases hStep
    have hGuarantee := hVerified.tick w.shared ms hMeets.inv
    refine ⟨⟨hGuarantee.inv, fun r hOwner => hGuarantee.free r (fun h => h) (hMeets.free r hOwner),
      hMeets.owned, fun sid session hSession => ?_⟩, hGuarantee.evolves⟩
    obtain ⟨hWp, hHandler⟩ := hMeets.safe sid session hSession
    exact ⟨hWp.settle (hGuarantee.rely hMeets.inv fun _ _ h => h),
      fun tx hTx error replies s hNext =>
        hHandler tx hTx error replies s ((hGuarantee.rely_outside hMeets.inv).trans hNext)⟩
  | spawn sid call =>
    simp only [World.step] at hStep
    split at hStep
    · cases hStep
    next hFresh =>
    obtain ⟨⟨ext, script⟩, hProgram, hWorld⟩ := Option.map_eq_some_iff.mp hStep
    subst hWorld
    obtain ⟨hGuarantee, hWp⟩ := hVerified.spawn w.shared call ext script hMeets.inv hProgram
    have hNobody : ∀ r, w.owner r ≠ some sid := by
      intro r hOwner
      obtain ⟨old, hOld, _⟩ := hMeets.owned r sid hOwner
      rw [hFresh] at hOld
      cases hOld
    refine ⟨?_, hGuarantee.evolves⟩
    refine hMeets.act sid ⟨hGuarantee, fun _ _ _ _ h => h, fun _ _ _ => Iff.rfl, ?_, ?_,
      fun r hOwner => absurd hOwner (hNobody r), ?_⟩
    · intro other hOther
      exact Function.update_of_ne hOther _ _
    · exact fun r hOwner => hGuarantee.free r (fun h => h) (hMeets.free r hOwner)
    · intro found hFound
      have hEq := Option.some.inj ((Function.update_self sid _ w.sessions).symm.trans hFound)
      subst hEq
      refine ⟨?_, fun tx hOpen => by cases hOpen⟩
      rw [hPlain sid hFresh]
      convert hWp using 1
      unfold localOf Local.outside
      simp only [Option.map_none, Local.mk.injEq, true_and]
      funext r
      exact eq_false (hNobody r)
  | run sid =>
    obtain ⟨session, hSession, hRun⟩ := Option.bind_eq_some_iff.mp hStep
    exact hMeets.runSession hSession hRun hAssume
  | answer sid reply =>
    obtain ⟨session, hSession, hAnswer⟩ := Option.bind_eq_some_iff.mp hStep
    exact hMeets.answerSession hSession hAnswer
  | rollback sid =>
    obtain ⟨session, hSession, hRolled⟩ := Option.bind_eq_some_iff.mp hStep
    obtain ⟨tx, hTx, hWorld⟩ := Option.map_eq_some_iff.mp hRolled
    subst hWorld
    have hUndo := (hMeets.safe sid session hSession).1.undoable hMeets.inv (localOf_tx hTx)
    exact ⟨hMeets.undo hSession hTx hUndo hAssume,
      (hUndo (hAssume _ (by simp [World.undo, localOf]))).1.evolves⟩
  | kill sid =>
    obtain ⟨session, hSession, hWorld⟩ := Option.map_eq_some_iff.mp hStep
    cases hTx : session.tx with
    | none =>
      simp only [hTx] at hWorld
      subst hWorld
      refine ⟨?_, D.evolves_refl _ hMeets.inv⟩
      exact hMeets.forget hSession hTx
    | some tx =>
      simp only [hTx] at hWorld
      subst hWorld
      have hUndo := (hMeets.safe sid session hSession).1.undoable hMeets.inv (localOf_tx hTx)
      obtain ⟨hGuarantee, hFreed⟩ := hUndo (hAssume _ (by simp [World.undo, localOf]))
      refine ⟨?_, hGuarantee.evolves⟩
      have hFinish := hMeets.finish (ω := ω) hGuarantee hFreed fun _ (h : none = some _) => by
        cases h
      simpa [World.undo, localOf] using hFinish

theorem undo_history {session : Session V κ ω} {tx : Tx V ω} {error : V.Err} :
    w.shared.history <+: (w.undo sid session tx error).shared.history :=
  List.prefix_append _ _

/-- The record of what has been committed only ever grows. -/
theorem step_history [DecidableEq V.Res] {program : Program V κ ω} {action : Action V κ}
    (hStep : step program w action = some w') : w.shared.history <+: w'.shared.history := by
  cases action with
  | tick ms =>
    cases hStep
    exact List.prefix_rfl
  | spawn sid call =>
    simp only [World.step] at hStep
    split at hStep
    · cases hStep
    · obtain ⟨_, _, hWorld⟩ := Option.map_eq_some_iff.mp hStep
      subst hWorld
      exact List.prefix_rfl
  | run sid =>
    obtain ⟨session, _, hRun⟩ := Option.bind_eq_some_iff.mp hStep
    unfold World.runSession World.autocommit World.execute World.commit at hRun
    dsimp only at hRun
    split at hRun <;> (try split at hRun) <;> cases hRun
    all_goals first
      | exact undo_history
      | exact List.prefix_append _ _
      | exact List.prefix_rfl
  | answer sid reply =>
    obtain ⟨session, _, hAnswer⟩ := Option.bind_eq_some_iff.mp hStep
    unfold World.answerSession at hAnswer
    split at hAnswer
    · obtain ⟨_, _, hWorld⟩ := Option.map_eq_some_iff.mp hAnswer
      subst hWorld
      exact List.prefix_rfl
    · cases hAnswer
  | rollback sid =>
    obtain ⟨session, _, hRolled⟩ := Option.bind_eq_some_iff.mp hStep
    obtain ⟨tx, _, hWorld⟩ := Option.map_eq_some_iff.mp hRolled
    subst hWorld
    exact undo_history
  | kill sid =>
    obtain ⟨session, _, hWorld⟩ := Option.map_eq_some_iff.mp hStep
    subst hWorld
    dsimp only
    split
    · exact undo_history
    · exact List.prefix_rfl

/-- The soundness of the logic: along every run of a verified program the discipline holds. -/
theorem Meets.leads [DecidableEq V.Res] {program : Program V κ ω} (hVerified : Verified D program)
    (hMeets : Meets D w) (hLeads : Leads program w w')
    (hAssume : ∀ e ∈ w'.shared.history, D.Assume e) :
    Meets D w' ∧ D.Evolves w.shared w'.shared := by
  induction hLeads with
  | refl => exact ⟨hMeets, D.evolves_refl _ hMeets.inv⟩
  | @tail middle last _ hStep ih =>
    obtain ⟨action, hStep⟩ := hStep
    have hPrefix := step_history hStep
    obtain ⟨hMiddle, hSoFar⟩ := ih fun e he => hAssume e (hPrefix.subset he)
    obtain ⟨hLast, hNext⟩ := hMiddle.step hVerified (fun _ _ => rfl) hStep hAssume
    exact ⟨hLast, D.evolves_trans _ _ _ hMeets.inv hMiddle.inv hLast.inv hSoFar hNext⟩

theorem leads_history [DecidableEq V.Res] {program : Program V κ ω} (hLeads : Leads program w w') :
    w.shared.history <+: w'.shared.history := by
  induction hLeads with
  | refl => exact List.prefix_rfl
  | tail _ hStep ih =>
    obtain ⟨action, hStep⟩ := hStep
    exact ih.trans (step_history hStep)

theorem meets_idle {now : Nat} {db : V.Db} {ext : V.Ext}
    (hInv : D.Inv (idle (κ := κ) (ω := ω) now db ext).shared)
    (hFree : ∀ r, D.Free r (idle (κ := κ) (ω := ω) now db ext).shared) :
    Meets D (idle (κ := κ) (ω := ω) now db ext) where
  inv := hInv
  free r _ := hFree r
  owned _ _ hOwner := by cases hOwner
  safe _ _ hSession := by cases hSession

end World

end Pixaeron.Transactions
