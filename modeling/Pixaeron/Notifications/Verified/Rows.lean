import Pixaeron.Notifications.DeliveryRegister

/-! # Verified: the row of one request

A statement of the service leaves the delivery of a request alone or locks it and takes one of its
steps. What has been read of a delivery is what its row still carries.
-/

namespace Pixaeron.Notifications.Deliveries

open Transactions Transactions.Script

variable {services : EmailServices} {ring : KeyRing} {k : String} {call : Call} {stage : Stage}
  {seen : Option EmailDelivery} {α : Type}

abbrev Follows (k : String) (call : Call) (Q : Stage → α → Option EmailDelivery → Prop)
    (p : Script notifications α) (stage : Stage) (seen : Option EmailDelivery) : Prop :=
  (deliveryRegister k).Follows call Q p stage seen

abbrev Sees (k : String) (stage : Stage) (seen r : Option EmailDelivery) : Prop :=
  (deliveryRegister k).Sees stage seen r

def Settled (r : Option EmailDelivery) : Prop := ∀ d, r = some d → d.Settles

theorem follows_done {Q : Stage → α → Option EmailDelivery → Prop} {a : α} (h : Q stage a seen) :
    Follows k call Q (.done a) stage seen := h

/-! ## Statements -/

theorem lock_mem_select {db : Database} {where_ : EmailDelivery → Bool} :
    Resource.delivery k ∈ (db.deliveries.select where_).map
      (fun d => Resource.delivery d.requestId) ↔
      ∃ d, db.deliveries.get k = some d ∧ where_ d = true := by
  rw [← Table.mem_map_select, List.mem_map, List.mem_map]
  simp

theorem get_changeDeliveries {db db' : Database} {where_ : EmailDelivery → Bool}
    {change : DeliveryChange} (hSame : db'.deliveries.get k = db.deliveries.get k) :
    (db'.changeDeliveries ((db.deliveries.select where_).map EmailDelivery.requestId)
      change).deliveries.get k =
      (db.deliveries.get k).map fun d => if where_ d then change.apply d else d := by
  rw [Database.changeDeliveries, Table.get_modify, hSame]
  refine Option.map_congr fun d hGet => ?_
  have hIff : k ∈ (db.deliveries.select where_).map EmailDelivery.requestId ↔ where_ d = true := by
    rw [Table.mem_map_select, hGet]
    simp
  simp only [hIff]

theorem get_changeDeliveries_none {db db' : Database} {where_ : EmailDelivery → Bool}
    {change : DeliveryChange} (hNone : ∀ d, db.deliveries.get k = some d → where_ d = false) :
    (db'.changeDeliveries ((db.deliveries.select where_).map EmailDelivery.requestId)
      change).deliveries.get k =
      db'.deliveries.get k := by
  have hNot : k ∉ (db.deliveries.select where_).map EmailDelivery.requestId := by
    intro hMem
    obtain ⟨d, hGet, hWhere⟩ := Table.mem_map_select.mp hMem
    cases (hNone d hGet).symm.trans hWhere
  rw [Database.changeDeliveries, Table.get_modify_of_not_mem hNot]

theorem after_not_mem {locks : List Resource} (h : Resource.delivery k ∉ locks) :
    stage.after (decide ((deliveryRegister k).lock ∈ locks)) = stage := by
  rw [show decide ((deliveryRegister k).lock ∈ locks) = false from decide_eq_false h]
  cases stage <;> rfl

theorem permits_changeDeliveries {db : Database} {where_ : EmailDelivery → Bool}
    {change : DeliveryChange} {d : EmailDelivery} {locks : List Resource}
    (hGet : db.deliveries.get k = some d) (hWhere : where_ d = true) (hLock : .delivery k ∈ locks)
    (hStep : EmailDelivery.RowStep call d (change.apply d))
    (hOutside : stage = .outside → (change.apply d).Settles) :
    (deliveryRegister k).Permits call stage locks
      (fun db' => db'.changeDeliveries ((db.deliveries.select where_).map EmailDelivery.requestId)
        change) db := by
  have hAfter {db' : Database} (hSame : db'.deliveries.get k = db.deliveries.get k) :
      (deliveryRegister k).read (db'.changeDeliveries
        ((db.deliveries.select where_).map EmailDelivery.requestId) change) =
        some (change.apply d) := by
    show Table.get _ k = _
    rw [get_changeDeliveries hSame, hGet, Option.map_some, if_pos hWhere]
  have hRead : (deliveryRegister k).read db = some d := hGet
  refine .inr ⟨.inl hLock, ?_, fun db' hSame => ?_, fun hStage => ?_⟩
  · rw [hAfter rfl, hRead]
    exact .changed hStep
  · rw [hAfter rfl]
    exact hAfter hSame
  · rw [hAfter rfl]
    intro d' hd'
    cases hd'
    exact hOutside hStage

/-- The rule for an update of deliveries: what it does to the row if the row is chosen, and what is
known if it is not. -/
theorem follows_updateDeliveries {name : Statement} {where_ : EmailDelivery → Bool}
    {change : DeliveryChange} {Q : Stage → Nat → Option EmailDelivery → Prop}
    (hMatch : ∀ d n, Sees k stage seen (some d) → (stage ≠ .locked → d.Settles) → d.requestId = k →
      where_ d = true →
      EmailDelivery.RowStep call d (change.apply d) ∧
      (stage = .outside → (change.apply d).Settles) ∧
        Q (stage.after true) n (some (change.apply d)))
    (hSkip : ∀ r n, Sees k stage seen r → (stage ≠ .locked → Settled r) →
      (∀ d, r = some d → where_ d = false) → Q stage n r) :
    Follows k call Q (updateDeliveries name where_ change) stage seen := by
  intro v hSees hFit
  by_cases hChosen : ∃ d, v.db.deliveries.get k = some d ∧ where_ d = true
  · obtain ⟨d, hGet, hWhere⟩ := hChosen
    have hLock := lock_mem_select.mpr ⟨d, hGet, hWhere⟩
    have hRead : (deliveryRegister k).read v.db = some d := hGet
    obtain ⟨hStep, hOutside, hQ⟩ :=
      hMatch d ((v.db.deliveries.select where_).length) (hRead ▸ hSees)
      (fun hStage => hFit hStage d hGet) (Table.key_of_get hGet) hWhere
    refine ⟨permits_changeDeliveries hGet hWhere hLock hStep hOutside, ?_⟩
    rw [show decide ((deliveryRegister k).lock ∈ _) = true from decide_eq_true hLock]
    show Q _ _ (Table.get _ k)
    rw [get_changeDeliveries rfl, hGet, Option.map_some, if_pos hWhere]
    exact hQ
  · have hNone : ∀ d, v.db.deliveries.get k = some d → where_ d = false := fun d hGet =>
      Bool.eq_false_iff.mpr fun hWhere => hChosen ⟨d, hGet, hWhere⟩
    refine ⟨.inl fun db => get_changeDeliveries_none hNone, ?_⟩
    rw [after_not_mem fun hMem => hChosen (lock_mem_select.mp hMem)]
    show Q stage _ (Table.get _ k)
    rw [get_changeDeliveries_none hNone]
    exact hSkip _ _ hSees hFit hNone

/-- The rule for the message identifier. It is unique, so the update may fail. -/
theorem follows_attachMessageId {delivery : EmailDelivery} {where_ : EmailDelivery → Bool}
    {messageId : String} {Q : Stage → Nat → Option EmailDelivery → Prop}
    (hMatch : ∀ d n, Sees k stage seen (some d) → (stage ≠ .locked → d.Settles) → d.requestId = k →
      (delivery.is d && where_ d) = true →
      EmailDelivery.RowStep call d ((EmailDelivery.setProviderMessageId messageId).apply d) ∧
        (stage = .outside → ((EmailDelivery.setProviderMessageId messageId).apply d).Settles) ∧
        Q (stage.after true) n (some ((EmailDelivery.setProviderMessageId messageId).apply d)))
    (hSkip : ∀ r n, Sees k stage seen r → (stage ≠ .locked → Settled r) →
      (∀ d, r = some d → (delivery.is d && where_ d) = false) → Q stage n r) :
    Follows k call Q (attachMessageId delivery where_ messageId) stage seen := by
  refine Register.Follows.bind fun v hSees hFit => ?_
  by_cases hChosen : ∃ d, v.db.deliveries.get k = some d ∧ (delivery.is d && where_ d) = true
  · obtain ⟨d, hGet, hBoth⟩ := hChosen
    have hWhere : ∃ d, v.db.deliveries.get k = some d ∧
      (fun d => delivery.is d && where_ d) d = true := ⟨d, hGet, hBoth⟩
    have hLock :=
      List.mem_cons_of_mem (Resource.providerMessage messageId) (lock_mem_select.mpr hWhere)
    have hRead : (deliveryRegister k).read v.db = some d := hGet
    have hMem : d ∈ v.db.deliveries.select fun d => delivery.is d && where_ d :=
      Table.mem_select.mpr ⟨Table.mem_of_get hGet, hBoth⟩
    have hSome : (v.db.deliveries.select fun d => delivery.is d && where_ d).length ≠ 0 :=
      List.length_pos_of_mem hMem |>.ne'
    obtain ⟨hStep, hOutside, hQ⟩ :=
      hMatch d ((v.db.deliveries.select fun d => delivery.is d && where_ d).length) (hRead ▸ hSees)
      (fun hStage => hFit hStage d hGet) (Table.key_of_get hGet) hBoth
    rw [show decide ((deliveryRegister k).lock ∈ _) = true from decide_eq_true hLock]
    by_cases hTaken : v.db.messageTaken delivery.requestId messageId = true
    · refine ⟨.inl fun db => by simp only [hTaken, if_true], ?_⟩
      exact Register.Follows.bind (Register.Follows.check fun hFree => absurd ⟨hSome, hTaken⟩ hFree)
    · simp only [hTaken, Bool.false_eq_true, if_false]
      refine ⟨permits_changeDeliveries hGet hBoth hLock hStep hOutside, ?_⟩
      refine Register.Follows.bind (Register.Follows.check fun _ => ?_)
      show Q _ _ (Table.get _ k)
      rw [get_changeDeliveries rfl, hGet, Option.map_some, if_pos hBoth]
      exact hQ
  · have hNone : ∀ d, v.db.deliveries.get k = some d → (delivery.is d && where_ d) = false :=
      fun d hGet => Bool.eq_false_iff.mpr fun hWhere => hChosen ⟨d, hGet, hWhere⟩
    have hAlone (db : Database) : (deliveryRegister k).read
      (if v.db.messageTaken delivery.requestId messageId then db else
        db.changeDeliveries ((v.db.deliveries.select fun d => delivery.is d && where_ d).map
          EmailDelivery.requestId)
          (EmailDelivery.setProviderMessageId messageId)) = (deliveryRegister k).read db := by
      split
      · rfl
      · exact get_changeDeliveries_none hNone
    refine ⟨.inl hAlone, ?_⟩
    rw [hAlone, after_not_mem fun hMem => ?_]
    · exact Register.Follows.bind (Register.Follows.check fun _ => hSkip _ _ hSees hFit hNone)
    · rcases List.mem_cons.mp hMem with hOther | hHere
      · cases hOther
      · exact hChosen (lock_mem_select.mp hHere)

/-- Only statements about other rows. -/
abbrev Aside (k : String) (p : Script notifications α) : Prop := (deliveryRegister k).Aside p

theorem aside_change {name : Statement} {locks : View notifications → List Resource}
    {write : View notifications → Database → Database} {answer : View notifications → α}
    (hLocks : ∀ v, Resource.delivery k ∉ locks v)
    (hWrite : ∀ v db, (write v db).deliveries = db.deliveries) :
    Aside k (Script.change name locks write answer) :=
  Register.Aside.change hLocks fun v db =>
    congrArg (fun deliveries => Table.get deliveries k) (hWrite v db)

theorem aside_lockRecipientAliases {hashes : List RecipientHash} :
    Aside k (lockRecipientAliases hashes) :=
  Register.Aside.forEach (fun _ => aside_change (fun _ hMem => by cases List.mem_singleton.mp hMem)
    fun _ _ => rfl) _

theorem aside_updateDestinations {name : Statement} {where_ : EmailDestination → Bool}
    {change : DestinationChange} :
    Aside k (updateDestinations name where_ change) := by
  refine aside_change (fun v hMem => ?_) fun _ _ => rfl
  obtain ⟨_, _, hEq⟩ := List.mem_map.mp hMem
  cases hEq

/-! ## The row of a delivery -/

/-- A delivery that has been read, and what its row is now. -/
structure Known (k : String) (delivery : EmailDelivery) (r : Option EmailDelivery) : Prop where
  row : delivery.requestId = k → ∃ d, r = some d ∧ delivery.Carries d
  settled : Settled r

theorem Known.sees {delivery : EmailDelivery} {r : Option EmailDelivery} (h : Known k delivery seen)
    (hStage : stage ≠ .locked) (hSees : Sees k stage seen r)
    (hSettled : Settled r) : Known k delivery r := by
  refine ⟨fun hKey => ?_, hSettled⟩
  obtain ⟨d, rfl, hCarries⟩ := h.row hKey
  have hLater : (deliveryRegister k).Later (some d) r := by
    cases stage with
    | outside => exact hSees
    | unlocked => exact hSees
    | locked => exact absurd rfl hStage
  obtain ⟨d', rfl, hNext⟩ := later_carries hLater
  exact ⟨d', rfl, hCarries.trans hNext⟩

theorem is_iff {delivery d : EmailDelivery} :
    delivery.is d = true ↔ d.requestId = delivery.requestId ∧ d.id = delivery.id :=
  decide_eq_true_iff

theorem found_of_known {delivery row : EmailDelivery} {v : View notifications}
    (h : (v.db.deliveries.get delivery.requestId).filter delivery.is = some row) :
    row.requestId = delivery.requestId ∧
    (delivery.requestId = k → (deliveryRegister k).read v.db = some row) := by
  obtain ⟨hGet, _⟩ := Option.filter_eq_some_iff.mp h
  exact ⟨Table.key_of_get hGet, fun hKey => hKey ▸ hGet⟩

theorem follows_findByIdOrThrow {delivery : EmailDelivery} (hKnown : Known k delivery seen) :
    Follows k call (fun stage result r => stage = .outside ∧ Settled r ∧
      ∀ row, result = .ok row → row.requestId = delivery.requestId ∧ Known k row r)
        (findByIdOrThrow delivery) .outside seen := by
  refine Register.Follows.bind (Register.Follows.query fun v hSees hFit => ?_)
  have hHere := hKnown.sees (by simp) hSees (hFit (by simp))
  cases hFound : (v.db.deliveries.get delivery.requestId).filter delivery.is with
  | none => exact ⟨rfl, hHere.settled, fun row hRow => by cases hRow⟩
  | some row =>
    obtain ⟨hSame, hRead⟩ := found_of_known (k := k) hFound
    refine ⟨rfl, hHere.settled, fun row' hRow => ?_⟩
    cases hRow
    exact ⟨hSame, fun hKey => ⟨row, hRead (hSame ▸ hKey), .refl row⟩, hHere.settled⟩

/-! ## The row of a delivery within a transaction -/

/-- In the middle of a transaction about the delivery, whose row satisfies `P`. -/
structure Midway (k : String) (delivery : EmailDelivery) (P : EmailDelivery → Prop) (stage : Stage)
    (r : Option EmailDelivery) :
    Prop where
  inside : stage ≠ .outside
  row : delivery.requestId = k → ∃ d, r = some d ∧ delivery.Carries d ∧ P d
  unlocked : stage = .unlocked → Settled r
  locked : stage = .locked → delivery.requestId = k

/-- What is known of the row stays true while it is not locked. -/
def Stable (P : EmailDelivery → Prop) : Prop :=
  ∀ d d', P d → d.Settles → d.Carries d' → d'.Settles → P d'

variable {P P' : EmailDelivery → Prop} {delivery : EmailDelivery} {r : Option EmailDelivery}

theorem Midway.mono (h : Midway k delivery P stage r) (hLess : ∀ d, P d → P' d) :
    Midway k delivery P' stage r where
  inside := h.inside
  row hKey := by
    obtain ⟨d, hd, hCarries, hP⟩ := h.row hKey
    exact ⟨d, hd, hCarries, hLess d hP⟩
  unlocked := h.unlocked
  locked := h.locked

theorem Known.midway (h : Known k delivery r) (hP : ∀ d, d.Settles → P d) :
    Midway k delivery P .unlocked r where
  inside := by simp
  row hKey := by
    obtain ⟨d, hd, hCarries⟩ := h.row hKey
    exact ⟨d, hd, hCarries, hP d (h.settled d hd)⟩
  unlocked _ := h.settled
  locked hLocked := by cases hLocked

theorem Midway.sees (h : Midway k delivery P stage seen) (hStable : Stable P)
    (hSees : Sees k stage seen r) (hSettled : stage ≠ .locked → Settled r) :
    Midway k delivery P stage r := by
  cases stage with
  | outside => exact absurd rfl h.inside
  | locked =>
    cases hSees
    exact h
  | unlocked =>
    have hNow := hSettled (by simp)
    refine ⟨h.inside, fun hKey => ?_, fun _ => hNow, h.locked⟩
    obtain ⟨d, rfl, hCarries, hP⟩ := h.row hKey
    obtain ⟨d', rfl, hNext⟩ := later_carries hSees
    exact ⟨d', rfl, hCarries.trans hNext,
      hStable d d' hP (h.unlocked rfl d rfl) hNext (hNow d' rfl)⟩

theorem Midway.changed {d d' : EmailDelivery} (h : Midway k delivery P stage (some d))
    (hKey : delivery.requestId = k) (hStep : EmailDelivery.RowStep call d d') (hAfter : P' d') :
    Midway k delivery P' (stage.after true) (some d') where
  inside := by
    cases stage with
    | outside => exact absurd rfl h.inside
    | unlocked => simp [Stage.after]
    | locked => simp [Stage.after]
  row _ := by
    obtain ⟨d₀, hd₀, hCarries, _⟩ := h.row hKey
    cases hd₀
    exact ⟨d', rfl, hCarries.trans hStep.carries, hAfter⟩
  unlocked hStage := by
    cases stage with
    | outside => exact absurd rfl h.inside
    | unlocked => cases hStage
    | locked => cases hStage
  locked _ := hKey

theorem Midway.mine {d : EmailDelivery} (h : Midway k delivery P stage (some d))
    (hKey : delivery.requestId = k) :
    P d ∧ delivery.is d = true := by
  obtain ⟨d', hd', hCarries, hP⟩ := h.row hKey
  cases hd'
  exact ⟨hP, is_iff.mpr ⟨hCarries.requestId, hCarries.id⟩⟩

/-- A statement about the row of the delivery: a row that it changes takes a step to `P'`, and one
that it leaves alone has `P'` already. -/
theorem Midway.follows_update {name : Statement} {cond : EmailDelivery → Bool}
    {change : DeliveryChange} (h : Midway k delivery P stage seen) (hStable : Stable P)
    (hMatch : ∀ d, P d → cond d = true → EmailDelivery.RowStep call d (change.apply d) ∧
      P' (change.apply d)) (hSkip : ∀ d, P d → cond d = false → P' d) :
    Follows k call (fun stage _ r => Midway k delivery P' stage r)
      (updateDeliveries name (fun d => delivery.is d && cond d) change) stage seen := by
  refine follows_updateDeliveries (fun d n hSees hSettles hKey hWhere => ?_)
    fun r n hSees hSettled hNone => ?_
  · rw [Bool.and_eq_true, is_iff] at hWhere
    have hMine : delivery.requestId = k := hWhere.1.1.symm.trans hKey
    have hHere := h.sees hStable hSees fun hStage d' hd' => by cases hd'; exact hSettles hStage
    obtain ⟨hStep, hAfter⟩ := hMatch d (hHere.mine hMine).1 hWhere.2
    exact ⟨hStep, fun hOutside => absurd hOutside h.inside, hHere.changed hMine hStep hAfter⟩
  · have hHere := h.sees hStable hSees hSettled
    refine ⟨hHere.inside, fun hMine => ?_, hHere.unlocked, hHere.locked⟩
    obtain ⟨d, rfl, hCarries, hP⟩ := hHere.row hMine
    obtain ⟨_, hIs⟩ := hHere.mine hMine
    have hSkipped := hNone d rfl
    rw [hIs, Bool.true_and] at hSkipped
    exact ⟨d, rfl, hCarries, hSkip d hP hSkipped⟩

theorem Midway.follows_attach {where_ : EmailDelivery → Bool} {messageId : String}
    (h : Midway k delivery P stage seen) (hStable : Stable P)
    (hMatch : ∀ d, P d → where_ d = true →
      EmailDelivery.RowStep call d ((EmailDelivery.setProviderMessageId messageId).apply d) ∧
      P ((EmailDelivery.setProviderMessageId messageId).apply d)) :
    Follows k call (fun stage _ r => Midway k delivery P stage r)
      (attachMessageId delivery where_ messageId) stage seen := by
  refine follows_attachMessageId (fun d n hSees hSettles hKey hWhere => ?_)
    fun r n hSees hSettled _ => h.sees hStable hSees hSettled
  rw [Bool.and_eq_true, is_iff] at hWhere
  have hMine : delivery.requestId = k := hWhere.1.1.symm.trans hKey
  have hHere := h.sees hStable hSees fun hStage d' hd' => by cases hd'; exact hSettles hStage
  obtain ⟨hStep, hAfter⟩ := hMatch d (hHere.mine hMine).1 hWhere.2
  exact ⟨hStep, fun hOutside => absurd hOutside h.inside, hHere.changed hMine hStep hAfter⟩

theorem Midway.settled (h : Midway k delivery EmailDelivery.Settles stage r) : Settled r := by
  cases stage with
  | outside => exact absurd rfl h.inside
  | unlocked => exact h.unlocked rfl
  | locked =>
    obtain ⟨d, rfl, _, hSettles⟩ := h.row (h.locked rfl)
    exact fun d' hd' => by cases hd'; exact hSettles

theorem stable_settles : Stable EmailDelivery.Settles := fun _ _ _ _ _ hAfter => hAfter

end Pixaeron.Notifications.Deliveries
