import Mathlib.Order.Bounds.Basic
import Pixaeron.Transactions.Alone
import Pixaeron.Conversion.Runs

/-! # The daily quota

What the admissions of a subject move to QUEUED on a day is what its usage row of that day says,
and never more than the plan allows.
-/

namespace Pixaeron.Conversion

open Transactions

/-- How many files the entry moves from READY to QUEUED. -/
def movedFiles (e : LogEntry) : Nat :=
  e.before.files.total fun f => if f.status = .ready ∧
    (e.after.files.get f.id).any (·.status = .queued) then 1 else 0

/-- The entry is one of an admission of the subject, begun on that day. -/
def admitsOn (subject : String) (day : Nat) (e : LogEntry) : Bool :=
  (e.call.admission.any fun admission => admission.2.1.subject = subject) && dayOf e.startedAt = day

def movedOn (history : List LogEntry) (subject : String) (day : Nat) : Nat :=
  ((history.filter (admitsOn subject day)).map movedFiles).sum

/-- The subject's plan has that daily limit, in every admission of its batches. -/
def Limited (subject : String) (dailyFiles : Nat) (e : LogEntry) : Prop :=
  ∀ batchId ownership snapshot, e.call.admission = some (batchId, ownership, snapshot) →
    ownership.subject = subject → snapshot.dailyFiles = some dailyFiles

/-- The purge has deleted usage of the day. -/
def PurgesUsage (day : Nat) (e : LogEntry) : Prop :=
  e.call = .purgeDeadRows ∧ day < dayOf (e.endedAt - purgeGraceMs)

variable {services : Services} {p : Policy} {e : LogEntry} {subject : String}
  {day dailyFiles now : Nat}
  {w : World conversion Call Outcome}

theorem movedOn_concat (past : List LogEntry) :
    movedOn (past ++ [e]) subject day = movedOn past subject day + if admitsOn subject day e then
      movedFiles e else 0 := by
  unfold movedOn
  cases h : admitsOn subject day e <;> simp [h]

/-! ## What an entry charges -/

theorem Database.admittedFiles_congr {db db' : Database}
    (h : db'.usage.get (subject, day) = db.usage.get (subject, day)) :
    db'.admittedFiles subject day = db.admittedFiles subject day := by
  unfold admittedFiles
  rw [h]

theorem Database.get_reserve {db : Database} {key : String × Nat} {n : Nat} :
    (db.reserve subject day n).usage.get key =
      if key = (subject, day) then some ⟨subject, day, db.admittedFiles subject day + n⟩
        else db.usage.get key := by
  unfold reserve admittedFiles
  cases hRow : db.usage.get (subject, day) with
  | none =>
    dsimp only
    rw [Table.get_insert, DailyUsage.key]
    by_cases hKey : key = (subject, day)
    · subst hKey
      simp [hRow]
    · rw [if_neg hKey, if_neg (Ne.symm hKey), Option.or_none]
  | some row =>
    have hModify : ∀ hKey, (db.usage.modify [(subject, day)] (fun row : DailyUsage =>
        { row with admittedFiles := row.admittedFiles + n }) hKey).get key = _ :=
          fun hKey => Table.get_modify
    refine (hModify fun _ => rfl).trans ?_
    by_cases hKey : key = (subject, day)
    · subst hKey
      have hRowKey := Table.key_of_get hRow
      simp only [DailyUsage.key, Prod.mk.injEq] at hRowKey
      rw [hRow]
      simp [hRowKey.1, hRowKey.2]
    · rw [if_neg hKey]
      simp [hKey]

theorem Database.admittedFiles_reserve {db : Database} {n : Nat} :
    (db.reserve subject day n).admittedFiles subject day = db.admittedFiles subject day + n := by
  rw [admittedFiles, get_reserve, if_pos rfl]
  rfl

theorem Database.admitted_le_of_reserves {db : Database} {n : Nat}
    (h : db.reserves subject day n dailyFiles = true) (hFits : n ≤ dailyFiles) :
    db.admittedFiles subject day + n ≤ dailyFiles := by
  unfold reserves at h
  unfold admittedFiles
  cases hRow : db.usage.get (subject, day) with
  | none => simpa using hFits
  | some row =>
    rw [hRow] at h
    exact of_decide_eq_true h

theorem Admission.Allowed.moved_files {a : Admission} (h : a.Allowed services p e)
    (hApply : e.after = a.write services e.before) : movedFiles e = a.claimed.length := by
  have hMoved : movedFiles e = e.before.files.total fun f =>
    if f.id ∈ a.claimedIds then 1 else 0 := by
    refine Table.total_congr fun f hf => if_congr ⟨fun hQueued => ?_, fun hMem => ?_⟩ rfl rfl
    · by_contra hNot
      rw [hApply, Admission.get_not_claimed hNot, Table.get_of_mem hf] at hQueued
      split at hQueued <;> simp [ConversionFile.expireAt, hQueued.1] at hQueued
    · obtain ⟨c, hc, hId⟩ := List.mem_map.mp hMem
      obtain ⟨f', hGet, hReady, _⟩ := h.claimed c hc
      rw [show c.id = f.id from hId, Table.get_of_mem hf, Option.some.injEq] at hGet
      rw [hApply, h.get_claimed hMem, Table.get_of_mem hf]
      exact ⟨hGet ▸ hReady, by simp⟩
  have hOnes : ∀ k ∈ a.claimedIds, ((e.before.files.get k).map fun _ => 1).getD 0 = 1 := by
    intro k hk
    obtain ⟨c, hc, rfl⟩ := List.mem_map.mp hk
    obtain ⟨f, hGet, _⟩ := h.claimed c hc
    rw [hGet]
    rfl
  rw [hMoved, Table.total_of_keys h.distinct, List.map_congr_left hOnes, List.map_const',
    List.sum_replicate, Admission.claimedIds, List.length_map]
  exact Nat.mul_one _

theorem movedFiles_of_no_admission {c : Commit} (hAllowed : c.Allowed services p e)
    (hApply : e.after = c.apply services e.before)
    (hNot : ∀ a, c ≠ .admission a) : movedFiles e = 0 := by
  have hNone : movedFiles e = e.before.files.total fun _ => 0 := by
    refine Table.total_congr fun f hf => if_neg fun ⟨hReady, hMoved⟩ => ?_
    obtain ⟨f', hGet', hQueued⟩ := (Option.any_eq_true _ _).mp hMoved
    have hGet := Table.get_of_mem hf
    have hChanges := c.changes hAllowed hGet (hApply ▸ hGet')
    have hStatus := of_decide_eq_true hQueued
    cases hChanges with
    | queue _ => exact hNot _ rfl
    | same => cases hReady.symm.trans hStatus
    | @finish _ data => cases data <;> cases hStatus
    | _ => cases hStatus
  rw [hNone]
  simp [Table.total]

theorem Legal.charges (h : Legal services p e) (hPlan : Limited subject dailyFiles e)
    (hAdmits : admitsOn subject day e = true) (hMoves : 0 < movedFiles e) :
    e.before.admittedFiles subject day + movedFiles e ≤ dailyFiles ∧
      e.after.admittedFiles subject day = e.before.admittedFiles subject day + movedFiles e ∧
      e.endedAt ≤ e.startedAt + transactionTimeoutMs := by
  obtain ⟨c, hAllowed, hApply⟩ := h.commit
  by_cases hAdmission : ∃ a, c = .admission a
  · obtain ⟨a, rfl⟩ := hAdmission
    simp only [admitsOn, Bool.and_eq_true, decide_eq_true_eq] at hAdmits
    obtain ⟨ownership, hCall, hSubject⟩ := hAllowed.call
    rw [hCall] at hAdmits
    obtain ⟨hOwner, rfl⟩ := hAdmits
    have hOwner' : ownership.subject = subject := of_decide_eq_true hOwner
    have hLimit := hPlan _ _ _ hCall hOwner'
    obtain ⟨hFits, hReserves⟩ := hAllowed.quota dailyFiles hLimit
    rw [hSubject.symm.trans hOwner'] at hReserves
    rw [hAllowed.moved_files hApply]
    refine ⟨Database.admitted_le_of_reserves hReserves hFits, ?_, hAllowed.timely⟩
    rw [← Database.admittedFiles_reserve, hApply]
    refine Database.admittedFiles_congr ?_
    rw [Commit.apply, Admission.write_usage, Admission.charge, hLimit, hAllowed.started,
      hSubject.symm.trans hOwner']
  · rw [movedFiles_of_no_admission hAllowed hApply fun a hAdmit => hAdmission ⟨a, hAdmit⟩] at hMoves
    cases hMoves

/-- Whatever else commits leaves the usage of the day alone, but for the purge. -/
theorem Legal.keeps_usage (h : Legal services p e) (hPlan : Limited subject dailyFiles e)
    (hNot : admitsOn subject day e = true → movedFiles e = 0) :
    e.after.admittedFiles subject day = e.before.admittedFiles subject day ∨ PurgesUsage day e := by
  obtain ⟨c, hAllowed, hApply⟩ := h.commit
  cases c with
  | admission a =>
    refine .inl (Database.admittedFiles_congr ?_)
    obtain ⟨ownership, hCall, hSubject⟩ := hAllowed.call
    rw [hApply, Commit.apply, Admission.write_usage, Admission.charge]
    split
    · rw [Database.get_reserve, if_neg fun hKey => ?_]
      obtain ⟨rfl, rfl⟩ := Prod.mk.inj hKey
      have hNone := hNot (by simp [admitsOn, hCall, hSubject, hAllowed.started])
      rw [hAllowed.moved_files hApply, List.length_eq_zero_iff] at hNone
      exact hAllowed.nonempty hNone
    · rfl
  | purgeUsage keys =>
    by_cases hMem : (subject, day) ∈ keys
    · exact .inr ⟨hAllowed.1, hAllowed.2 _ hMem⟩
    · refine .inl (Database.admittedFiles_congr ?_)
      rw [hApply, Commit.apply, Database.get_deleteUsage hMem]
  | _ => exact .inl (Database.admittedFiles_congr (by rw [hApply]; rfl))

/-! ## Over a run -/

/-- After those entries no more than the limit has been moved, and the usage says how much, unless
it has been purged. -/
structure QuotaKept (subject : String) (day dailyFiles : Nat) (past : List LogEntry) (db : Database)
    (t : Nat) : Prop where
  limited : movedOn past subject day ≤ dailyFiles
  exact : movedOn past subject day = db.admittedFiles subject day ∨ ∃ e ∈ past, PurgesUsage day e ∧
    e.endedAt ≤ t

theorem Legal.keepsQuota (h : Legal services p e) (hPlan : Limited subject dailyFiles e)
    {past : List LogEntry} (hKept : QuotaKept subject day dailyFiles past e.before e.endedAt) :
    QuotaKept subject day dailyFiles (past ++ [e]) e.after e.endedAt := by
  by_cases hCharges : admitsOn subject day e = true ∧ 0 < movedFiles e
  · obtain ⟨hFits, hCharged, hTimely⟩ := h.charges hPlan hCharges.1 hCharges.2
    have hSum : movedOn (past ++ [e]) subject day = movedOn past subject day + movedFiles e := by
      rw [movedOn_concat, if_pos hCharges.1]
    rcases hKept.exact with hExact | ⟨e', _, ⟨_, hDay⟩, hEnded⟩
    · exact ⟨by omega, .inl (by omega)⟩
    · -- No admission of a day is still running when the usage of that day is purged.
      have hToday : dayOf e.startedAt = day := by
        have hAdmits := hCharges.1
        simp only [admitsOn, Bool.and_eq_true, decide_eq_true_eq] at hAdmits
        exact hAdmits.2
      unfold dayOf purgeGraceMs at hDay
      unfold dayOf at hToday
      unfold transactionTimeoutMs at hTimely
      omega
  · have hNothing : admitsOn subject day e = true → movedFiles e = 0 := fun hAdmits =>
      Nat.eq_zero_of_not_pos fun hMoves => hCharges ⟨hAdmits, hMoves⟩
    have hSame : movedOn (past ++ [e]) subject day = movedOn past subject day := by
      rw [movedOn_concat]
      split
      · next hAdmits => rw [hNothing hAdmits, Nat.add_zero]
      · rfl
    refine ⟨hSame ▸ hKept.limited, ?_⟩
    rcases hKept.exact with hExact | ⟨e', he', hPurges, hEnded⟩
    · rcases h.keeps_usage hPlan hNothing with hUsage | hPurges
      · exact .inl (by rw [hSame, hUsage, hExact])
      · exact .inr ⟨e, by simp, hPurges, le_rfl⟩
    · exact .inr ⟨e', List.mem_append_left _ he', hPurges, hEnded⟩

theorem quota_kept (h : World.Leads (system services) (start now) w)
    (hPlan : ∀ e ∈ w.shared.history, Limited subject dailyFiles e) (day : Nat) :
    QuotaKept subject day dailyFiles w.shared.history w.shared.db w.shared.now := by
  have hKept := (system_path h).recorded (P := QuotaKept subject day dailyFiles)
    (fun _ _ _ _ hTime hHere =>
      ⟨hHere.limited, hHere.exact.imp_right fun ⟨e, he, hPurges, hEnded⟩ =>
        ⟨e, he, hPurges, hEnded.trans hTime⟩⟩)
    (fun _ e he hLegal hHere => hLegal.1.keepsQuota (hPlan e he) hHere)
      (show QuotaKept subject day dailyFiles [] _ 0 from ⟨Nat.zero_le _, .inl rfl⟩)
  rwa [List.nil_append] at hKept

/-- An entry of an admission that failed, that moved nothing, or whose batch had nothing READY
leaves the usage as it is. -/
theorem Legal.no_charge (h : Legal services p e) {batchId : Uuid} {ownership : BatchOwnership}
    {snapshot : EntitlementSnapshot}
    (hCall : e.call.admission = some (batchId, ownership, snapshot))
    (hIdle : e.error ≠ none ∨ movedFiles e = 0 ∨ ∀ f ∈ e.before.filesOf batchId,
      f.status ≠ .ready) :
    e.after.usage = e.before.usage := by
  by_cases hFailed : e.error = none
  · obtain ⟨c, hAllowed, hApply⟩ := h.commit
    cases c with
    | admission a =>
      exfalso
      rcases hIdle with hError | hNone | hNotReady
      · exact hError hFailed
      · rw [hAllowed.moved_files hApply, List.length_eq_zero_iff] at hNone
        exact hAllowed.nonempty hNone
      · obtain ⟨file, hFile⟩ := List.exists_mem_of_ne_nil _ hAllowed.nonempty
        obtain ⟨f, hGet, hReady, hBatchId, _⟩ := hAllowed.claimed file hFile
        obtain ⟨_, hOwn, _⟩ := hAllowed.call
        rw [hCall, Option.some.injEq, Prod.mk.injEq] at hOwn
        exact hNotReady f (by simp [Table.mem_of_get hGet, hBatchId, hOwn.1]) hReady
    | purgeUsage keys =>
      rw [hAllowed.1] at hCall
      cases hCall
    | _ => rw [hApply]; rfl
  · rw [h.kept hFailed]

/-! ## remainingToday -/

theorem remainingToday_alone {db : Database} : (remainingToday subject dailyFiles).alone now db =
    some (.ok (dailyFiles - db.admittedFiles subject (dayOf now)), db) := rfl

theorem reserveDailyUsage_alone {db : Database} {n : Nat} :
    (∃ db', (reserveDailyUsage subject n dailyFiles).alone now db = some (.ok (), db')) ↔
      n ≤ dailyFiles ∧ db.reserves subject (dayOf now) n dailyFiles = true := by
  unfold reserveDailyUsage require Script.alone
  simp only [Script.bind_eq, Script.aloneThen_bind]
  by_cases hFits : n ≤ dailyFiles
  · cases hReserves : db.reserves subject (dayOf now) n dailyFiles <;>
      simp [hFits, Script.aloneThen, Script.change, Script.viewAlone, Script.ends, hReserves]
  · simp [hFits, Script.aloneThen]

/-- What is left is the most that an admission can still reserve. -/
theorem remaining_greatest {db : Database}
    (hKept : db.admittedFiles subject (dayOf now) ≤ dailyFiles) :
    IsGreatest {n | n ≤ dailyFiles ∧ db.reserves subject (dayOf now) n dailyFiles = true}
      (dailyFiles - db.admittedFiles subject (dayOf now)) := by
  refine ⟨⟨Nat.sub_le _ _, ?_⟩, fun n ⟨hFits, hReserves⟩ => ?_⟩
  · unfold Database.admittedFiles at hKept ⊢
    unfold Database.reserves
    cases hRow : db.usage.get (subject, dayOf now) with
    | none => rfl
    | some row =>
      rw [hRow] at hKept
      simp only [Option.map_some, Option.getD_some] at hKept ⊢
      exact decide_eq_true (by omega)
  · have hSum := Database.admitted_le_of_reserves hReserves hFits
    omega

theorem Database.admitted_le_of_kept {db : Database} {past : List LogEntry} {t : Nat}
    (h : QuotaKept subject (dayOf t) dailyFiles past db t) :
    db.admittedFiles subject (dayOf t) ≤ dailyFiles := by
  rcases h.exact with hExact | ⟨e, _, ⟨_, hDay⟩, hEnded⟩
  · exact hExact ▸ h.limited
  · unfold dayOf purgeGraceMs at hDay
    omega

theorem quota_exact (h : World.Leads (system services) (start now) w)
    (hPlan : ∀ e ∈ w.shared.history, Limited subject dailyFiles e) :
    (∀ day, movedOn w.shared.history subject day ≤ dailyFiles ∧
      ((∀ e ∈ w.shared.history, ¬ PurgesUsage day e) →
        movedOn w.shared.history subject day = w.shared.db.admittedFiles subject day)) ∧
    (∀ e ∈ w.shared.history, ∀ batchId ownership snapshot,
      e.call.admission = some (batchId, ownership, snapshot) →
      (e.error ≠ none ∨ movedFiles e = 0 ∨ ∀ f ∈ e.before.filesOf batchId, f.status ≠ .ready) →
        e.after.usage = e.before.usage) ∧
    ∃ remaining, (remainingToday subject dailyFiles).alone w.shared.now w.shared.db =
      some (.ok remaining, w.shared.db) ∧
      IsGreatest {n | ∃ db',
        (reserveDailyUsage subject n dailyFiles).alone w.shared.now w.shared.db =
        some (.ok (), db')}
        remaining := by
  refine ⟨fun day => ⟨(quota_kept h hPlan day).limited, fun hThere => ?_⟩,
    fun e he batchId ownership snapshot hCall => ?_,
    _, remainingToday_alone, ?_⟩
  · rcases (quota_kept h hPlan day).exact with hExact | ⟨e, he, hPurges, _⟩
    · exact hExact
    · exact absurd hPurges (hThere e he)
  · exact (system_legal h e he).1.no_charge hCall
  · refine (congrArg (IsGreatest · _) (Set.ext fun n => reserveDailyUsage_alone)).mpr ?_
    exact remaining_greatest (Database.admitted_le_of_kept (quota_kept h hPlan _))

theorem quota_exact_converted : ∃ w, World.Leads (system Sample.services) (start 0) w ∧
    movedOn w.shared.history "alice" 0 = 1 ∧ movedOn w.shared.history "alice" 0 ≤ 10 := by
  have hRun : ((World.run (system Sample.services) (start 0) Sample.conversionRun).map fun w =>
      (movedOn w.shared.history "alice" 0,
        w.shared.history.all fun e => e.call.admission.all
          fun admission => admission.2.2.dailyFiles = some 10)) =
      some (1, true) := by decide
  obtain ⟨w, hW, h⟩ := Option.map_eq_some_iff.mp hRun
  simp only [Prod.mk.injEq, List.all_eq_true] at h
  obtain ⟨hMoved, hPlans⟩ := h
  refine ⟨w, World.leads_of_run hW, hMoved,
    ((quota_exact (World.leads_of_run hW) fun e he _ _ _ hCall _ => ?_).1 0).1⟩
  have hPlan := hPlans e he
  rw [hCall] at hPlan
  exact of_decide_eq_true hPlan

end Pixaeron.Conversion
