import Pixaeron.Transactions.Grounds
import Pixaeron.Conversion.Idempotency
import Pixaeron.Conversion.Quota

/-! # Verified: what a client may change

The calls of a client change batches and files of its subject only. A batch is found by its
identifier, and the call goes on only when subject and token are right; what has to make room is
looked up by subject. -/

namespace Pixaeron.Conversion.Tenants

open Transactions Transactions.Script

variable {services : Services} {call : Call} {known known' : Database → Prop} {subject : String}
  {p : Progress conversion}

def clientOf : Call → Option String
  | .createBatch input _ _ => some input.subject
  | .completeUploads _ ownership _ => some ownership.subject
  | .admitReadyFiles _ ownership _ => some ownership.subject
  | .remainingToday subject _ => some subject
  | _ => none

/-- A batch of the subject has been seen under this identifier. -/
def OwnBatch (known : Database → Prop) (subject : String) (id : Uuid) : Prop :=
  ∃ db, known db ∧ ∃ b, db.batches.get id = some b ∧ b.subject = subject

/-- A file of such a batch has been seen under this identifier. -/
def OwnFile (known : Database → Prop) (subject : String) (id : Uuid) : Prop :=
  ∃ db, known db ∧ ∃ f, db.files.get id = some f ∧ OwnBatch known subject f.batchId

/-- The batch has been seen, and subject and token are right. -/
def Authorised (services : Services) (known : Database → Prop) (batchId : Uuid)
    (ownership : BatchOwnership) : Prop :=
  ∃ db, known db ∧ ∃ b, db.batches.get batchId = some b ∧ b.subject = ownership.subject ∧
    Presents services ownership.batchToken b

/-- Of the files and batches that are there the change touches these only, and of the daily usage
that of the subject. -/
structure Confined (files batches : Uuid → Prop) (subject : String)
    (change : Database → Database) : Prop where
  files : ∀ db id f, db.files.get id = some f → (change db).files.get id = some f ∨ files id
  batches : ∀ db id b, db.batches.get id = some b → (change db).batches.get id = some b ∨ batches id
  usage : ∀ db key, (change db).usage.get key = db.usage.get key ∨ key.1 = subject

structure Fair (services : Services) (call : Call) (known : Database → Prop)
    (p : Progress conversion) : Prop where
  confined : ∀ subject, clientOf call = some subject →
    Confined (OwnFile known subject) (OwnBatch known subject) subject p.change
  authorised : ∀ batchId ownership snapshot, call.admission = some (batchId, ownership, snapshot) →
    (∀ db, p.change db = db) ∨ Authorised services known batchId ownership

def grounds (services : Services) : Grounds conversion Call := Fair services

theorem OwnBatch.mono {id : Uuid} (h : OwnBatch known subject id)
    (hKnown : ∀ db, known db → known' db) : OwnBatch known' subject id :=
  h.imp fun db ⟨hDb, hBatch⟩ => ⟨hKnown db hDb, hBatch⟩

theorem OwnFile.mono {id : Uuid} (h : OwnFile known subject id)
    (hKnown : ∀ db, known db → known' db) : OwnFile known' subject id := by
  obtain ⟨db, hDb, f, hGet, hBatch⟩ := h
  exact ⟨db, hKnown db hDb, f, hGet, hBatch.mono hKnown⟩

theorem Authorised.mono {batchId : Uuid} {ownership : BatchOwnership}
    (h : Authorised services known batchId ownership) (hKnown : ∀ db, known db → known' db) :
    Authorised services known' batchId ownership :=
  h.imp fun _ ⟨hDb, hBatch⟩ => ⟨hKnown _ hDb, hBatch⟩

theorem Authorised.ownBatch {batchId : Uuid} {ownership : BatchOwnership}
    (h : Authorised services known batchId ownership) :
    OwnBatch known ownership.subject batchId :=
  h.imp fun _ ⟨hDb, b, hGet, hSubject, _⟩ => ⟨hDb, b, hGet, hSubject⟩

/-! ## Changes -/

section Confined

variable {files batches files' batches' : Uuid → Prop} {f g : Database → Database}

theorem Confined.mono (h : Confined files batches subject f) (hFiles : ∀ id, files id → files' id)
    (hBatches : ∀ id, batches id → batches' id) :
    Confined files' batches' subject f :=
  ⟨fun db id row hGet => (h.files db id row hGet).imp_right (hFiles id),
    fun db id row hGet => (h.batches db id row hGet).imp_right (hBatches id),
    h.usage⟩

theorem confined_of_same (h : ∀ db, (f db).files = db.files ∧ (f db).batches = db.batches ∧
      (f db).usage = db.usage) :
    Confined files batches subject f where
  files db id row hGet := .inl (by rw [(h db).1]; exact hGet)
  batches db id row hGet := .inl (by rw [(h db).2.1]; exact hGet)
  usage db key := .inl (by rw [(h db).2.2])

theorem confined_id : Confined files batches subject id := confined_of_same fun _ => ⟨rfl, rfl, rfl⟩

theorem Confined.comp (hf : Confined files batches subject f)
    (hg : Confined files batches subject g) :
    Confined files batches subject (f ∘ g) where
  files db id row hGet := (hg.files db id row hGet).elim (hf.files _ id row) .inr
  batches db id row hGet := (hg.batches db id row hGet).elim (hf.batches _ id row) .inr
  usage db key :=
    (hf.usage (g db) key).elim (fun hSame => (hg.usage db key).imp_left hSame.trans) .inr

theorem confined_changeFiles {ids : List Uuid} {change : ConversionFile → ConversionFile}
    {hKey : ∀ row, (change row).id = row.id} (h : ∀ id ∈ ids, files id) :
    Confined files batches subject fun db => db.changeFiles ids change hKey where
  files db id row hGet := by
    by_cases hMem : id ∈ ids
    · exact .inr (h id hMem)
    · refine .inl ?_
      rw [Database.changeFiles_files, Table.get_modify_of_not_mem hMem]
      exact hGet
  batches _ _ _ hGet := .inl hGet
  usage _ _ := .inl rfl

theorem confined_changeBatches {ids : List Uuid} {change : ConversionBatch → ConversionBatch}
    {hKey : ∀ row, (change row).id = row.id} (h : ∀ id ∈ ids, batches id) :
    Confined files batches subject fun db => db.changeBatches ids change hKey where
  files _ _ _ hGet := .inl hGet
  batches db id row hGet := by
    by_cases hMem : id ∈ ids
    · exact .inr (h id hMem)
    · refine .inl ?_
      rw [Database.changeBatches_batches, Table.get_modify_of_not_mem hMem]
      exact hGet
  usage _ _ := .inl rfl

theorem confined_insertBatch {batch : ConversionBatch} {rows : List ConversionFile} :
    Confined files batches subject fun db => db.insertBatch batch rows where
  files db id row hGet := by
    rw [Database.get_insertBatch_files, hGet, Option.some_or]
    exact .inl rfl
  batches db id row hGet := by
    rw [Database.get_insertBatch_batches, hGet, Option.some_or]
    exact .inl rfl
  usage _ _ := .inl rfl

theorem confined_reserve {day count : Nat} :
    Confined files batches subject fun db => db.reserve subject day count where
  files _ _ _ hGet := .inl hGet
  batches _ _ _ hGet := .inl hGet
  usage db key := by
    by_cases hMine : key.1 = subject
    · exact .inr hMine
    refine .inl (Database.get_reserve.trans (if_neg ?_))
    rintro rfl
    exact hMine rfl

theorem confined_if {condition : Database → Bool} (h : Confined files batches subject f) :
    Confined files batches subject fun db => if condition db then f db else db where
  files db id row hGet := by
    split
    · exact h.files db id row hGet
    · exact .inl hGet
  batches db id row hGet := by
    split
    · exact h.batches db id row hGet
    · exact .inl hGet
  usage db key := by
    split
    · exact h.usage db key
    · exact .inl rfl

end Confined

/-! ## Statements of a transaction -/

section Only

variable {files batches : Uuid → Prop}

theorem only_updateFiles {name : Statement} {where_ : View conversion → ConversionFile → Bool}
    {data : View conversion → ConversionFile → ConversionFile} {hKey : ∀ v f, (data v f).id = f.id}
    (h : ∀ v f, where_ v f = true → files f.id) :
    (updateFiles name where_ data hKey).Only (Confined files batches subject) := by
  refine fun v => ⟨confined_changeFiles fun id hMem => ?_, trivial⟩
  obtain ⟨f, hF, rfl⟩ := List.mem_map.mp hMem
  exact h v f (Table.mem_select.mp hF).2

theorem only_updateBatches {name : Statement} {where_ : View conversion → ConversionBatch → Bool}
    {data : View conversion → ConversionBatch → ConversionBatch}
    {hKey : ∀ v b, (data v b).id = b.id} (h : ∀ v b, where_ v b = true → batches b.id) :
    (updateBatches name where_ data hKey).Only (Confined files batches subject) := by
  refine fun v => ⟨confined_changeBatches fun id hMem => ?_, trivial⟩
  obtain ⟨b, hB, rfl⟩ := List.mem_map.mp hMem
  exact h v b (Table.mem_select.mp hB).2

theorem only_rollUpBatch {batchId : Uuid} (h : batches batchId) :
    (rollUpBatch batchId).Only (Confined files batches subject) := by
  unfold rollUpBatch
  refine Only.bind (Only.query confined_id) fun statuses => ?_
  split
  · trivial
  refine Only.bind (only_updateBatches fun v b hWhere => ?_) fun count => trivial
  rw [of_decide_eq_true (Bool.and_eq_true_iff.mp hWhere).1]
  exact h

theorem only_chargeDailyUsage {batch : ConversionBatch} {snapshot : EntitlementSnapshot}
    {claimed : List ClaimedFile} :
    (chargeDailyUsage batch snapshot claimed).Only (Confined files batches batch.subject) := by
  unfold chargeDailyUsage
  split
  · exact Only.check.bind fun _ =>
      Only.bind (fun v => ⟨confined_if confined_reserve, trivial⟩) fun _ => Only.check
  · trivial

theorem only_queueClaimed {batch : ConversionBatch} {snapshot : EntitlementSnapshot}
    {retention : ConversionRetentionClass} {claimed : List ClaimedFile}
    (hFiles : ∀ c ∈ claimed, files c.id) (hBatch : batches batch.id) :
    (queueClaimed services batch snapshot retention claimed).Only
      (Confined files batches subject) := by
  unfold queueClaimed
  refine Only.bind (fun _ => trivial) fun now =>
    Only.bind (only_updateFiles fun v f hWhere => ?_) fun _ =>
    Only.bind (only_updateBatches fun v b hWhere => ?_) fun _ => Only.check.bind fun _ => ?_
  · obtain ⟨c, hC, hId⟩ := List.mem_map.mp (of_decide_eq_true hWhere)
    exact hId ▸ hFiles c hC
  · rw [of_decide_eq_true (Bool.and_eq_true_iff.mp hWhere).1]
    exact hBatch
  · split
    · trivial
    · exact Only.bind (fun v =>
        ⟨confined_of_same fun db => ⟨Database.insertOutbox_files, Database.insertOutbox_batches,
        Database.insertOutbox_usage⟩, trivial⟩) fun _ => trivial

end Only

/-! ## Admission -/

theorem fair_of_id (h : p.change = id) : Fair services call known p where
  confined _ _ := h ▸ confined_id
  authorised _ _ _ _ := .inl fun db => congrFun h db

section Admission

variable {batchId : Uuid} {ownership : BatchOwnership} {snapshot : EntitlementSnapshot}

theorem fair_of_confined (hCall : call.admission = some (batchId, ownership, snapshot))
    (hAuthorised : Authorised services known batchId ownership)
    (h : Confined (OwnFile known ownership.subject)
      (OwnBatch known ownership.subject) ownership.subject p.change) :
    Fair services call known p where
  confined subject hClient := by
    have hSubject : subject = ownership.subject := by
      cases call <;> simp_all [clientOf, Call.admission]
    exact hSubject ▸ h
  authorised _ _ _ hSame := by
    cases hCall.symm.trans hSame
    exact .inr hAuthorised

/-- The transaction has touched nothing but rows of the subject that are known. -/
def Within (known₀ : Database → Prop) (subject : String) (known : Database → Prop)
    (tx : Option (Progress conversion)) : Prop :=
  (∀ db, known₀ db → known db) ∧ ∃ p, tx = some p ∧
    Confined (OwnFile known subject) (OwnBatch known subject) subject p.change

theorem Within.trans {known₀ known₁ : Database → Prop} {tx : Option (Progress conversion)}
    (h : Within known₁ subject known tx) (hKnown : ∀ db, known₀ db → known₁ db) :
    Within known₀ subject known tx :=
  ⟨fun db hDb => h.1 db (hKnown db hDb), h.2⟩

theorem within_of_only {α : Type} {script : Script conversion α}
    (hConfined : Confined (OwnFile known subject) (OwnBatch known subject) subject p.change)
    (h : script.Only (Confined (OwnFile known subject) (OwnBatch known subject) subject)) :
    script.Grounded (grounds services) call (fun known' tx _ => Within known subject known' tx)
      known (some p) :=
  (Grounded.of_only (fun _ _ hf hg => hf.comp hg) h hConfined).mono
    fun _ _ _ ⟨hKnown, progress, hTx, hChange⟩ =>
    ⟨hKnown, progress, hTx, hChange.mono (fun _ hFile => hFile.mono hKnown) fun _ hBatch =>
      hBatch.mono hKnown⟩

/-- A file that may be evicted is one of the subject's, and so is its batch. -/
theorem own_of_evictable {db : Database} {t : Nat} {c : EvictionCandidate} (hKnown : known db)
    (h : c ∈ (db.evictable subject t).map ConversionFile.candidate) :
    OwnFile known subject c.id ∧ OwnBatch known subject c.batchId := by
  obtain ⟨f, hF, rfl⟩ := List.mem_map.mp h
  obtain ⟨hRow, hSubject, _⟩ := mem_evictable.mp hF
  obtain ⟨b, hB, hOwner⟩ := Option.map_eq_some_iff.mp hSubject
  have hBatch : OwnBatch known subject f.batchId := ⟨db, hKnown, b, hB, hOwner⟩
  exact ⟨⟨db, hKnown, f, Table.get_of_mem hRow, hBatch⟩, hBatch⟩

theorem ownFile_of_ready {db : Database} {c : ClaimedFile} (hKnown : known db)
    (hBatch : OwnBatch known subject batchId)
    (h : c ∈ (db.readyFiles batchId).map ConversionFile.claimed) : OwnFile known subject c.id := by
  obtain ⟨f, hF, rfl⟩ := List.mem_map.mp h
  obtain ⟨hRow, hWhere⟩ := Table.mem_select.mp (mem_orderBy.mp hF)
  have hId : f.batchId = batchId := of_decide_eq_true (Bool.and_eq_true_iff.mp hWhere).1
  exact ⟨db, hKnown, f, Table.get_of_mem hRow, hId ▸ hBatch⟩

theorem grounded_makeRoom {batch : ConversionBatch} {claimed : List ClaimedFile}
    (hSame : p.change = id) :
    (makeRoom batch snapshot claimed).Grounded (grounds services) call
      (fun known' tx _ => Within known batch.subject known' tx) known (some p) := by
  have hStart {known' : Database → Prop} {progress : Progress conversion}
    (h : progress.change = id) :
      Confined (OwnFile known' batch.subject) (OwnBatch known' batch.subject) batch.subject
        progress.change := h ▸ confined_id
  unfold makeRoom
  split
  swap
  · exact ⟨fun _ hDb => hDb, p, rfl, hStart hSame⟩
  unfold evictForIncoming
  intro v
  dsimp only [bind_done, bind_eq]
  split
  swap
  · exact ⟨fun _ => .inl, _, rfl, hStart (Progress.ran_read hSame)⟩
  intro v₁ v₂
  -- the candidates are read before the first write, so the rows they are in have been committed
  have hSame₂ : ((p.ran .storageUsed id v).ran .lockSubjectBatches id v₁).change = id :=
    Progress.ran_read (Progress.ran_read hSame)
  refine (within_of_only (hStart (Progress.ran_read hSame₂)) ?_).mono fun known' tx _ hEnd =>
    hEnd.trans fun db hDb => .inl (.inl (.inl hDb))
  refine Only.check.bind fun _ => Only.bind (only_updateFiles fun v₃ f hWhere => ?_) fun _ =>
    Only.forEach fun batchId hMem =>
    Only.bind (only_rollUpBatch ?_) fun _ => trivial
  · obtain ⟨c, hC, hId⟩ := List.mem_map.mp (of_decide_eq_true hWhere)
    exact hId ▸ (own_of_evictable (.inr ⟨hSame₂, rfl⟩)
      (List.IsPrefix.subset evictWhile_prefix hC)).1
  · obtain ⟨c, hC, rfl⟩ := List.mem_map.mp (List.mem_eraseDups.mp hMem)
    exact (own_of_evictable (.inr ⟨hSame₂, rfl⟩) (List.IsPrefix.subset evictWhile_prefix hC)).2

theorem grounded_claimReadyFiles {batch : ConversionBatch} {retention : ConversionRetentionClass}
    (hSame : p.change = id) (hCall : call.admission = some (batch.id, ownership, snapshot))
    (hSubject : batch.subject = ownership.subject)
    (hAuthorised : Authorised services known batch.id ownership) :
    (claimReadyFiles services batch snapshot retention).Grounded (grounds services) call
      (fun known tx _ => ∀ p, tx = some p → grounds services call known p ∧ True) known
        (some p) := by
  have hWithin {known' : Database → Prop} {tx : Option (Progress conversion)}
    (hEnd : Within known batch.subject known' tx) :
      ∀ p, tx = some p → grounds services call known' p ∧ True := by
    obtain ⟨hKnown, progress, rfl, hConfined⟩ := hEnd
    intro p hTx
    cases hTx
    exact ⟨fair_of_confined hCall (hAuthorised.mono hKnown) (hSubject ▸ hConfined), trivial⟩
  unfold claimReadyFiles lockBatches
  intro v v₁
  have hSame₁ : (p.ran .lockBatch id v).change = id := Progress.ran_read hSame
  have hSame₂ : ((p.ran .lockBatch id v).ran .claimReady id v₁).change = id :=
    Progress.ran_read hSame₁
  dsimp only [bind_done, bind_eq]
  split
  · intro v₂
    dsimp only [bind_done, bind_eq]
    split
    · intro progress hProgress
      cases hProgress
      exact ⟨fair_of_id (Progress.ran_read hSame₂), trivial⟩
    · trivial
  have hChecks : (Script.forEach (requireAdmissible snapshot.maxFileBytes)
    ((v₁.db.readyFiles batch.id).map ConversionFile.claimed)).Only
      (· = (id : Database → Database)) := Only.forEach fun _ _ =>
        Only.check.bind fun _ => Only.check
  refine Grounded.bind
    ((Grounded.of_only (fun _ _ hf hg => by rw [hf, hg]; rfl) hChecks hSame₂).mono ?_)
  rintro known₃ _ _ ⟨hKnown₃, p₃, rfl, hSame₃⟩
  refine Grounded.bind ((grounded_makeRoom hSame₃).mono ?_)
  rintro known₄ _ _ ⟨hKnown₄, p₄, rfl, hConfined⟩
  have hLater : ∀ db, known db → known₄ db := fun db hDb =>
    hKnown₄ db (hKnown₃ db (.inl (.inl hDb)))
  have hBatch : OwnBatch known₄ batch.subject batch.id :=
    hSubject ▸ (hAuthorised.mono hLater).ownBatch
  have hClaimed : ∀ c ∈ (v₁.db.readyFiles batch.id).map ConversionFile.claimed,
    OwnFile known₄ batch.subject c.id :=
    fun c => ownFile_of_ready (hKnown₄ _ (hKnown₃ _ (.inr ⟨hSame₁, rfl⟩))) hBatch
  have hRest : (do
      chargeDailyUsage batch snapshot ((v₁.db.readyFiles batch.id).map ConversionFile.claimed)
      queueClaimed services batch snapshot retention
        ((v₁.db.readyFiles batch.id).map ConversionFile.claimed)).Only
      (Confined (OwnFile known₄ batch.subject) (OwnBatch known₄ batch.subject) batch.subject) :=
    only_chargeDailyUsage.bind fun _ => only_queueClaimed hClaimed hBatch
  exact (within_of_only hConfined hRest).mono fun known₅ tx _ hEnd => hWithin (hEnd.trans hLater)

theorem grounded_admitClaimed {batch : ConversionBatch} {retention : ConversionRetentionClass}
    {t : Nat} (hCall : call.admission = some (batch.id, ownership, snapshot))
    (hSubject : batch.subject = ownership.subject)
    (hAuthorised : Authorised services known batch.id ownership) :
    (admitClaimed services batch snapshot retention).Grounded (grounds services) call
      (fun known tx _ => ∀ p, tx = some p → grounds services call known p ∧ True) known
        (some ⟨t, [], id⟩) := by
  unfold admitClaimed
  split
  · exact fun v => grounded_claimReadyFiles rfl hCall hSubject (hAuthorised.mono fun _ => .inl)
  · exact grounded_claimReadyFiles rfl hCall hSubject hAuthorised

/-- Nothing is open, and nothing has been forgotten. -/
def Closed (known₀ known : Database → Prop) (tx : Option (Progress conversion)) : Prop :=
  tx = none ∧ ∀ db, known₀ db → known db

theorem grounded_assertOwnership {batch : ConversionBatch} {code : AdmissionErrorCode} :
    (assertOwnership services batch ownership code).Grounded (grounds services) call
      (fun known' tx _ => Closed known known' tx ∧ batch.subject = ownership.subject ∧
        Presents services ownership.batchToken batch)
      known none := by
  by_cases hSubject : batch.subject = ownership.subject
  · rcases assertOwnership_cases services code hSubject with ⟨hDone, hPresents⟩ | hFail
    · rw [hDone]
      exact ⟨⟨rfl, fun _ hDb => hDb⟩, hSubject, hPresents⟩
    · rw [hFail]
      trivial
  · unfold assertOwnership require
    rw [if_neg hSubject]
    trivial

theorem grounded_admitReadyFiles (hCall : call.admission = some (batchId, ownership, snapshot)) :
    (admitReadyFiles services batchId ownership snapshot).Grounded (grounds services) call
      (fun _ _ _ => True) known none := by
  unfold admitReadyFiles
  split
  · trivial
  refine fun v t => ⟨fair_of_id rfl, ?_⟩
  dsimp only [bind_done, bind_eq]
  split
  · trivial
  next batch hFound =>
  have hId : batch.id = batchId := Table.key_of_get hFound
  subst hId
  refine Grounded.bind (grounded_assertOwnership.mono ?_)
  rintro known₁ _ _ ⟨⟨rfl, hKnown₁⟩, hSubject, hPresents⟩
  refine Grounded.bind (Grounded.check fun _ => Grounded.bind fun now _ =>
    Grounded.bind (Grounded.check fun _ => ?_))
  refine Grounded.transaction (fun _ => trivial) fun t => grounded_admitClaimed hCall hSubject ?_
  exact ⟨v.db, hKnown₁ _ (.inr rfl), batch, hFound, hSubject, hPresents⟩

theorem grounded_getOwnedBatch :
    (getOwnedBatch services batchId ownership).Grounded (grounds services) call
      (fun known' tx _ => Closed known known' tx ∧
      Authorised services known' batchId ownership) known none := by
  unfold getOwnedBatch
  refine fun v t => ⟨fair_of_id rfl, ?_⟩
  dsimp only [bind_done, bind_eq]
  split
  · trivial
  next batch files hFound =>
  obtain ⟨_, hRow, hSame⟩ := Option.map_eq_some_iff.mp hFound
  cases hSame
  refine Grounded.bind (grounded_assertOwnership.mono ?_)
  rintro known₁ _ _ ⟨⟨rfl, hKnown₁⟩, hSubject, hPresents⟩
  exact ⟨⟨rfl, fun db hDb => hKnown₁ db (.inl hDb)⟩, v.db, hKnown₁ _ (.inr rfl), _, hRow,
    hSubject, hPresents⟩

theorem grounded_verifyUploads {unanswered verified : Nat} {pending : List ConversionFile}
    {failure : Option Failure} (hCall : call.admission = some (batchId, ownership, snapshot))
    (hAuthorised : Authorised services known batchId ownership)
    (hPending : ∀ f ∈ pending, OwnFile known ownership.subject f.id) :
    (verifyUploads unanswered pending verified failure).Grounded (grounds services) call
      (fun known' tx _ => Closed known known' tx)
      known none := by
  induction unanswered generalizing known pending verified failure with
  | zero =>
    cases failure with
    | none => exact ⟨rfl, fun _ hDb => hDb⟩
    | some error => trivial
  | succ unanswered ih =>
    have hLeft {fileId : Uuid} : ∀ f ∈ pending.filter (·.id ≠ fileId),
      OwnFile known ownership.subject f.id :=
      fun f hF => hPending f (List.mem_of_mem_filter hF)
    rintro reply ⟨outside, outside', hReply⟩
    cases reply with
    | headOf fileId answer =>
      cases answer with
      | none => exact ih hAuthorised hLeft
      | some found =>
        cases found with
        | none => exact ih hAuthorised hLeft
        | some stored =>
          -- an answer is about a file that has been asked for
          have hAsked : fileId ∈ pending.map ConversionFile.id := by
            unfold answersHead at hReply
            by_contra hOther
            simp [hOther] at hReply
          obtain ⟨f, hF, rfl⟩ := List.mem_map.mp hAsked
          refine fun v t =>
            ⟨fair_of_confined hCall (hAuthorised.mono fun _ => .inl)
            (confined_changeFiles fun id hId => ?_), ?_⟩
          · obtain ⟨row, hRow, rfl⟩ := List.mem_map.mp hId
            have hWhere := (Table.mem_select.mp hRow).2
            rw [of_decide_eq_true (Bool.and_eq_true_iff.mp hWhere).1]
            exact (hPending f hF).mono fun _ => .inl
          · refine (ih (hAuthorised.mono fun _ => .inl) fun f hF => (hLeft f hF).mono
              fun _ => .inl).mono ?_
            exact fun _ _ _ hEnd => ⟨hEnd.1, fun db hDb => hEnd.2 db (.inl hDb)⟩
    | _ => trivial

theorem grounded_completeUploads (hCall : call.admission = some (batchId, ownership, snapshot)) :
    (completeUploads services batchId ownership snapshot).Grounded (grounds services) call
      (fun _ _ _ => True) known none := by
  refine Grounded.bind (grounded_getOwnedBatch.mono ?_)
  rintro known₁ _ _ ⟨⟨rfl, _⟩, hAuthorised⟩
  refine fun v t => ⟨fair_of_id rfl, ?_⟩
  dsimp only [bind_done, bind_eq]
  refine Grounded.bind
    ((grounded_verifyUploads hCall (hAuthorised.mono fun db hDb => .inl hDb) ?_).mono ?_)
  · intro f hF
    obtain ⟨hRow, hWhere⟩ := Table.mem_select.mp hF
    refine ⟨v.db, .inr rfl, f, Table.get_of_mem hRow, ?_⟩
    rw [of_decide_eq_true (Bool.and_eq_true_iff.mp hWhere).1]
    exact hAuthorised.ownBatch.mono fun _ => .inl
  · rintro known₂ _ _ ⟨rfl, _⟩
    exact Grounded.bind ((grounded_admitReadyFiles hCall).mono fun _ _ _ _ => trivial)

end Admission

/-! ## The system -/

theorem only_createBatch {input : CreateBatchInput} {snapshot : EntitlementSnapshot} {drawn : Drawn}
    {files batches : Uuid → Prop} :
    (createBatch services input snapshot drawn).Only (Confined files batches input.subject) := by
  unfold createBatch
  refine Only.check.bind fun _ => ?_
  unfold planCodeFor
  split
  swap
  · trivial
  refine fun v => ⟨confined_if confined_insertBatch, ?_⟩
  dsimp only [bind_done, bind_eq]
  split
  · trivial
  · refine fun v₁ => ⟨confined_id, ?_⟩
    dsimp only [bind_done, bind_eq]
    split
    · trivial
    · refine Only.bind ?_ fun _ => Only.check.bind fun _ => trivial
      unfold assertOwnership
      refine Only.check.bind fun _ => ?_
      split
      · trivial
      · trivial
      · split
        · trivial
        · trivial
        · exact Only.check
  · trivial

/-- A client's call that admits nothing may add rows and change the usage of its subject. -/
theorem grounded_of_only {α : Type} {script : Script conversion α}
    (hClient : clientOf call = some subject) (hAdmission : call.admission = none)
    (h : script.Only (Confined (fun _ => False) (fun _ => False) subject)) :
    script.Grounded (grounds services) call (fun _ _ _ => True) known none := by
  have hWrites : script.Writes (Confined (fun _ => False) (fun _ => False) subject) fun _ =>
    True := h.writes
  refine (Grounded.of_writes confined_id (fun _ _ hf hg => hf.comp hg)
    (fun known' progress _ hConfined => ?_) hWrites
    fun _ hNo => by cases hNo).mono fun _ _ _ _ => trivial
  constructor
  case confined =>
    intro other hOther
    cases hClient.symm.trans hOther
    exact hConfined.mono (fun _ hNo => hNo.elim) fun _ hNo => hNo.elim
  case authorised =>
    intro batchId ownership snapshot hSome
    cases hAdmission.symm.trans hSome

theorem fair_of_inner (hClient : clientOf call = none) (hAdmission : call.admission = none) :
    Fair services call known p where
  confined _ hSome := by cases hClient.symm.trans hSome
  authorised _ _ _ hSome := by cases hAdmission.symm.trans hSome

theorem grounded_system : (grounds services).KeptBy (system services) := by
  have hInner {script : Script conversion Outcome} {call : Call} (hClient : clientOf call = none)
    (hAdmission : call.admission = none) :
      script.Grounded (grounds services) call (fun _ _ _ => True) (fun _ => False) none :=
    Grounded.of_always fun _ _ => fair_of_inner hClient hAdmission
  intro call s ext script hProgram
  cases call with
  | createBatch input snapshot drawn =>
    unfold system at hProgram
    dsimp only at hProgram
    split at hProgram
    · cases hProgram
      exact Grounded.bind ((grounded_of_only rfl rfl only_createBatch).mono fun _ _ _ _ => trivial)
    · cases hProgram
  | remainingToday subject dailyFiles =>
    cases hProgram
    exact Grounded.bind ((grounded_of_only rfl rfl (Only.query confined_id)).mono fun _ _ _ _ =>
      trivial)
  | completeUploads batchId ownership snapshot =>
    cases hProgram
    exact Grounded.bind ((grounded_completeUploads rfl).mono fun _ _ _ _ => trivial)
  | admitReadyFiles batchId ownership snapshot =>
    cases hProgram
    exact Grounded.bind ((grounded_admitReadyFiles rfl).mono fun _ _ _ _ => trivial)
  | _ => exact hInner rfl rfl

end Pixaeron.Conversion.Tenants
