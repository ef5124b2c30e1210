import Mathlib.Data.Prod.Lex
import Mathlib.Data.String.Basic
import Pixaeron.Conversion.BatchRollup
import Pixaeron.Paging.Pages

/-! # Listing batches and files

The lists of a subject's conversions are read a page at a time. Each query names an order, and
the database gives rows that the order leaves tied in any way it likes, on every query anew:
the answer of each query is a parameter here.
-/

namespace Pixaeron.Conversion

open Transactions Paging

def receivedFileStatuses : List ConversionFileStatus := liveFileStatuses.filter (· ≠ .uploading)

namespace Database

def receivedFiles (db : Database) (b : ConversionBatch) : List ConversionFile :=
  (db.filesOf b.id).filter (·.status ∈ receivedFileStatuses)

def listedBatches (db : Database) (subject : String) : List ConversionBatch :=
  db.batches.select fun b => b.subject = subject ∧ db.receivedFiles b ≠ []

def listedFiles (db : Database) (subject : String) : List ConversionFile :=
  db.files.select fun f => f.status ∈ receivedFileStatuses ∧ db.subjectOf f = some subject

theorem nodup_listedBatches {db : Database} {subject : String} : (db.listedBatches subject).Nodup :=
  (List.Nodup.of_map _ db.batches.nodup).filter _

theorem nodup_listedFiles {db : Database} {subject : String} : (db.listedFiles subject).Nodup :=
  (List.Nodup.of_map _ db.files.nodup).filter _

end Database

/-- The order of `listBatches`: the newest first. -/
def batchOrder (b : ConversionBatch) : ℕᵒᵈ := OrderDual.toDual b.createdAt

/-- The order of `listFiles`: the newest first, and then the greatest identifier. `createdAt` is the
column that has a file's creation time. -/
def fileOrder (createdAt : Uuid → Nat) (f : ConversionFile) : ℕᵒᵈ ×ₗ Stringᵒᵈ :=
  toLex (OrderDual.toDual (createdAt f.id), OrderDual.toDual f.id.text)

structure ListPage (α : Type) where
  items : List α
  total : Nat

structure ListedBatch where
  batch : ConversionBatch
  files : List ConversionFile

def listBatches (db : Database) (subject : String) (limit offset : Nat)
    (answer : List ConversionBatch) : ListPage ListedBatch where
  items := ((answer.drop offset).take limit).map fun b =>
    ⟨b, orderBy (fun f g => f.id.text ≤ g.id.text) (db.receivedFiles b)⟩
  total := (db.listedBatches subject).length

def listFiles (db : Database) (subject : String) (limit offset : Nat)
    (answer : List ConversionFile) : ListPage ConversionFile where
  items := (answer.drop offset).take limit
  total := (db.listedFiles subject).length

def defaultPageSize : Int := 20

def maxPageSize : Int := 50

/-- The limit and the offset that the resolver asks for. -/
def pageWindow (limit offset : Option Int) : Nat × Nat :=
  ((min (max (limit.getD defaultPageSize) 1) maxPageSize).toNat, (max (offset.getD 0) 0).toNat)

theorem pageWindow_limit {limit offset : Option Int} :
    0 < (pageWindow limit offset).1 ∧ (pageWindow limit offset).1 ≤ 50 := by
  simp only [pageWindow, maxPageSize]
  omega

/-- The batches on successive pages, until the total is reached. -/
def readBatches (db : Database) (subject : String) (size : Nat)
    (answers : Nat → List ConversionBatch) : List ConversionBatch :=
  (List.range (pageCount size (listBatches db subject size 0 (answers 0)).total)).flatMap fun k =>
    (listBatches db subject size (k * size) (answers k)).items.map ListedBatch.batch

/-- The files on successive pages, until the total is reached. -/
def readFiles (db : Database) (subject : String) (size : Nat)
    (answers : Nat → List ConversionFile) : List ConversionFile :=
  (List.range (pageCount size (listFiles db subject size 0 (answers 0)).total)).flatMap fun k =>
    (listFiles db subject size (k * size) (answers k)).items

section

variable {db : Database} {subject : String} {size : Nat}

theorem readBatches_eq {answers : Nat → List ConversionBatch} :
    readBatches db subject size answers =
      readPages size (db.listedBatches subject).length answers := by
  simp only [readBatches, readPages, listBatches, List.map_map, page]
  refine List.flatMap_congr fun k _ => ?_
  exact List.map_id _

theorem readFiles_eq {answers : Nat → List ConversionFile} :
    readFiles db subject size answers = readPages size (db.listedFiles subject).length answers :=
  rfl

/-- The order of `listFiles` leaves no two files tied. -/
theorem fileOrder_injective {createdAt : Uuid → Nat} :
    ∀ f ∈ db.listedFiles subject, ∀ g ∈ db.listedFiles subject,
      fileOrder createdAt f = fileOrder createdAt g → f = g := by
  intro f hf g hg hSame
  have hText : f.id.text = g.id.text :=
    congrArg (fun pair : ℕᵒᵈ ×ₗ Stringᵒᵈ => OrderDual.ofDual (ofLex pair).2) hSame
  have hId : f.id = g.id := by
    rcases f with ⟨⟨_, _, _⟩⟩
    rcases g with ⟨⟨_, _, _⟩⟩
    simp only at hText ⊢
    subst hText
    rfl
  exact List.inj_on_of_nodup_map db.files.nodup (List.mem_filter.mp hf).1
    (List.mem_filter.mp hg).1 hId

theorem readFiles_perm {createdAt : Uuid → Nat} (hSize : 0 < size)
    {answers : Nat → List ConversionFile}
    (h : ∀ k, Arrangement (fileOrder createdAt) (db.listedFiles subject) (answers k)) :
    (readFiles db subject size answers).Perm (db.listedFiles subject) := by
  rw [readFiles_eq]
  exact readPages_perm hSize (wholeGroups_of_injective Database.nodup_listedFiles
    fileOrder_injective) h

/-- Reading page after page gives every listed file once. It gives every listed batch once, however
the database orders batches of one creation time, exactly when no page ends between two of them. -/
theorem pages_read_once_iff (hSize : 0 < size) (createdAt : Uuid → Nat) :
    ((∀ answers : Nat → List ConversionBatch,
      (∀ k, Arrangement batchOrder (db.listedBatches subject) (answers k)) →
        (readBatches db subject size answers).Perm (db.listedBatches subject)) ∧
      ∀ answers : Nat → List ConversionFile,
        (∀ k, Arrangement (fileOrder createdAt) (db.listedFiles subject) (answers k)) →
        (readFiles db subject size answers).Perm (db.listedFiles subject)) ↔
      WholeGroups batchOrder (db.listedBatches subject) size := by
  rw [← readPages_perm_iff hSize Database.nodup_listedBatches]
  constructor
  · rintro ⟨hBatches, -⟩ answers h
    rw [← readBatches_eq]
    exact hBatches answers h
  · intro hPages
    constructor
    · intro answers h
      rw [readBatches_eq]
      exact hPages answers h
    · exact fun answers h => readFiles_perm hSize h

end

section

/-! Two batches created in the same millisecond, read one at a time. -/

def firstId : Uuid := ⟨"first", by decide, by decide⟩

def secondId : Uuid := ⟨"second", by decide, by decide⟩

def tiedBatch (id : Uuid) : ConversionBatch :=
  { id, subject := "user:1", batchTokenHash := none, idempotencyKey := id.text, planCode := .free,
    planRevision := 1,
    mode := .lossy, strength := .low, status := .queued, fileCount := 1, createdAt := 1000,
      expiresAt := 90000 }

def tiedFile (id : Uuid) : ConversionFile :=
  { id, batchId := id, status := .queued, inputObjectKey := id.text, inputEtag := some "e",
    outputObjectKey := none,
    previewObjectKey := none, inputFormat := none, outputFormat := none, inputBytes :=
      some 10, outputBytes := none,
    outputChecksum := none, resultKind := none, width := none, height := none, frameCount :=
      none, attempt := 0,
    failureCode := none, startedAt := none, completedAt := none, expiresAt := 90000 }

def tiedDatabase : Database :=
  { Database.initial with
    batches := ⟨[tiedBatch firstId, tiedBatch secondId], by decide⟩
    files := ⟨[tiedFile firstId, tiedFile secondId], by decide⟩ }

/-- The second page comes from an answer with the batches the other way round, so the first batch is
read twice and the second is not read at all. -/
theorem tied_batches_read_twice :
    ¬ ∀ (db : Database) (subject : String) (size : Nat), 0 < size →
      ∀ answers : Nat → List ConversionBatch,
        (∀ k, Arrangement batchOrder (db.listedBatches subject) (answers k)) →
        (readBatches db subject size answers).Perm (db.listedBatches subject) := by
  intro hAll
  have hListed : tiedDatabase.listedBatches "user:1" = [tiedBatch firstId, tiedBatch secondId] := by
    decide
  have hPerm := hAll tiedDatabase "user:1" 1 (by decide)
    (fun k => if k = 0 then [tiedBatch firstId, tiedBatch secondId]
      else [tiedBatch secondId, tiedBatch firstId]) ?_
  · have hRead : readBatches tiedDatabase "user:1" 1 (fun k =>
        if k = 0 then [tiedBatch firstId, tiedBatch secondId]
          else [tiedBatch secondId, tiedBatch firstId]) =
        [tiedBatch firstId, tiedBatch firstId] := by decide
    rw [hRead, hListed] at hPerm
    have hMissing :=
      hPerm.mem_iff.mpr (List.mem_cons_of_mem _ (List.mem_singleton_self (tiedBatch secondId)))
    revert hMissing
    decide
  · intro k
    rw [hListed]
    split
    · exact ⟨List.Perm.refl _, by decide⟩
    · exact ⟨List.Perm.swap _ _ _, by decide⟩

/-- A page that holds both is not affected. -/
theorem pages_read_once_witness :
    (pageWindow (some 2) none).1 = 2 ∧ ∀ answers : Nat → List ConversionBatch,
    (∀ k, Arrangement batchOrder (tiedDatabase.listedBatches "user:1") (answers k)) →
    (readBatches tiedDatabase "user:1" (pageWindow (some 2) none).1 answers).Perm
      (tiedDatabase.listedBatches "user:1") := by
  have hSize : (pageWindow (some 2) none).1 = 2 := by decide
  have hTwo : (tiedDatabase.listedBatches "user:1").length = 2 := by decide
  refine ⟨hSize,
    ((pages_read_once_iff pageWindow_limit.1 fun _ => 1000).2 fun k row _ hInside => ?_).1⟩
  have hCount :=
    List.countP_le_length (p := fun a => batchOrder a ≤ batchOrder row)
      (l := tiedDatabase.listedBatches "user:1")
  rw [hSize] at hInside
  omega

end

end Pixaeron.Conversion
