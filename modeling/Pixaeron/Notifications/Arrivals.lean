import Mathlib.Data.Fintype.EquivFin
import Pixaeron.Notifications.Mailboxes

/-! # Feedback arriving one by one

Events about deliveries of which some or none have had feedback yet: each is applied once, and a
redelivery changes nothing.
-/

namespace Pixaeron.Notifications

open Transactions Transactions.Script

/-- One message of the provider, when it is processed and with the identifiers drawn for it. -/
structure Arrival where
  now : Nat
  feedback : SesFeedback
  drawn : DrawnFeedback

/-- The rows after a message has been processed, whatever the answer. -/
def receive (services : Services) (ring : KeyRing) (db : Database) (a : Arrival) : Database :=
  match (processFeedback services ring a.feedback a.drawn).alone a.now db with
  | some (_, db') => db'
  | none => db

/-- The rows after messages have been processed one after the other. -/
def receiveAll (services : Services) (ring : KeyRing) (db : Database)
    (arrivals : List Arrival) : Database :=
  arrivals.foldl (receive services ring) db

/-- What feedback decides about a delivery. -/
structure DeliveryRegister where
  status : EmailDeliveryStatus
  failureCode : Option String
  lastEvent : Option EventRevision
deriving DecidableEq

def EmailDelivery.register (d : EmailDelivery) : DeliveryRegister :=
  ⟨d.status, d.failureCode, d.lastEvent⟩

/-- The effect of one event on a delivery's register. -/
def DeliveryRegister.step (r : DeliveryRegister) (event : SesEvent)
    (revision : EventRevision) : DeliveryRegister :=
  if (if event.isTerminalMailboxEvent then r.status ∉ terminalDeliveryStatuses ∨
    newerEventFilters revision r.lastEvent = true
    else r.status ∉ terminalDeliveryStatuses ∧ newerEventFilters revision r.lastEvent = true) then
    ⟨event.deliveryStatus, event.deliveryFailureCode, some revision⟩
  else r

theorem AppliedFeedback.register_deliveryRow {applied : AppliedFeedback} {now : Nat}
    {d : EmailDelivery} :
    (applied.deliveryRow now d).register =
      d.register.step applied.feedback.event applied.revision := by
  have hSame : (acceptedRow now (applied.submittedRow d)).register = d.register := by
    unfold acceptedRow submittedRow
    split <;> split <;> rfl
  rw [← hSame]
  unfold deliveryRow
  generalize acceptedRow now (applied.submittedRow d) = d'
  unfold statusRow changesStatus DeliveryRegister.step EmailDelivery.register
  cases applied.feedback.event.isTerminalMailboxEvent
  · simp only [Bool.false_eq_true, if_false, Bool.and_eq_true, decide_eq_true_eq]
    split <;> rfl
  · simp only [if_true, Bool.or_eq_true, decide_eq_true_eq]
    split <;> rfl

theorem AppliedFeedback.deliveryRow_kept (applied : AppliedFeedback) (now : Nat)
    (d : EmailDelivery) :
    (applied.deliveryRow now d).id = d.id ∧ (applied.deliveryRow now d).requestId = d.requestId ∧
      (applied.deliveryRow now d).recipientHash = d.recipientHash ∧
      (applied.deliveryRow now d).providerMessageId = d.providerMessageId := by
  unfold deliveryRow statusRow acceptedRow submittedRow
  split <;> split <;> split <;> exact ⟨rfl, rfl, rfl, rfl⟩

section

variable (services : Services) (ring : KeyRing)

/-- The feedback is about a delivery: it names the request or the message, and the recipient. -/
structure Concerns (d : EmailDelivery) (f : SesFeedback) : Prop where
  request : (f.requestId = some d.requestId ∧ services.isUUID d.requestId = true) ∨
    (f.requestId = none ∧ d.providerMessageId = some f.sesMessageId)
  message : d.providerMessageId = none ∨ d.providerMessageId = some f.sesMessageId
  recipient : d.recipientHash ∈ services.createLookupHashes ring f.recipient
  hashed : d.recipientHash.value ≠ ""

/-- The fingerprint under which feedback about `d` is stored. -/
def fingerprintOf (d : EmailDelivery) (f : SesFeedback) : String :=
  createSesFeedbackFingerprint services f d.recipientHash.value

/-- Events about deliveries that have not been stored yet. `target` gives the delivery of each, as
it is in `db`. Two with one fingerprint are the same event in two SNS messages. -/
structure Pending (db : Database) (target : SesFeedback → EmailDelivery)
    (events : SesFeedback → Prop) : Prop where
  found : ∀ f, events f → db.deliveries.get (target f).requestId = some (target f)
  concerns : ∀ f, events f → Concerns services ring (target f) f
  messages : ∀ f g, events f → events g →
    (f.sesMessageId = g.sesMessageId ↔ (target f).requestId = (target g).requestId)
  own : ∀ f, events f → ∀ d ∈ db.deliveries.rows, d.providerMessageId = some f.sesMessageId →
    d.requestId = (target f).requestId
  same : ∀ f g, events f → events g →
    fingerprintOf services (target f) f = fingerprintOf services (target g) g →
    g = { f with snsMessageId := g.snsMessageId }
  sns : ∀ f g, events f → events g → f.snsMessageId = g.snsMessageId →
    fingerprintOf services (target f) f = fingerprintOf services (target g) g
  unstored : ∀ f, events f → ∀ e ∈ db.events.rows,
    e.snsMessageId ≠ f.snsMessageId ∧ e.semanticFingerprint ≠ fingerprintOf services (target f) f

end

/-! ## The statements of `persist` -/

section Runs

variable {services : Services} {ring : KeyRing} {now : Nat} {db db' : Database} {f g : SesFeedback}
  {d : EmailDelivery}
  {hashes : List RecipientHash} {target : SesFeedback → EmailDelivery} {events : SesFeedback → Prop}
    {seen : List SesFeedback}

theorem runs_findDelivery
    (hRequest : (f.requestId = some d.requestId ∧ services.isUUID d.requestId = true ∧
      db.deliveries.get d.requestId = some d) ∨ (f.requestId = none ∧
      db.deliveryByMessage f.sesMessageId = some d))
      (hMessage : ∀ d', db.deliveryByMessage f.sesMessageId = some d' → d' = d)
      (hMatch : deliveryMatches f hashes d = true) :
    Runs now (findDelivery services f hashes) db d db := by
  unfold findDelivery
  refine Runs.bind Runs.query ?_
  rcases hRequest with ⟨hSome, hValid, hGet⟩ | ⟨hNone, hFound⟩
  · have hById : Runs now (query (V := notifications) .findByRequestId
      fun v => f.requestId.bind v.db.deliveries.get) db
        (f.requestId.bind db.deliveries.get) db := Runs.query
    rw [hSome, Option.bind_some, hGet] at hById
    simp only [hSome, Option.any_some, hValid, Option.bind_some, if_true]
    refine Runs.bind hById ?_
    refine Runs.bind (runs_require (by simp)) (Runs.bind (runs_require ?_) ?_)
    · intro d' hd' d'' hd''
      cases Option.mem_def.mp hd''
      rw [hMessage d' (Option.mem_def.mp hd')]
    · have hOr : (db.deliveryByMessage f.sesMessageId).or (some d) = some d := by
        cases hBy : db.deliveryByMessage f.sesMessageId with
        | none => rfl
        | some d' => rw [hMessage d' hBy, Option.some_or]
      dsimp only [viewAlone]
      rw [hOr]
      exact Runs.bind (runs_require hMatch) Runs.done
  · have hIsValid : f.requestId.any services.isUUID = false := by simp [hNone]
    rw [hIsValid]
    simp only [Bool.false_eq_true, if_false]
    refine Runs.bind Runs.done ?_
    refine Runs.bind (runs_require (by simp [hNone])) (Runs.bind (runs_require (by simp)) ?_)
    dsimp only [viewAlone]
    rw [hFound, Option.some_or]
    exact Runs.bind (runs_require hMatch) Runs.done

/-- The rows after `attachProviderMessageId`. -/
def Database.attach (db : Database) (d : EmailDelivery) (messageId : String) : Database :=
  if d.providerMessageId = some messageId then db else
    db.updateDeliveries (fun d' =>
      d.is d' && (d'.providerMessageId = none || d'.providerMessageId = some messageId))
      (EmailDelivery.setProviderMessageId messageId)

theorem select_is (hGet : db.deliveries.get d.requestId = some d) {q : EmailDelivery → Bool}
    (hq : q d = true) :
    (db.deliveries.select fun d' => d.is d' && q d') = [d] := by
  refine Table.select_eq_singleton (k := d.requestId) ?_ fun d' hd' => ?_
  · exact Table.mem_select.mpr ⟨Table.mem_of_get hGet, by simp [EmailDelivery.is, hq]⟩
  · obtain ⟨hMem, hBoth⟩ := Table.mem_select.mp hd'
    simp only [EmailDelivery.is, Bool.and_eq_true, decide_eq_true_eq] at hBoth
    exact Table.get_eq_some_iff.mpr ⟨hMem, hBoth.1.1⟩

theorem runs_attach {messageId : String} (hGet : db.deliveries.get d.requestId = some d)
    (hMessage : d.providerMessageId = none ∨ d.providerMessageId = some messageId)
    (hOwn : ∀ d' ∈ db.deliveries.rows, d'.providerMessageId = some messageId →
      d'.requestId = d.requestId) :
    Runs now (attachProviderMessageId d messageId) db () (db.attach d messageId) := by
  unfold attachProviderMessageId Database.attach
  split
  · exact Runs.done
  · have hSelect :=
      select_is hGet (q := fun d' =>
        d'.providerMessageId = none || d'.providerMessageId = some messageId)
      (by rcases hMessage with h | h <;> simp [h])
    have hFree : db.messageTaken d.requestId messageId = false := by
      cases hTaken : db.messageTaken d.requestId messageId with
      | false => rfl
      | true =>
        obtain ⟨d', hd', hBoth⟩ := List.any_eq_true.mp hTaken
        simp only [Bool.and_eq_true, decide_eq_true_eq] at hBoth
        exact absurd (hOwn d' hd' hBoth.2) hBoth.1
    refine Runs.bind (a := 1) ?_ (runs_require rfl)
    refine Runs.bind Runs.change ?_
    unfold Database.updateDeliveries
    simp only [viewAlone, hFree, hSelect, Bool.false_eq_true, if_false]
    exact Runs.bind (runs_require (by simp)) Runs.done

theorem runs_createEvent {fingerprint eventId : String}
    (h : ¬db.refusesEvent eventId f.snsMessageId fingerprint) :
    Runs now (createEvent f d fingerprint eventId) db ()
      (db.insertEvent (newEvent f d fingerprint eventId now)) := by
  refine Runs.bind Runs.change ?_
  simp only [viewAlone, h, if_false, decide_false]
  exact runs_require trivial

theorem runs_persist_new {drawn : DrawnFeedback} {k : RecipientHash}
    (hFind : Runs now (findDelivery services f hashes) db d db)
    (hAttach : Runs now (attachProviderMessageId d f.sesMessageId) db ()
      (db.attach d f.sesMessageId)) (hHashed : d.recipientHash.value ≠ "")
    (hNew : (db.attach d f.sesMessageId).eventOf f.snsMessageId (fingerprintOf services d f) = none)
    (hDrawn : drawn.eventId ∉ (db.attach d f.sesMessageId).issuedEvents) (hNodup : hashes.Nodup)
    (hk : k ∈ hashes) :
    Runs now (persist services f hashes drawn) db .processed
      (AppliedFeedback.afterDestination ⟨f, d, drawn.eventId,
        createEventRevision f (fingerprintOf services d f), drawn.destinationId⟩
        hashes (AppliedFeedback.afterDelivery
          ⟨f, d, drawn.eventId, createEventRevision f (fingerprintOf services d f),
            drawn.destinationId⟩ now
          ((db.attach d f.sesMessageId).insertEvent
            (newEvent f d (fingerprintOf services d f) drawn.eventId now)))) := by
  refine Runs.bind hFind (Runs.bind hAttach
    (Runs.bind (runs_require hHashed) (Runs.bind Runs.query ?_)))
  have hNone : (db.attach d f.sesMessageId).eventOf f.snsMessageId
      (createSesFeedbackFingerprint services f d.recipientHash.value) = none := hNew
  simp only [viewAlone, hNone]
  refine Runs.bind (runs_createEvent ?_) (Runs.bind (a := ()) ?_ Runs.done)
  · rintro (hIssued | hStored)
    · exact hDrawn hIssued
    · rw [hNone] at hStored
      cases hStored
  · unfold AppliedFeedback.transitions
    simp only [bind_eq]
    rw [← bind_assoc]
    exact Runs.bind (AppliedFeedback.runs_delivery _) (AppliedFeedback.runs_destination hNodup hk)

theorem runs_persist_again (drawn : DrawnFeedback) {e : EmailDeliveryEvent}
    (hFind : Runs now (findDelivery services f hashes) db d db)
    (hAttach : Runs now (attachProviderMessageId d f.sesMessageId) db ()
      (db.attach d f.sesMessageId)) (hHashed : d.recipientHash.value ≠ "")
    (hStored : (db.attach d f.sesMessageId).eventOf f.snsMessageId (fingerprintOf services d f) =
      some e) (hSame : e.deliveryId = d.id ∧ e.semanticFingerprint = fingerprintOf services d f) :
    Runs now (persist services f hashes drawn) db .duplicate (db.attach d f.sesMessageId) := by
  refine Runs.bind hFind (Runs.bind hAttach
    (Runs.bind (runs_require hHashed) (Runs.bind Runs.query ?_)))
  have hSome : (db.attach d f.sesMessageId).eventOf f.snsMessageId
      (createSesFeedbackFingerprint services f d.recipientHash.value) = some e := hStored
  simp only [viewAlone, hSome]
  exact Runs.bind (runs_require hSame) Runs.done

/-! ## One arrival -/

section

variable (services ring db target events seen)

/-- The rows once the events `seen` have been applied, and nothing else has happened. -/
structure Applied : Prop where
  row : ∀ f, events f → ∃ d, db.deliveries.get (target f).requestId = some d ∧
    d.id = (target f).id ∧
    d.recipientHash = (target f).recipientHash ∧
      (d.providerMessageId = none ∨ d.providerMessageId = some f.sesMessageId) ∧
    ((target f).providerMessageId = some f.sesMessageId → d.providerMessageId = some f.sesMessageId)
  own : ∀ f, events f → ∀ d ∈ db.deliveries.rows, d.providerMessageId = some f.sesMessageId →
    d.requestId = (target f).requestId
  matching : ∀ f, events f → ∀ e ∈ db.events.rows,
    e.snsMessageId = f.snsMessageId ∨ e.semanticFingerprint = fingerprintOf services (target f) f →
    e.semanticFingerprint = fingerprintOf services (target f) f ∧ e.deliveryId = (target f).id ∧
      ∃ g ∈ seen, fingerprintOf services (target g) g = fingerprintOf services (target f) f
  stored : ∀ f ∈ seen, ∃ e ∈ db.events.rows, e.semanticFingerprint =
    fingerprintOf services (target f) f

end

theorem Pending.applied {db : Database} (h : Pending services ring db target events) :
    Applied services db target events [] where
  row f hf := ⟨target f, h.found f hf, rfl, rfl, (h.concerns f hf).message, fun hSome => hSome⟩
  own := h.own
  matching f hf e he hOr := by
    obtain ⟨hSns, hPrint⟩ := h.unstored f hf e he
    rcases hOr with hOr | hOr
    · exact absurd hOr hSns
    · exact absurd hOr hPrint
  stored f hf := by cases hf

variable (db d) in
theorem Database.attach_events (messageId : String) : (db.attach d messageId).events = db.events ∧
    (db.attach d messageId).destinations = db.destinations ∧
    (db.attach d messageId).issuedEvents = db.issuedEvents := by
  unfold Database.attach
  split <;> exact ⟨rfl, rfl, rfl⟩

variable (db d) in
theorem Database.get_attach (messageId requestId : String) :
    ∃ change : EmailDelivery → EmailDelivery,
    (db.attach d messageId).deliveries.get requestId = (db.deliveries.get requestId).map change ∧
      ∀ old, (change old).id = old.id ∧ (change old).requestId = old.requestId ∧
        (change old).recipientHash = old.recipientHash ∧ (change old).register = old.register ∧
        ((change old).providerMessageId = old.providerMessageId ∨
          (d.is old = true ∧ (change old).providerMessageId = some messageId)) := by
  unfold Database.attach
  split
  · exact ⟨id, by simp, fun _ => ⟨rfl, rfl, rfl, rfl, .inl rfl⟩⟩
  · refine ⟨_, Database.deliveries_updateDeliveries, fun old => ?_⟩
    split
    · next hWhere =>
      rw [Bool.and_eq_true] at hWhere
      exact ⟨rfl, rfl, rfl, rfl, .inr ⟨hWhere.1, rfl⟩⟩
    · exact ⟨rfl, rfl, rfl, rfl, .inl rfl⟩

/-- What the statements rely on survives changes that keep identifiers and recipients, and give a
message identifier only to the delivery that it belongs to. -/
theorem Applied.of_rows (h : Applied services db target events seen)
    (hEvents : db'.events = db.events) (hRows : ∀ requestId,
      ∃ change : EmailDelivery → EmailDelivery,
      db'.deliveries.get requestId = (db.deliveries.get requestId).map change ∧
        ∀ old, (change old).id = old.id ∧ (change old).requestId = old.requestId ∧
          (change old).recipientHash = old.recipientHash ∧
          ((change old).providerMessageId = old.providerMessageId ∨ ∃ f,
            events f ∧ old.requestId = (target f).requestId ∧
            (change old).providerMessageId = some f.sesMessageId))
    (hMessages : ∀ f g, events f → events g →
      (f.sesMessageId = g.sesMessageId ↔ (target f).requestId = (target g).requestId)) :
    Applied services db' target events seen where
  row f hf := by
    obtain ⟨d, hGet, hId, hHash, hMessage, hKnown⟩ := h.row f hf
    obtain ⟨change, hChange, hKept⟩ := hRows (target f).requestId
    obtain ⟨hId', hRequest', hHash', hMessage'⟩ := hKept d
    refine ⟨change d,
      by rw [hChange, hGet, Option.map_some], hId'.trans hId, hHash'.trans hHash, ?_⟩
    rcases hMessage' with hSame | ⟨g, hg, hOwner, hSet⟩
    · rw [hSame]
      exact ⟨hMessage, hKnown⟩
    · have hKey : d.requestId = (target f).requestId := Table.key_of_get hGet
      have hMessageId : f.sesMessageId = g.sesMessageId :=
        (hMessages f g hf hg).mpr (hKey.symm.trans hOwner)
      rw [hSet, hMessageId]
      exact ⟨.inr rfl, fun _ => rfl⟩
  own f hf d' hd' hSome := by
    obtain ⟨change, hChange, hKept⟩ := hRows d'.requestId
    rw [Table.get_of_mem hd'] at hChange
    obtain ⟨old, hOld, hEq⟩ := Option.map_eq_some_iff.mp hChange.symm
    obtain ⟨_, hRequest', _, hMessage'⟩ := hKept old
    rw [hEq] at hRequest' hMessage'
    rw [hRequest']
    rcases hMessage' with hSame | ⟨g, hg, hOwner, hSet⟩
    · exact h.own f hf old (Table.mem_of_get hOld) (hSame ▸ hSome)
    · rw [hOwner]
      refine ((hMessages f g hf hg).mp ?_).symm
      rw [hSome] at hSet
      exact Option.some.inj hSet
  matching := hEvents ▸ h.matching
  stored := hEvents ▸ h.stored

variable (now) in
theorem Applied.finds {start : Database} (hPending : Pending services ring start target events)
    (h : Applied services db target events seen) (hf : events f) :
    ∃ d, db.deliveries.get (target f).requestId = some d ∧ d.requestId = (target f).requestId ∧
      d.id = (target f).id ∧
      d.recipientHash = (target f).recipientHash ∧
      Runs now (findDelivery services f (services.createLookupHashes ring f.recipient)) db d db ∧
      Runs now (attachProviderMessageId d f.sesMessageId) db () (db.attach d f.sesMessageId) := by
  obtain ⟨d, hGet, hId, hHash, hMessage, hKnown⟩ := h.row f hf
  have hKey : d.requestId = (target f).requestId := Table.key_of_get hGet
  have hConcerns := hPending.concerns f hf
  have hOnly : ∀ d', db.deliveryByMessage f.sesMessageId = some d' → d' = d := by
    intro d' hFound
    have hMessage' : d'.providerMessageId = some f.sesMessageId := by
      simpa using List.find?_some hFound
    have hMem := List.mem_of_find?_eq_some hFound
    have hRow := Table.get_of_mem hMem
    rw [h.own f hf d' hMem hMessage', hGet] at hRow
    exact (Option.some.inj hRow).symm
  refine ⟨d, hGet, hKey, hId, hHash, runs_findDelivery ?_ hOnly ?_,
    runs_attach (hKey ▸ hGet) hMessage ?_⟩
  · rcases hConcerns.request with ⟨hSome, hValid⟩ | ⟨hNone, hAttached⟩
    · exact .inl ⟨hKey ▸ hSome, hKey ▸ hValid, hKey ▸ hGet⟩
    · refine .inr ⟨hNone, ?_⟩
      cases hFound : db.deliveryByMessage f.sesMessageId with
      | some d' => rw [hOnly d' hFound]
      | none =>
        have hNot := List.find?_eq_none.mp hFound d (Table.mem_of_get hGet)
        exact absurd (hKnown hAttached) (by simpa using hNot)
  · have hRequest : f.requestId.getD "" = "" ∨ f.requestId = some d.requestId := by
      rcases hConcerns.request with ⟨hSome, _⟩ | ⟨hNone, _⟩
      · exact .inr (hKey ▸ hSome)
      · exact .inl (by simp [hNone])
    have hMessage' : d.providerMessageId.getD "" = "" ∨
      d.providerMessageId = some f.sesMessageId := by
      rcases hMessage with hNone | hSome
      · exact .inl (by simp [hNone])
      · exact .inr hSome
    simp only [deliveryMatches, matchesRecipientHash, Bool.and_eq_true, Bool.or_eq_true,
      decide_eq_true_eq]
    exact ⟨⟨hRequest, hMessage'⟩, hHash ▸ hConcerns.recipient⟩
  · intro d' hd' hSome
    rw [hKey]
    exact h.own f hf d' hd' hSome

theorem receive_of_runs {a : Arrival} {result : ProcessingResult}
    (h : Runs a.now (persist services a.feedback
      (services.createLookupHashes ring a.feedback.recipient) a.drawn) db result db') :
    receive services ring db a = db' := by
  have hBody : Runs a.now
    ((persist services a.feedback (services.createLookupHashes ring a.feedback.recipient)
    a.drawn).bind
      fun result => Script.done (Except.ok (ε := Failure) result)) db (.ok result) db' :=
        Runs.bind h Runs.done
  unfold receive processFeedback
  simp only [bind_eq, pure_eq]
  rw [Runs.transaction hBody]

/-- The attached rows are as the statements rely on. -/
theorem Applied.attach {start : Database} (hPending : Pending services ring start target events)
    (h : Applied services db target events seen) (hf : events f)
    (hKey : d.requestId = (target f).requestId) :
    Applied services (db.attach d f.sesMessageId) target events seen := by
  refine h.of_rows (db.attach_events d f.sesMessageId).1 (fun requestId => ?_) hPending.messages
  obtain ⟨change, hChange, hKept⟩ := db.get_attach d f.sesMessageId requestId
  refine ⟨change, hChange, fun old => ?_⟩
  obtain ⟨hId, hRequest, hHash, _, hMessage⟩ := hKept old
  refine ⟨hId, hRequest, hHash, hMessage.imp id ?_⟩
  rintro ⟨hIs, hSet⟩
  simp only [EmailDelivery.is, decide_eq_true_eq] at hIs
  exact ⟨f, hf, hIs.1.trans hKey, hSet⟩

theorem Applied.again {start : Database} (hPending : Pending services ring start target events)
    (h : Applied services db target events seen) {a : Arrival} (hf : events a.feedback)
    (hg : g ∈ seen) (hSame : fingerprintOf services (target g) g =
      fingerprintOf services (target a.feedback) a.feedback) :
    Applied services (receive services ring db a) target events seen ∧
      (receive services ring db a).destinations = db.destinations ∧
      (receive services ring db a).issuedEvents = db.issuedEvents ∧
      ∀ requestId, ((receive services ring db a).deliveries.get requestId).map
        EmailDelivery.register =
        (db.deliveries.get requestId).map EmailDelivery.register := by
  obtain ⟨d, hGet, hKey, hId, hHash, hFind, hAttach⟩ := h.finds a.now hPending hf
  have hPrint : fingerprintOf services d a.feedback =
    fingerprintOf services (target a.feedback) a.feedback := by
    unfold fingerprintOf
    rw [hHash]
  have hAfter := h.attach hPending hf hKey
  obtain ⟨hEvents, hDestinations, hIssued⟩ := db.attach_events d a.feedback.sesMessageId
  obtain ⟨e, he, hStored⟩ := hAfter.stored g hg
  obtain ⟨e', hFound⟩ : ∃ e', (db.attach d a.feedback.sesMessageId).eventOf a.feedback.snsMessageId
      (fingerprintOf services d a.feedback) = some e' := by
    refine Option.isSome_iff_exists.mp (List.find?_isSome.mpr ⟨e, he, ?_⟩)
    rw [decide_eq_true_eq]
    exact .inr (hStored.trans (hSame.trans hPrint.symm))
  have hMatch : e'.snsMessageId = a.feedback.snsMessageId ∨
      e'.semanticFingerprint = fingerprintOf services d a.feedback := by
        simpa using List.find?_some hFound
  obtain ⟨hFingerprint, hDelivery, _⟩ :=
    hAfter.matching a.feedback hf e' (List.mem_of_find?_eq_some hFound) (hPrint ▸ hMatch)
  have hRuns :=
    runs_persist_again a.drawn hFind hAttach (hHash ▸ (hPending.concerns _ hf).hashed) hFound
    ⟨hDelivery.trans hId.symm, hFingerprint.trans hPrint.symm⟩
  rw [receive_of_runs hRuns]
  refine ⟨hAfter, hDestinations, hIssued, fun requestId => ?_⟩
  obtain ⟨change, hChange, hKept⟩ := db.get_attach d a.feedback.sesMessageId requestId
  rw [hChange, Option.map_map]
  exact Option.map_congr fun old _ => (hKept old).2.2.2.1

theorem Applied.new {start : Database} (hPending : Pending services ring start target events)
    (h : Applied services db target events seen) {a : Arrival} (hf : events a.feedback)
    (hDrawn : a.drawn.eventId ∉ db.issuedEvents)
    (hNodup : ∀ recipient, (services.createLookupHashes ring recipient).Nodup)
    (hNew : ∀ g ∈ seen, fingerprintOf services (target g) g ≠
      fingerprintOf services (target a.feedback) a.feedback) :
    Applied services (receive services ring db a) target events (seen ++ [a.feedback]) ∧
      (receive services ring db a).issuedEvents = a.drawn.eventId :: db.issuedEvents ∧
      (∃ applied : AppliedFeedback, ∃ db₁ : Database, applied.feedback = a.feedback ∧
        applied.revision = createEventRevision a.feedback
          (fingerprintOf services (target a.feedback) a.feedback) ∧
        db₁.destinations = db.destinations ∧ (receive services ring db a).destinations =
          (applied.afterDestination (services.createLookupHashes ring a.feedback.recipient)
            db₁).destinations) ∧
      ∀ requestId, ((receive services ring db a).deliveries.get requestId).map
        EmailDelivery.register =
        ((db.deliveries.get requestId).map EmailDelivery.register).map fun r =>
          if requestId = (target a.feedback).requestId then r.step a.feedback.event
            (createEventRevision a.feedback (fingerprintOf services (target a.feedback) a.feedback))
              else r := by
  obtain ⟨d, hGet, hKey, hId, hHash, hFind, hAttach⟩ := h.finds a.now hPending hf
  have hPrint : fingerprintOf services d a.feedback =
    fingerprintOf services (target a.feedback) a.feedback := by
    unfold fingerprintOf
    rw [hHash]
  have hAfter := h.attach hPending hf hKey
  obtain ⟨hEvents, hDestinations, hIssued⟩ := db.attach_events d a.feedback.sesMessageId
  have hNone : (db.attach d a.feedback.sesMessageId).eventOf a.feedback.snsMessageId
      (fingerprintOf services d a.feedback) = none := by
    cases hFound : (db.attach d a.feedback.sesMessageId).eventOf a.feedback.snsMessageId
        (fingerprintOf services d a.feedback) with
    | none => rfl
    | some e =>
      have hMatch : e.snsMessageId = a.feedback.snsMessageId ∨
          e.semanticFingerprint = fingerprintOf services d a.feedback := by
            simpa using List.find?_some hFound
      obtain ⟨_, _, g, hg, hSame⟩ :=
        hAfter.matching a.feedback hf e (List.mem_of_find?_eq_some hFound) (hPrint ▸ hMatch)
      exact absurd hSame (hNew g hg)
  have hRuns :=
    runs_persist_new hFind hAttach (hHash ▸ (hPending.concerns _ hf).hashed) hNone
      (hIssued ▸ hDrawn)
    (hNodup _) (hPending.concerns _ hf).recipient
  rw [receive_of_runs hRuns, hPrint]
  generalize hApplied : AppliedFeedback.mk a.feedback d a.drawn.eventId
    (createEventRevision a.feedback (fingerprintOf services (target a.feedback) a.feedback))
      a.drawn.destinationId = applied
  have hFeedback : applied.feedback = a.feedback := hApplied ▸ rfl
  have hRevision : applied.revision =
      createEventRevision a.feedback (fingerprintOf services (target a.feedback) a.feedback) :=
        hApplied ▸ rfl
  have hDelivery : applied.delivery = d := hApplied ▸ rfl
  let event :=
    newEvent a.feedback d (fingerprintOf services (target a.feedback) a.feedback)
      a.drawn.eventId a.now
  let db₁ := (db.attach d a.feedback.sesMessageId).insertEvent event
  have hOnly : (applied.afterDelivery a.now db₁).OnlyDestinations
      (applied.afterDestination (services.createLookupHashes ring a.feedback.recipient)
        (applied.afterDelivery a.now db₁)) :=
    AppliedFeedback.only_afterDestination
  have hFresh : (db.attach d a.feedback.sesMessageId).events.get event.semanticFingerprint =
    none := by
    refine Table.get_eq_none_iff.mpr fun e he hSame => ?_
    have hNot := List.find?_eq_none.mp hNone e he
    rw [decide_eq_true_eq, not_or] at hNot
    exact hNot.2 (hSame.trans hPrint.symm)
  have hRows : db₁.events.rows = (db.attach d a.feedback.sesMessageId).events.rows ++ [event] :=
    Table.rows_insert hFresh
  have hStored : Applied services db₁ target events (seen ++ [a.feedback]) := by
    refine ⟨hAfter.row, hAfter.own, fun f' hf' e he hOr => ?_, fun f' hf' => ?_⟩
    · rw [hRows, List.mem_append, List.mem_singleton] at he
      rcases he with he | rfl
      · obtain ⟨hFingerprint, hOwner, g, hg, hSame⟩ := hAfter.matching f' hf' e he hOr
        exact ⟨hFingerprint, hOwner, g, List.mem_append_left _ hg, hSame⟩
      · have hSame : fingerprintOf services (target a.feedback) a.feedback =
          fingerprintOf services (target f') f' :=
          hOr.elim (fun hSns => hPending.sns a.feedback f' hf hf' hSns) id
        have hMessage : a.feedback.sesMessageId = f'.sesMessageId := by
          rw [hPending.same a.feedback f' hf hf' hSame]
        have hRequest := (hPending.messages a.feedback f' hf hf').mp hMessage
        have hTarget : target a.feedback = target f' := by
          have hFirst := hPending.found a.feedback hf
          rw [hRequest, hPending.found f' hf'] at hFirst
          exact (Option.some.inj hFirst).symm
        exact ⟨hSame, hId.trans (congrArg EmailDelivery.id hTarget), a.feedback, by simp, hSame⟩
    · rw [hRows]
      rcases List.mem_append.mp hf' with hOld | hThis
      · obtain ⟨e, he, hFingerprint⟩ := hAfter.stored f' hOld
        exact ⟨e, List.mem_append_left _ he, hFingerprint⟩
      · rw [List.mem_singleton.mp hThis]
        exact ⟨event, by simp, rfl⟩
  refine ⟨?_, ?_, ⟨applied, applied.afterDelivery a.now db₁, hFeedback, hRevision, hDestinations,
    rfl⟩, fun requestId => ?_⟩
  · refine hStored.of_rows hOnly.events (fun requestId => ?_) hPending.messages
    rw [hOnly.deliveries, AppliedFeedback.deliveries_afterDelivery]
    refine ⟨_, rfl, fun old => ?_⟩
    split
    · obtain ⟨hId', hRequest', hHash', hMessage'⟩ := applied.deliveryRow_kept a.now old
      exact ⟨hId', hRequest', hHash', .inl hMessage'⟩
    · exact ⟨rfl, rfl, rfl, .inl rfl⟩
  · rw [hOnly.issuedEvents]
    show a.drawn.eventId :: (db.attach d a.feedback.sesMessageId).issuedEvents = _
    rw [hIssued]
  · rw [hOnly.deliveries, AppliedFeedback.deliveries_afterDelivery]
    show ((db.attach d a.feedback.sesMessageId).deliveries.get requestId |>.map _).map _ = _
    obtain ⟨change, hChange, hKept⟩ := db.get_attach d a.feedback.sesMessageId requestId
    rw [hChange, Option.map_map, Option.map_map, Option.map_map]
    refine Option.map_congr fun old hOld => ?_
    obtain ⟨hId', hRequest', _, hRegister, _⟩ := hKept old
    have hOldKey : old.requestId = requestId := Table.key_of_get hOld
    simp only [Function.comp]
    by_cases hThis : requestId = (target a.feedback).requestId
    · have hSame : old = d := by
        rw [hThis, hGet] at hOld
        exact (Option.some.inj hOld).symm
      have hIs : applied.delivery.is (change old) = true := by
        simp [EmailDelivery.is, hDelivery.trans hSame.symm, hId', hRequest']
      rw [if_pos hIs, if_pos hThis, AppliedFeedback.register_deliveryRow, hRegister,
        hFeedback, hRevision]
    · have hIs : ¬applied.delivery.is (change old) = true := by
        simp [EmailDelivery.is, hDelivery, hRequest', hOldKey, hKey, hThis]
      rw [if_neg hIs, if_neg hThis, hRegister]

/-! ## All arrivals -/

/-- The identifiers that are drawn for the events are new. -/
def FreshDraws (db : Database) (arrivals : List Arrival) : Prop :=
  (arrivals.map fun a => a.drawn.eventId).Nodup ∧ ∀ a ∈ arrivals, a.drawn.eventId ∉ db.issuedEvents

/-- What every new event preserves, and every redelivery, holds in the end of the events that have
been applied: each arrival's event, once. -/
theorem Applied.receiveAll {start : Database} (hPending : Pending services ring start target events)
    (hNodup : ∀ recipient, (services.createLookupHashes ring recipient).Nodup)
    {P : List SesFeedback → Database → Prop}
    (hAgain : ∀ seen db a, Applied services db target events seen → events a.feedback →
      (∃ g ∈ seen, fingerprintOf services (target g) g =
        fingerprintOf services (target a.feedback) a.feedback) →
      P seen db → P seen (receive services ring db a))
    (hNew : ∀ seen db a, Applied services db target events seen → events a.feedback →
      a.drawn.eventId ∉ db.issuedEvents →
      (∀ g ∈ seen, fingerprintOf services (target g) g ≠
        fingerprintOf services (target a.feedback) a.feedback) →
      P seen db → P (seen ++ [a.feedback]) (receive services ring db a))
    (h : Applied services db target events seen) {arrivals : List Arrival}
    (hEvents : ∀ a ∈ arrivals, events a.feedback) (hDraws : FreshDraws db arrivals) (hP : P seen db)
    (hOnce : seen.Pairwise fun f g => fingerprintOf services (target f) f ≠
      fingerprintOf services (target g) g) :
    ∃ all, Applied services (receiveAll services ring db arrivals) target events all ∧
      P all (Notifications.receiveAll services ring db arrivals) ∧
      (all.Pairwise fun f g =>
        fingerprintOf services (target f) f ≠ fingerprintOf services (target g) g) ∧
      all.Sublist (seen ++ arrivals.map Arrival.feedback) ∧ (∀ f ∈ seen, f ∈ all) ∧
      ∀ a ∈ arrivals, ∃ f ∈ all, fingerprintOf services (target f) f =
        fingerprintOf services (target a.feedback) a.feedback := by
  induction arrivals generalizing db seen with
  | nil => exact ⟨seen, h, hP, hOnce, by simp, fun f hf => hf, fun a ha => by cases ha⟩
  | cons a rest ih =>
    obtain ⟨hHead, hTail⟩ := List.nodup_cons.mp hDraws.1
    have hEvent := hEvents a List.mem_cons_self
    have hRest : ∀ a ∈ rest, events a.feedback := fun a ha => hEvents a (List.mem_cons_of_mem _ ha)
    have hDrawn := hDraws.2 a List.mem_cons_self
    by_cases hSeen : ∃ g ∈ seen, fingerprintOf services (target g) g =
      fingerprintOf services (target a.feedback) a.feedback
    · obtain ⟨g, hg, hSame⟩ := hSeen
      obtain ⟨hApplied, _, hIssued, _⟩ := h.again (a := a) hPending hEvent hg hSame
      obtain ⟨all, hAll, hEnd, hPairs, hFrom, hKeep, hCover⟩ := ih hApplied hRest
        ⟨hTail, fun a' ha' => hIssued ▸ hDraws.2 a' (List.mem_cons_of_mem _ ha')⟩
        (hAgain seen db a h hEvent ⟨g, hg, hSame⟩ hP) hOnce
      refine ⟨all, hAll, hEnd, hPairs, hFrom.trans ?_, hKeep, fun a' ha' => ?_⟩
      · exact (List.sublist_cons_self a.feedback _).append_left seen
      · rcases List.mem_cons.mp ha' with rfl | hOther
        · exact ⟨g, hKeep g hg, hSame⟩
        · exact hCover a' hOther
    · have hOther : ∀ g ∈ seen, fingerprintOf services (target g) g ≠
          fingerprintOf services (target a.feedback) a.feedback :=
            fun g hg hSame => hSeen ⟨g, hg, hSame⟩
      obtain ⟨hApplied, hIssued, _⟩ := h.new hPending hEvent hDrawn hNodup hOther
      obtain ⟨all, hAll, hEnd, hPairs, hFrom, hKeep, hCover⟩ := ih hApplied hRest (by
          refine ⟨hTail, fun a' ha' => ?_⟩
          rw [hIssued, List.mem_cons, not_or]
          exact ⟨fun hSame => hHead (List.mem_map.mpr ⟨a', ha', hSame⟩),
            hDraws.2 a' (List.mem_cons_of_mem _ ha')⟩)
        (hNew seen db a h hEvent hDrawn hOther hP)
        (List.pairwise_append.mpr ⟨hOnce, List.pairwise_singleton _ _, fun g hg f hf => by
          rw [List.mem_singleton.mp hf]
          exact hOther g hg⟩)
      refine ⟨all, hAll, hEnd, hPairs, ?_, fun f hf => hKeep f (List.mem_append_left _ hf),
        fun a' ha' => ?_⟩
      · simpa using hFrom
      · rcases List.mem_cons.mp ha' with rfl | hLater
        · exact ⟨a'.feedback, hKeep _ (by simp), rfl⟩
        · exact hCover a' hLater

/-! ## Orders of arrival -/

section

variable (services : Services) (ring : KeyRing) (db : Database) (target : String → EmailDelivery)
  (events : List SesFeedback)

/-- Events that have not been applied: each with a fingerprint and an SNS message of its own, and
none of them stored yet. `target` gives the delivery of a message. -/
structure Unapplied : Prop where
  found : ∀ f ∈ events, db.deliveries.get (target f.sesMessageId).requestId =
    some (target f.sesMessageId)
  concerns : ∀ f ∈ events, Concerns services ring (target f.sesMessageId) f
  messages : ∀ f ∈ events, ∀ g ∈ events,
    (target f.sesMessageId).requestId = (target g.sesMessageId).requestId →
    f.sesMessageId = g.sesMessageId
  own : ∀ f ∈ events, ∀ d ∈ db.deliveries.rows, d.providerMessageId = some f.sesMessageId →
    d.requestId = (target f.sesMessageId).requestId
  distinct : ∀ f ∈ events, ∀ g ∈ events,
    fingerprintOf services (target f.sesMessageId) f = fingerprintOf services
      (target g.sesMessageId) g → f = g
  sns : ∀ f ∈ events, ∀ g ∈ events, f.snsMessageId = g.snsMessageId → f = g
  unstored : ∀ f ∈ events, ∀ e ∈ db.events.rows,
    e.snsMessageId ≠ f.snsMessageId ∧
      e.semanticFingerprint ≠ fingerprintOf services (target f.sesMessageId) f

/-- An order in which the events arrive, with duplicates. A duplicate is the same message again, or
the same event in another SNS message. -/
structure OrderOf (arrivals : List Arrival) : Prop where
  known : ∀ a ∈ arrivals, ∃ f ∈ events, a.feedback =
    { f with snsMessageId := a.feedback.snsMessageId }
  complete : ∀ f ∈ events, ∃ a ∈ arrivals, a.feedback =
    { f with snsMessageId := a.feedback.snsMessageId }
  sns : ∀ a ∈ arrivals, ∀ b ∈ arrivals, a.feedback.snsMessageId = b.feedback.snsMessageId →
    fingerprintOf services (target a.feedback.sesMessageId) a.feedback =
      fingerprintOf services (target b.feedback.sesMessageId) b.feedback
  unstored : ∀ a ∈ arrivals, ∀ e ∈ db.events.rows, e.snsMessageId ≠ a.feedback.snsMessageId
  draws : FreshDraws db arrivals

end

theorem fingerprintOf_sns {sns : String} :
    fingerprintOf services d { f with snsMessageId := sns } = fingerprintOf services d f := rfl

variable {ofMessage : String → EmailDelivery} {eventList : List SesFeedback}
  {arrivals : List Arrival}

theorem Unapplied.pending (h : Unapplied services ring db ofMessage eventList)
    (hOrder : OrderOf services db ofMessage eventList arrivals) :
    Pending services ring db (fun f => ofMessage f.sesMessageId) fun f =>
      ∃ a ∈ arrivals, a.feedback = f where
  found f hf := by
    obtain ⟨a, ha, rfl⟩ := hf
    obtain ⟨g, hg, hEq⟩ := hOrder.known a ha
    rw [hEq]
    exact h.found g hg
  concerns f hf := by
    obtain ⟨a, ha, rfl⟩ := hf
    obtain ⟨g, hg, hEq⟩ := hOrder.known a ha
    have hConcerns := h.concerns g hg
    rw [hEq]
    exact ⟨hConcerns.request, hConcerns.message, hConcerns.recipient, hConcerns.hashed⟩
  messages f g hf hg := by
    obtain ⟨a, ha, rfl⟩ := hf
    obtain ⟨b, hb, rfl⟩ := hg
    obtain ⟨f, hf, hEq⟩ := hOrder.known a ha
    obtain ⟨g, hg, hEq'⟩ := hOrder.known b hb
    refine ⟨fun hSame => by rw [hSame], ?_⟩
    rw [hEq, hEq']
    exact h.messages f hf g hg
  own f hf d' hd' hSome := by
    obtain ⟨a, ha, rfl⟩ := hf
    obtain ⟨g, hg, hEq⟩ := hOrder.known a ha
    rw [hEq] at hSome ⊢
    exact h.own g hg d' hd' hSome
  same f g hf hg hSame := by
    obtain ⟨a, ha, rfl⟩ := hf
    obtain ⟨b, hb, rfl⟩ := hg
    obtain ⟨f, hf, hEq⟩ := hOrder.known a ha
    obtain ⟨g, hg, hEq'⟩ := hOrder.known b hb
    rw [hEq, hEq', fingerprintOf_sns, fingerprintOf_sns] at hSame
    rw [hEq, hEq', h.distinct f hf g hg hSame]
  sns f g hf hg hSame := by
    obtain ⟨a, ha, rfl⟩ := hf
    obtain ⟨b, hb, rfl⟩ := hg
    exact hOrder.sns a ha b hb hSame
  unstored f hf e he := by
    obtain ⟨a, ha, rfl⟩ := hf
    obtain ⟨g, hg, hEq⟩ := hOrder.known a ha
    refine ⟨hOrder.unstored a ha e he, ?_⟩
    rw [hEq]
    exact (h.unstored g hg e he).2

/-- The applied events are the given ones, whatever is read off them that the SNS message does not
tell. -/
theorem mem_applied {β : Type} (content : SesFeedback → β)
    (hContent : ∀ f sns, content { f with snsMessageId := sns } = content f)
    (h : Unapplied services ring db ofMessage eventList)
    (hOrder : OrderOf services db ofMessage eventList arrivals) {all : List SesFeedback}
    (hFrom : all.Sublist (arrivals.map Arrival.feedback))
    (hCover : ∀ a ∈ arrivals, ∃ f ∈ all, fingerprintOf services (ofMessage f.sesMessageId) f =
      fingerprintOf services (ofMessage a.feedback.sesMessageId) a.feedback) (e : β) :
    e ∈ all.map content ↔ e ∈ eventList.map content := by
  constructor
  · intro he
    obtain ⟨f, hf, rfl⟩ := List.mem_map.mp he
    obtain ⟨a, ha, rfl⟩ := List.mem_map.mp (hFrom.subset hf)
    obtain ⟨g, hg, hEq⟩ := hOrder.known a ha
    rw [hEq, hContent]
    exact List.mem_map.mpr ⟨g, hg, rfl⟩
  · intro he
    obtain ⟨g, hg, rfl⟩ := List.mem_map.mp he
    obtain ⟨a, ha, hEq⟩ := hOrder.complete g hg
    obtain ⟨f, hf, hSame⟩ := hCover a ha
    obtain ⟨b, hb, rfl⟩ := List.mem_map.mp (hFrom.subset hf)
    obtain ⟨g', hg', hEq'⟩ := hOrder.known b hb
    refine List.mem_map.mpr ⟨b.feedback, hf, ?_⟩
    rw [hEq, hEq', fingerprintOf_sns, fingerprintOf_sns] at hSame
    rw [hEq', hContent, h.distinct g' hg' g hg hSame]

theorem exists_fresh (used : List String) : ∃ id : String, id ∉ used := by
  have hInfinite : Infinite String :=
    Infinite.of_injective (fun n : Nat => String.ofList (List.replicate n 'a')) fun m n hSame => by
      simpa using congrArg List.length (String.ofList_injective hSame)
  obtain ⟨id, hFresh⟩ := Infinite.exists_notMem_finset used.toFinset
  exact ⟨id, by simpa using hFresh⟩

theorem exists_arrivals (order : List SesFeedback) (used : List String) : ∃ arrivals : List Arrival,
    arrivals.map Arrival.feedback = order ∧ (arrivals.map fun a => a.drawn.eventId).Nodup ∧
      ∀ a ∈ arrivals, a.drawn.eventId ∉ used := by
  induction order generalizing used with
  | nil => exact ⟨[], rfl, List.nodup_nil, fun a ha => by cases ha⟩
  | cons f rest ih =>
    obtain ⟨id, hId⟩ := exists_fresh used
    obtain ⟨arrivals, hOrder, hNodup, hFresh⟩ := ih (id :: used)
    refine ⟨⟨0, f, id, fun _ => ""⟩ :: arrivals, by rw [List.map_cons, hOrder], ?_, ?_⟩
    · rw [List.map_cons, List.nodup_cons]
      refine ⟨fun hMem => ?_, hNodup⟩
      obtain ⟨a, ha, hSame⟩ := List.mem_map.mp hMem
      exact hFresh a ha (by simp [hSame])
    · intro a ha
      rcases List.mem_cons.mp ha with rfl | hRest
      · exact hId
      · exact fun hUsed => hFresh a hRest (List.mem_cons_of_mem _ hUsed)

/-- The events as they are, in any order, can arrive. -/
theorem orderOf_of_mem (h : Unapplied services ring db ofMessage eventList)
    (hMem : ∀ f, f ∈ arrivals.map Arrival.feedback ↔ f ∈ eventList)
    (hDraws : FreshDraws db arrivals) :
    OrderOf services db ofMessage eventList arrivals := by
  have hIn : ∀ a ∈ arrivals, a.feedback ∈ eventList :=
    fun a ha => (hMem _).mp (List.mem_map_of_mem ha)
  refine ⟨fun a ha => ⟨a.feedback, hIn a ha, rfl⟩, fun f hf => ?_, fun a ha b hb hSame => ?_,
    fun a ha e he => ?_, hDraws⟩
  · obtain ⟨a, ha, rfl⟩ := List.mem_map.mp ((hMem f).mpr hf)
    exact ⟨a, ha, rfl⟩
  · rw [h.sns _ (hIn a ha) _ (hIn b hb) hSame]
  · exact (h.unstored _ (hIn a ha) e he).1

end Runs

namespace Sample

/-- Services that write texts one after the other where the real ones hash them. -/
def services : Services where
  hmac key recipient := key ++ recipient
  digest texts := texts.foldl (· ++ ·) ""
  toISOString t := if t = 1 then "1" else "2"
  isUUID _ := true
  trim := id
  toLowerCase := id
  deliveryLeaseMs := 6000
  retentionMs := 7776000000

def key : RecipientHashKey := ⟨"k", 1⟩

def ring : KeyRing where
  keys := [key]
  activeKey := key
  configured := List.mem_singleton_self key
  versions := List.nodup_singleton 1

def accepted : EmailDelivery where
  id := "delivery"
  requestId := "request"
  publicSubject := "subject"
  recipientHash := ⟨"kuser", 1⟩
  purpose := .passwordReset
  contentVersion := 1
  tokenFingerprint := "token"
  status := .accepted
  callerResult := some .accepted
  callerResultCode := none
  providerMessageId := some "message"
  attemptCount := 1
  leaseExpiresAt := none
  failureCode := none
  submittedAt := some 0
  finalizedAt := some 0
  lastEvent := none
  createdAt := 0

def database : Database where
  deliveries := ⟨[accepted], List.nodup_singleton _⟩
  events := .empty
  destinations := .empty
  audits := .empty
  issuedDeliveries := ["delivery"]
  issuedEvents := []

def feedback (snsMessageId : String) (time : Int) (event : SesEvent) : SesFeedback where
  snsMessageId := snsMessageId
  sesMessageId := "message"
  recipient := "user"
  requestId := some "request"
  mailTimestamp := 0
  providerTimestamp := time
  event := event

def softBounce : SesFeedback := feedback "sns1" 1 (.bounce "Transient" "General" "bounce")

def hardBounce : SesFeedback := feedback "sns1" 1 (.bounce "Permanent" "General" "bounce")

def delivered : SesFeedback := feedback "sns2" 2 .delivery

/-- A bounce of any type and a delivery, neither of them stored yet. -/
theorem unapplied {keys : KeyRing} {bounceType : String}
    (hRecipient : accepted.recipientHash ∈ services.createLookupHashes keys "user") :
    Unapplied services keys database (fun _ => accepted)
      [feedback "sns1" 1 (.bounce bounceType "General" "bounce"), delivered] := by
  have hApart : fingerprintOf services accepted softBounce ≠
    fingerprintOf services accepted delivered := by decide
  have hSns : softBounce.snsMessageId ≠ delivered.snsMessageId := by decide
  refine ⟨fun _ _ => rfl, ?_, ?_, ?_, ?_, ?_, ?_⟩
  · intro f hf
    simp only [List.mem_cons, List.not_mem_nil, or_false] at hf
    rcases hf with rfl | rfl
    · exact ⟨.inl ⟨rfl, rfl⟩, .inr rfl, hRecipient, by decide⟩
    · exact ⟨.inl ⟨rfl, rfl⟩, .inr rfl, hRecipient, by decide⟩
  · intro f hf g hg _
    simp only [List.mem_cons, List.not_mem_nil, or_false] at hf hg
    rcases hf with rfl | rfl <;> rcases hg with rfl | rfl <;> rfl
  · intro f hf d hd _
    rw [List.mem_singleton.mp hd]
  · intro f hf g hg hSame
    simp only [List.mem_cons, List.not_mem_nil, or_false] at hf hg
    rcases hf with rfl | rfl <;> rcases hg with rfl | rfl
    · rfl
    · exact absurd hSame hApart
    · exact absurd hSame.symm hApart
    · rfl
  · intro f hf g hg hSame
    simp only [List.mem_cons, List.not_mem_nil, or_false] at hf hg
    rcases hf with rfl | rfl <;> rcases hg with rfl | rfl
    · rfl
    · exact absurd hSame hSns
    · exact absurd hSame.symm hSns
    · rfl
  · intro f _ e he
    cases he

end Sample

end Pixaeron.Notifications
