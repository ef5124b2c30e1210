import Mathlib.Data.List.Dedup
import Pixaeron.Registers.Sticky
import Pixaeron.Notifications.Arrivals

/-! # Do deliveries converge?

The events about one delivery may be processed in any order and several times. Its status ends up
the same unless a bounce that is not terminal was among them, which gives a status that later
events respect as if it were: this module tells exactly when that happens.
-/

namespace Pixaeron.Notifications

open Transactions Transactions.Script Registers

section Converges

variable {services : Services} {ring : KeyRing} {db : Database} {d : EmailDelivery}
  {events : List SesFeedback}

/-- An event as the register sees it. -/
def contentOf (services : Services) (d : EmailDelivery)
    (f : SesFeedback) : SesEvent × EventRevision :=
  (f.event, createEventRevision f (fingerprintOf services d f))

/-- The rules by which a delivery takes events. -/
def deliveryRules (d : EmailDelivery) : Rules (SesEvent × EventRevision) EventRevision where
  revision e := e.2
  terminal e := e.1.isTerminalMailboxEvent
  sticky e := decide (e.1.deliveryStatus ∈ terminalDeliveryStatuses)
  locked := decide (d.status ∈ terminalDeliveryStatuses)
  sticky_of_terminal _ h := decide_eq_true (SesEvent.terminal_of_terminalMailbox h)

/-- The columns that a register stands for. -/
def columnsOf (d : EmailDelivery) : Option (SesEvent × EventRevision) → DeliveryRegister
  | none => d.register
  | some (event, revision) => ⟨event.deliveryStatus, event.deliveryFailureCode, some revision⟩

theorem step_columnsOf (hFirst : d.lastEvent = none) (s : Option (SesEvent × EventRevision))
    (e : SesEvent × EventRevision) :
    (columnsOf d s).step e.1 e.2 = columnsOf d ((deliveryRules d).step s e) := by
  obtain ⟨event, revision⟩ := e
  cases s with
  | none =>
    by_cases hLocked : d.status ∈ terminalDeliveryStatuses
      <;> cases hTerminal : event.isTerminalMailboxEvent <;>
      simp [columnsOf, DeliveryRegister.step, EmailDelivery.register, Rules.step, Rules.isSticky,
        Rules.newer, deliveryRules, hFirst, hLocked, hTerminal]
  | some last =>
    obtain ⟨lastEvent, lastRevision⟩ := last
    by_cases hLocked : lastEvent.deliveryStatus ∈ terminalDeliveryStatuses <;>
      by_cases hNewer : lastRevision < revision
        <;> cases hTerminal : event.isTerminalMailboxEvent <;>
      simp [columnsOf, DeliveryRegister.step, Rules.step, Rules.isSticky, Rules.newer,
        deliveryRules, hLocked, hTerminal, hNewer]

variable (services ring db d events)

/-- Events about a delivery that has had none. -/
structure FirstFeedback : Prop where
  found : db.deliveries.get d.requestId = some d
  untouched : d.lastEvent = none
  unapplied : Unapplied services ring db (fun _ => d) events

/-- Status, failure code and last event of the delivery once all messages have been processed. -/
def outcome (arrivals : List Arrival) : Option DeliveryRegister :=
  ((receiveAll services ring db arrivals).deliveries.get d.requestId).map EmailDelivery.register

/-- The status is one that feedback respects from the start, or every bounce that is neither
permanent nor a suppression by the provider is older than a terminal event, or is the newest of
events of which none is terminal. -/
def Settled : Prop :=
  d.status ∈ terminalDeliveryStatuses ∨
    ∀ b ∈ events, b.event.isTerminalMailboxEvent = false →
      b.event.deliveryStatus ∈ terminalDeliveryStatuses →
      (∃ t ∈ events, t.event.isTerminalMailboxEvent = true ∧
        (contentOf services d b).2 < (contentOf services d t).2) ∨
        ((∀ t ∈ events, t.event.isTerminalMailboxEvent = false) ∧
          ∀ e ∈ events, e ≠ b → (contentOf services d e).2 < (contentOf services d b).2)

variable {services ring db d events}

theorem FirstFeedback.content_injective (h : FirstFeedback services ring db d events)
    {f g : SesFeedback} (hf : f ∈ events) (hg : g ∈ events)
    (hSame : (contentOf services d f).2 = (contentOf services d g).2) : f = g :=
  h.unapplied.distinct f hf g hg (congrArg EventRevision.fingerprint hSame)

theorem outcome_eq (h : FirstFeedback services ring db d events) {arrivals : List Arrival}
    (hOrder : OrderOf services db (fun _ => d) events arrivals) :
    ∃ all : List SesFeedback, outcome services ring db d arrivals =
        some (columnsOf d ((all.map (contentOf services d)).foldl (deliveryRules d).step none)) ∧
      (all.Pairwise fun f g => fingerprintOf services d f ≠ fingerprintOf services d g) ∧
      all.Sublist (arrivals.map Arrival.feedback) ∧
      ∀ a ∈ arrivals, ∃ f ∈ all, fingerprintOf services d f =
        fingerprintOf services d a.feedback := by
  have hPending := h.unapplied.pending hOrder
  obtain ⟨all, hAll, hEnd, hPairs, hFrom, _, hCover⟩ := hPending.applied.receiveAll hPending
    (services.createLookupHashes_nodup ring)
    (P := fun seen db => (db.deliveries.get d.requestId).map EmailDelivery.register =
      some (columnsOf d ((seen.map (contentOf services d)).foldl (deliveryRules d).step none)))
    (fun seen db a hApplied hEvent hSeen hP => by
      obtain ⟨g, hg, hSame⟩ := hSeen
      rw [(hApplied.again hPending hEvent hg hSame).2.2.2 d.requestId]
      exact hP)
    (fun seen db a hApplied hEvent hDrawn hOther hP => by
      rw [(hApplied.new hPending hEvent hDrawn
        (services.createLookupHashes_nodup ring) hOther).2.2.2 d.requestId, hP, Option.map_some,
        if_pos rfl, List.map_append, List.map_singleton, List.foldl_append]
      exact congrArg some (step_columnsOf h.untouched _ (contentOf services d a.feedback)))
    (fun a ha => ⟨a, ha, rfl⟩) hOrder.draws (by rw [h.found]; rfl) List.Pairwise.nil
  exact ⟨all, hEnd, hPairs, by simpa using hFrom, hCover⟩

theorem distinct_contents (h : FirstFeedback services ring db d events) :
    Rules.Distinct (deliveryRules d) (events.map (contentOf services d)) := by
  intro e he e' he' hSame
  obtain ⟨f, hf, rfl⟩ := List.mem_map.mp he
  obtain ⟨g, hg, rfl⟩ := List.mem_map.mp he'
  rw [h.content_injective hf hg hSame]

theorem settles_iff (h : FirstFeedback services ring db d events) :
    Rules.Settles (deliveryRules d) (events.map (contentOf services d)) ↔
      Settled services d events := by
  unfold Rules.Settles Settled
  have hNe : ∀ b ∈ events, ∀ e ∈ events, contentOf services d e ≠ contentOf services d b ↔ e ≠ b :=
    fun b hb e he => not_congr ⟨fun hSame => h.content_injective he hb (congrArg Prod.snd hSame),
      fun hSame => by rw [hSame]⟩
  refine or_congr (by simp [deliveryRules]) ?_
  simp only [List.forall_mem_map]
  simp only [List.mem_map, exists_exists_and_eq_and]
  refine forall₂_congr fun b hb => ?_
  refine imp_congr Iff.rfl (imp_congr (by simp [deliveryRules, contentOf])
    (or_congr Iff.rfl (and_congr Iff.rfl ?_)))
  exact forall₂_congr fun e he => imp_congr (hNe b hb e he) Iff.rfl

/-- Every order of the events, each once, is an order in which they can arrive, and the register
follows it. -/
theorem outcome_of_order (h : FirstFeedback services ring db d events) (order : List SesFeedback)
    (hMem : ∀ f, f ∈ order ↔ f ∈ events) (hNodup : order.Nodup) :
    ∃ arrivals, OrderOf services db (fun _ => d) events arrivals ∧
      outcome services ring db d arrivals =
      some (columnsOf d ((order.map (contentOf services d)).foldl
        (deliveryRules d).step none)) := by
  obtain ⟨arrivals, hArrivals, hDraws⟩ := exists_arrivals order db.issuedEvents
  have hIn : ∀ a ∈ arrivals, a.feedback ∈ events := fun a ha =>
    (hMem _).mp (hArrivals ▸ List.mem_map_of_mem ha)
  have hOrder := orderOf_of_mem h.unapplied (fun f => by rw [hArrivals]; exact hMem f) hDraws
  obtain ⟨all, hEnd, _, hFrom, hCover⟩ := outcome_eq h hOrder
  rw [hArrivals] at hFrom
  have hSubset : order ⊆ all := by
    intro f hf
    obtain ⟨a, ha, rfl⟩ := List.mem_map.mp (hArrivals ▸ hf)
    obtain ⟨g, hg, hSame⟩ := hCover a ha
    rw [← h.unapplied.distinct g ((hMem g).mp (hFrom.subset hg)) _ (hIn a ha) hSame]
    exact hg
  have hAll : all = order := hFrom.eq_of_length_le (hNodup.subperm hSubset).length_le
  exact ⟨arrivals, hOrder, hAll ▸ hEnd⟩

theorem exists_order {α β : Type} {f : α → β} {l : List β} {u : List α} (h : l.Perm (u.map f)) :
    ∃ order : List α, l = order.map f ∧ order.Perm u := by
  have hComp := List.eq_map_comp_perm f
  have hAt := congrFun (congrFun hComp l) u
  exact hAt.mpr h

theorem lastEvent_columnsOf (hFirst : d.lastEvent = none) (s : Option (SesEvent × EventRevision)) :
    (columnsOf d s).lastEvent = s.map Prod.snd := by
  cases s with
  | none => exact hFirst
  | some e => rfl

end Converges

/-- However its events arrive, a delivery ends with one status, failure code and last event, if and
only if the events settle. -/
theorem delivery_converges_iff (services : Services) (ring : KeyRing) (db : Database)
    (d : EmailDelivery) (events : List SesFeedback) (h : FirstFeedback services ring db d events) :
    (∀ arrivals arrivals', OrderOf services db (fun _ => d) events arrivals →
      OrderOf services db (fun _ => d) events arrivals' →
      ∃ r, outcome services ring db d arrivals = some r ∧
        outcome services ring db d arrivals' = some r) ↔
      Settled services d events := by
  constructor
  · intro hConverges
    by_contra hNot
    let distinctEvents := events.dedup
    have hMem : ∀ f, f ∈ distinctEvents ↔ f ∈ events := fun f => List.mem_dedup
    have hContents : ∀ e, e ∈ distinctEvents.map (contentOf services d) ↔
      e ∈ events.map (contentOf services d) := by
      intro e
      simp only [List.mem_map, hMem]
    have hUnsettled : ¬Rules.Settles (deliveryRules d)
        (distinctEvents.map (contentOf services d)) := fun hSettles =>
      hNot ((settles_iff h).mp (hSettles.congr fun e => (hContents e).symm))
    have hDistinct : Rules.Distinct (deliveryRules d) (distinctEvents.map (contentOf services d)) :=
      fun e he e' he' =>
        distinct_contents h e ((hContents e).mp he) e' ((hContents e').mp he')
    obtain ⟨l, l', hPerm, hPerm', hApart⟩ := Rules.exists_diverging hDistinct hUnsettled
    obtain ⟨order, rfl, hOrder⟩ := exists_order hPerm
    obtain ⟨order', rfl, hOrder'⟩ := exists_order hPerm'
    obtain ⟨arrivals, hArrive, hEnd⟩ :=
      outcome_of_order h _ (fun f => hOrder.mem_iff.trans (hMem f))
      (hOrder.nodup_iff.mpr (List.nodup_dedup events))
    obtain ⟨arrivals', hArrive', hEnd'⟩ :=
      outcome_of_order h _ (fun f => hOrder'.mem_iff.trans (hMem f))
      (hOrder'.nodup_iff.mpr (List.nodup_dedup events))
    obtain ⟨r, hr, hr'⟩ := hConverges arrivals arrivals' hArrive hArrive'
    have hSame :=
      (Option.some.inj (hEnd.symm.trans hr)).trans (Option.some.inj (hEnd'.symm.trans hr')).symm
    have hLast := congrArg DeliveryRegister.lastEvent hSame
    rw [lastEvent_columnsOf h.untouched, lastEvent_columnsOf h.untouched] at hLast
    exact hApart hLast
  · intro hSettled arrivals arrivals' hOrder hOrder'
    obtain ⟨all, hEnd, _, hFrom, hCover⟩ := outcome_eq h hOrder
    obtain ⟨all', hEnd', _, hFrom', hCover'⟩ := outcome_eq h hOrder'
    have hSame :=
      mem_applied (contentOf services d) (fun _ _ => rfl) h.unapplied hOrder hFrom hCover
    have hSame' :=
      mem_applied (contentOf services d) (fun _ _ => rfl) h.unapplied hOrder' hFrom' hCover'
    have hHolds := (Rules.holds_foldl (R := deliveryRules d) (all.map (contentOf services d))).congr
      fun e => (hSame e).symm
    have hHolds' :=
      (Rules.holds_foldl (R := deliveryRules d) (all'.map (contentOf services d))).congr
      fun e => (hSame' e).symm
    rw [hEnd, hEnd', Rules.eq_of_holds (distinct_contents h)
      ((settles_iff h).mpr hSettled) hHolds hHolds']
    exact ⟨_, rfl, rfl⟩

namespace Sample

theorem firstFeedback {bounceType : String} : FirstFeedback services ring database accepted
    [feedback "sns1" 1 (.bounce bounceType "General" "bounce"), delivered] :=
  ⟨rfl, rfl, unapplied (by decide)⟩

theorem settled_hard : Settled services accepted [hardBounce, delivered] := by
  right
  intro b hb hLoose hSticky
  simp only [List.mem_cons, List.not_mem_nil, or_false] at hb
  rcases hb with rfl | rfl
  · exact absurd hLoose (by decide)
  · exact absurd hSticky (by decide)

/-- A permanent bounce and a later delivery give one result in every order. -/
theorem delivery_converges_hard :
    Settled services accepted [hardBounce, delivered] ∧ ∀ arrivals arrivals',
    OrderOf services database (fun _ => accepted) [hardBounce, delivered] arrivals →
    OrderOf services database (fun _ => accepted) [hardBounce, delivered] arrivals' →
    ∃ r, outcome services ring database accepted arrivals = some r ∧
      outcome services ring database accepted arrivals' = some r :=
  ⟨settled_hard,
    (delivery_converges_iff services ring database accepted
      [hardBounce, delivered] firstFeedback).mpr settled_hard⟩

/-- A transient bounce and a later delivery end as BOUNCED or as DELIVERED, as they come. -/
theorem delivery_diverges :
    ¬∀ (services : Services) (ring : KeyRing) (db : Database) (d : EmailDelivery)
      (events : List SesFeedback), FirstFeedback services ring db d events → ∀ arrivals arrivals',
      OrderOf services db (fun _ => d) events arrivals →
      OrderOf services db (fun _ => d) events arrivals' →
      ∃ r, outcome services ring db d arrivals = some r ∧
        outcome services ring db d arrivals' = some r := by
  intro h
  obtain ⟨arrivals, hOrder, hEnd⟩ := outcome_of_order firstFeedback
    [softBounce, delivered] (fun f => Iff.rfl) (by decide)
  obtain ⟨arrivals', hOrder', hEnd'⟩ := outcome_of_order firstFeedback
    [delivered, softBounce] (fun f => List.Perm.mem_iff (List.Perm.swap _ _ _)) (by decide)
  obtain ⟨r, hr, hr'⟩ :=
    h services ring database accepted [softBounce, delivered] firstFeedback arrivals arrivals'
      hOrder hOrder'
  have hSame :=
    (Option.some.inj (hEnd.symm.trans hr)).trans (Option.some.inj (hEnd'.symm.trans hr')).symm
  exact absurd (congrArg DeliveryRegister.status hSame) (by decide)

end Sample

end Pixaeron.Notifications
