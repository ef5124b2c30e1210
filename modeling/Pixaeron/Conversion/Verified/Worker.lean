import Pixaeron.Conversion.Verified.Intake

/-! # Verified: the worker -/

namespace Pixaeron.Conversion

open Transactions Transactions.Script

variable {services : Services} {p : Policy} {call : Call} {s : Shared conversion Call}
  {replies : List Reply}
  {d : Delivery} {event : WorkerEvent} {α : Type}
    {Q : α → Local conversion → Shared conversion Call → Prop}

theorem wp_publishEvent {k : Unit → Script conversion α} (hDelivery : d ∈ s.ext.deliveries)
    (hReports : d.Reports event) (h : ∀ s' replies',
      Grows s.ext s'.ext → event ∈ s'.ext.eventBodies →
      Wp (discipline services p) call (k ()) Q (.outside replies') s') :
    Wp (discipline services p) call ((publishEvent event).bind k) Q (.outside replies) s := by
  refine Wp.answer safe_outside fun s₁ reply y hRely hPublishes => ?_
  have hGrows := rely_grows hRely
  have hTraffic := hRely.inv.2.publishes hPublishes ⟨d, hGrows.deliveries hDelivery, hReports⟩
  refine ⟨guarantee_answer hRely.inv hTraffic (publishes_grows hPublishes)
    (publishes_bodies hPublishes), ?_⟩
  dsimp only [Script.bind_done]
  split
  · exact Wp.fail_outside
  · next hDone =>
    refine h (s₁.setExt y) _ (hGrows.trans (publishes_grows hPublishes))
      (publishes_mem hPublishes fun applied hThrew => ?_)
    exact hDone applied hThrew

theorem wp_deleteMessage (hDelivery : d ∈ s.ext.deliveries) (hReports : d.Reports event)
    (hResult : event.isResult = true) (hPublished : event ∈ s.ext.eventBodies) :
    Wp (discipline services p) call (deleteMessage d) (fun _ l _ => AtRest l)
      (.outside replies) s := by
  refine Wp.answer safe_outside fun s₁ reply y hRely hDeletes => ?_
  have hGrows := rely_grows hRely
  obtain ⟨ev, hEvent, rfl⟩ := List.mem_map.mp (hGrows.mem_event hPublished)
  have hTraffic :=
    hRely.inv.2.deletesRequest hDeletes (hGrows.deliveries hDelivery) ⟨ev, hEvent,
      hResult, hReports⟩
  refine ⟨guarantee_answer hRely.inv hTraffic (deletesRequest_grows hDeletes)
    (deletesRequest_bodies hDeletes), ?_⟩
  rw [Script.bind_done]
  split
  · exact Wp.fail_outside
  · exact wp_at_rest fun _ _ => atRest_outside _

theorem wp_putOutput {key : String} {k : Bool → Script conversion α}
    (hDelivery : d ∈ s.ext.deliveries)
    (hKey : key = outputObjectKey d.batchId d.fileId d.attempt ∨
      key = previewObjectKey d.batchId d.fileId d.attempt)
    (h : ∀ s' replies' stored, Grows s.ext s'.ext →
      Wp (discipline services p) call (k stored) Q (.outside replies') s') :
    Wp (discipline services p) call ((putOutput key d).bind k) Q (.outside replies) s := by
  refine Wp.answer safe_outside fun s₁ reply y hRely hPuts => ?_
  have hGrows := rely_grows hRely
  have hTraffic := hRely.inv.2.puts hPuts (hGrows.deliveries hDelivery) hKey
  exact ⟨guarantee_answer hRely.inv hTraffic (puts_grows hPuts) (puts_bodies hPuts),
    h (s₁.setExt y) _ _ (hGrows.trans (puts_grows hPuts))⟩

theorem answersInput_same (reply : Reply) (x y : Outside)
    (h : answersInput reply x = some y) : y = x := by
  unfold answersInput at h
  split at h
  · cases h
    rfl
  · split at h <;> cases h
    rfl
  · cases h
    rfl
  · cases h

theorem answersCompress_same (reply : Reply) (x y : Outside)
    (h : answersCompress reply x = some y) : y = x := by
  unfold answersCompress at h
  split at h <;> cases h
  rfl

theorem answersPreview_same (reply : Reply) (x y : Outside)
    (h : answersPreview reply x = some y) : y = x := by
  unfold answersPreview at h
  split at h <;> cases h <;> rfl

theorem wp_storePreview {k : Option String → Script conversion α} (hDelivery : d ∈ s.ext.deliveries)
    (h : ∀ s' replies' key, Grows s.ext s'.ext →
      Wp (discipline services p) call (k key) Q (.outside replies') s') :
    Wp (discipline services p) call ((storePreview d).bind k) Q (.outside replies) s := by
  refine wp_ask answersPreview_same fun s₁ reply hRely _ => ?_
  have hGrows := rely_grows hRely
  dsimp only [Script.bind_done]
  split
  · rw [Script.bind_eq, Script.bind_assoc]
    refine wp_putOutput (hGrows.deliveries hDelivery) (.inr rfl) fun s₂ replies' stored hGrows' =>
      ?_
    exact h s₂ replies' _ (hGrows.trans hGrows')
  · exact h s₁ _ none hGrows

theorem wp_report (hDelivery : d ∈ s.ext.deliveries) (hReports : d.Reports event)
    (hResult : event.isResult = true) :
    Wp (discipline services p) call ((publishEvent event).bind fun _ => deleteMessage d)
      (fun _ l _ => AtRest l)
      (.outside replies) s :=
  wp_publishEvent hDelivery hReports fun _ _ hGrows hPublished =>
    wp_deleteMessage (hGrows.deliveries hDelivery) hReports hResult hPublished

theorem wp_handleRequest {body : ConversionRequestMessage} (hDelivery : d ∈ s.ext.deliveries)
    (hFile : d.fileId = body.fileId) (hBatch : d.batchId = body.batchId) :
    Wp (discipline services p) call (handleRequest services d body) (fun _ l _ => AtRest l)
      (.outside replies) s := by
  unfold handleRequest
  split
  · exact wp_at_rest fun _ _ => atRest_outside _
  · next request hParsed =>
    obtain rfl := parseConversionRequest_eq_some hParsed
    have hReports : ∀ report, d.Reports ⟨request.fileId, request.batchId, d.attempt, report⟩ :=
      fun _ => ⟨hFile, hBatch, rfl⟩
    refine wp_publishEvent hDelivery (hReports .started) fun s₁ _ hGrows₁ _ => ?_
    refine wp_ask answersInput_same fun s₂ input hRely₂ _ => ?_
    have hGrows₂ := hGrows₁.trans (rely_grows hRely₂)
    rw [Script.bind_done]
    split
    · exact wp_report (hGrows₂.deliveries hDelivery) (hReports _) rfl
    · refine wp_ask answersCompress_same fun s₃ result hRely₃ _ => ?_
      have hGrows₃ := hGrows₂.trans (rely_grows hRely₃)
      rw [Script.bind_done]
      split
      · exact wp_report (hGrows₃.deliveries hDelivery) (hReports _) rfl
      · refine wp_putOutput (hGrows₃.deliveries hDelivery)
          (.inl (by rw [hFile, hBatch])) fun s₄ _ stored hGrows₄ => ?_
        refine wp_require fun _ => ?_
        have hGrows₄ := hGrows₃.trans hGrows₄
        refine wp_storePreview (hGrows₄.deliveries hDelivery) fun s₅ _ key hGrows₅ => ?_
        exact wp_report ((hGrows₄.trans hGrows₅).deliveries hDelivery) (hReports _) rfl
      · exact Wp.fail_outside
    · exact Wp.fail_outside

end Pixaeron.Conversion
