import Rika.Projection
import Rika.Fold

namespace Rika.Projection

open Fold

/-- What makes the next projection out of one: an event or a change of the
connection, or a snapshot put in by a request. -/
inductive Update
  | event (event : ConnectionEvent)
  | status (status : ConnectionStatus)
  | project (input : SnapshotInput)
  | replace (snapshot : HostSessionSnapshot) (previews : InsertionMap String PreviewProjection)
      (previewFences : InsertionMap String PreviewFence)

namespace ProjectionState

def update (state : ProjectionState) : Update → ProjectionState
  | .event event => (applyConnectionEvent state event).state
  | .status status => applyConnectionStatus state status
  | .project input => projectSnapshot input
  | .replace snapshot previews previewFences => withSnapshot state snapshot previews previewFences

/-- The items are those of the snapshot, the previews and the family held. -/
def Fresh (state : ProjectionState) : Prop :=
  state.thread.items = itemsFromSnapshot state.snapshot state.previews state.family

def RemovesText (state : ProjectionState) : Update → Prop
  | .event (.previewDelivery delivery) =>
    delivery.sessionId = state.sessionId ∧ delivery.runId = delivery.eventRunId ∧
      ∃ generation, delivery.body = .modelPreviewCleared generation ∧ clearRefused state delivery generation = false ∧
        ∃ held, state.previews.get delivery.runId = some held ∧ (held.reasoning ≠ [] ∨ held.text ≠ [])
  | _ => False

variable {state : ProjectionState}

theorem projectSnapshot_fresh (input : SnapshotInput) : (projectSnapshot input).Fresh := rfl

theorem withSnapshot_fresh (state : ProjectionState) (snapshot : HostSessionSnapshot)
    (previews : InsertionMap String PreviewProjection) (previewFences : InsertionMap String PreviewFence) :
    (withSnapshot state snapshot previews previewFences).Fresh := rfl

theorem applyConnectionStatus_fresh (h : state.Fresh) (status : ConnectionStatus) :
    (applyConnectionStatus state status).Fresh := by
  cases status <;> exact h

theorem applyCommitted_fresh (h : state.Fresh) (cursor : Nat) (body : CommittedBody) :
    (applyCommitted state cursor body).state.Fresh := by
  rw [applyCommitted]
  split
  · exact h
  · split
    · exact h
    · split
      · exact h
      · exact withSnapshot_fresh _ _ _ _

theorem applyConnectionSnapshot_fresh (h : state.Fresh) (epoch : Int) (snapshot : HostSessionSnapshot) :
    (applyConnectionSnapshot state epoch snapshot).state.Fresh := by
  rw [applyConnectionSnapshot]
  split
  · exact h
  · split
    · exact h
    · rfl

theorem applyModelPreview_fresh (h : state.Fresh) (delivery : PreviewDelivery) (preview : ModelPreview) :
    (applyModelPreview state delivery preview).state.Fresh := by
  rw [applyModelPreview]
  split
  · exact h
  · split
    · exact h
    · split
      · exact h
      · rfl

theorem previewItems_eq_nil {preview : PreviewProjection} :
    previewItems preview = [] ↔ ¬ (preview.reasoning ≠ [] ∨ preview.text ≠ []) := by
  rw [previewItems, List.append_eq_nil_iff]
  by_cases hreasoning : preview.reasoning = [] <;> by_cases htext : preview.text = [] <;> simp [hreasoning, htext]

theorem delete_fresh_iff (h : state.Fresh) (runId : String) :
    Fresh { state with previews := state.previews.delete runId } ↔
      ¬ ∃ held, state.previews.get runId = some held ∧ (held.reasoning ≠ [] ∨ held.text ≠ []) := by
  have hitems : Fresh { state with previews := state.previews.delete runId } ↔
      state.previews.values.flatMap previewItems = (state.previews.delete runId).values.flatMap previewItems := by
    rw [Fresh] at h ⊢
    dsimp only
    rw [h, itemsFromSnapshot, itemsFromSnapshot, List.append_cancel_left_eq]
  rw [hitems, InsertionMap.flatMap_values_delete]
  simp only [previewItems_eq_nil, not_exists, not_and]

theorem update_fresh_iff (h : state.Fresh) (update : Update) : (state.update update).Fresh ↔ ¬ state.RemovesText update := by
  cases update with
  | status status => exact iff_of_true (applyConnectionStatus_fresh h status) id
  | project input => exact iff_of_true (projectSnapshot_fresh input) id
  | replace snapshot previews previewFences => exact iff_of_true (withSnapshot_fresh _ _ _ _) id
  | event event =>
    cases event with
    | connectionSnapshot epoch snapshot => exact iff_of_true (applyConnectionSnapshot_fresh h epoch snapshot) id
    | committed sessionId cursor body =>
      refine iff_of_true ?_ id
      rw [update, applyConnectionEvent]
      split
      · exact h
      · exact applyCommitted_fresh h cursor body
    | previewDelivery delivery =>
      rw [update, applyConnectionEvent, applyPreview, RemovesText]
      split
      · next hforeign =>
          refine iff_of_true h fun hremoves => ?_
          exact hforeign.elim (absurd hremoves.1) (absurd hremoves.2.1)
      · next hown =>
          rw [not_or, not_not, not_not] at hown
          split
          · next preview hbody =>
              refine iff_of_true (applyModelPreview_fresh h delivery preview) ?_
              rintro ⟨-, -, generation, hcleared, -⟩
              rw [hbody] at hcleared
              cases hcleared
          · next generation hbody =>
              have hremoves : (delivery.sessionId = state.sessionId ∧ delivery.runId = delivery.eventRunId ∧
                  ∃ generation, delivery.body = .modelPreviewCleared generation ∧
                    clearRefused state delivery generation = false ∧
                      ∃ held, state.previews.get delivery.runId = some held ∧
                        (held.reasoning ≠ [] ∨ held.text ≠ [])) ↔
                  clearRefused state delivery generation = false ∧
                    ∃ held, state.previews.get delivery.runId = some held ∧
                      (held.reasoning ≠ [] ∨ held.text ≠ []) := by
                simp [hown.1, hown.2, hbody]
              rw [hremoves, applyModelPreviewCleared]
              split
              · next hrefused => exact iff_of_true h fun hfalse => by simp [hrefused] at hfalse
              · next hrefused =>
                  rw [Bool.not_eq_true] at hrefused
                  simp only [hrefused, true_and]
                  exact delete_fresh_iff h delivery.runId

/-- The items are fresh in every state of a run exactly when none of its clears
removes shown text. -/
theorem run_fresh_iff (h : state.Fresh) (updates : List Update) :
    (∀ before after, updates = before ++ after → (before.foldl update state).Fresh) ↔
      Throughout update (fun state update => ¬ state.RemovesText update) state updates := by
  induction updates generalizing state with
  | nil =>
    refine iff_of_true (fun before after hsplit => ?_) trivial
    rw [(List.append_eq_nil_iff.mp hsplit.symm).1]
    exact h
  | cons next updates ih =>
    constructor
    · intro hfresh
      have hnext : (state.update next).Fresh := hfresh [next] updates rfl
      refine ⟨(update_fresh_iff h next).mp hnext, (ih hnext).mp fun before after hsplit => ?_⟩
      exact hfresh (next :: before) after (congrArg (next :: ·) hsplit)
    · rintro ⟨hkept, hrest⟩ before after hsplit
      cases before with
      | nil => exact h
      | cons first before =>
        obtain ⟨rfl, htail⟩ := List.cons.inj hsplit
        exact (ih ((update_fresh_iff h next).mpr hkept)).mpr hrest before after htail

/-- The items are those computed afresh in every state, exactly when no clear removes a preview that shows text. -/
theorem items_fresh_iff (input : SnapshotInput) (updates : List Update) :
    (∀ before after, updates = before ++ after → (before.foldl update (projectSnapshot input)).Fresh) ↔
      Throughout update (fun state update => ¬ state.RemovesText update) (projectSnapshot input) updates :=
  run_fresh_iff (projectSnapshot_fresh input) updates

def samplePreview (delivery : PreviewBody) : Update :=
  .event (.previewDelivery ⟨"session", "run", 1, "run", delivery⟩)

def sampleDelta (generation sequence : Int) (changes : List PreviewChange) : PreviewBody :=
  .modelPreview ⟨"call", "attempt", 1, generation, sequence, changes⟩

def sampleInput : SnapshotInput :=
  { sessionId := "session", snapshot := ⟨⟨"session", none, none, none, []⟩, 0, [], ⟨none, [], none⟩⟩ }

/-- The text of a cleared preview stays on the screen. -/
theorem cleared_preview_stays :
    let state := [samplePreview (sampleDelta 0 0 [⟨.text, 0, utf16 "ghost"⟩]), samplePreview (.modelPreviewCleared 0)].foldl
      update (projectSnapshot sampleInput)
    state.previews.get "run" = none ∧ state.thread.items.map (·.text) = [utf16 "ghost"] ∧
      itemsFromSnapshot state.snapshot state.previews state.family = [] := by
  decide

end ProjectionState

end Rika.Projection
