import Rika.Projection
import Rika.Fold

namespace Rika.Projection

open Fold
open InsertionMap (get_delete get_set)

variable {attemptFence generation heldFence heldGeneration : Int}

theorem behind_eq_true : behind attemptFence generation heldFence heldGeneration = true ↔
      attemptFence < heldFence ∨ attemptFence = heldFence ∧ generation < heldGeneration := by
  simp [behind]

theorem behind_eq_false : behind attemptFence generation heldFence heldGeneration = false ↔
      heldFence < attemptFence ∨ heldFence = attemptFence ∧ heldGeneration ≤ generation := by
  rw [← Bool.not_eq_true, behind_eq_true]
  omega

theorem not_behind_trans {a g a' g' a'' g'' : Int} (h : behind a' g' a g = false) (h' : behind a'' g'' a' g' = false) :
    behind a'' g'' a g = false := by
  rw [behind_eq_false] at h h' ⊢
  omega

theorem not_behind_self (a g : Int) : behind a g a g = false := by
  rw [behind_eq_false]
  omega

structure Clear where
  runId : String
  attemptFence : Int
  generation : Int
deriving DecidableEq

structure Delta where
  runId : String
  attemptFence : Int
  generation : Int
  change : PreviewChange

def Delta.isOf (delta : Delta) (runId : String) (attemptFence generation : Int) : Bool :=
  delta.runId = runId && delta.attemptFence = attemptFence && delta.generation = generation

structure Watched where
  state : ProjectionState
  clears : List Clear
  deltas : List Delta

namespace Watched

def clearsOf (state : ProjectionState) : ConnectionEvent → List Clear
  | .previewDelivery { sessionId, runId, authorityAttemptFence, eventRunId, body := .modelPreviewCleared generation } =>
    let delivery := ⟨sessionId, runId, authorityAttemptFence, eventRunId, .modelPreviewCleared generation⟩
    if sessionId = state.sessionId ∧ runId = eventRunId ∧ clearRefused state delivery generation = false then
      [⟨runId, authorityAttemptFence, generation⟩]
    else []
  | _ => []

def deltasOf (state : ProjectionState) : ConnectionEvent → List Delta
  | .previewDelivery { sessionId, runId, authorityAttemptFence, eventRunId, body := .modelPreview preview } =>
    if sessionId = state.sessionId ∧ runId = eventRunId then
      preview.changes.map fun change => ⟨runId, authorityAttemptFence, preview.generation, change⟩
    else []
  | _ => []

section

variable (w : Watched)

def step (event : ConnectionEvent) : Watched where
  state := (applyConnectionEvent w.state event).state
  clears := w.clears ++ clearsOf w.state event
  deltas := w.deltas ++ deltasOf w.state event

def start (sessionId : String) (threadId : Option String) (snapshot : HostSessionSnapshot) (target : Option Target)
    (family : Option FamilyProjection) : Watched :=
  ⟨projectSnapshot { sessionId, threadId, snapshot, target, family }, [], []⟩

def run (events : List ConnectionEvent) : Watched := events.foldl step w

def channelText (preview : PreviewProjection) : Channel → Utf16
  | .reasoning => preview.reasoning
  | .text => preview.text

/-- The preview is neither fenced off nor outdated by the one held. -/
def Accepted (state : ProjectionState) (delivery : PreviewDelivery) (preview : ModelPreview) : Prop :=
  delivery.sessionId = state.sessionId ∧ delivery.runId = delivery.eventRunId ∧
    (state.previewFences.get delivery.runId).any (fencedOff (previewEvent delivery preview)) = false ∧
      (state.previews.get delivery.runId).any (outdatedBy (previewEvent delivery preview)) = false

/-- The preview comes after a clear of its own pair, or of a later one. -/
def Late (delivery : PreviewDelivery) (preview : ModelPreview) : Prop :=
  ∃ clear ∈ w.clears, clear.runId = delivery.runId ∧
    behind clear.attemptFence clear.generation delivery.authorityAttemptFence preview.generation = false

/-- The preview starts a newer pair, and leaves text of the one held standing. -/
def Mixes (delivery : PreviewDelivery) (preview : ModelPreview) : Prop :=
  ∃ held channel, w.state.previews.get delivery.runId = some held ∧
    behind held.attemptFence held.generation delivery.authorityAttemptFence preview.generation = true ∧
      channelText held channel ≠ [] ∧ ∀ change ∈ preview.changes, change.channel = channel → change.offset ≠ 0

def InOrder : ConnectionEvent → Prop
  | .previewDelivery delivery =>
    ∀ preview, delivery.body = .modelPreview preview → Accepted w.state delivery preview →
      ¬ Late w delivery preview ∧ ¬ Mixes w delivery preview
  | _ => True

def Fenced (state : ProjectionState) : Prop :=
  ∀ runId preview, state.previews.get runId = some preview → state.previewFences.get runId = some preview.fence

def FencesKept (state state' : ProjectionState) : Prop :=
  ∀ runId fence, state.previewFences.get runId = some fence → ∃ fence', state'.previewFences.get runId = some fence' ∧
    behind fence'.attemptFence fence'.generation fence.attemptFence fence.generation = false

/-- Every clear stays: a preview shown afterwards is of a later pair. -/
def ClearsStay : Prop :=
  ∀ clear ∈ w.clears, ∀ preview, w.state.previews.get clear.runId = some preview →
    behind clear.attemptFence clear.generation preview.attemptFence preview.generation = true

def ownChanges (runId : String) (attemptFence generation : Int) : List PreviewChange :=
  (w.deltas.filter (·.isOf runId attemptFence generation)).map (·.change)

def OwnText : Prop :=
  ∀ runId preview, w.state.previews.get runId = some preview →
    ∃ changes, List.Sublist changes (w.ownChanges runId preview.attemptFence preview.generation) ∧
      changes.foldlM applyChange ([], []) = some (preview.reasoning, preview.text)

end

theorem FencesKept.refl (state : ProjectionState) : FencesKept state state := fun _ fence h =>
  ⟨fence, h, not_behind_self _ _⟩

variable {state state' : ProjectionState} {delivery : PreviewDelivery} {event : ConnectionEvent} {w : Watched}
    {changes : List PreviewChange}

theorem FencesKept.of_eq (h : state'.previewFences = state.previewFences) : FencesKept state state' := by
  rw [FencesKept, h]
  exact FencesKept.refl state

theorem FencesKept.trans {state'' : ProjectionState} (h : FencesKept state state')
    (h' : FencesKept state' state'') : FencesKept state state'' := by
  intro runId fence hfence
  obtain ⟨fence', hfence', hkept⟩ := h runId fence hfence
  obtain ⟨fence'', hfence'', hkept'⟩ := h' runId fence' hfence'
  exact ⟨fence'', hfence'', not_behind_trans hkept hkept'⟩

/-- What an event does to the previews and the fences. -/
inductive PreviewStep (state : ProjectionState) (event : ConnectionEvent) (state' : ProjectionState) : Prop
  | kept (hpreviews : state'.previews = state.previews) (hfences : state'.previewFences = state.previewFences)
      (hclears : clearsOf state event = [])
  | ended (hpreviews : state'.previews = .empty) (hfences : state'.previewFences = state.previewFences)
      (hclears : clearsOf state event = [])
  | cleared (delivery : PreviewDelivery) (generation : Int) (hevent : event = .previewDelivery delivery)
      (hrefused : clearRefused state delivery generation = false)
      (hpreviews : state'.previews = state.previews.delete delivery.runId)
      (hfences : state'.previewFences = state.previewFences)
      (hclears : clearsOf state event = [⟨delivery.runId, delivery.authorityAttemptFence, generation⟩])
  | shown (delivery : PreviewDelivery) (preview : ModelPreview) (reasoning text : Utf16)
      (next : PreviewProjection) (hevent : event = .previewDelivery delivery)
      (hbody : delivery.body = .modelPreview preview) (haccepted : Accepted state delivery preview)
      (hchanges : preview.changes.foldlM applyChange
        ((state.previews.get delivery.runId).elim ([], []) fun held => (held.reasoning, held.text)) =
          some (reasoning, text))
      (hnext : next = { previewEvent delivery preview with reasoning, text, cursor := state.committedCursor })
      (hpreviews : state'.previews = state.previews.set delivery.runId next)
      (hfences : state'.previewFences = state.previewFences.set delivery.runId next.fence)
      (hclears : clearsOf state event = [])
      (hdeltas : deltasOf state event = preview.changes.map fun change =>
        ⟨delivery.runId, delivery.authorityAttemptFence, preview.generation, change⟩)

theorem applyModelPreview_step {preview : ModelPreview}
    (hbody : delivery.body = .modelPreview preview) (hsession : delivery.sessionId = state.sessionId)
    (hrun : delivery.runId = delivery.eventRunId) :
    PreviewStep state (.previewDelivery delivery) (applyModelPreview state delivery preview).state := by
  obtain ⟨sessionId, runId, authorityAttemptFence, eventRunId, body⟩ := delivery
  obtain rfl : body = .modelPreview preview := hbody
  rw [applyModelPreview]
  split
  · exact .kept rfl rfl rfl
  · next hfence =>
      split
      · exact .kept rfl rfl rfl
      · next hcurrent =>
          split
          · exact .kept rfl rfl rfl
          · next reasoning text hchanges =>
              refine .shown _ preview reasoning text _ rfl rfl
                ⟨hsession, hrun, Bool.not_eq_true _ ▸ hfence, Bool.not_eq_true _ ▸ hcurrent⟩ hchanges rfl rfl rfl rfl ?_
              exact if_pos ⟨hsession, hrun⟩

theorem applyModelPreviewCleared_step {generation : Int}
    (hbody : delivery.body = .modelPreviewCleared generation) (hsession : delivery.sessionId = state.sessionId)
    (hrun : delivery.runId = delivery.eventRunId) :
    PreviewStep state (.previewDelivery delivery) (applyModelPreviewCleared state delivery generation).state := by
  obtain ⟨sessionId, runId, authorityAttemptFence, eventRunId, body⟩ := delivery
  obtain rfl : body = .modelPreviewCleared generation := hbody
  rw [applyModelPreviewCleared]
  split
  · next hrefused =>
      refine .kept rfl rfl (if_neg ?_)
      rintro ⟨-, -, hfalse⟩
      rw [hrefused] at hfalse
      cases hfalse
  · next hrefused =>
      rw [Bool.not_eq_true] at hrefused
      exact .cleared _ generation rfl hrefused rfl rfl (if_pos ⟨hsession, hrun, hrefused⟩)

theorem clearsOf_foreign (h : delivery.sessionId ≠ state.sessionId ∨ delivery.runId ≠ delivery.eventRunId) :
    clearsOf state (.previewDelivery delivery) = [] := by
  obtain ⟨sessionId, runId, authorityAttemptFence, eventRunId, body⟩ := delivery
  cases body with
  | modelPreview preview => rfl
  | modelPreviewCleared generation => exact if_neg fun hown => h.elim (absurd hown.1) (absurd hown.2.1)

theorem applyConnectionEvent_step (state : ProjectionState) (event : ConnectionEvent) :
    PreviewStep state event (applyConnectionEvent state event).state := by
  cases event with
  | connectionSnapshot epoch snapshot =>
    rw [applyConnectionEvent, applyConnectionSnapshot]
    split
    · exact .kept rfl rfl rfl
    · split
      · exact .kept rfl rfl rfl
      · exact .ended rfl rfl rfl
  | committed sessionId cursor body =>
    rw [applyConnectionEvent]
    split
    · exact .kept rfl rfl rfl
    · rw [applyCommitted]
      split
      · exact .kept rfl rfl rfl
      · split
        · exact .kept rfl rfl rfl
        · split
          · exact .kept rfl rfl rfl
          · by_cases hends : endsPreviews body = true
            · rw [if_pos hends]
              exact .ended rfl rfl rfl
            · rw [if_neg hends]
              exact .kept rfl rfl rfl
  | previewDelivery delivery =>
    rw [applyConnectionEvent, applyPreview]
    split
    · next hforeign => exact .kept rfl rfl (clearsOf_foreign hforeign)
    · next hown =>
        rw [not_or, not_not, not_not] at hown
        split
        · next preview hbody => exact applyModelPreview_step hbody hown.1 hown.2
        · next generation hbody => exact applyModelPreviewCleared_step hbody hown.1 hown.2

theorem PreviewStep.fenced (h : PreviewStep state event state') (hfenced : Fenced state) : Fenced state' := by
  intro runId preview hpreview
  cases h with
  | kept hpreviews hfences _ =>
    rw [hpreviews] at hpreview
    rw [hfences]
    exact hfenced runId preview hpreview
  | ended hpreviews _ _ =>
    rw [hpreviews] at hpreview
    cases hpreview
  | cleared delivery _ _ _ hpreviews hfences _ =>
    rw [hpreviews, get_delete] at hpreview
    rw [hfences]
    split at hpreview
    · cases hpreview
    · exact hfenced runId preview hpreview
  | shown delivery _ _ _ next _ _ _ _ _ hpreviews hfences _ _ =>
    rw [hpreviews, get_set] at hpreview
    rw [hfences, get_set]
    split at hpreview
    · next hrun =>
        cases hpreview
        rw [if_pos hrun]
    · next hrun =>
        rw [if_neg hrun]
        exact hfenced runId preview hpreview

theorem PreviewStep.fencesKept (h : PreviewStep state event state') : FencesKept state state' := by
  cases h with
  | kept _ hfences _ | ended _ hfences _ | cleared _ _ _ _ _ hfences _ => exact .of_eq hfences
  | shown delivery preview _ _ next _ _ haccepted _ hnext _ hfences _ _ =>
    intro runId fence hfence
    rw [hfences, get_set]
    split
    · next hrun =>
        subst hrun
        obtain ⟨-, -, hunfenced, -⟩ := haccepted
        rw [hfence, Option.any_some, fencedOff, Bool.or_eq_false_iff] at hunfenced
        refine ⟨next.fence, rfl, ?_⟩
        rw [hnext]
        exact hunfenced.1
    · exact ⟨fence, hfence, not_behind_self _ _⟩

theorem clearsStay_step (h : ClearsStay w) (hinOrder : InOrder w event) : ClearsStay (w.step event) := by
  intro clear hclear preview hpreview
  rw [step] at hclear hpreview
  dsimp only at hclear hpreview
  cases applyConnectionEvent_step w.state event with
  | kept hpreviews _ hclears =>
    rw [hclears, List.append_nil] at hclear
    rw [hpreviews] at hpreview
    exact h clear hclear preview hpreview
  | ended hpreviews _ _ =>
    rw [hpreviews] at hpreview
    cases hpreview
  | cleared delivery generation _ _ hpreviews _ hclears =>
    rw [hpreviews, get_delete] at hpreview
    split at hpreview
    · cases hpreview
    · next hrun =>
        rw [hclears, List.mem_append, List.mem_singleton] at hclear
        rcases hclear with hclear | rfl
        · exact h clear hclear preview hpreview
        · exact absurd rfl hrun
  | shown delivery preview' _ _ next hevent hbody haccepted _ hnext hpreviews _ hclears _ =>
    rw [hclears, List.append_nil] at hclear
    rw [hpreviews, get_set] at hpreview
    split at hpreview
    · next hrun =>
        cases hpreview
        subst hevent
        obtain ⟨hlate, -⟩ := hinOrder preview' hbody haccepted
        rw [hnext]
        by_contra hbehind
        exact hlate ⟨clear, hclear, hrun, Bool.not_eq_true _ ▸ hbehind⟩
    · exact h clear hclear preview hpreview

theorem splice_zero (value delta : Utf16) : splice value 0 delta = some delta := by simp [splice]

def Restarts (changes : List PreviewChange) (channel : Channel) : Prop :=
  ∃ change ∈ changes, change.channel = channel ∧ change.offset = 0

theorem Restarts.tail {change : PreviewChange} {channel : Channel}
    (h : Restarts (change :: changes) channel) (hother : change.channel = channel → change.offset ≠ 0) :
    Restarts changes channel := by
  obtain ⟨restart, hmem, hchannel, hoffset⟩ := h
  rcases List.mem_cons.mp hmem with rfl | hmem
  · exact absurd hoffset (hother hchannel)
  · exact ⟨restart, hmem, hchannel, hoffset⟩

/-- Changes that start a channel anew do not depend on what it held before, apart
from those before the restart. -/
theorem foldlM_applyChange_rebased {reasoning text reasoning' text' : Utf16}
    {result : Utf16 × Utf16} (h : changes.foldlM applyChange (reasoning, text) = some result)
    (hreasoning : reasoning' = reasoning ∨ Restarts changes .reasoning) (htext : text' = text ∨ Restarts changes .text) :
    ∃ own, List.Sublist own changes ∧ own.foldlM applyChange (reasoning', text') = some result := by
  induction changes generalizing reasoning text reasoning' text' with
  | nil =>
    have hempty : ∀ channel, ¬ Restarts [] channel := by simp [Restarts]
    obtain rfl := hreasoning.resolve_right (hempty _)
    obtain rfl := htext.resolve_right (hempty _)
    exact ⟨[], .slnil, h⟩
  | cons change changes ih =>
    rw [List.foldlM_cons] at h
    obtain ⟨⟨reasoning₁, text₁⟩, hfirst, hrest⟩ := Option.bind_eq_some_iff.mp h
    -- the change is kept when its channel agrees already or starts anew here
    have hkeep : ∀ reasoning₂ text₂, applyChange (reasoning', text') change = some (reasoning₂, text₂) →
        (reasoning₂ = reasoning₁ ∨ Restarts changes .reasoning) → (text₂ = text₁ ∨ Restarts changes .text) →
          ∃ own, List.Sublist own (change :: changes) ∧ own.foldlM applyChange (reasoning', text') = some result := by
      intro reasoning₂ text₂ hchange hreasoning₂ htext₂
      obtain ⟨own, hsub, hown⟩ := ih hrest hreasoning₂ htext₂
      refine ⟨change :: own, hsub.cons_cons change, ?_⟩
      rw [List.foldlM_cons, hchange]
      exact hown
    have hdrop : (reasoning' = reasoning₁ ∨ Restarts changes .reasoning) → (text' = text₁ ∨ Restarts changes .text) →
        ∃ own, List.Sublist own (change :: changes) ∧ own.foldlM applyChange (reasoning', text') = some result := by
      intro hreasoning₁ htext₁
      obtain ⟨own, hsub, hown⟩ := ih hrest hreasoning₁ htext₁
      exact ⟨own, hsub.cons change, hown⟩
    rw [applyChange] at hfirst
    split at hfirst
    · next hchannel =>
        obtain ⟨value, hsplice, hpair⟩ := Option.map_eq_some_iff.mp hfirst
        obtain ⟨rfl, rfl⟩ := Prod.mk.inj hpair
        have htext' : text' = text ∨ Restarts changes .text :=
          htext.imp_right fun hrestarts => hrestarts.tail (by simp [hchannel])
        by_cases hoffset : change.offset = 0
        · refine hkeep value text' ?_ (.inl rfl) htext'
          rw [hoffset, splice_zero] at hsplice
          simp [applyChange, hchannel, hoffset, splice_zero, Option.some_inj.mp hsplice]
        · rcases hreasoning with rfl | hrestarts
          · refine hkeep value text' ?_ (.inl rfl) htext'
            simp [applyChange, hchannel, hsplice]
          · exact hdrop (.inr (hrestarts.tail fun _ => hoffset)) htext'
    · next hchannel =>
        obtain ⟨value, hsplice, hpair⟩ := Option.map_eq_some_iff.mp hfirst
        obtain ⟨rfl, rfl⟩ := Prod.mk.inj hpair
        have hreasoning' : reasoning' = reasoning ∨ Restarts changes .reasoning :=
          hreasoning.imp_right fun hrestarts => hrestarts.tail (by simp [hchannel])
        by_cases hoffset : change.offset = 0
        · refine hkeep reasoning' value ?_ hreasoning' (.inl rfl)
          rw [hoffset, splice_zero] at hsplice
          simp [applyChange, hchannel, hoffset, splice_zero, Option.some_inj.mp hsplice]
        · rcases htext with rfl | hrestarts
          · refine hkeep reasoning' value ?_ hreasoning' (.inl rfl)
            simp [applyChange, hchannel, hsplice]
          · exact hdrop hreasoning' (.inr (hrestarts.tail fun _ => hoffset))

theorem ownChanges_step (w : Watched) (event : ConnectionEvent) (runId : String) (attemptFence generation : Int) :
    (w.step event).ownChanges runId attemptFence generation = w.ownChanges runId attemptFence generation ++
      ((deltasOf w.state event).filter (·.isOf runId attemptFence generation)).map (·.change) := by
  rw [ownChanges, step, List.filter_append, List.map_append, ownChanges]

theorem filter_isOf_self (changes : List PreviewChange) (runId : String) (attemptFence generation : Int) :
    ((changes.map (Delta.mk runId attemptFence generation)).filter (·.isOf runId attemptFence generation)).map
      (·.change) = changes := by
  rw [List.filter_eq_self.mpr, List.map_map]
  · exact List.map_id _
  · intro delta hdelta
    obtain ⟨change, -, rfl⟩ := List.mem_map.mp hdelta
    simp [Delta.isOf]

theorem ownText_step (h : OwnText w) (hinOrder : InOrder w event) : OwnText (w.step event) := by
  have hold : ∀ runId preview, w.state.previews.get runId = some preview →
      ∃ changes, List.Sublist changes ((w.step event).ownChanges runId preview.attemptFence preview.generation) ∧
        changes.foldlM applyChange ([], []) = some (preview.reasoning, preview.text) := by
    intro runId preview hpreview
    obtain ⟨changes, hsub, hchanges⟩ := h runId preview hpreview
    rw [ownChanges_step]
    exact ⟨changes, hsub.trans (List.sublist_append_left _ _), hchanges⟩
  intro runId preview hpreview
  have hpreview' : (applyConnectionEvent w.state event).state.previews.get runId = some preview := hpreview
  cases applyConnectionEvent_step w.state event with
  | kept hpreviews _ _ =>
    rw [hpreviews] at hpreview'
    exact hold runId preview hpreview'
  | ended hpreviews _ _ =>
    rw [hpreviews] at hpreview'
    cases hpreview'
  | cleared delivery generation _ _ hpreviews _ _ =>
    rw [hpreviews, get_delete] at hpreview'
    split at hpreview'
    · cases hpreview'
    · exact hold runId preview hpreview'
  | shown delivery body reasoning text next hevent hbody haccepted hchanges hnext hpreviews _ _ hdeltas =>
    rw [hpreviews, get_set] at hpreview'
    split at hpreview'
    · next hrun =>
        cases hpreview'
        subst hevent hrun hnext
        dsimp only [previewEvent]
        rw [ownChanges_step, hdeltas, filter_isOf_self]
        cases hheld : w.state.previews.get delivery.runId with
        | none =>
          rw [hheld] at hchanges
          exact ⟨body.changes, List.sublist_append_right _ _, hchanges⟩
        | some held =>
          rw [hheld, Option.elim_some] at hchanges
          have houtdated := haccepted.2.2.2
          rw [hheld, Option.any_some, outdatedBy, Bool.or_eq_false_iff, Bool.or_eq_false_iff] at houtdated
          by_cases hsame : held.attemptFence = delivery.authorityAttemptFence ∧ held.generation = body.generation
          · -- the held preview is of the same pair: its text goes on
            obtain ⟨changes, hsub, hchanged⟩ := h delivery.runId held hheld
            rw [hsame.1, hsame.2] at hsub
            refine ⟨changes ++ body.changes, hsub.append (.refl _), ?_⟩
            rw [List.foldlM_append, hchanged]
            exact hchanges
          · -- the held preview is older: each channel it fills starts anew
            have holder : behind held.attemptFence held.generation delivery.authorityAttemptFence body.generation =
                true := by
              have hnot := houtdated.1.1
              rw [previewEvent, behind_eq_false] at hnot
              rw [behind_eq_true]
              dsimp only at hnot
              omega
            obtain ⟨-, hmixes⟩ := hinOrder body hbody haccepted
            have hrestarts : ∀ channel, [] = channelText held channel ∨ Restarts body.changes channel := by
              intro channel
              by_contra hnone
              rw [not_or] at hnone
              refine hmixes ⟨held, channel, hheld, holder, Ne.symm hnone.1, fun change hchange hchannel hoffset => ?_⟩
              exact hnone.2 ⟨change, hchange, hchannel, hoffset⟩
            obtain ⟨own, hsub, hown⟩ := foldlM_applyChange_rebased hchanges (hrestarts .reasoning) (hrestarts .text)
            exact ⟨own, hsub.trans (List.sublist_append_right _ _), hown⟩
    · exact hold runId preview hpreview'

theorem run_fenced (h : Fenced w.state) (events : List ConnectionEvent) : Fenced (w.run events).state := by
  induction events generalizing w with
  | nil => exact h
  | cons event events ih => exact ih ((applyConnectionEvent_step w.state event).fenced h)

theorem run_fencesKept (w : Watched) (events : List ConnectionEvent) : FencesKept w.state (w.run events).state := by
  induction events generalizing w with
  | nil => exact .refl w.state
  | cons event events ih => exact (applyConnectionEvent_step w.state event).fencesKept.trans (ih (w.step event))

theorem shown_not_behind (h : Fenced w.state) (events : List ConnectionEvent) {runId : String}
    {earlier later : PreviewProjection} (hearlier : w.state.previews.get runId = some earlier)
    (hlater : (w.run events).state.previews.get runId = some later) :
    behind later.attemptFence later.generation earlier.attemptFence earlier.generation = false := by
  obtain ⟨fence, hfence, hkept⟩ := run_fencesKept w events runId earlier.fence (h runId earlier hearlier)
  have hsame := run_fenced h events runId later hlater
  rw [hfence] at hsame
  rw [Option.some_inj.mp hsame] at hkept
  exact hkept

section

variable (sessionId : String) (threadId : Option String) (snapshot : HostSessionSnapshot) (target : Option Target) (family : Option FamilyProjection)

theorem start_fenced : Fenced (start sessionId threadId snapshot target family).state := by
  rintro runId preview ⟨⟩

/-- When previews are neither late nor mixed, the pair shown never goes back, nor does anything cleared come back. -/
theorem previews_fenced (events : List ConnectionEvent)
    (h : Throughout step InOrder (start sessionId threadId snapshot target family) events) :
    let w := (start sessionId threadId snapshot target family).run events
    (∀ before after, events = before ++ after → ∀ runId earlier later,
        ((start sessionId threadId snapshot target family).run before).state.previews.get runId = some earlier →
          w.state.previews.get runId = some later →
            behind later.attemptFence later.generation earlier.attemptFence earlier.generation = false) ∧
      ClearsStay w ∧ OwnText w := by
  have hfenced := start_fenced sessionId threadId snapshot target family
  refine ⟨?_, ?_⟩
  · rintro before after rfl runId earlier later hearlier hlater
    rw [run, List.foldl_append] at hlater
    exact shown_not_behind (run_fenced hfenced before) after hearlier hlater
  · refine foldl_invariant (fun w => ClearsStay w ∧ OwnText w) ?_ ⟨?_, ?_⟩ h
    · rintro w event ⟨hclears, hown⟩ hinOrder
      exact ⟨clearsStay_step hclears hinOrder, ownText_step hown hinOrder⟩
    · rintro clear ⟨⟩
    · rintro runId preview ⟨⟩

end

def sampleStart : Watched :=
  start "session" none ⟨⟨"session", none, none, none, []⟩, 0, [], ⟨none, [], none⟩⟩ none none

def sampleEvent (body : PreviewBody) : ConnectionEvent := .previewDelivery ⟨"session", "run", 1, "run", body⟩

def sampleText (generation sequence : Int) (channel : Channel) (offset : Nat) (delta : String) : ConnectionEvent :=
  sampleEvent (.modelPreview ⟨"call", "attempt", 1, generation, sequence, [⟨channel, offset, utf16 delta⟩]⟩)

def sampleEvents : List ConnectionEvent :=
  [sampleText 0 1 .text 0 "he", sampleText 0 2 .text 2 "llo", sampleEvent (.modelPreviewCleared 0),
    sampleText 1 1 .text 0 "again"]

theorem sampleEvents_inOrder : Throughout step InOrder sampleStart sampleEvents := by
  refine ⟨?_, ?_, ?_, ?_, trivial⟩
  all_goals
    intro preview hbody _
    cases hbody
  · exact ⟨by rintro ⟨clear, ⟨⟩, -⟩, by rintro ⟨held, channel, ⟨⟩, -⟩⟩
  · refine ⟨by rintro ⟨clear, ⟨⟩, -⟩, ?_⟩
    rintro ⟨held, channel, hheld, hbehind, -⟩
    obtain rfl := Option.some_inj.mp hheld
    revert hbehind
    decide
  · refine ⟨?_, by rintro ⟨held, channel, ⟨⟩, -⟩⟩
    rintro ⟨clear, hclear, -, hbehind⟩
    obtain rfl := List.mem_singleton.mp hclear
    revert hbehind
    decide

theorem previews_fenced_sample :
    ClearsStay (sampleStart.run sampleEvents) ∧ OwnText (sampleStart.run sampleEvents) ∧
      ((sampleStart.run sampleEvents).state.previews.get "run").map (·.text) = some (utf16 "again") := by
  obtain ⟨-, hclears, hown⟩ := previews_fenced "session" none ⟨⟨"session", none, none, none, []⟩, 0, [], ⟨none, [], none⟩⟩
    none none sampleEvents sampleEvents_inOrder
  exact ⟨hclears, hown, by decide⟩

/-- A preview repeated after its clear is shown again; and the reasoning of an older
generation goes on under the text of a newer one. -/
theorem preview_revived_or_mixed : ¬ ClearsStay (sampleStart.run
      [sampleText 0 1 .text 0 "ghost", sampleEvent (.modelPreviewCleared 0), sampleText 0 1 .text 0 "ghost"]) ∧
    ¬ OwnText (sampleStart.run [sampleText 0 1 .reasoning 0 "old", sampleText 1 1 .text 0 "new"]) := by
  constructor
  · intro h
    have hbehind := h ⟨"run", 1, 0⟩ (by decide) ⟨"run", 1, "call", "attempt", 1, 0, 1, [], utf16 "ghost", 0⟩ (by decide)
    revert hbehind
    decide
  · intro h
    obtain ⟨changes, hsub, hchanges⟩ := h "run" ⟨"run", 1, "call", "attempt", 1, 1, 1, utf16 "old", utf16 "new", 0⟩
      (by decide)
    have hown : ownChanges (sampleStart.run [sampleText 0 1 .reasoning 0 "old", sampleText 1 1 .text 0 "new"]) "run" 1 1 =
        [⟨.text, 0, utf16 "new"⟩] := by decide
    rw [hown, List.sublist_singleton] at hsub
    rcases hsub with rfl | rfl <;> revert hchanges <;> decide

end Watched

end Rika.Projection
