import Rika.FeedOutcome

namespace Rika.ThreadViewFeed

open ThreadView Selection Accumulator

variable {collation : Collation}

/-! ### Views that differ in what they keep computed -/

def uncached (a : ThreadViewAccumulator) : ThreadViewAccumulator := { a with materialized := none }

def View.Same (view view' : View collation) : Prop := uncached view.acc = uncached view'.acc

theorem apply_uncached {a b a' : ThreadViewAccumulator} {patch : ThreadViewPatch} {delta : ThreadViewDelta}
    (hab : uncached a = uncached b) (h : Accumulator.apply a patch = some (.ok delta, a')) :
    Accumulator.apply b patch = some (.ok delta, a') := by
  have hindex : a.toTurnIndex = b.toTurnIndex := congrArg (·.toTurnIndex) hab
  have hheader : a.currentHeader = b.currentHeader := congrArg (·.currentHeader) hab
  have hcheck : check a patch = check b patch :=
    show check (uncached a) patch = check (uncached b) patch from hab ▸ rfl
  simp only [Accumulator.apply, hcheck, hindex, hheader] at h ⊢
  split at h
  · cases h
  · exact h

theorem View.Same.apply {view view' next : View collation} {patch : ThreadViewPatch} {delta : ThreadViewDelta}
    (hsame : view.Same view') (h : view.apply patch = (.ok delta, next)) :
    ∃ next', view'.apply patch = (.ok delta, next') ∧ next.Same next' := by
  have happly := apply_uncached hsame (View.apply_eq h)
  cases h' : view'.apply patch with
  | mk result next' =>
    rw [View.apply_eq h'] at happly
    obtain ⟨hresult, hacc⟩ := Prod.mk.inj (Option.some_inj.mp happly)
    exact ⟨next', by rw [hresult], by rw [View.Same, hacc]⟩

theorem View.Same.view {view view' : View collation} (hsame : view.Same view') :
    view.snapshot.1 = view'.snapshot.1 := by
  have h : (uncached view.acc).view collation = (uncached view'.acc).view collation :=
    congrArg (ThreadViewAccumulator.view collation) hsame
  change view.acc.view collation = view'.acc.view collation at h
  rw [View.snapshot, View.snapshot, snapshot_fst view.consistent, snapshot_fst view'.consistent, h]

theorem snapshot_uncached (a : ThreadViewAccumulator) : uncached (a.snapshot collation).2 = uncached a := by
  rw [ThreadViewAccumulator.snapshot]
  split <;> rfl

/-! ### A feed and its client -/

/-- A feed with a client that has received everything it emitted, and refuses what its own view cannot take. -/
structure Session (collation : Collation) where
  feed : Feed collation := {}
  client : Option (View collation) := none
  emitted : List ClientEvent := []
  refused : Bool := false

def receive (client : Option (View collation) × Bool) : ClientEvent → Option (View collation) × Bool
  | .threadViewSnapshot snapshot =>
    match View.hydrate collation snapshot with
    | .ok view => (some view, client.2)
    | .error _ => (client.1, true)
  | .threadViewPatch patch =>
    match client.1 with
    | none => (none, true)
    | some view =>
      match view.apply patch with
      | (.ok _, view) => (some view, client.2)
      | (.error _, view) => (some view, true)
  | .resyncRequired _ | .threadTitled _ _ | .executionModelPreviewChanged _ _ _ | .notice _ => client

inductive SessionCall
  | publish (now : Finite) (event : RuntimeEvent)
  | readFeed
  | readClient

namespace Session

def step (s : Session collation) : SessionCall → Session collation
  | .publish now event =>
    let answer := s.feed.publish now event
    let client := answer.1.foldl receive (s.client, s.refused)
    { feed := answer.2, client := client.1, emitted := s.emitted ++ answer.1, refused := client.2 }
  | .readFeed => { s with feed := s.feed.currentView.2 }
  | .readClient => { s with client := s.client.map (·.snapshot.2) }

def run (calls : List SessionCall) : Session collation := calls.foldl step {}

def clientView (s : Session collation) : Option ThreadViewSnapshot := s.client.map (·.snapshot.1)

end Session

def awaitsSnapshot (emitted : List ClientEvent) : Bool :=
  emitted.foldl (fun awaits e =>
    match e with
    | .resyncRequired _ => true
    | .threadViewSnapshot _ => false
    | .threadViewPatch _ | .threadTitled _ _ | .executionModelPreviewChanged _ _ _ | .notice _ => awaits) false

theorem awaitsSnapshot_quiet {emitted out : List ClientEvent} (hout : ∀ e ∈ out, isViewEvent e = false) :
    awaitsSnapshot (emitted ++ out) = awaitsSnapshot emitted := by
  induction out generalizing emitted with
  | nil => simp
  | cons e out ih =>
    have he := hout e (by simp)
    rw [← List.singleton_append, ← List.append_assoc, ih (fun e' h => hout e' (by simp [h]))]
    cases e <;> simp_all [awaitsSnapshot, isViewEvent]

theorem receive_quiet {out : List ClientEvent} (hout : ∀ e ∈ out, isViewEvent e = false)
    (client : Option (View collation) × Bool) : out.foldl receive client = client := by
  induction out with
  | nil => rfl
  | cons e out ih =>
    have he := hout e (by simp)
    rw [List.foldl_cons]
    cases e <;> simp_all [receive, isViewEvent]

/-- The client never had to refuse, shows what the feed shows, and the feed is silent while a resync is outstanding. -/
structure Session.Agrees (s : Session collation) : Prop where
  accepted : s.refused = false
  same : ∀ view, s.feed.current = some view → ∃ view', s.client = some view' ∧ view.Same view'
  required : awaitsSnapshot s.emitted = true → s.feed.snapshotRequired = true
  absent : s.feed.current = none →
    (∀ snapshot, .threadViewSnapshot snapshot ∉ s.emitted) ∨ awaitsSnapshot s.emitted = true

theorem publish_agrees {s : Session collation} (hs : s.Agrees) (now : Finite) (event : RuntimeEvent) :
    (s.step (.publish now event)).Agrees := by
  have houtcome := publish_outcome s.feed now event
  simp only [Session.step]
  generalize s.feed.publish now event = answer at houtcome ⊢
  cases houtcome with
  | quiet hout hcurrent hrequired =>
    rw [receive_quiet hout]
    refine ⟨hs.accepted, ?_, ?_, ?_⟩
    · intro view hview
      exact hs.same view (hcurrent ▸ hview)
    · intro h
      rw [awaitsSnapshot_quiet hout] at h
      exact hrequired.trans (hs.required h)
    · intro h
      rw [awaitsSnapshot_quiet hout]
      refine (hs.absent (hcurrent ▸ h)).imp_left fun hnone snapshot hmem => ?_
      rcases List.mem_append.mp hmem with hmem | hmem
      · exact hnone snapshot hmem
      · exact absurd (hout _ hmem) (by simp [isViewEvent])
  | resync hcurrent hsome hrequired =>
    refine ⟨hs.accepted, fun view hview => hs.same view (hcurrent ▸ hview), fun _ => hrequired, ?_⟩
    intro _
    right
    simp [awaitsSnapshot]
  | lost hevent hcurrent hrequired =>
    refine ⟨hs.accepted, fun view hview => ?_, fun _ => hrequired, ?_⟩
    · rw [hcurrent] at hview
      cases hview
    · intro _
      right
      simp [awaitsSnapshot]
  | loaded hview hcurrent hrequired =>
    simp only [List.foldl_cons, List.foldl_nil, receive, hview]
    refine ⟨hs.accepted, ?_, ?_, ?_⟩
    · intro view' hview'
      rw [hcurrent] at hview'
      cases hview'
      exact ⟨_, rfl, rfl⟩
    · simp [awaitsSnapshot]
    · intro h
      rw [hcurrent] at h
      cases h
  | patched hview hnot happly hcurrent hrequired =>
    obtain ⟨client, hclient, hsame⟩ := hs.same _ hview
    obtain ⟨next, hnext, hsame'⟩ := hsame.apply happly
    simp only [List.foldl_cons, List.foldl_nil, receive, hclient, hnext]
    refine ⟨hs.accepted, ?_, ?_, ?_⟩
    · intro view' hview'
      rw [hcurrent] at hview'
      cases hview'
      exact ⟨next, rfl, hsame'⟩
    · intro h
      have hrequired' := hs.required (by simpa [awaitsSnapshot] using h)
      rw [hnot] at hrequired'
      cases hrequired'
    · intro h
      rw [hcurrent] at h
      cases h

theorem step_agrees {s : Session collation} (hs : s.Agrees) (c : SessionCall) : (s.step c).Agrees := by
  cases c with
  | publish now event => exact publish_agrees hs now event
  | readFeed =>
    simp only [Session.step, Feed.currentView]
    cases hcurrent : s.feed.current with
    | none => exact hs
    | some view =>
      refine ⟨hs.accepted, ?_, hs.required, fun h => by cases h⟩
      intro view' hview'
      cases hview'
      obtain ⟨client, hclient, hsame⟩ := hs.same view hcurrent
      exact ⟨client, hclient, (snapshot_uncached view.acc).trans hsame⟩
  | readClient =>
    refine ⟨hs.accepted, ?_, hs.required, hs.absent⟩
    intro view hview
    obtain ⟨client, hclient, hsame⟩ := hs.same view hview
    refine ⟨client.snapshot.2, by simp [Session.step, hclient], ?_⟩
    exact hsame.trans (snapshot_uncached client.acc).symm

theorem run_agrees (calls : List SessionCall) : (Session.run calls : Session collation).Agrees := by
  have hinit : (({} : Session collation)).Agrees :=
    { accepted := rfl
      same := fun view h => nomatch h
      required := fun h => nomatch h
      absent := fun _ => .inl fun snapshot h => nomatch h }
  exact List.foldlRecOn calls Session.step hinit fun s hs c _ => step_agrees hs c

theorem currentView_eq_some {feed : Feed collation} {snapshot : ThreadViewSnapshot} :
    feed.currentView.1 = some snapshot ↔ ∃ view, feed.current = some view ∧ view.snapshot.1 = snapshot := by
  rw [Feed.currentView]
  cases feed.current <;> simp

theorem currentView_eq_none {feed : Feed collation} : feed.currentView.1 = none ↔ feed.current = none := by
  rw [Feed.currentView]
  cases feed.current <;> simp

/-- In every session the client accepts all it receives and holds the view that the feed holds, once there is one. -/
theorem session_agrees (calls : List SessionCall) :
    let s : Session collation := .run calls
    s.refused = false ∧
    (∀ view, s.feed.currentView.1 = some view → s.clientView = some view) ∧
    (s.feed.currentView.1 = none →
      (∀ snapshot, .threadViewSnapshot snapshot ∉ s.emitted) ∨ awaitsSnapshot s.emitted = true) ∧
    (∀ now event, s.feed.currentView.1.isSome = true → (s.feed.publish now event).2.currentView.1 = none →
      ∃ loaded error, event = .selectionLoaded loaded ∧
        (s.feed.publish now event).1 = [.resyncRequired error]) ∧
    (awaitsSnapshot s.emitted = true → ∀ now event patch,
      .threadViewPatch patch ∉ (s.feed.publish now event).1) := by
  have hs : (Session.run calls : Session collation).Agrees := run_agrees calls
  refine ⟨hs.accepted, ?_, fun h => hs.absent (currentView_eq_none.mp h), ?_, ?_⟩
  · intro snapshot h
    obtain ⟨view, hview, rfl⟩ := currentView_eq_some.mp h
    obtain ⟨client, hclient, hsame⟩ := hs.same view hview
    simp [Session.clientView, hclient, hsame.view]
  · intro now event hsome hnone
    rw [currentView_eq_none] at hnone
    have hcurrent : (Session.run calls : Session collation).feed.current ≠ none := by
      rw [← currentView_eq_none.ne]
      exact Option.isSome_iff_ne_none.mp hsome
    have houtcome := publish_outcome (Session.run calls : Session collation).feed now event
    generalize (Session.run calls : Session collation).feed.publish now event = answer at houtcome hnone ⊢
    cases houtcome with
    | quiet hout hc hr | resync hc hsome hr => exact absurd (hc.symm.trans hnone) hcurrent
    | lost hevent hc hr => exact ⟨_, _, hevent, rfl⟩
    | loaded hview hc hr | patched hview hnot happly hc hr => exact absurd (hc.symm.trans hnone) (by simp)
  · intro hawaits now event patch hpatch
    have hrequired := hs.required hawaits
    have houtcome := publish_outcome (Session.run calls : Session collation).feed now event
    generalize (Session.run calls : Session collation).feed.publish now event = answer at houtcome hpatch
    cases houtcome with
    | quiet hout hc hr => exact absurd (hout _ hpatch) (by simp [isViewEvent])
    | resync hc hsome hr => simp at hpatch
    | lost hevent hc hr => simp at hpatch
    | loaded hview hc hr => simp at hpatch
    | patched hview hnot happly hc hr =>
      rw [hrequired] at hnot
      cases hnot

def sampleSelection (entries : List Entry) (queue : List QueueItem) : SelectionLoaded where
  thread := sampleThread "thread"
  entries := entries
  hasOlder := false
  hasNewer := none
  usage := ⟨Usage.emptyUsageState, none⟩
  oldestCursor := none
  newestCursor := none
  queue := queue
  activeTurn := none
  projectionCheckpoints := []

/-- A selection whose queue names a turn twice takes the feed's view away,
while the client keeps the view it had. -/
theorem session_loses_view :
    let queued : QueueItem := ⟨"turn", "prompt", 0, none⟩
    let s : Session .codePoint := .run
      [.publish 0 (.selectionLoaded (sampleSelection [] [])),
        .publish 0 (.selectionLoaded (sampleSelection [] [queued, queued]))]
    s.feed.currentView.1 = none ∧ s.clientView ≠ s.feed.currentView.1 := by
  intro queued s
  have hnone : s.feed.currentView.1 = none := rfl
  have hclient : s.clientView.isSome = true := rfl
  refine ⟨hnone, ?_⟩
  rw [hnone]
  exact Option.isSome_iff_ne_none.mp hclient

end Rika.ThreadViewFeed
