import Rika.FeedAgreement

namespace Rika.ThreadViewFeed

open ThreadView Selection Accumulator

variable {collation : Collation}

/-- Where the feed knows a revision of a turn its view shows, it is the
revision the view shows, unless a fresh snapshot has been asked for. -/
def Based (feed : Feed collation) : Prop :=
  feed.snapshotRequired = true ∨
    ∀ view, feed.current = some view → ∀ turnId state, view.turn turnId = some state →
      ∀ revision, feed.knownProjectionRevisions.get turnId = some revision → revision = state.projectionRevision

/-! ### What the feed remembers -/

section

variable (feed : Feed collation)

variable {key : String} {known : Finite} {entry : ThreadViewTurn}

theorem rememberProjection_get {turnId : String} {revision : Finite} {usage : Usage.UsageState}
    (h : (feed.rememberProjection turnId revision usage).knownProjectionRevisions.get key = some known) :
    key = turnId ∧ known = revision ∨ key ≠ turnId ∧ feed.knownProjectionRevisions.get key = some known := by
  have hget := InsertionMap.get_evict h
  rw [InsertionMap.get_set] at hget
  by_cases hk : key = turnId
  · rw [if_pos hk, Option.some_inj] at hget
    exact .inl ⟨hk, hget.symm⟩
  · rw [if_neg hk, InsertionMap.get_delete, if_neg hk] at hget
    exact .inr ⟨hk, hget⟩

theorem rememberTurn_known (entry : ThreadViewTurn) :
    (feed.rememberTurn entry).knownProjectionRevisions =
      match feed.knownProjectionRevisions.get entry.turn.id with
      | none =>
        if (terminalStatus entry.turn.status).isNone then
          (feed.rememberProjection entry.turn.id entry.projectionRevision entry.usage).knownProjectionRevisions
        else feed.knownProjectionRevisions
      | some revision =>
        if revision ≤ entry.projectionRevision then
          (feed.rememberProjection entry.turn.id entry.projectionRevision entry.usage).knownProjectionRevisions
        else feed.knownProjectionRevisions := by
  have hterminal : ∀ status, (feed.rememberTerminal entry.turn.id status).knownProjectionRevisions =
      feed.knownProjectionRevisions := fun _ => rfl
  simp only [Feed.rememberTurn]
  cases terminalStatus entry.turn.status with
  | none =>
    cases feed.knownProjectionRevisions.get entry.turn.id with
    | none => rfl
    | some revision => simp only; split <;> rfl
  | some status =>
    simp only [hterminal]
    cases feed.knownProjectionRevisions.get entry.turn.id with
    | none => rfl
    | some revision => simp only; split <;> rfl

theorem rememberTurn_get (h : (feed.rememberTurn entry).knownProjectionRevisions.get key = some known) :
    key = entry.turn.id ∧ known = entry.projectionRevision ∨
      feed.knownProjectionRevisions.get key = some known ∧
        (key = entry.turn.id → entry.projectionRevision < known) := by
  rw [rememberTurn_known] at h
  split at h
  · next hnone =>
      split at h
      · exact (rememberProjection_get feed h).imp_right fun hk => ⟨hk.2, fun he => absurd he hk.1⟩
      · refine .inr ⟨h, fun he => ?_⟩
        rw [he, hnone] at h
        cases h
  · next revision hrevision =>
      split at h
      · exact (rememberProjection_get feed h).imp_right fun hk => ⟨hk.2, fun he => absurd he hk.1⟩
      · next hlt =>
          refine .inr ⟨h, fun he => ?_⟩
          rw [he, hrevision, Option.some_inj] at h
          exact h ▸ not_le.mp hlt

theorem rememberTurns_get {turns : List ThreadViewTurn} (hnodup : (turns.map (·.turn.id)).Nodup)
    (hfresh : ∀ entry ∈ turns, ∀ known, feed.knownProjectionRevisions.get entry.turn.id = some known →
      known ≤ entry.projectionRevision) (hentry : entry ∈ turns)
    (h : (turns.foldl Feed.rememberTurn feed).knownProjectionRevisions.get entry.turn.id = some known) :
    known = entry.projectionRevision := by
  have hother : ∀ (turns : List ThreadViewTurn) (feed : Feed collation) (key : String),
      key ∉ turns.map (·.turn.id) →
      (turns.foldl Feed.rememberTurn feed).knownProjectionRevisions.get key = some known →
      feed.knownProjectionRevisions.get key = some known := by
    intro turns
    induction turns with
    | nil => exact fun feed key _ h => h
    | cons first turns ih =>
      intro feed key hkey h
      simp only [List.map_cons, List.mem_cons, not_or] at hkey
      rcases rememberTurn_get feed (ih _ key hkey.2 h) with ⟨he, -⟩ | ⟨hget, -⟩
      · exact absurd he hkey.1
      · exact hget
  induction turns generalizing feed with
  | nil => cases hentry
  | cons first turns ih =>
    simp only [List.map_cons, List.nodup_cons] at hnodup
    rw [List.foldl_cons] at h
    rcases List.mem_cons.mp hentry with rfl | hentry
    · rcases rememberTurn_get feed (hother turns _ _ hnodup.1 h) with ⟨-, heq⟩ | ⟨hget, hlt⟩
      · exact heq
      · exact absurd (hfresh entry (by simp) known hget) (not_le.mpr (hlt rfl))
    · refine ih _ hnodup.2 ?_ hentry h
      intro entry' hentry' known' hget
      have hne : entry'.turn.id ≠ first.turn.id := fun he =>
        hnodup.1 (he ▸ List.mem_map_of_mem hentry')
      rcases rememberTurn_get feed hget with ⟨he, -⟩ | ⟨hget, -⟩
      · exact absurd he hne
      · exact hfresh entry' (by simp [hentry']) known' hget

end

/-! ### What a patch of the feed does to its view -/

variable {view : View collation} {feed : Feed collation} {change : Feed.Change}

theorem View.turn_id {turnId : String} {state : ThreadViewTurnState}
    (h : view.turn turnId = some state) : state.turn.id = turnId := by
  obtain ⟨indexed, hindexed, rfl⟩ := turn_eq_some.mp h
  exact (view.consistent.index.filed turnId indexed hindexed).turn_id

theorem View.apply_turn {view' : View collation} {patch : ThreadViewPatch} {delta : ThreadViewDelta}
    (h : view.apply patch = (.ok delta, view')) :
    (∀ turnId, view'.turn turnId = changedTurns patch turnId (view.turn turnId)) ∧
      ∀ change ∈ patch.turnChanges, turnChangeError view.acc change = none := by
  have happly := View.apply_eq h
  rcases apply_cases view.consistent patch with ⟨error, he⟩ | ⟨delta', a', he, hadmitted, -, -, -, hturn⟩
  · rw [he] at happly
    cases happly
  · rw [he] at happly
    obtain ⟨-, ha'⟩ := Prod.mk.inj (Option.some_inj.mp happly)
    subst ha'
    exact ⟨hturn, hadmitted.changes⟩

/-- A patch of the feed is dropped or rejected, and then a snapshot is
required, or its turn changes are made to the view and nothing else is. -/
theorem nextPatch_cases (feed : Feed collation) (change : Feed.Change) :
    (feed.nextPatch change).2.snapshotRequired = true ∨
    (feed.nextPatch change).2 = feed ∧ feed.current = none ∨
    ∃ view view', feed.current = some view ∧ (feed.nextPatch change).2 = { feed with current := some view' } ∧
      (feed.nextPatch change).1.any Feed.isResyncRequired = false ∧
      (∀ turnId, view'.turn turnId = change.turnChanges.foldl (changedTurn turnId) (view.turn turnId)) ∧
      ∀ turnChange ∈ change.turnChanges, turnChangeError view.acc turnChange = none := by
  cases hcurrent : feed.current with
  | none => exact .inr (.inl ⟨by simp [Feed.nextPatch, hcurrent], rfl⟩)
  | some view =>
    cases hrequired : feed.snapshotRequired with
    | true => exact .inl (by simp [Feed.nextPatch, hcurrent, hrequired])
    | false =>
      simp only [Feed.nextPatch, hcurrent, hrequired, Feed.patch, Bool.false_eq_true, if_false]
      split
      · exact .inl rfl
      · next delta view' happly =>
          obtain ⟨hturn, hchanges⟩ := View.apply_turn happly
          exact .inr (.inr ⟨view, view', rfl, rfl, rfl, hturn, hchanges⟩)

theorem nextPatch_required (h : feed.snapshotRequired = true) : (feed.nextPatch change).2.snapshotRequired = true := by
  rw [Feed.nextPatch]
  split
  · exact h
  · simp [h]

theorem nextPatch_known (feed : Feed collation) (change : Feed.Change) :
    (feed.nextPatch change).2.knownProjectionRevisions = feed.knownProjectionRevisions := by
  rw [Feed.nextPatch]
  split
  · rfl
  · split
    · rfl
    · simp only [Feed.patch]
      split
      · rfl
      · split
        · rfl
        · split <;> rfl

theorem nextPatch_based (hfeed : Based feed)
    (hchange : change.turnChanges = [] ∨ ∃ state, change.turnChanges = [.upsertTurn state] ∧
      ∀ view, feed.current = some view → turnChangeError view.acc (.upsertTurn state) = none →
        ∀ known, feed.knownProjectionRevisions.get state.turn.id = some known → known = state.projectionRevision) :
    Based (feed.nextPatch change).2 := by
  rcases hfeed with hrequired | hfeed
  · exact .inl (nextPatch_required hrequired)
  · rcases nextPatch_cases feed change with hrequired | ⟨heq, hnone⟩ | ⟨view, view', hview, heq, -, hturn, herror⟩
    · exact .inl hrequired
    · rw [heq]
      exact .inr hfeed
    · rw [heq]
      refine .inr fun view'' hview'' turnId state hstate known hknown => ?_
      obtain rfl : view' = view'' := Option.some_inj.mp hview''
      rw [hturn] at hstate
      rcases hchange with hnil | ⟨changed, hsingle, hchanged⟩
      · rw [hnil] at hstate
        exact hfeed view hview turnId state hstate known hknown
      · rw [hsingle] at hstate herror
        rw [List.foldl_cons, List.foldl_nil] at hstate
        by_cases hid : changed.turn.id = turnId
        · subst hid
          rw [changedTurn_upsertTurn rfl, Option.some_inj] at hstate
          subst hstate
          exact hchanged view hview (herror _ (by simp)) known hknown
        · have hne : (ThreadViewTurnChange.upsertTurn changed).key ≠ turnId := hid
          rw [changedTurn_of_ne hne] at hstate
          exact hfeed view hview turnId state hstate known hknown

end Rika.ThreadViewFeed
