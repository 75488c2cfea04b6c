import Rika.Projection

namespace Rika.Projection

variable {state : ProjectionState} {update : ConversationUpdate}

/-- The entries after an update: the loaded ones up to the one it names and its own, or its own
alone when it carries the whole window. -/
def SplicedOnto (loaded : List Entry) (update : ConversationUpdate) (entries : List Entry) : Prop :=
  if update.reset = true then entries = update.entries
  else
    match update.afterEntryId with
    | none => entries = update.entries
    | some afterEntryId =>
      ∃ before entry after, loaded = before ++ entry :: after ∧ entry.id = afterEntryId ∧
        (∀ other ∈ before, other.id ≠ afterEntryId) ∧ entries = before ++ entry :: update.entries

def missesEntry (loaded : List Entry) (update : ConversationUpdate) : Bool :=
  !update.reset && update.afterEntryId.any fun afterEntryId => loaded.all fun entry => entry.id ≠ afterEntryId

/-- What the result of a conversation event has to be. -/
structure SplicesOnly (state : ProjectionState) (update : ConversationUpdate) (result : ProjectionResult) : Prop where
  applied : ∀ state', result = .applied state' →
    SplicedOnto state.snapshot.conversation.entries update state'.snapshot.conversation.entries
  missing : missesEntry state.snapshot.conversation.entries update = true →
    (∀ state', result ≠ .applied state') ∧
      result.state.snapshot.conversation.entries = state.snapshot.conversation.entries ∧ result.state.needsSnapshot = true

variable {loaded : List Entry} {sessionId : String} {cursor : Nat}

theorem missesEntry_iff : missesEntry loaded update = true ↔
      update.reset = false ∧ ∃ afterEntryId, update.afterEntryId = some afterEntryId ∧
        ∀ entry ∈ loaded, entry.id ≠ afterEntryId := by
  rw [missesEntry, Bool.and_eq_true, Bool.not_eq_true', Option.any_eq_true]
  simp only [List.all_eq_true, decide_eq_true_eq]

theorem retainedEntries_of_mem {afterEntryId : String} (h : ∃ entry ∈ loaded, entry.id = afterEntryId) :
    ∃ before entry after, loaded = before ++ entry :: after ∧ entry.id = afterEntryId ∧
      (∀ other ∈ before, other.id ≠ afterEntryId) ∧
        retainedEntries loaded (some afterEntryId) = before ++ [entry] := by
  induction loaded with
  | nil =>
    obtain ⟨entry, hmem, _⟩ := h
    cases hmem
  | cons first rest ih =>
    by_cases hfirst : first.id = afterEntryId
    · refine ⟨[], first, rest, rfl, hfirst, nofun, ?_⟩
      rw [retainedEntries, List.findIdx?_cons, decide_eq_true hfirst]
      rfl
    · obtain ⟨entry, hmem, hid⟩ := h
      have hrest : ∃ entry ∈ rest, entry.id = afterEntryId := by
        cases hmem with
        | head => exact absurd hid hfirst
        | tail _ hmem => exact ⟨entry, hmem, hid⟩
      obtain ⟨before, found, after, hsplit, hfound, hbefore, hretained⟩ := ih hrest
      refine ⟨first :: before, found, after, congrArg (first :: ·) hsplit, hfound,
        List.forall_mem_cons.mpr ⟨hfirst, hbefore⟩, ?_⟩
      rw [retainedEntries] at hretained ⊢
      rw [List.findIdx?_cons, decide_eq_false hfirst]
      cases hindex : rest.findIdx? fun entry => entry.id = afterEntryId with
      | none =>
        rw [hindex] at hretained
        cases before <;> cases hretained
      | some index =>
        rw [hindex] at hretained
        exact congrArg (first :: ·) hretained

/-- What `applyConversation` gives for the entries is right unless the entry is missing. -/
theorem splicedOnto_of_loaded (h : missesEntry loaded update = false) : SplicedOnto loaded update
      (if update.reset then update.entries else retainedEntries loaded update.afterEntryId ++ update.entries) := by
  rw [SplicedOnto]
  split
  · next hreset => rfl
  · next hreset =>
      cases hafter : update.afterEntryId with
      | none => rfl
      | some afterEntryId =>
        have hloaded : ∃ entry ∈ loaded, entry.id = afterEntryId := by
          by_contra hnone
          have hmisses : missesEntry loaded update = true :=
            missesEntry_iff.mpr ⟨Bool.eq_false_iff.mpr hreset, afterEntryId, hafter, fun entry hmem hid =>
              hnone ⟨entry, hmem, hid⟩⟩
          rw [h] at hmisses
          cases hmisses
        obtain ⟨before, entry, after, hsplit, hid, hbefore, hretained⟩ := retainedEntries_of_mem hloaded
        refine ⟨before, entry, after, hsplit, hid, hbefore, ?_⟩
        rw [hretained, List.append_assoc]
        rfl

section

variable (state : ProjectionState) (sessionId : String) (cursor : Nat)

def setAside : Bool :=
  sessionId ≠ state.sessionId || cursor ≤ state.committedCursor

def outOfStep (state : ProjectionState) (cursor : Nat) (update : ConversationUpdate) : Bool :=
  cursor ≠ state.committedCursor + 1 || update.previousLeafId ≠ state.snapshot.conversation.leafId

/-- The event is spliced where it belongs, or does not get as far. -/
def Guarded (update : ConversationUpdate) : Prop :=
  missesEntry state.snapshot.conversation.entries update = false ∨
    if setAside state sessionId cursor = true then state.needsSnapshot = true else outOfStep state cursor update = true

end

theorem applyConnectionEvent_setAside {sessionId : String} {cursor : Nat} (h : setAside state sessionId cursor = true) :
    (∀ state', applyConnectionEvent state (.committed sessionId cursor (.conversation update)) ≠ .applied state') ∧
      (applyConnectionEvent state (.committed sessionId cursor (.conversation update))).state = state := by
  rw [setAside, Bool.or_eq_true, decide_eq_true_eq, decide_eq_true_eq] at h
  rw [applyConnectionEvent]
  by_cases hsession : sessionId = state.sessionId
  · rw [if_neg (not_not_intro hsession), applyCommitted, if_pos (h.resolve_left (not_not_intro hsession))]
    exact ⟨fun _ => ProjectionResult.noConfusion, rfl⟩
  · rw [if_pos hsession]
    exact ⟨fun _ => ProjectionResult.noConfusion, rfl⟩

theorem applyConnectionEvent_outOfStep (hfresh : setAside state sessionId cursor = false)
    (h : outOfStep state cursor update = true) :
    ∃ reason, applyConnectionEvent state (.committed sessionId cursor (.conversation update)) =
      .rejected { state with needsSnapshot := true } reason := by
  rw [setAside, Bool.or_eq_false_iff, decide_eq_false_iff_not, decide_eq_false_iff_not] at hfresh
  rw [outOfStep, Bool.or_eq_true, decide_eq_true_eq, decide_eq_true_eq] at h
  rw [applyConnectionEvent, if_neg hfresh.1, applyCommitted, if_neg hfresh.2]
  by_cases hcursor : cursor = state.committedCursor + 1
  · have hbody : applyBody state.snapshot (.conversation update) = none := by
      rw [applyBody, applyConversation, if_pos (h.resolve_left (not_not_intro hcursor))]
    rw [if_neg (not_not_intro hcursor), hbody]
    exact ⟨_, rfl⟩
  · rw [if_pos hcursor]
    exact ⟨_, rfl⟩

theorem applyConnectionEvent_inStep (hfresh : setAside state sessionId cursor = false)
    (h : outOfStep state cursor update = false) :
    ∃ state', applyConnectionEvent state (.committed sessionId cursor (.conversation update)) = .applied state' ∧
      state'.snapshot.conversation.entries =
        if update.reset then update.entries
        else retainedEntries state.snapshot.conversation.entries update.afterEntryId ++ update.entries := by
  rw [setAside, Bool.or_eq_false_iff, decide_eq_false_iff_not, decide_eq_false_iff_not] at hfresh
  rw [outOfStep, Bool.or_eq_false_iff, decide_eq_false_iff_not, decide_eq_false_iff_not] at h
  rw [applyConnectionEvent, if_neg hfresh.1, applyCommitted, if_neg hfresh.2, if_neg h.1]
  have hbody : applyBody state.snapshot (.conversation update) = some
      { state.snapshot with
        conversation :=
          { leafId := update.leafId
            entries := if update.reset then update.entries
              else retainedEntries state.snapshot.conversation.entries update.afterEntryId ++ update.entries
            nextLeafId := update.nextLeafId.or state.snapshot.conversation.nextLeafId } } := by
    rw [applyBody, applyConversation, if_neg h.2]
  rw [hbody]
  exact ⟨_, rfl, rfl⟩

/-- An update is spliced onto the entry it names exactly when that is loaded, or the event is
turned away before. -/
theorem splicesOnly_iff (state : ProjectionState) (sessionId : String) (cursor : Nat) (update : ConversationUpdate) :
    SplicesOnly state update (applyConnectionEvent state (.committed sessionId cursor (.conversation update))) ↔
      Guarded state sessionId cursor update := by
  rw [Guarded]
  cases haside : setAside state sessionId cursor with
  | true =>
    obtain ⟨hnot, hstate⟩ := @applyConnectionEvent_setAside _ update _ _ haside
    rw [if_pos rfl]
    constructor
    · intro h
      cases hmisses : missesEntry state.snapshot.conversation.entries update with
      | false => exact Or.inl rfl
      | true =>
        have hsnapshot := (h.missing hmisses).2.2
        rw [hstate] at hsnapshot
        exact Or.inr hsnapshot
    · intro h
      refine ⟨fun state' happlied => absurd happlied (hnot state'), fun hmisses => ⟨hnot, ?_⟩⟩
      rw [hstate]
      refine ⟨rfl, h.resolve_left ?_⟩
      rw [hmisses]
      exact Bool.noConfusion
  | false =>
    rw [if_neg Bool.false_ne_true]
    cases hstep : outOfStep state cursor update with
    | true =>
      obtain ⟨reason, hresult⟩ := applyConnectionEvent_outOfStep haside hstep
      rw [hresult]
      refine iff_of_true ⟨fun state' happlied => ?_, fun _ => ⟨fun _ => ProjectionResult.noConfusion, rfl, rfl⟩⟩
        (Or.inr rfl)
      cases happlied
    | false =>
      obtain ⟨state', hresult, hentries⟩ := applyConnectionEvent_inStep haside hstep
      rw [hresult]
      constructor
      · intro h
        cases hmisses : missesEntry state.snapshot.conversation.entries update with
        | false => exact Or.inl rfl
        | true => exact absurd rfl ((h.missing hmisses).1 state')
      · intro h
        have hloaded := h.resolve_right Bool.false_ne_true
        refine ⟨fun state'' happlied => ?_, fun hmisses => ?_⟩
        · cases happlied
          rw [hentries]
          exact splicedOnto_of_loaded hloaded
        · rw [hloaded] at hmisses
          cases hmisses

/-- An update after an entry that is not loaded drops the window. -/
theorem window_dropped :
    let state := projectSnapshot
      { sessionId := "session"
        snapshot := ⟨⟨"session", none, none, none, []⟩, 0, [], ⟨some "second", [⟨"second", none, []⟩], some "first"⟩⟩ }
    let update : ConversationUpdate := ⟨some "second", some "third", false, some "first", [⟨"third", none, []⟩], none⟩
    let result := applyConnectionEvent state (.committed "session" 1 (.conversation update))
    (∃ state', result = .applied state' ∧ state'.snapshot.conversation.entries = [⟨"third", none, []⟩] ∧
      state'.needsSnapshot = false) ∧ ¬SplicesOnly state update result := by
  refine ⟨⟨_, rfl, rfl, rfl⟩, fun h => ?_⟩
  exact (h.missing (by decide)).1 _ rfl

end Rika.Projection
