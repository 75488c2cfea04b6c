import Rika.ExecutionWatch

namespace Rika.ExecutionWatch

open ThreadViewFeed (ProjectionChange)

def Terminal (change : ProjectionChange) : Prop := change.state.status.isTerminalStatus = true

/-- Changes are in the stream's order, terminal ones after an inspection that reported them at the last cursor. -/
structure Settled (trace : List Action) : Prop where
  ordered : submittedChanges trace <+: deliveredChanges trace
  agreed : ∀ before change after, trace = before ++ .submitted change :: after → Terminal change →
    ∃ cursor last, .inspected (.reported change.state.status cursor) ∈ before ∧
      (deliveredChanges before).getLast? = some last ∧ last.state.status = change.state.status ∧
      last.checkpoint.map (·.cursor) = some cursor
  final : ∀ before change after, trace = before ++ .submitted change :: after → Terminal change →
    ∀ other ∈ submittedChanges after, other.state.status = change.state.status

/-- What holds while the stream runs: its changes so far are submitted, or pending
when they are terminal. -/
structure Streaming (s : AttemptState) : Prop where
  running : ∀ change ∈ submittedChanges s.trace, ¬ Terminal change
  pending : ∀ change ∈ s.pending, Terminal change
  delivered : deliveredChanges s.trace = submittedChanges s.trace ++ s.pending

/-- What holds of the trace also where an event ended the attempt. -/
structure Streamed (trace : List Action) : Prop where
  running : ∀ change ∈ submittedChanges trace, ¬ Terminal change
  ordered : submittedChanges trace <+: deliveredChanges trace

theorem Streaming.streamed {s : AttemptState} (h : Streaming s) : Streamed s.trace where
  running := h.running
  ordered := h.delivered ▸ List.prefix_append _ _

section Traces

variable {trace : List Action} {change : ProjectionChange} {changes : List ProjectionChange} {inspection : Inspection}

theorem submittedChanges_append (before after : List Action) :
    submittedChanges (before ++ after) = submittedChanges before ++ submittedChanges after := List.filterMap_append

theorem deliveredChanges_append (before after : List Action) :
    deliveredChanges (before ++ after) = deliveredChanges before ++ deliveredChanges after := List.filterMap_append

theorem submittedChanges_map (changes : List ProjectionChange) : submittedChanges (changes.map .submitted) = changes := by
  induction changes with
  | nil => rfl
  | cons change changes ih => exact congrArg (change :: ·) ih

theorem deliveredChanges_map (changes : List ProjectionChange) : deliveredChanges (changes.map .submitted) = [] := by
  induction changes with
  | nil => rfl
  | cons change changes ih => exact ih

end Traces

section Steps

variable {turnId : String} {commits : Nat → CommitAnswer} {s s' : AttemptState} {change : ProjectionChange}

theorem notify_state (callback : Option Cause) (s : AttemptState) :
    (notify callback s).2.trace = s.trace ∧ (notify callback s).2.pending = s.pending := by
  cases callback with
  | none => exact ⟨rfl, rfl⟩
  | some cause => exact ⟨rfl, rfl⟩

section

variable (turnId : String) (commits : Nat → CommitAnswer)

theorem commit_state (change : ProjectionChange) (s : AttemptState) :
    (commit turnId commits change s).2.trace = s.trace ++ [.submitted change] ∧
      (commit turnId commits change s).2.pending = s.pending := by
  rw [commit]
  cases commits (submittedChanges s.trace).length with
  | committed onChange => exact notify_state _ _
  | stale => exact ⟨rfl, rfl⟩
  | failed cause => exact ⟨rfl, rfl⟩

theorem forEach_commit (changes : List ProjectionChange) (s : AttemptState) :
    ∃ done, done <+: changes ∧ (forEach (commit turnId commits) changes s).2.trace = s.trace ++ done.map .submitted ∧
      (forEach (commit turnId commits) changes s).2.pending = s.pending ∧
      ((forEach (commit turnId commits) changes s).1.toOption.isSome → done = changes) := by
  induction changes generalizing s with
  | nil => exact ⟨[], List.nil_prefix, (List.append_nil _).symm, rfl, fun _ => rfl⟩
  | cons change changes ih =>
    obtain ⟨htrace, hpending⟩ := commit_state turnId commits change s
    rw [forEach]
    cases hcommit : commit turnId commits change s with
    | mk exit next =>
      rw [hcommit] at htrace hpending
      cases exit with
      | error cause =>
        refine ⟨[change], ?_, htrace, hpending, ?_⟩
        · exact List.prefix_append [change] changes
        · intro hok
          cases hok
      | ok _ =>
        obtain ⟨done, hdone, htrace', hpending', hall⟩ := ih next
        refine ⟨change :: done, ?_, ?_, hpending'.trans hpending, ?_⟩
        · exact List.prefix_cons_inj change |>.mpr hdone
        · dsimp only at htrace ⊢
          rw [htrace', htrace, List.append_assoc]
          rfl
        · intro hok
          rw [hall hok]

theorem handle_streaming (h : Streaming s) (event : WatchEvent) :
    (∀ cause, (handle turnId commits event s).1 = .error cause → Streamed (handle turnId commits event s).2.trace) ∧
      ((handle turnId commits event s).1 = .ok ⟨⟩ → Streaming (handle turnId commits event s).2) := by
  cases event with
  | preview callback =>
    obtain ⟨htrace, hpending⟩ := notify_state callback
      { s with signals := { s.signals with previewed := true } }
    have hstreaming : Streaming (handle turnId commits (.preview callback) s).2 := by
      refine ⟨?_, ?_, ?_⟩
      · rw [handle, htrace]
        exact h.running
      · rw [handle, hpending]
        exact h.pending
      · rw [handle, htrace, hpending]
        exact h.delivered
    exact ⟨fun _ _ => hstreaming.streamed, fun _ => hstreaming⟩
  | change change =>
    have hsubmitted : submittedChanges (s.trace ++ [.delivered change]) = submittedChanges s.trace := by
      rw [submittedChanges_append]
      exact List.append_nil _
    have hdelivered : deliveredChanges (s.trace ++ [.delivered change]) =
        submittedChanges s.trace ++ (s.pending ++ [change]) := by
      rw [deliveredChanges_append, h.delivered, List.append_assoc]
      rfl
    rw [handle]
    by_cases hterminal : change.state.status.isTerminalStatus = true
    · rw [if_pos hterminal]
      refine ⟨fun cause hcause => (by cases hcause), fun _ => ⟨?_, ?_, ?_⟩⟩
      · dsimp only
        rw [hsubmitted]
        exact h.running
      · intro other hother
        rcases List.mem_append.mp hother with hother | hother
        · exact h.pending other hother
        · rw [List.mem_singleton.mp hother]
          exact hterminal
      · dsimp only
        rw [hsubmitted, hdelivered]
    · rw [if_neg hterminal]
      cases hlast : s.pending.getLast? with
      | some last =>
        refine ⟨fun _ _ => ⟨?_, ?_⟩, fun hok => (by cases hok)⟩
        · dsimp only
          rw [hsubmitted]
          exact h.running
        · dsimp only
          rw [hsubmitted, hdelivered]
          exact List.prefix_append _ _
      | none =>
        have hnone : s.pending = [] := List.getLast?_eq_none_iff.mp hlast
        obtain ⟨htrace, hpending⟩ := commit_state turnId commits change
          { s with trace := s.trace ++ [.delivered change] }
        have hsubmitted' : submittedChanges (s.trace ++ [.delivered change] ++ [.submitted change]) =
            submittedChanges s.trace ++ [change] := by
          rw [submittedChanges_append, hsubmitted]
          rfl
        have hdelivered' : deliveredChanges (s.trace ++ [.delivered change] ++ [.submitted change]) =
            submittedChanges s.trace ++ [change] := by
          rw [deliveredChanges_append, hdelivered, hnone]
          exact List.append_nil _
        have hstreaming : Streaming
            (commit turnId commits change { s with trace := s.trace ++ [.delivered change] }).2 := by
          refine ⟨?_, ?_, ?_⟩
          · rw [htrace, hsubmitted']
            intro other hother
            rcases List.mem_append.mp hother with hother | hother
            · exact h.running other hother
            · rw [List.mem_singleton.mp hother]
              exact hterminal
          · rw [hpending]
            exact h.pending
          · rw [htrace, hpending, hsubmitted', hdelivered', hnone, List.append_nil]
        exact ⟨fun _ _ => hstreaming.streamed, fun _ => hstreaming⟩

theorem forEach_streaming (h : Streaming s) (events : List WatchEvent) :
    (∀ cause, (forEach (handle turnId commits) events s).1 = .error cause →
      Streamed (forEach (handle turnId commits) events s).2.trace) ∧
      ((forEach (handle turnId commits) events s).1 = .ok ⟨⟩ →
        Streaming (forEach (handle turnId commits) events s).2) := by
  induction events generalizing s with
  | nil => exact ⟨fun cause hcause => (by cases hcause), fun _ => h⟩
  | cons event events ih =>
    obtain ⟨herror, hok⟩ := handle_streaming turnId commits h event
    rw [forEach]
    cases hhandle : handle turnId commits event s with
    | mk exit next =>
      rw [hhandle] at herror hok
      cases exit with
      | error cause => exact ⟨fun _ _ => herror cause rfl, fun hok => (by cases hok)⟩
      | ok _ => exact ih (hok rfl)

end

end Steps

section Settlement

variable {turnId : String} {s : AttemptState} {attempt : Attempt} {inspection : Inspection} {status : Status} {cursor : String}

theorem terminalInspection_eq_some : terminalInspection inspection = some (status, cursor) ↔
      inspection = .reported status cursor ∧ status.isTerminalStatus = true := by
  cases inspection with
  | unavailable => simp [terminalInspection]
  | reported reported at_ =>
    simp only [terminalInspection, Option.ite_none_right_eq_some, Option.some.injEq, Prod.mk.injEq,
      Inspection.reported.injEq]
    constructor
    · rintro ⟨hterminal, rfl, rfl⟩
      exact ⟨⟨rfl, rfl⟩, hterminal⟩
    · rintro ⟨⟨rfl, rfl⟩, hterminal⟩
      exact ⟨hterminal, rfl, rfl⟩

structure Agrees (inspection : Inspection) (pending : List ProjectionChange) (status : Status) (cursor : String) : Prop where
  inspected : inspection = .reported status cursor
  terminal : status.isTerminalStatus = true
  statuses : ∀ change ∈ pending, change.state.status = status
  last : ∃ last, pending.getLast? = some last ∧ last.checkpoint.map (·.cursor) = some cursor

/-- Settling submits a prefix of the pending changes, none of them without agreement,
and all of them if it succeeds on a terminal inspection. -/
theorem reconcileTerminal_spec (turnId : String) (commits : Nat → CommitAnswer) (inspection : Inspection) (s : AttemptState) :
    ∃ done, done <+: s.pending ∧
      (reconcileTerminal turnId commits inspection s).2.trace = s.trace ++ done.map .submitted ∧
      (done ≠ [] → ∃ status cursor, Agrees inspection s.pending status cursor) ∧
      ((reconcileTerminal turnId commits inspection s).1.toOption.isSome →
        done = s.pending ∧ (reconcileTerminal turnId commits inspection s).2.pending = [] ∨
          done = [] ∧ (reconcileTerminal turnId commits inspection s).2.pending = s.pending ∧
            (terminalInspection inspection).isNone) := by
  rw [reconcileTerminal]
  cases hlast : s.pending.getLast? with
  | none =>
    have hnone : s.pending = [] := List.getLast?_eq_none_iff.mp hlast
    refine ⟨[], List.nil_prefix, (List.append_nil _).symm, fun hne => absurd rfl hne, fun _ => .inl ⟨hnone.symm, hnone⟩⟩
  | some last =>
    cases hinspection : terminalInspection inspection with
    | none =>
      exact ⟨[], List.nil_prefix, (List.append_nil _).symm, fun hne => absurd rfl hne, fun _ => .inr ⟨rfl, rfl, rfl⟩⟩
    | some reported =>
      obtain ⟨status, cursor⟩ := reported
      dsimp only
      obtain ⟨hreported, hterminal⟩ := terminalInspection_eq_some.mp hinspection
      split
      · refine ⟨[], List.nil_prefix, (List.append_nil _).symm, fun hne => absurd rfl hne, ?_⟩
        intro hok
        cases hok
      · next hagrees =>
          rw [Bool.or_eq_true, not_or] at hagrees
          have hagreement : Agrees inspection s.pending status cursor := by
            refine ⟨hreported, hterminal, ?_, last, hlast, ?_⟩
            · intro change hchange
              by_contra hne
              exact hagrees.1 (List.any_eq_true.mpr ⟨change, hchange, decide_eq_true hne⟩)
            · by_contra hne
              exact hagrees.2 (decide_eq_true hne)
          obtain ⟨done, hdone, htrace, hpending, hall⟩ := forEach_commit turnId commits s.pending s
          cases hforEach : forEach (commit turnId commits) s.pending s with
          | mk exit next =>
            rw [hforEach] at htrace hall
            cases exit with
            | error cause =>
              refine ⟨done, hdone, htrace, fun _ => ⟨status, cursor, hagreement⟩, ?_⟩
              intro hok
              cases hok
            | ok _ =>
              exact ⟨done, hdone, htrace, fun _ => ⟨status, cursor, hagreement⟩, fun _ => .inl ⟨hall rfl, rfl⟩⟩

theorem settled_of_streaming (h : Streaming s) {done : List ProjectionChange} (hdone : done <+: s.pending)
    (hagrees : done ≠ [] → ∃ status cursor, Agrees inspection s.pending status cursor) :
    Settled (s.trace ++ .inspected inspection :: done.map .submitted) := by
  have hsplit : ∀ before change after,
      s.trace ++ .inspected inspection :: done.map .submitted = before ++ .submitted change :: after → Terminal change →
        ∃ early late, done = early ++ change :: late ∧
          before = s.trace ++ .inspected inspection :: early.map .submitted ∧ after = late.map .submitted := by
    intro before change after htrace hterminal
    rcases List.append_eq_append_iff.mp htrace with ⟨rest, hbefore, hrest⟩ | ⟨rest, hstream, hrest⟩
    · cases rest with
      | nil => cases hrest
      | cons first rest =>
        obtain ⟨hfirst, hrest⟩ := List.cons.inj hrest
        obtain ⟨early, late, hdone', hearly, hlate⟩ := List.map_eq_append_iff.mp hrest
        obtain ⟨change', late', rfl, hchange, hafter⟩ := List.map_eq_cons_iff.mp hlate
        cases hchange
        refine ⟨early, late', hdone', ?_, hafter.symm⟩
        rw [hbefore, ← hfirst, hearly]
    · cases rest with
      | nil => cases hrest
      | cons first rest =>
        obtain ⟨hfirst, -⟩ := List.cons.inj hrest
        have hmem : change ∈ submittedChanges s.trace := by
          rw [hstream, submittedChanges_append, ← hfirst]
          exact List.mem_append_right _ (List.mem_cons_self ..)
        exact absurd hterminal (h.running change hmem)
  refine ⟨?_, ?_, ?_⟩
  · have hsubmitted : submittedChanges (s.trace ++ .inspected inspection :: done.map .submitted) =
        submittedChanges s.trace ++ done := by
      rw [submittedChanges_append]
      exact congrArg (submittedChanges s.trace ++ ·) (submittedChanges_map done)
    have hdelivered : deliveredChanges (s.trace ++ .inspected inspection :: done.map .submitted) =
        submittedChanges s.trace ++ s.pending := by
      rw [deliveredChanges_append, h.delivered]
      exact (congrArg (submittedChanges s.trace ++ s.pending ++ ·) (deliveredChanges_map done)).trans (List.append_nil _)
    rw [hsubmitted, hdelivered]
    exact (List.prefix_append_right_inj _).mpr hdone
  · intro before change after htrace hterminal
    obtain ⟨early, late, rfl, rfl, rfl⟩ := hsplit before change after htrace hterminal
    obtain ⟨status, cursor, hagreement⟩ := hagrees (by simp)
    obtain ⟨last, hlast, hcursor⟩ := hagreement.last
    have hchange : change.state.status = status :=
      hagreement.statuses change (hdone.subset (List.mem_append_right _ (List.mem_cons_self ..)))
    refine ⟨cursor, last, ?_, ?_, ?_, hcursor⟩
    · rw [hchange, ← hagreement.inspected]
      exact List.mem_append_right _ (List.mem_cons_self ..)
    · have hdelivered : deliveredChanges (s.trace ++ .inspected inspection :: early.map .submitted) =
          submittedChanges s.trace ++ s.pending := by
        rw [deliveredChanges_append, h.delivered]
        exact (congrArg (submittedChanges s.trace ++ s.pending ++ ·) (deliveredChanges_map early)).trans (List.append_nil _)
      rw [hdelivered, List.getLast?_append, hlast]
      rfl
    · rw [hchange]
      exact hagreement.statuses last (List.mem_of_getLast? hlast)
  · intro before change after htrace hterminal other hother
    obtain ⟨early, late, rfl, rfl, rfl⟩ := hsplit before change after htrace hterminal
    obtain ⟨status, cursor, hagreement⟩ := hagrees (by simp)
    rw [submittedChanges_map] at hother
    rw [hagreement.statuses change (hdone.subset (List.mem_append_right _ (List.mem_cons_self ..)))]
    exact hagreement.statuses other (hdone.subset (List.mem_append_right _ (List.mem_cons_of_mem _ hother)))

theorem settled_of_streamed {trace : List Action} (h : Streamed trace) : Settled trace := by
  have hrunning : ∀ before change after, trace = before ++ .submitted change :: after → ¬ Terminal change := by
    intro before change after htrace
    refine h.running change ?_
    rw [htrace, submittedChanges_append]
    exact List.mem_append_right _ (List.mem_cons_self ..)
  refine ⟨h.ordered, ?_, ?_⟩
  · intro before change after htrace hterminal
    exact absurd hterminal (hrunning before change after htrace)
  · intro before change after htrace hterminal
    exact absurd hterminal (hrunning before change after htrace)

theorem settle_settled (h : Streaming s) (turnId : String) (attempt : Attempt) : Settled (settle turnId attempt s).2.trace := by
  rw [settle]
  cases attempt.inspectTurn with
  | error cause => exact settled_of_streamed h.streamed
  | ok inspection =>
    obtain ⟨done, hdone, htrace, hagrees, -⟩ := reconcileTerminal_spec turnId attempt.commitProjection inspection
      { s with trace := s.trace ++ [.inspected inspection] }
    have hsettled := settled_of_streaming h hdone hagrees
    rw [List.append_assoc] at htrace
    dsimp only
    cases hreconcile : reconcileTerminal turnId attempt.commitProjection inspection
        { s with trace := s.trace ++ [.inspected inspection] } with
    | mk exit next =>
      rw [hreconcile] at htrace
      have hnext : Settled next.trace := htrace ▸ hsettled
      cases exit with
      | error cause => exact hnext
      | ok _ =>
        cases attempt.stored with
        | error cause => exact hnext
        | ok stored =>
          cases terminalInspection inspection with
          | none => exact hnext
          | some reported =>
            dsimp only
            split
            · exact hnext
            · exact hnext

/-- An attempt that goes through submitted all that was pending, or found a turn that is not terminal. -/
theorem settle_ok {attempted : Attempted} (hok : (settle turnId attempt s).1 = .ok attempted) :
    ∃ done, (settle turnId attempt s).2.trace = s.trace ++ .inspected attempted.inspection :: done.map .submitted ∧
      (done ≠ [] → ∃ status cursor, Agrees attempted.inspection s.pending status cursor) ∧
      (done = s.pending ∧ attempted.hasUncommittedTerminal = false ∨
        done = [] ∧ attempted.hasUncommittedTerminal = !s.pending.isEmpty ∧
          (terminalInspection attempted.inspection).isNone) := by
  rw [settle] at hok ⊢
  cases hinspect : attempt.inspectTurn with
  | error cause =>
    rw [hinspect] at hok
    cases hok
  | ok inspection =>
    rw [hinspect] at hok
    dsimp only at hok ⊢
    obtain ⟨done, -, htrace, hagrees, hall⟩ := reconcileTerminal_spec turnId attempt.commitProjection inspection
      { s with trace := s.trace ++ [.inspected inspection] }
    rw [List.append_assoc] at htrace
    cases hreconcile : reconcileTerminal turnId attempt.commitProjection inspection
        { s with trace := s.trace ++ [.inspected inspection] } with
    | mk exit next =>
      rw [hreconcile] at htrace hall hok
      cases exit with
      | error cause => cases hok
      | ok _ =>
        have hpending : attempted.inspection = inspection → attempted.hasUncommittedTerminal = !next.pending.isEmpty →
            done = s.pending ∧ attempted.hasUncommittedTerminal = false ∨
              done = [] ∧ attempted.hasUncommittedTerminal = !s.pending.isEmpty ∧
                (terminalInspection attempted.inspection).isNone := by
          intro hsame huncommitted
          rcases hall rfl with ⟨hdone, hempty⟩ | ⟨hdone, hsamePending, hnone⟩
          · left
            refine ⟨hdone, ?_⟩
            rw [huncommitted, hempty]
            rfl
          · right
            refine ⟨hdone, ?_, ?_⟩
            · rw [huncommitted, hsamePending]
            · rw [hsame]
              exact hnone
        cases hstored : attempt.stored with
        | error cause =>
          rw [hstored] at hok
          cases hok
        | ok stored =>
          rw [hstored] at hok
          cases hterminal : terminalInspection inspection with
          | none =>
            rw [hterminal] at hok
            obtain rfl := Except.ok.inj hok
            exact ⟨done, htrace, hagrees, hpending rfl rfl⟩
          | some reported =>
            rw [hterminal] at hok
            dsimp only at hok ⊢
            split at hok
            · cases hok
            · next hcursor =>
                obtain rfl := Except.ok.inj hok
                rw [if_neg hcursor]
                exact ⟨done, htrace, hagrees, hpending rfl rfl⟩

end Settlement

section Runs

variable {turn : WatchedTurn} {attempt : Attempt} {signals : AttemptSignals} {watch : WatchState} {stallSilenceMs : Int}

theorem start_streaming (signals : AttemptSignals) : Streaming { signals := signals } where
  running := fun _ hchange => absurd hchange List.not_mem_nil
  pending := fun _ hchange => absurd hchange List.not_mem_nil
  delivered := rfl

theorem runAttempt_settled (turn : WatchedTurn) (attempt : Attempt) (signals : AttemptSignals) :
    Settled (runAttempt turn attempt signals).2.trace := by
  rw [runAttempt]
  cases attempt.projection with
  | error cause => exact settled_of_streamed (start_streaming signals).streamed
  | ok projection =>
    dsimp only
    obtain ⟨events, ended⟩ := attempt.watchTurn (watchRequest turn projection)
    obtain ⟨herror, hok⟩ := forEach_streaming turn.id attempt.commitProjection (start_streaming signals) events
    cases hforEach : forEach (handle turn.id attempt.commitProjection) events { signals := signals } with
    | mk exit next =>
      rw [hforEach] at herror hok
      cases exit with
      | error cause => exact settled_of_streamed (herror cause rfl)
      | ok _ =>
        cases ended with
        | some cause => exact settled_of_streamed (hok rfl).streamed
        | none => exact settle_settled (hok rfl) turn.id attempt

theorem runAttempt_ok {attempted : Attempted} (h : (runAttempt turn attempt signals).1 = .ok attempted) :
    .inspected attempted.inspection ∈ (runAttempt turn attempt signals).2.trace ∧
      (attempted.hasUncommittedTerminal = false → submittedChanges (runAttempt turn attempt signals).2.trace =
        deliveredChanges (runAttempt turn attempt signals).2.trace) ∧
      ((∃ change ∈ submittedChanges (runAttempt turn attempt signals).2.trace, Terminal change) →
        attempted.hasUncommittedTerminal = false ∧ (terminalInspection attempted.inspection).isSome) := by
  rw [runAttempt] at h ⊢
  cases hprojection : attempt.projection with
  | error cause =>
    rw [hprojection] at h
    cases h
  | ok projection =>
    rw [hprojection] at h
    dsimp only at h ⊢
    generalize attempt.watchTurn (watchRequest turn projection) = stream at h ⊢
    obtain ⟨events, ended⟩ := stream
    dsimp only at h ⊢
    obtain ⟨-, hok⟩ := forEach_streaming turn.id attempt.commitProjection (start_streaming signals) events
    cases hforEach : forEach (handle turn.id attempt.commitProjection) events { signals := signals } with
    | mk exit next =>
      rw [hforEach] at hok h
      cases exit with
      | error cause => cases h
      | ok _ =>
        cases ended with
        | some cause => cases h
        | none =>
          have hstreaming := hok rfl
          obtain ⟨done, htrace, hagrees, hdone⟩ := settle_ok h
          dsimp only
          have hsubmitted : submittedChanges (settle turn.id attempt next).2.trace =
              submittedChanges next.trace ++ done := by
            rw [htrace, submittedChanges_append]
            exact congrArg (submittedChanges next.trace ++ ·) (submittedChanges_map done)
          have hdelivered : deliveredChanges (settle turn.id attempt next).2.trace =
              submittedChanges next.trace ++ next.pending := by
            rw [htrace, deliveredChanges_append, hstreaming.delivered]
            exact (congrArg (submittedChanges next.trace ++ next.pending ++ ·) (deliveredChanges_map done)).trans
              (List.append_nil _)
          refine ⟨?_, ?_, ?_⟩
          · rw [htrace]
            exact List.mem_append_right _ (List.mem_cons_self ..)
          · intro hcommitted
            rw [hsubmitted, hdelivered]
            rcases hdone with ⟨rfl, -⟩ | ⟨rfl, huncommitted, -⟩
            · rfl
            · rw [hcommitted] at huncommitted
              have hempty : next.pending = [] := by
                cases hpending : next.pending with
                | nil => rfl
                | cons first rest =>
                  rw [hpending] at huncommitted
                  cases huncommitted
              rw [hempty]
          · rintro ⟨change, hchange, hterminal⟩
            rw [hsubmitted] at hchange
            rcases List.mem_append.mp hchange with hchange | hchange
            · exact absurd hterminal (hstreaming.running change hchange)
            · obtain ⟨status, cursor, hagreement⟩ := hagrees (List.ne_nil_of_mem hchange)
              have hsome : terminalInspection attempted.inspection = some (status, cursor) :=
                terminalInspection_eq_some.mpr ⟨hagreement.inspected, hagreement.terminal⟩
              rcases hdone with ⟨-, hcommitted⟩ | ⟨rfl, -, -⟩
              · exact ⟨hcommitted, Option.isSome_of_eq_some hsome⟩
              · cases hchange

theorem resultFrom_status (turn : WatchedTurn) (inspection : Inspection)
    (stored : Option TranscriptStore.Memory.Projection) (latestChange : Option ProjectionChange) :
    ∃ projected : Status, projected.isTerminalStatus = false ∧
      (resultFrom turn inspection stored latestChange).status = (statusFromInspection inspection).getD projected := by
  have hfallback : (fallbackStatus turn.status).isTerminalStatus = false := by
    cases turn.status <;> rfl
  rw [resultFrom]
  generalize projectedSelection stored latestChange = selection
  obtain ⟨checkpoint, projectedState⟩ := selection
  cases projectedState with
  | none => exact ⟨_, hfallback, rfl⟩
  | some state =>
    refine ⟨_, ?_, rfl⟩
    dsimp only
    split
    · exact hfallback
    · next hrunning => exact Bool.not_eq_true _ ▸ hrunning

theorem resultFrom_terminal {inspection : Inspection} {stored : Option TranscriptStore.Memory.Projection}
    {latestChange : Option ProjectionChange}
    (h : (resultFrom turn inspection stored latestChange).status.isTerminalStatus = true) :
    ∃ cursor, inspection = .reported (resultFrom turn inspection stored latestChange).status cursor := by
  obtain ⟨projected, hprojected, hstatus⟩ := resultFrom_status turn inspection stored latestChange
  rw [hstatus] at h ⊢
  cases inspection with
  | unavailable =>
    rw [show (statusFromInspection .unavailable).getD projected = projected from rfl, hprojected] at h
    cases h
  | reported status cursor =>
    refine ⟨cursor, ?_⟩
    cases status with
    | completed | failed | cancelled => rfl
    | waiting | cancelling => cases h
    | accepted | queued | running =>
      have hfallback : projected.isTerminalStatus = true := h
      rw [hprojected] at hfallback
      cases hfallback

structure Watched (watch : WatchState) : Prop where
  settled : ∀ trace ∈ watch.traces, Settled trace
  answered : ∀ result, watch.answer = some (.ok result) → ∃ traces trace, watch.traces = traces ++ [trace] ∧
    submittedChanges trace = deliveredChanges trace ∧
    (result.status.isTerminalStatus = true → ∃ cursor, .inspected (.reported result.status cursor) ∈ trace)

theorem Watched.next (h : Watched watch) {trace : List Action} (htrace : Settled trace) {watch' : WatchState}
    (htraces : watch'.traces = watch.traces ++ [trace])
    (hanswer : ∀ result, watch'.answer = some (.ok result) → submittedChanges trace = deliveredChanges trace ∧
      (result.status.isTerminalStatus = true → ∃ cursor, .inspected (.reported result.status cursor) ∈ trace)) :
    Watched watch' where
  settled := by
    intro other hother
    rw [htraces] at hother
    rcases List.mem_append.mp hother with hother | hother
    · exact h.settled other hother
    · rw [List.mem_singleton.mp hother]
      exact htrace
  answered result hresult := ⟨watch.traces, trace, htraces, hanswer result hresult⟩

theorem watchAttempt_watched (h : Watched watch) (turn : WatchedTurn) (stallSilenceMs : Int) (attempt : Attempt) :
    Watched (watchAttempt turn stallSilenceMs watch attempt) := by
  rw [watchAttempt]
  split
  · exact h
  · next hopen =>
      have hnone : watch.answer = none := Option.not_isSome_iff_eq_none.mp hopen
      have hsettled := runAttempt_settled turn attempt { latestChange := watch.latestChange }
      have hok := @runAttempt_ok turn attempt { latestChange := watch.latestChange }
      cases hrun : runAttempt turn attempt { latestChange := watch.latestChange } with
      | mk exit s =>
        rw [hrun] at hsettled hok
        dsimp only
        cases exit with
        | error cause =>
          dsimp only
          split
          · exact h.next hsettled rfl fun _ hresult => by cases hresult
          · refine h.next hsettled rfl ?_
            intro result hresult
            rw [hnone] at hresult
            cases hresult
        | ok attempted =>
          dsimp only
          split
          · refine h.next hsettled rfl ?_
            intro result hresult
            rw [hnone] at hresult
            cases hresult
          · next hdone =>
              refine h.next hsettled rfl ?_
              intro result hresult
              obtain rfl := Except.ok.inj (Option.some_inj.mp hresult)
              obtain ⟨hinspected, hall, -⟩ := hok rfl
              rw [Bool.or_eq_true, not_or] at hdone
              refine ⟨hall (Bool.not_eq_true _ ▸ hdone.1), ?_⟩
              intro hterminal
              obtain ⟨cursor, hinspection⟩ := resultFrom_terminal hterminal
              rw [hinspection] at hinspected
              exact ⟨cursor, hinspected⟩

theorem watchAttempt_answers (hopen : watch.answer = none) {attempted : Attempted}
    (hok : (runAttempt turn attempt { latestChange := watch.latestChange }).1 = .ok attempted)
    (hterminal : ∃ change ∈ submittedChanges (runAttempt turn attempt { latestChange := watch.latestChange }).2.trace,
      Terminal change) :
    (watchAttempt turn stallSilenceMs watch attempt).answer.isSome = true := by
  obtain ⟨-, -, hsettles⟩ := runAttempt_ok hok
  obtain ⟨hcommitted, hinspected⟩ := hsettles hterminal
  obtain ⟨⟨status, cursor⟩, hinspection⟩ := Option.isSome_iff_exists.mp hinspected
  obtain ⟨hreported, hstatus⟩ := terminalInspection_eq_some.mp hinspection
  rw [watchAttempt, hopen]
  cases hrun : runAttempt turn attempt { latestChange := watch.latestChange } with
  | mk exit s =>
    rw [hrun] at hok
    obtain rfl : exit = .ok attempted := hok
    simp only [hcommitted, hreported]
    cases status with
    | completed | failed | cancelled => rfl
    | accepted | queued | running | waiting | cancelling => cases hstatus

/-- A terminal status is answered only as an inspection reported it with all submitted, and as soon as one goes through.
-/
theorem turn_settles_on_agreement (turn : WatchedTurn) (stallSilenceMs startedAt : Int) (attempts : List Attempt) :
    Watched (watchLinked turn stallSilenceMs startedAt attempts) ∧
      ∀ attempt attempted, (watchLinked turn stallSilenceMs startedAt attempts).answer = none →
        (runAttempt turn attempt { latestChange := (watchLinked turn stallSilenceMs startedAt attempts).latestChange }).1 =
          .ok attempted →
        (∃ change ∈ submittedChanges (runAttempt turn attempt
          { latestChange := (watchLinked turn stallSilenceMs startedAt attempts).latestChange }).2.trace, Terminal change) →
        (watchLinked turn stallSilenceMs startedAt (attempts ++ [attempt])).answer.isSome = true := by
  refine ⟨?_, ?_⟩
  · have hrun : ∀ watch, Watched watch → Watched (attempts.foldl (watchAttempt turn stallSilenceMs) watch) := by
      induction attempts with
      | nil => exact fun _ h => h
      | cons attempt attempts ih =>
        intro watch h
        exact ih _ (watchAttempt_watched h turn stallSilenceMs attempt)
    refine hrun _ ⟨fun _ htrace => absurd htrace List.not_mem_nil, ?_⟩
    intro result hresult
    cases hresult
  · intro attempt attempted hopen hok hterminal
    rw [watchLinked, List.foldl_append]
    exact watchAttempt_answers hopen hok hterminal

end Runs

def sampleChange (revision : Finite) (cursor : String) : ProjectionChange :=
  .projectionSnapshot none revision (some ⟨cursor, ""⟩) [] false ⟨.completed, none, Usage.emptyUsageState, ⟨none, none⟩⟩

def sampleAttempt : Attempt where
  projection := .ok none
  watchTurn _ := ([.change (sampleChange 0 "first"), .change (sampleChange 1 "second")], none)
  commitProjection _ := .committed none
  inspectTurn := .ok (.reported .completed "second")
  stored := .ok (some ⟨[], 1, 1, (sampleChange 1 "second").state, Selection.projectionVersion, some ⟨"second", ""⟩⟩)
  progressedAt := 0
  endedAt := 0

/-- The first of two terminal changes is committed although the inspection was at
another cursor, and the second is committed after it. -/
theorem earlier_terminal_committed :
    ∃ trace ∈ (watchLinked ⟨"turn", "prompt", .running, false⟩ 1000 0 [sampleAttempt]).traces, ∃ before change after,
      trace = before ++ .submitted change :: after ∧ Terminal change ∧
        (∀ cursor, .inspected (.reported change.state.status cursor) ∈ before →
          change.checkpoint.map (·.cursor) ≠ some cursor) ∧ submittedChanges after ≠ [] := by
  refine ⟨_, List.mem_singleton_self _,
    [.delivered (sampleChange 0 "first"), .delivered (sampleChange 1 "second"), .inspected (.reported .completed "second")],
    sampleChange 0 "first", [.submitted (sampleChange 1 "second")], rfl, rfl, ?_, ?_⟩
  · intro cursor hmem hcursor
    obtain rfl : "first" = cursor := Option.some_inj.mp hcursor
    simp at hmem
  · intro hnone
    cases hnone

end Rika.ExecutionWatch
