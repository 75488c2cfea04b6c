import Rika.NativeOutcomes

namespace Rika.WorkspaceRecovery

open NativeToolExecution

inductive RunStatus
  | queued
  | succeeded
  | failed
  | cancelled
  | other (status : String)
deriving DecidableEq

inductive Executable
  | tool (name : String)
  | other

structure ExecutableEntry where
  pin : String
  executable : Executable

structure Run where
  runId : String
  status : RunStatus
  entries : List ExecutableEntry
  active : String

inductive RunResult
  | tool (value : JsonValue)
  | other

inductive RunOutcome
  | succeeded (result : RunResult)
  | other

structure TreeRunInspection where
  run : Run
  outcome : Option RunOutcome

structure SessionRun where
  runId : String
  rootRunId : String
  parentRunId : Option String
  status : RunStatus

structure Page where
  runs : List SessionRun
  nextBefore : Option Nat

structure PageInput (Cursor : Type) where
  at' : Cursor
  limit : Nat
  before : Option Nat

structure RunStore (Cursor Failure : Type) where
  hostSessionSnapshot : String → Except Failure Cursor
  hostSessionRunsPage : String → PageInput Cursor → Except Failure Page
  treeCheckpoint : String → Except Failure (List TreeRunInspection)

inductive Rejected
  | binding

def tools : List String := ["bash", "read", "edit", "grep", "web_search"]

def terminal : RunStatus → Bool
  | .succeeded | .failed | .cancelled => true
  | .queued | .other _ => false

def Run.executable (run : Run) : Option Executable := (run.entries.find? (·.pin = run.active)).map (·.executable)

def definiteOutcome (inspection : TreeRunInspection) : Bool :=
  if terminal inspection.run.status = false then false
  else
    match inspection.run.executable with
    | some (.tool name) =>
      if name ∉ tools then true
      else
        match inspection.outcome with
        | some (.succeeded (.tool value)) => !unknownToolResult value
        | _ => false
    | _ => true

variable {Cursor Failure : Type} (store : RunStore Cursor Failure) (sessionId runId : String)

def queuedRoot (candidate : SessionRun) : Bool := candidate.parentRunId.isNone && candidate.status = .queued

def checkRuns (checked : List String) : List SessionRun → Except Rejected (List String)
  | [] => .ok checked
  | candidate :: candidates =>
    if queuedRoot candidate = true then checkRuns checked candidates
    else if candidate.rootRunId ∈ checked then checkRuns checked candidates
    else
      match store.treeCheckpoint candidate.rootRunId with
      | .error _ => .error .binding
      | .ok inspections =>
        if inspections.any fun entry => entry.run.runId ≠ runId && !definiteOutcome entry then .error .binding
        else checkRuns (candidate.rootRunId :: checked) candidates

def checkPages (cursor : Cursor) : Nat → List String → Option Nat → Except Rejected Unit
  | 0, _, _ => .error .binding
  | pages + 1, checked, before =>
    match store.hostSessionRunsPage sessionId ⟨cursor, 64, before⟩ with
    | .error _ => .error .binding
    | .ok page =>
      match checkRuns store runId checked page.runs with
      | .error rejected => .error rejected
      | .ok checked =>
        if page.nextBefore = none then .ok ()
        else if page.nextBefore = before then .error .binding
        else checkPages cursor pages checked page.nextBefore

def assertWorkspaceRecoverable : Except Rejected Unit :=
  match store.hostSessionSnapshot sessionId with
  | .error _ => .error .binding
  | .ok cursor => checkPages store sessionId runId cursor 128 [] none

def NativeTool (run : Run) : Prop := ∃ name ∈ tools, run.executable = some (.tool name)

/-- A run that has ended, and if it is a native tool's with a result that is no failure of unknown outcome. -/
structure Definite (inspection : TreeRunInspection) : Prop where
  terminal : inspection.run.status = .succeeded ∨ inspection.run.status = .failed ∨ inspection.run.status = .cancelled
  result : NativeTool inspection.run → ∃ value, inspection.outcome = some (.succeeded (.tool value)) ∧ ¬UnknownFailure value

/-- The pages from a place on enumerate these runs, in so many pages. -/
inductive Enumerates (page : Option Nat → Except Failure Page) : Option Nat → List SessionRun → Nat → Prop
  | last {before : Option Nat} {runs : List SessionRun} : page before = .ok ⟨runs, none⟩ → Enumerates page before runs 1
  | next {before : Option Nat} {next : Nat} {runs rest : List SessionRun} {pages : Nat} :
      page before = .ok ⟨runs, some next⟩ → Enumerates page (some next) rest pages →
        Enumerates page before (runs ++ rest) (pages + 1)

section Outcomes

theorem terminal_eq_true {status : RunStatus} :
    terminal status = true ↔ status = .succeeded ∨ status = .failed ∨ status = .cancelled := by
  cases status <;> simp [terminal]

theorem definiteOutcome_iff (inspection : TreeRunInspection) : definiteOutcome inspection = true ↔ Definite inspection := by
  rw [definiteOutcome]
  cases hterminal : terminal inspection.run.status with
  | false =>
    simp only [if_true, Bool.false_eq_true, false_iff]
    intro h
    rw [terminal_eq_true.mpr h.terminal] at hterminal
    cases hterminal
  | true =>
    have hended := terminal_eq_true.mp hterminal
    have hother (h : ¬NativeTool inspection.run) : Definite inspection := ⟨hended, fun hnative => absurd hnative h⟩
    rw [if_neg (Bool.noConfusion)]
    cases hexecutable : inspection.run.executable with
    | none => simpa using hother fun h => by obtain ⟨name, -, hname⟩ := h; rw [hexecutable] at hname; cases hname
    | some executable =>
      cases executable with
      | other => simpa using hother fun h => by obtain ⟨name, -, hname⟩ := h; rw [hexecutable] at hname; cases hname
      | tool name =>
        dsimp only
        by_cases hname : name ∈ tools
        · have hnative : NativeTool inspection.run := ⟨name, hname, hexecutable⟩
          rw [if_neg (not_not.mpr hname)]
          have hread : Definite inspection ↔
              ∃ value, inspection.outcome = some (.succeeded (.tool value)) ∧ ¬UnknownFailure value :=
            ⟨fun h => h.result hnative, fun h => ⟨hended, fun _ => h⟩⟩
          rw [hread]
          cases inspection.outcome with
          | none => simp
          | some outcome =>
            cases outcome with
            | other => simp
            | succeeded result =>
              cases result with
              | other => simp
              | tool value => simp [← unknownToolResult_iff_unknownFailure]
        · rw [if_pos hname]
          refine iff_of_true rfl (hother fun h => ?_)
          obtain ⟨other, hmem, hother⟩ := h
          rw [hexecutable] at hother
          cases hother
          exact hname hmem

end Outcomes

section Pages

variable {store sessionId runId}

def DefiniteTree (runId : String) (inspections : List TreeRunInspection) : Prop :=
  ∀ entry ∈ inspections, entry.run.runId ≠ runId → Definite entry

theorem any_indefinite_eq_false {inspections : List TreeRunInspection} :
    (inspections.any fun entry => entry.run.runId ≠ runId && !definiteOutcome entry) = false ↔ DefiniteTree runId inspections := by
  rw [List.any_eq_false]
  refine forall₂_congr fun entry _ => ?_
  rw [← definiteOutcome_iff]
  simp

variable {tree : String → List TreeRunInspection}

variable (store runId tree) in
/-- The loop over runs goes on, with roots whose trees are definite, or stops at a tree that is not. -/
def Checks (checked : List String) (candidates : List SessionRun) : Prop :=
  (∃ checked', checkRuns store runId checked candidates = .ok checked' ∧
      (∀ root ∈ checked', DefiniteTree runId (tree root)) ∧
        ∀ candidate ∈ candidates, queuedRoot candidate = false → DefiniteTree runId (tree candidate.rootRunId)) ∨
    checkRuns store runId checked candidates = .error .binding ∧
      ∃ candidate ∈ candidates, queuedRoot candidate = false ∧ ¬DefiniteTree runId (tree candidate.rootRunId)

theorem Checks.cons {candidate : SessionRun} {candidates : List SessionRun} {checked checked' : List String}
    (h : Checks store runId tree checked' candidates)
    (hhead : queuedRoot candidate = false → DefiniteTree runId (tree candidate.rootRunId))
    (heq : checkRuns store runId checked (candidate :: candidates) = checkRuns store runId checked' candidates) :
    Checks store runId tree checked (candidate :: candidates) := by
  rw [Checks, heq]
  rcases h with hok | hfails
  · obtain ⟨after, hafter, hdefinite, hall⟩ := hok
    exact .inl ⟨after, hafter, hdefinite, List.forall_mem_cons.mpr ⟨hhead, hall⟩⟩
  · obtain ⟨herror, other, hother, hbad⟩ := hfails
    exact .inr ⟨herror, other, List.mem_cons_of_mem _ hother, hbad⟩

variable {checked : List String} {page : Option Nat → Except Failure Page} {before : Option Nat} {runs : List SessionRun}
    {pages : Nat}

/-- The loop over a page goes on just where the trees of the page's runs are definite. -/
theorem checkRuns_spec {candidates : List SessionRun} (htree : ∀ candidate ∈ candidates, queuedRoot candidate = false →
      store.treeCheckpoint candidate.rootRunId = .ok
    (tree candidate.rootRunId)) (hchecked : ∀ root ∈ checked, DefiniteTree runId (tree root)) :
    Checks store runId tree checked candidates := by
  induction candidates generalizing checked with
  | nil => exact .inl ⟨checked, rfl, hchecked, fun candidate h => absurd h List.not_mem_nil⟩
  | cons candidate candidates ih =>
    have hrest := fun other hother => htree other (List.mem_cons_of_mem candidate hother)
    by_cases hqueued : queuedRoot candidate = true
    · exact (ih hrest hchecked).cons (fun h => absurd (hqueued.symm.trans h) Bool.noConfusion) (by rw [checkRuns, if_pos hqueued])
    · have hlisted : queuedRoot candidate = false := Bool.eq_false_iff.mpr hqueued
      by_cases hmem : candidate.rootRunId ∈ checked
      · exact (ih hrest hchecked).cons (fun _ => hchecked _ hmem) (by rw [checkRuns, if_neg hqueued, if_pos hmem])
      · have hcheckpoint := htree candidate List.mem_cons_self hlisted
        by_cases hdefinite : DefiniteTree runId (tree candidate.rootRunId)
        · have hany := any_indefinite_eq_false.mpr hdefinite
          refine (ih hrest (List.forall_mem_cons.mpr ⟨hdefinite, hchecked⟩)).cons (fun _ => hdefinite) ?_
          rw [checkRuns, if_neg hqueued, if_neg hmem, hcheckpoint]
          dsimp only
          rw [if_neg (Bool.eq_false_iff.mp hany)]
        · have hany := Bool.not_eq_false _ ▸ mt any_indefinite_eq_false.mp hdefinite
          refine .inr ⟨?_, candidate, List.mem_cons_self, hlisted, hdefinite⟩
          rw [checkRuns, if_neg hqueued, if_neg hmem, hcheckpoint]
          dsimp only
          rw [if_pos hany]

theorem Enumerates.pages_eq {others : List SessionRun}
    {count : Nat} (h : Enumerates page before runs pages) (hother : Enumerates page before others count) :
    pages = count := by
  induction h generalizing others count with
  | last hpage =>
    cases hother with
    | last hpage' => rfl
    | next hpage' hrest => rw [hpage] at hpage'; cases hpage'
  | next hpage hrest ih =>
    cases hother with
    | last hpage' => rw [hpage] at hpage'; cases hpage'
    | next hpage' hrest' =>
      rw [hpage] at hpage'
      cases hpage'
      rw [ih hrest']

theorem Enumerates.before_ne {next : Nat} {rest : List SessionRun} (hpage : page before = .ok ⟨runs, some next⟩)
    (h : Enumerates page (some next) rest pages) : some next ≠ before := by
  rintro rfl
  have hlonger := h.pages_eq (.next hpage h)
  omega

/-- The loop over pages succeeds just where it may read them all and finds every tree definite. -/
theorem checkPages_iff {cursor : Cursor}
    (h : Enumerates (fun before => store.hostSessionRunsPage sessionId ⟨cursor, 64, before⟩) before runs pages)
    (htree : ∀ candidate ∈ runs, queuedRoot candidate = false →
      store.treeCheckpoint candidate.rootRunId = .ok
    (tree candidate.rootRunId)) (hchecked : ∀ root ∈ checked, DefiniteTree runId (tree root)) (fuel : Nat) :
    checkPages store sessionId runId cursor fuel checked before = .ok () ↔
      pages ≤ fuel ∧ ∀ candidate ∈ runs, queuedRoot candidate = false → DefiniteTree runId (tree candidate.rootRunId) := by
  induction h generalizing fuel checked with
  | @last before runs hpage =>
    cases fuel with
    | zero => simp [checkPages]
    | succ fuel =>
      rw [checkPages, hpage]
      dsimp only
      rcases checkRuns_spec htree hchecked with hok | hfails
      · obtain ⟨after, hafter, -, hall⟩ := hok
        rw [hafter]
        exact iff_of_true rfl ⟨by omega, hall⟩
      · obtain ⟨herror, candidate, hcandidate, hlisted, hbad⟩ := hfails
        rw [herror]
        exact iff_of_false (fun h => by cases h) fun h => hbad (h.2 candidate hcandidate hlisted)
  | @next before next runs rest pages hpage hrest ih =>
    cases fuel with
    | zero => simp [checkPages]
    | succ fuel =>
      rw [checkPages, hpage]
      dsimp only
      have hhead := fun candidate hcandidate => htree candidate (List.mem_append_left rest hcandidate)
      have htail := fun candidate hcandidate => htree candidate (List.mem_append_right runs hcandidate)
      rcases checkRuns_spec hhead hchecked with hok | hfails
      · obtain ⟨after, hafter, hdefinite, hall⟩ := hok
        rw [hafter]
        dsimp only
        rw [if_neg (Option.some_ne_none next), if_neg (hrest.before_ne hpage), ih htail hdefinite fuel,
          Nat.add_le_add_iff_right]
        refine and_congr_right fun _ => ⟨fun h candidate hcandidate => ?_, fun h candidate hcandidate => ?_⟩
        · exact (List.mem_append.mp hcandidate).elim (hall candidate) (h candidate)
        · exact h candidate (List.mem_append_right runs hcandidate)
      · obtain ⟨herror, candidate, hcandidate, hlisted, hbad⟩ := hfails
        rw [herror]
        exact iff_of_false (fun h => by cases h) fun h => hbad (h.2 candidate (List.mem_append_left rest hcandidate) hlisted)

/-- Recovery is admitted just where there are at most 128 pages and every run of a listed tree has a definite outcome. -/
theorem assertWorkspaceRecoverable_iff {cursor : Cursor} (hsnapshot : store.hostSessionSnapshot sessionId = .ok cursor)
    {runs : List SessionRun} {pages : Nat}
    (hruns : Enumerates (fun before => store.hostSessionRunsPage sessionId ⟨cursor, 64, before⟩) none runs pages)
    (htree : ∀ candidate ∈ runs, queuedRoot candidate = false →
      store.treeCheckpoint candidate.rootRunId = .ok (tree candidate.rootRunId)) :
    assertWorkspaceRecoverable store sessionId runId = .ok () ↔
      pages ≤ 128 ∧ ∀ candidate ∈ runs, ¬(candidate.parentRunId = none ∧ candidate.status = .queued) →
        ∀ entry ∈ tree candidate.rootRunId, entry.run.runId ≠ runId → Definite entry := by
  have hqueued (candidate : SessionRun) :
      queuedRoot candidate = false ↔ ¬(candidate.parentRunId = none ∧ candidate.status = .queued) := by
    rw [queuedRoot, Bool.eq_false_iff]
    simp
  rw [assertWorkspaceRecoverable, hsnapshot]
  dsimp only
  rw [checkPages_iff hruns htree (fun root hroot => absurd hroot List.not_mem_nil) 128]
  simp only [hqueued]
  rfl

end Pages

section Samples

def sampleRun (runId : String) (status : RunStatus) : Run := ⟨runId, status, [⟨"pin", .tool "bash"⟩], "pin"⟩

def sampleTree (_ : String) : List TreeRunInspection :=
  [⟨sampleRun "root" .succeeded, some (.succeeded (.tool (.object [("text", .string "done")])))⟩]

def sampleStore : RunStore Nat Unit where
  hostSessionSnapshot _ := .ok 7
  hostSessionRunsPage _ input :=
    match input.before with
    | none => .ok ⟨[⟨"next", "next", none, .queued⟩], some 3⟩
    | some _ => .ok ⟨[⟨"root", "root", none, .succeeded⟩], none⟩
  treeCheckpoint root := .ok (sampleTree root)

theorem sample_recoverable : assertWorkspaceRecoverable sampleStore "session" "next" = .ok () := by
  have hruns : Enumerates (fun before => sampleStore.hostSessionRunsPage "session" ⟨7, 64, before⟩) none
      ([⟨"next", "next", none, .queued⟩] ++ [⟨"root", "root", none, .succeeded⟩]) 2 :=
    .next rfl (.last rfl)
  refine (@assertWorkspaceRecoverable_iff Nat Unit sampleStore "session" "next" sampleTree 7 rfl _ _ hruns
    fun candidate _ _ => rfl).mpr ⟨by decide, fun candidate _ _ entry hentry _ => ?_⟩
  rw [List.mem_singleton.mp hentry]
  exact (definiteOutcome_iff _).mp rfl

end Samples

end Rika.WorkspaceRecovery
