import Mathlib.Data.List.Induction
import Mathlib.Data.List.Perm.Subperm
import Rika.Fold
import Rika.Operation
import Rika.Projection

namespace Rika

namespace WorkspaceBinding

theorem placementEqual_eq_true {left right : WorkspacePlacement} : left.placementEqual right = true ↔ left = right := by
  cases left with
  | runner checkoutFingerprint workspaceId =>
    cases right with
    | runner checkoutFingerprint' workspaceId' => simp [WorkspacePlacement.placementEqual, and_comm]
    | orb workspaceId' lineageId' => simp [WorkspacePlacement.placementEqual]
  | orb workspaceId lineageId =>
    cases right with
    | runner checkoutFingerprint' workspaceId' | orb workspaceId' lineageId' => simp [WorkspacePlacement.placementEqual]

theorem sameBinding_eq_true {left right : WorkspaceBinding} :
    left.sameBinding right = true ↔ left = right ∧ left.placementMatchesWorkspace = true := by
  constructor
  · intro h
    simp only [sameBinding, sameWorkspacePolicy, Bool.and_eq_true, decide_eq_true_eq, placementEqual_eq_true] at h
    obtain ⟨⟨⟨⟨⟨⟨⟨hmatches, -⟩, hworkspace⟩, hbuild⟩, hprotocol⟩, hplacement⟩, hassignment⟩, hgeneration⟩ := h
    refine ⟨?_, hmatches⟩
    obtain ⟨workspaceId, assignmentId, generation, placement, buildId, protocolVersion⟩ := left
    obtain ⟨workspaceId', assignmentId', generation', placement', buildId', protocolVersion'⟩ := right
    dsimp only at hworkspace hbuild hprotocol hplacement hassignment hgeneration
    rw [hworkspace, hbuild, hprotocol, hplacement, hassignment, hgeneration]
  · intro h
    obtain ⟨rfl, hmatches⟩ := h
    simp [sameBinding, sameWorkspacePolicy, hmatches, placementEqual_eq_true]

end WorkspaceBinding

namespace WorkspaceComponent

open Fold

def maxAdmittedOperations : Nat := 128

structure ComponentOperation where
  operationId : String
  tool : String
  inputDigest : String
  binding : WorkspaceBinding
deriving DecidableEq

inductive ComponentTerminalSettlement
  | completed (operationId : String) (binding : WorkspaceBinding) (result : String)
  | domainFailure (operationId : String) (binding : WorkspaceBinding) (failure : String)

namespace ComponentTerminalSettlement

def operationId : ComponentTerminalSettlement → String
  | completed operationId _ _ | domainFailure operationId _ _ => operationId

def binding : ComponentTerminalSettlement → WorkspaceBinding
  | completed _ binding _ | domainFailure _ binding _ => binding

end ComponentTerminalSettlement

structure WorkspaceComponentState where
  binding : Option WorkspaceBinding := none
  admitted : List ComponentOperation := []
deriving DecidableEq

inductive WorkspaceComponentCommand
  | bind (binding : WorkspaceBinding)
  | admission (operation : ComponentOperation)
  | cleanup (operationId : String) (settlement : ComponentTerminalSettlement)

section

variable (state : WorkspaceComponentState)

def bindTransition (binding : WorkspaceBinding) : Except String WorkspaceComponentState :=
  match state.binding with
  | none => .ok { state with binding := some binding }
  | some bound =>
    if bound.sameBinding binding then .ok state
    else if ¬bound.sameWorkspacePolicy binding then .error "Workspace recovery cannot change its policy"
    else if binding.generation ≤ bound.generation then
      .error "Workspace generation is not newer than the admitted binding"
    else if state.admitted.length ≠ 0 then
      .error "Workspace recovery cannot discard unresolved native operations"
    else .ok { state with binding := some binding }

def bound (binding : WorkspaceBinding) : Bool :=
  state.binding.any fun bound => bound.sameBinding binding

def cleanupTransition (operationId : String)
    (settlement : ComponentTerminalSettlement) : Except String WorkspaceComponentState :=
  if ¬bound state settlement.binding then
    .error "Native operation settlement binding is not the admitted workspace binding"
  else
    match state.admitted.find? fun entry => entry.operationId = operationId with
    | none => .error "Native operation settlement has no admitted intent"
    | some admitted =>
      if admitted.operationId ≠ settlement.operationId then
        .error "Native operation settlement identity does not match the admitted intent"
      else if ¬admitted.binding.sameBinding settlement.binding then
        .error "Native operation settlement uses a stale workspace binding"
      else .ok { state with admitted := state.admitted.eraseP fun entry => entry.operationId = operationId }

def admitTransition (operation : ComponentOperation) : Except String WorkspaceComponentState :=
  if ¬bound state operation.binding then .error "Native operation binding is not the admitted workspace binding"
  else
    match state.admitted.find? fun entry => entry.operationId = operation.operationId with
    | some existing =>
      if existing.tool = operation.tool ∧ existing.inputDigest = operation.inputDigest ∧
          existing.binding.sameBinding operation.binding then .ok state
      else .error "Native operation identity already has a different intent"
    | none =>
      if maxAdmittedOperations ≤ state.admitted.length then .error "Native operation admission bound exceeded"
      else .ok { state with admitted := state.admitted ++ [operation] }

def workspaceComponentTransition : WorkspaceComponentCommand → Except String WorkspaceComponentState
  | .bind binding => bindTransition state binding
  | .cleanup operationId settlement => cleanupTransition state operationId settlement
  | .admission operation => admitTransition state operation

def step (command : WorkspaceComponentCommand) : WorkspaceComponentState :=
  match workspaceComponentTransition state command with
  | .ok next => next
  | .error _ => state

end

def run (commands : List WorkspaceComponentCommand) : WorkspaceComponentState := commands.foldl step {}

/-! ### What a transition does -/

variable {state next : WorkspaceComponentState}

theorem bound_eq_true {binding : WorkspaceBinding} :
    bound state binding = true ↔ state.binding = some binding ∧ binding.placementMatchesWorkspace = true := by
  rw [bound, Option.any_eq_true]
  constructor
  · intro h
    obtain ⟨current, hcurrent, hsame⟩ := h
    obtain ⟨rfl, hmatches⟩ := WorkspaceBinding.sameBinding_eq_true.mp hsame
    exact ⟨hcurrent, hmatches⟩
  · intro h
    exact ⟨binding, h.1, WorkspaceBinding.sameBinding_eq_true.mpr ⟨rfl, h.2⟩⟩

/-- What an accepted command does: it changes nothing, binds, admits or cleans up. -/
inductive Transition (state : WorkspaceComponentState) : WorkspaceComponentCommand → WorkspaceComponentState → Prop
  | same {command} : Transition state command state
  | bound {binding} (hunbound : state.binding = none) :
      Transition state (.bind binding) { state with binding := some binding }
  | rebound {current binding} (hcurrent : state.binding = some current)
      (hnewer : current.generation < binding.generation) (hempty : state.admitted = [])
      (hmatches : binding.placementMatchesWorkspace = true) :
      Transition state (.bind binding) { state with binding := some binding }
  | admitted {operation} (hbinding : state.binding = some operation.binding)
      (hfresh : ∀ entry ∈ state.admitted, entry.operationId ≠ operation.operationId)
      (hroom : state.admitted.length < maxAdmittedOperations) :
      Transition state (.admission operation) { state with admitted := state.admitted ++ [operation] }
  | cleaned {operationId settlement rest} (hrest : rest.Sublist state.admitted) :
      Transition state (.cleanup operationId settlement) { state with admitted := rest }

theorem bindTransition_transition {binding : WorkspaceBinding} (h : bindTransition state binding = .ok next) :
    Transition state (.bind binding) next := by
  rw [bindTransition] at h
  split at h
  · next hunbound =>
      cases h
      exact .bound hunbound
  · next current hcurrent =>
      split at h
      · cases h
        exact .same
      · obtain ⟨hpolicy, h⟩ := ite_error_eq_ok.mp h
        obtain ⟨hnewer, h⟩ := ite_error_eq_ok.mp h
        obtain ⟨hempty, h⟩ := ite_error_eq_ok.mp h
        cases h
        have hsame := not_not.mp hpolicy
        simp only [WorkspaceBinding.sameWorkspacePolicy, Bool.and_eq_true] at hsame
        exact .rebound hcurrent (Nat.lt_of_not_le hnewer) (List.eq_nil_of_length_eq_zero (not_not.mp hempty))
          hsame.1.1.1.1.2

theorem admitTransition_transition {operation : ComponentOperation} (h : admitTransition state operation = .ok next) :
    Transition state (.admission operation) next := by
  rw [admitTransition] at h
  obtain ⟨hbound, h⟩ := ite_error_eq_ok.mp h
  split at h
  · obtain ⟨-, h⟩ := ite_else_error_eq_ok.mp h
    cases h
    exact .same
  · next hnone =>
      obtain ⟨hroom, h⟩ := ite_error_eq_ok.mp h
      cases h
      have hfresh := List.find?_eq_none.mp hnone
      exact .admitted (bound_eq_true.mp (not_not.mp hbound)).1 (fun entry hentry => by simpa using hfresh entry hentry)
        (Nat.lt_of_not_le hroom)

theorem cleanupTransition_transition {operationId : String} {settlement : ComponentTerminalSettlement}
    (h : cleanupTransition state operationId settlement = .ok next) :
    Transition state (.cleanup operationId settlement) next := by
  rw [cleanupTransition] at h
  obtain ⟨-, h⟩ := ite_error_eq_ok.mp h
  split at h
  · cases h
  · split at h
    · cases h
    · split at h
      · cases h
      · cases h
        exact .cleaned List.eraseP_sublist

variable {command : WorkspaceComponentCommand}

theorem transition_of_ok (h : workspaceComponentTransition state command = .ok next) : Transition state command next := by
  cases command with
  | bind binding => exact bindTransition_transition h
  | admission operation => exact admitTransition_transition h
  | cleanup operationId settlement => exact cleanupTransition_transition h

theorem step_transition (state : WorkspaceComponentState) (command : WorkspaceComponentCommand) :
    Transition state command (step state command) := by
  rw [step]
  split
  · next next hok => exact transition_of_ok hok
  · exact .same

/-! ### Runs -/

structure Sound (state : WorkspaceComponentState) : Prop where
  distinct : (state.admitted.map (·.operationId)).Nodup
  capacity : state.admitted.length ≤ maxAdmittedOperations
  current : ∀ operation ∈ state.admitted, state.binding = some operation.binding

/-- The binding is kept, or a newer one takes its place while nothing is admitted. -/
def Moves (state next : WorkspaceComponentState) : Prop :=
  next.binding = state.binding ∨
    next.binding.isSome = true ∧ state.admitted = [] ∧
      ∀ current ∈ state.binding, ∀ binding ∈ next.binding, current.generation < binding.generation

theorem Transition.sound (h : Transition state command next) (hsound : Sound state) :
    Sound next := by
  cases h with
  | same => exact hsound
  | bound hunbound =>
    refine ⟨hsound.distinct, hsound.capacity, ?_⟩
    intro operation hoperation
    have hcurrent := hsound.current operation hoperation
    rw [hunbound] at hcurrent
    cases hcurrent
  | rebound hcurrent hnewer hempty hmatches =>
    refine ⟨hsound.distinct, hsound.capacity, ?_⟩
    intro operation hoperation
    rw [hempty] at hoperation
    cases hoperation
  | admitted hbinding hfresh hroom =>
    rename_i operation
    refine ⟨?_, ?_, ?_⟩
    · rw [List.map_append, List.map_singleton, List.nodup_append]
      refine ⟨hsound.distinct, List.nodup_singleton _, ?_⟩
      intro id hid id' hid'
      obtain ⟨entry, hentry, rfl⟩ := List.mem_map.mp hid
      rw [List.mem_singleton.mp hid']
      exact hfresh entry hentry
    · rw [List.length_append, List.length_singleton]
      exact hroom
    · intro entry hentry
      rcases List.mem_append.mp hentry with hentry | hentry
      · exact hsound.current entry hentry
      · rw [List.mem_singleton.mp hentry]
        exact hbinding
  | cleaned hrest =>
    refine ⟨hsound.distinct.sublist (hrest.map _), Nat.le_trans hrest.length_le hsound.capacity, ?_⟩
    intro operation hoperation
    exact hsound.current operation (hrest.subset hoperation)

theorem Transition.moves (h : Transition state command next) (hsound : Sound state) :
    Moves state next := by
  cases h with
  | same | admitted | cleaned => exact .inl rfl
  | bound hunbound =>
    refine .inr ⟨rfl, ?_, ?_⟩
    · rw [List.eq_nil_iff_forall_not_mem]
      intro operation hoperation
      have hcurrent := hsound.current operation hoperation
      rw [hunbound] at hcurrent
      cases hcurrent
    · intro current hcurrent
      rw [hunbound] at hcurrent
      cases hcurrent
  | rebound hcurrent hnewer hempty hmatches =>
    refine .inr ⟨rfl, hempty, ?_⟩
    intro current hmem binding hbinding
    obtain rfl := Option.some_inj.mp (hcurrent.symm.trans hmem)
    obtain rfl := Option.some_inj.mp hbinding
    exact hnewer

/-- The binding, if there is one, is on the workspace of its placement. -/
def Placed (state : WorkspaceComponentState) : Prop :=
  ∀ binding ∈ state.binding, binding.placementMatchesWorkspace = true

theorem Transition.placed (h : Transition state command next) (hplaced : Placed state)
    (hcommand : ∀ binding, command = .bind binding → state.binding = none → binding.placementMatchesWorkspace = true) :
    Placed next := by
  cases h with
  | same | admitted | cleaned => exact hplaced
  | bound hunbound =>
    intro binding hbinding
    obtain rfl := Option.some_inj.mp hbinding
    exact hcommand _ rfl hunbound
  | rebound hcurrent hnewer hempty hmatches =>
    intro binding hbinding
    obtain rfl := Option.some_inj.mp hbinding
    exact hmatches

def WorkspaceComponentCommand.repeatable : WorkspaceComponentCommand → Bool
  | .bind _ | .admission _ => true
  | .cleanup _ _ => false

theorem bindTransition_binding {binding : WorkspaceBinding} (h : bindTransition state binding = .ok next) :
    next.binding = some binding := by
  rw [bindTransition] at h
  split at h
  · cases h
    rfl
  · next current hcurrent =>
      split at h
      · next hsame =>
          cases h
          rw [hcurrent, (WorkspaceBinding.sameBinding_eq_true.mp hsame).1]
      · obtain ⟨-, h⟩ := ite_error_eq_ok.mp h
        obtain ⟨-, h⟩ := ite_error_eq_ok.mp h
        obtain ⟨-, h⟩ := ite_error_eq_ok.mp h
        cases h
        rfl

theorem bindTransition_again {binding : WorkspaceBinding} (h : bindTransition state binding = .ok next)
    (hmatches : binding.placementMatchesWorkspace = true) : bindTransition next binding = .ok next := by
  rw [bindTransition, bindTransition_binding h]
  exact if_pos (WorkspaceBinding.sameBinding_eq_true.mpr ⟨rfl, hmatches⟩)

theorem admitTransition_again {operation : ComponentOperation} (h : admitTransition state operation = .ok next) :
    admitTransition next operation = .ok next := by
  have hadmit := h
  rw [admitTransition] at h
  obtain ⟨hbound, h⟩ := ite_error_eq_ok.mp h
  split at h
  · obtain ⟨-, h⟩ := ite_else_error_eq_ok.mp h
    cases h
    exact hadmit
  · next hnone =>
      obtain ⟨-, h⟩ := ite_error_eq_ok.mp h
      cases h
      have hfind : (state.admitted ++ [operation]).find? (fun entry => entry.operationId = operation.operationId) =
          some operation := by
        rw [List.find?_append, hnone, Option.none_or]
        exact List.find?_cons_of_pos (decide_eq_true rfl)
      have hsame : operation.binding.sameBinding operation.binding = true :=
        WorkspaceBinding.sameBinding_eq_true.mpr ⟨rfl, (bound_eq_true.mp (not_not.mp hbound)).2⟩
      rw [admitTransition, if_neg (by exact hbound), hfind]
      exact if_pos ⟨rfl, rfl, hsame⟩

theorem transition_again (hrepeatable : command.repeatable = true)
    (h : workspaceComponentTransition state command = .ok next) (hplaced : Placed next) :
    workspaceComponentTransition next command = .ok next := by
  cases command with
  | bind binding => exact bindTransition_again h (hplaced binding (bindTransition_binding h))
  | admission operation => exact admitTransition_again h
  | cleanup operationId settlement => cases hrepeatable

/-- `Schema.String.check(Schema.isMinLength(1), Schema.isMaxLength(limit))`. -/
def Identifier (limit : Nat) (text : String) : Prop := 1 ≤ (utf16 text).length ∧ (utf16 text).length ≤ limit

/-- The checks of the schema of an operation, its binding apart. -/
def ComponentOperation.Checked (operation : ComponentOperation) : Prop :=
  Identifier 256 operation.operationId ∧ Identifier 128 operation.tool ∧ Identifier 256 operation.inputDigest

def letters (n : Nat) : String := String.ofList (List.replicate n 'a')

theorem length_letters (n : Nat) : (utf16 (letters n)).length = n := by
  rw [utf16, letters, String.toList_ofList, List.flatMap_replicate, if_pos (by decide)]
  simp

theorem exists_fresh (ids : List String) (hroom : ids.length < maxAdmittedOperations) :
    ∃ id, Identifier 256 id ∧ id ∉ ids := by
  by_contra hnone
  have hall : ((List.range maxAdmittedOperations).map fun n => letters (n + 1)) ⊆ ids := by
    intro id hid
    obtain ⟨n, hn, rfl⟩ := List.mem_map.mp hid
    by_contra hfresh
    refine hnone ⟨letters (n + 1), ⟨?_, ?_⟩, hfresh⟩
    · rw [length_letters]
      omega
    · have hlt := List.mem_range.mp hn
      rw [length_letters]
      rw [maxAdmittedOperations] at hlt
      omega
  have hnodup : ((List.range maxAdmittedOperations).map fun n => letters (n + 1)).Nodup := by
    refine List.Nodup.map ?_ List.nodup_range
    intro n m hnm
    have hlength := congrArg (fun id => (utf16 id).length) hnm
    simp only [length_letters] at hlength
    omega
  have hle := (hnodup.subperm hall).length_le
  rw [List.length_map, List.length_range] at hle
  omega

/-- A bound state with room in its window accepts an operation under a fresh id. -/
def Admits (state : WorkspaceComponentState) : Prop :=
  ∀ binding, state.binding = some binding → state.admitted.length < maxAdmittedOperations →
    ∃ operation, operation.Checked ∧ operation.binding = binding ∧
      (∀ entry ∈ state.admitted, entry.operationId ≠ operation.operationId) ∧
        ∃ next, workspaceComponentTransition state (.admission operation) = .ok next

theorem Placed.admits (hplaced : Placed state) : Admits state := by
  intro binding hbinding hroom
  obtain ⟨id, hid, hfresh⟩ := exists_fresh (state.admitted.map (·.operationId)) (by rwa [List.length_map])
  have hother : ∀ entry ∈ state.admitted, entry.operationId ≠ id := by
    intro entry hentry hsame
    exact hfresh (List.mem_map.mpr ⟨entry, hentry, hsame⟩)
  have hbound : bound state binding = true := bound_eq_true.mpr ⟨hbinding, hplaced binding hbinding⟩
  have hnone : (state.admitted.find? fun entry => entry.operationId = id) = none := by
    rw [List.find?_eq_none]
    intro entry hentry
    simpa using hother entry hentry
  refine ⟨⟨id, "a", "a", binding⟩, ⟨hid, ?_, ?_⟩, rfl, hother, { state with admitted := state.admitted ++ [⟨id, "a", "a", binding⟩] }, ?_⟩
  · exact (by decide : 1 ≤ (utf16 "a").length ∧ (utf16 "a").length ≤ 128)
  · exact (by decide : 1 ≤ (utf16 "a").length ∧ (utf16 "a").length ≤ 256)
  · change admitTransition state ⟨id, "a", "a", binding⟩ = _
    rw [admitTransition, if_neg (not_not.mpr hbound), hnone]
    exact if_neg (Nat.not_le_of_lt hroom)

theorem run_append (done : List WorkspaceComponentCommand) (command : WorkspaceComponentCommand) :
    run (done ++ [command]) = step (run done) command := by
  rw [run, List.foldl_append]
  rfl

theorem run_sound (commands : List WorkspaceComponentCommand) : Sound (run commands) := by
  induction commands using List.reverseRecOn with
  | nil => exact ⟨List.nodup_nil, Nat.zero_le _, nofun⟩
  | append_singleton done command ih =>
    rw [run_append]
    exact (step_transition _ _).sound ih

/-- What holds of a run at every state and step of it. -/
structure Orderly (commands : List WorkspaceComponentCommand) : Prop where
  sound : ∀ done rest, commands = done ++ rest → Sound (run done)
  moves : ∀ done command rest, commands = done ++ command :: rest → Moves (run done) (run (done ++ [command]))
  repeats : ∀ done command rest next, commands = done ++ command :: rest → command.repeatable = true →
    workspaceComponentTransition (run done) command = .ok next → workspaceComponentTransition next command = .ok next
  admits : ∀ done rest, commands = done ++ rest → Admits (run done)

/-- The binding a run is first bound to is on the workspace of its placement. -/
def FirstPlaced (commands : List WorkspaceComponentCommand) : Prop :=
  ∀ done binding rest, commands = done ++ .bind binding :: rest → (run done).binding = none →
    binding.placementMatchesWorkspace = true

theorem run_placed {commands : List WorkspaceComponentCommand} (h : FirstPlaced commands) : Placed (run commands) := by
  induction commands using List.reverseRecOn with
  | nil =>
    intro binding hbinding
    cases hbinding
  | append_singleton done command ih =>
    rw [run_append]
    refine (step_transition _ _).placed (ih ?_) ?_
    · intro earlier binding rest heq
      refine h earlier binding (rest ++ [command]) ?_
      rw [heq, List.append_assoc]
      rfl
    · intro binding hbind hunbound
      subst hbind
      exact h done binding [] rfl hunbound

theorem FirstPlaced.of_append {done rest : List WorkspaceComponentCommand} (h : FirstPlaced (done ++ rest)) :
    FirstPlaced done := by
  intro earlier binding later heq
  refine h earlier binding (later ++ rest) ?_
  rw [heq, List.append_assoc]
  rfl

/-- A run is orderly exactly if its first binding is on the workspace of its placement; nothing can follow another one.
-/
theorem run_orderly (commands : List WorkspaceComponentCommand) : Orderly commands ↔ FirstPlaced commands := by
  constructor
  · intro h done binding rest heq hunbound
    have haccepted : workspaceComponentTransition (run done) (.bind binding) =
        .ok { run done with binding := some binding } := by
      change bindTransition (run done) binding = _
      rw [bindTransition, hunbound]
    have hagain := h.repeats done (.bind binding) rest _ heq rfl haccepted
    by_contra hmatches
    change bindTransition { run done with binding := some binding } binding = _ at hagain
    have hother : ¬ binding.sameBinding binding = true := fun hsame =>
      hmatches (WorkspaceBinding.sameBinding_eq_true.mp hsame).2
    have hpolicy : ¬ binding.sameWorkspacePolicy binding = true := by
      intro hsame
      simp only [WorkspaceBinding.sameWorkspacePolicy, Bool.and_eq_true] at hsame
      exact hmatches hsame.1.1.1.1.1
    simp only [bindTransition, if_neg hother, if_pos hpolicy] at hagain
    cases hagain
  · intro h
    constructor
    · intro done rest heq
      exact run_sound done
    · intro done command rest heq
      rw [run_append]
      exact (step_transition _ _).moves (run_sound done)
    · intro done command rest next heq hrepeatable hok
      have hstep : run (done ++ [command]) = next := by
        rw [run_append, step, hok]
      have hplaced : Placed (run (done ++ [command])) := by
        have hlater : FirstPlaced ((done ++ [command]) ++ rest) := by
          rw [List.append_assoc]
          exact heq ▸ h
        exact run_placed hlater.of_append
      rw [hstep] at hplaced
      exact transition_again hrepeatable hok hplaced
    · intro done rest heq
      have hlater : FirstPlaced (done ++ rest) := heq ▸ h
      exact (run_placed hlater.of_append).admits

/-- A binding whose placement is on another workspace is accepted once, and then refused. -/
theorem misplaced_binding_stuck :
    let binding : WorkspaceBinding := ⟨"workspace", "assignment", 1, .orb "other" "lineage", "build", 1⟩
    run [.bind binding] = ⟨some binding, []⟩ ∧
      workspaceComponentTransition (run [.bind binding]) (.bind binding) =
        .error "Workspace recovery cannot change its policy" ∧
      ¬ Admits (run [.bind binding]) := by
  intro binding
  refine ⟨by decide, by decide, ?_⟩
  intro hadmits
  obtain ⟨operation, -, hbinding, -, next, hok⟩ := hadmits binding (by decide) (by decide)
  have hbound : bound (run [.bind binding]) operation.binding = false := by
    rw [hbinding]
    decide
  have hrefused : ¬ bound (run [.bind binding]) operation.binding = true := by
    rw [hbound]
    decide
  change admitTransition (run [.bind binding]) operation = .ok next at hok
  rw [admitTransition, if_pos hrefused] at hok
  cases hok

end WorkspaceComponent

end Rika
