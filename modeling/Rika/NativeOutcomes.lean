import Rika.Operation

namespace Rika

inductive JsonValue
  | null
  | boolean (value : Bool)
  | number (text : String)
  | string (text : String)
  | array (items : List JsonValue)
  | object (fields : List (String × JsonValue))

namespace JsonValue

def field (name : String) : JsonValue → Option JsonValue
  | object fields => (fields.find? (·.1 = name)).map (·.2)
  | _ => none

def isText (text : String) : Option JsonValue → Bool
  | some (string other) => other = text
  | _ => false

end JsonValue

def FailureCategory.text : FailureCategory → String
  | .invalidInput => "invalid_input"
  | .notFound => "not_found"
  | .conflict => "conflict"
  | .accessDenied => "access_denied"
  | .dependencyUnavailable => "dependency_unavailable"
  | .rateLimited => "rate_limited"
  | .timeout => "timeout"
  | .operation => "operation"

def Recovery.text : Recovery → String
  | .never => "never"
  | .afterChange => "after_change"
  | .later => "later"

def FailureKind.text : FailureKind → String
  | .operation => "operation"
  | .timeout => "timeout"

def OutcomeKnown.text : OutcomeKnown → String
  | .known => "known"
  | .unknown => "unknown"

def ToolFailure.json (failure : ToolFailure) : JsonValue :=
  .object
    [("_tag", .string "ToolError"), ("tool", .string failure.tool), ("message", .string failure.message),
      ("kind", .string failure.kind.text), ("category", .string failure.category.text),
      ("outcome", .string failure.outcome.text), ("recovery", .string failure.recovery.text),
      ("nextAction", .string failure.nextAction)]

namespace NativeToolExecution

inductive NativeOperationKind
  | component
  | fenced
  | transport
  | unresolved
deriving DecidableEq

inductive DispatchError
  | operation (kind : NativeOperationKind) (message : String)
  | executor (error : ExecutorError)

/-- What became of an operation, with its JSON. -/
inductive CanonicalResult
  | accepted
  | completed (result : JsonValue)
  | domainFailure (failure : JsonValue)
  | unknown (reason : String)

inductive Outcome
  | success (encodedResult : JsonValue)
  | domainFailure (encodedFailure : JsonValue)

def toolFailure (tool message : String) (category : FailureCategory) (outcome : OutcomeKnown := .known) : ToolFailure where
  tool
  message
  kind := .operation
  category
  outcome
  recovery := if outcome = .unknown then .never else .afterChange
  nextAction :=
    if outcome = .unknown then "Inspect the workspace and process state before deciding whether another call is safe"
    else "Correct the input or workspace condition and retry"

def unknownFailure (tool reason : String) : ToolFailure := toolFailure tool reason .operation .unknown

def failureFrom (tool : String) : DispatchError → ToolFailure
  | .executor (.transport _ message) => toolFailure tool message .dependencyUnavailable .unknown
  | .executor (.fence _ message) => toolFailure tool message .accessDenied
  | .operation kind message =>
    if kind = .unresolved then unknownFailure tool message
    else toolFailure tool message (if kind = .fenced then .accessDenied else .conflict)

def outcomeFrom (tool : String) : CanonicalResult → Outcome
  | .completed result => .success result
  | .domainFailure failure => .domainFailure failure
  | .accepted => .domainFailure (unknownFailure tool "Executor accepted the operation without a terminal result").json
  | .unknown reason => .domainFailure (unknownFailure tool reason).json

def routeOutcome (tool : String) : Except DispatchError CanonicalResult → Outcome
  | .error error => .domainFailure (failureFrom tool error).json
  | .ok result => outcomeFrom tool result

/-- The schema `unknownToolResult`. -/
def unknownToolResult (value : JsonValue) : Bool :=
  JsonValue.isText "ToolError" (value.field "_tag") && JsonValue.isText "unknown" (value.field "outcome")

def SaysUnknown (failure : JsonValue) : Prop :=
  failure.field "_tag" = some (.string "ToolError") ∧ failure.field "outcome" = some (.string "unknown")

/-- What leaves it unknown what an operation did: a lost executor, an unresolved intent, or an unknown result. -/
inductive Uncertain : Except DispatchError CanonicalResult → Prop
  | transport (phase : DispatchPhase) (message : String) : Uncertain (.error (.executor (.transport phase message)))
  | unresolved (message : String) : Uncertain (.error (.operation .unresolved message))
  | accepted : Uncertain (.ok .accepted)
  | unknown (reason : String) : Uncertain (.ok (.unknown reason))
  | failure {failure : JsonValue} : SaysUnknown failure → Uncertain (.ok (.domainFailure failure))

def UnknownFailure (value : JsonValue) : Prop :=
  ∃ tool dispatched, Uncertain dispatched ∧ routeOutcome tool dispatched = .domainFailure value

section Written

theorem isText_eq_true {text : String} {value : Option JsonValue} : JsonValue.isText text value = true ↔ value = some (.string text) := by
  unfold JsonValue.isText
  split <;> simp_all

theorem unknownToolResult_iff {value : JsonValue} : unknownToolResult value = true ↔ SaysUnknown value := by
  rw [unknownToolResult, Bool.and_eq_true, isText_eq_true, isText_eq_true, SaysUnknown]

theorem saysUnknown_json (failure : ToolFailure) : SaysUnknown failure.json ↔ failure.outcome = .unknown := by
  have htag : failure.json.field "_tag" = some (.string "ToolError") := rfl
  have houtcome : failure.json.field "outcome" = some (.string failure.outcome.text) := rfl
  rw [SaysUnknown, htag, houtcome]
  cases failure.outcome <;> simp [OutcomeKnown.text]

theorem failureFrom_outcome (tool : String) (error : DispatchError) :
    (failureFrom tool error).outcome = .unknown ↔ Uncertain (.error error) := by
  cases error with
  | executor error =>
    cases error with
    | transport phase message => exact ⟨fun _ => .transport phase message, fun _ => rfl⟩
    | fence reason message =>
      refine ⟨fun h => ?_, fun h => ?_⟩
      · cases h
      · cases h
  | operation kind message =>
    cases kind with
    | unresolved => exact ⟨fun _ => .unresolved message, fun _ => rfl⟩
    | component | fenced | transport =>
      refine ⟨fun h => ?_, fun h => ?_⟩
      · cases h
      · cases h

/-- The route's failures say that their outcome is unknown in just the uncertain cases. -/
theorem saysUnknown_routeOutcome {tool : String} {dispatched : Except DispatchError CanonicalResult} {failure : JsonValue}
    (h : routeOutcome tool dispatched = .domainFailure failure) : SaysUnknown failure ↔ Uncertain dispatched := by
  cases dispatched with
  | error error =>
    rw [routeOutcome] at h
    cases h
    rw [saysUnknown_json, failureFrom_outcome]
  | ok result =>
    cases result with
    | completed result => cases h
    | domainFailure failure' =>
      cases h
      exact ⟨.failure, fun h => by cases h; assumption⟩
    | accepted =>
      cases h
      rw [saysUnknown_json]
      exact ⟨fun _ => .accepted, fun _ => rfl⟩
    | unknown reason =>
      cases h
      rw [saysUnknown_json]
      exact ⟨fun _ => .unknown reason, fun _ => rfl⟩

theorem unknownToolResult_iff_unknownFailure {value : JsonValue} : unknownToolResult value = true ↔ UnknownFailure value := by
  rw [unknownToolResult_iff]
  constructor
  · intro h
    exact ⟨"", .ok (.domainFailure value), .failure h, rfl⟩
  · intro h
    obtain ⟨tool, dispatched, huncertain, hwritten⟩ := h
    exact (saysUnknown_routeOutcome hwritten).mpr huncertain

end Written

end NativeToolExecution

end Rika
