import Mathlib.Data.Rat.Floor
import Rika.Projection
import Rika.TranscriptUnit

namespace Rika.SessionContext

structure ContentIdentity where
  codec : String
  version : String
  digest : List Char
deriving DecidableEq

/-- `Schema.Json`; a number is in its text. -/
inductive Json
  | null
  | boolean (value : Bool)
  | number (text : String)
  | string (value : Utf16)
  | array (values : List Json)
  | object (fields : List (String × Json))

structure SecureCredentialReference where
  provider : String
  reference : String

structure GuidanceFile where
  path : String
  content : Utf16

structure SkillListing where
  name : String
  description : Utf16
  whenToUse : Option Utf16
  allowedTools : Option (List Utf16)
  disableModelInvocation : Option Bool
  userInvocable : Option Bool
  contextFork : Option Bool
  paths : Option (List Utf16)

structure SkillMetadata extends SkillListing where
  identity : ContentIdentity

structure ActivatedSkill where
  name : String
  metadataIdentity : ContentIdentity
  bodyIdentity : ContentIdentity
  capturedAt : String

structure ModelSelection where
  provider : String
  model : String
  registrationKey : Option String

structure ModelSettings where
  temperature : Option Finite
  maxOutputTokens : Option Int
  reasoningEffort : Option String
  options : Option (List (String × Json))

structure ModelConfiguration where
  selection : ModelSelection
  settings : ModelSettings
  credentialRefs : List SecureCredentialReference

structure ToolGrant where
  name : String
  pin : String
  content : Option ContentIdentity

inductive WorkspacePlacement
  | runner (checkoutFingerprint workspaceId : String)
  | orb (workspaceId lineageId : String)
deriving DecidableEq

def WorkspacePlacement.workspaceId : WorkspacePlacement → String
  | runner _ workspaceId => workspaceId
  | orb workspaceId _ => workspaceId

structure WorkspaceBinding where
  workspaceId : String
  assignmentId : String
  generation : Nat
  placement : WorkspacePlacement
  buildId : String
  protocolVersion : Nat

def placementMatchesWorkspace (binding : WorkspaceBinding) : Bool := binding.workspaceId = binding.placement.workspaceId

def sameWorkspacePolicy (left right : WorkspaceBinding) : Bool :=
  placementMatchesWorkspace left && placementMatchesWorkspace right && left.workspaceId = right.workspaceId &&
    left.buildId = right.buildId && left.protocolVersion = right.protocolVersion && left.placement = right.placement

def sameBinding (left right : WorkspaceBinding) : Bool :=
  sameWorkspacePolicy left right && left.assignmentId = right.assignmentId && left.generation = right.generation

inductive GuidanceKind
  | workspace
  | skill

def GuidanceKind.text : GuidanceKind → List Char
  | workspace => "workspace".toList
  | skill => "skill".toList

inductive EntryKind
  | prompt
  | skill

structure GuidanceEntry where
  title : String
  content : Utf16
  path : Option String
  createdAt : String
  updatedAt : String
  version : Nat
  id : List Char
  kind : EntryKind
  scope : List Char

/-- What is digested beside the payload of a snapshot. -/
inductive Digested
  | guidanceEntry (kind : GuidanceKind) (value : String)
  | skillMetadata (listing : SkillListing)
  | skillBody (body : Utf16)

structure Skill extends SkillListing where
  instructions : Except String Utf16

/-- What is used of Generalist. A state of the guidance that cannot be made is `none`. -/
structure Generalist where
  State : Type
  Payload : Type
  digest : Digested → List Char
  payloadDigest : Payload → List Char
  makeModel : ModelConfiguration → String
  selectListings : List Skill → Nat → List Skill
  makeState : List Char → List GuidanceEntry → Option State
  stateScope : State → List Char
  allEntries : State → List GuidanceEntry
  snapshotId : State → List Char
  snapshotPayload : State → Payload
  payloadEntries : Payload → List GuidanceEntry
  registrationId : State → String → List Char
  registrationPayload : State → String → Payload
  capability : State → String → ToolGrant
  decode : List Char → Payload → Option State
  scope_make : ∀ {scope entries state}, makeState scope entries = some state → stateScope state = scope
  entries_make : ∀ {scope entries state}, makeState scope entries = some state →
    ∀ entry, entry ∈ allEntries state ↔ entry ∈ entries
  payloadEntries_make : ∀ state entry, entry ∈ payloadEntries (snapshotPayload state) ↔ entry ∈ allEntries state
  registrationId_make : ∀ state codec, registrationId state codec = snapshotId state
  registrationPayload_make : ∀ state codec, registrationPayload state codec = snapshotPayload state
  decode_make : ∀ state, decode (snapshotId state) (snapshotPayload state) = some state

variable {generalist : Generalist}

structure GuidanceSnapshot (generalist : Generalist) where
  id : List Char
  payload : generalist.Payload

structure PinnedRegistration (generalist : Generalist) where
  id : List Char
  capability : ToolGrant
  payload : generalist.Payload

structure SessionMaterialization (generalist : Generalist) where
  sessionId : String
  guidanceScope : List Char
  workspace : WorkspaceBinding
  guidance : GuidanceSnapshot generalist
  registration : PinnedRegistration generalist
  skills : List SkillMetadata
  activatedSkills : List ActivatedSkill
  model : ModelConfiguration
  modelPin : String
  tools : List ToolGrant
  settingsRevision : Nat

inductive MaterializationReason
  | binding
  | reader
  | guidance
  | duplicateSkill
  | skillNotFound
  | skillNotInvocable
  | skillBody
  | contentMissing
  | settings
  | revoked
  | attenuation

inductive Failure
  | failed (reason : MaterializationReason) (message : String)
  | thrown

def failure {α : Type} (reason : MaterializationReason) (message : String) : Except Failure α :=
  .error (.failed reason message)

def codecVersion : String := "rika/context-v2"

def skillMetadataIdentity (generalist : Generalist) (listing : SkillListing) : ContentIdentity :=
  ⟨"rika/context-v2/skill-metadata", "1", generalist.digest (.skillMetadata listing)⟩

def skillBodyIdentity (generalist : Generalist) (body : Utf16) : ContentIdentity :=
  ⟨"rika/context-v2/skill-body", "1", generalist.digest (.skillBody body)⟩

def guidanceEntryId (generalist : Generalist) (kind : GuidanceKind) (value : String) : List Char :=
  kind.text ++ '-' :: (generalist.digest (.guidanceEntry kind value)).take 48

def isScopeChar (c : Char) : Bool := c.isAlphanum || c ∈ ['.', '_', ':', '-']

def canonicalGuidanceScope (scope : String) : List Char :=
  let normalized := scope.toList.flatMap fun c => if isScopeChar c then [c] else List.replicate (utf16 c.toString).length '-'
  if normalized = [] then "rika-context".toList else normalized.take 512

section Listings

def truncate (value : Utf16) (max : Nat) : Utf16 :=
  if value.length ≤ max then value else value.take (max - 1) ++ [0x2026]

def boundedValues (values : List Utf16) : List Utf16 := (values.take 64).map fun value => truncate value 512

def skillMetadata (generalist : Generalist) (skill : SkillListing) (maxDescriptionChars : Nat) : SkillMetadata :=
  let listing : SkillListing :=
    { skill with
      description := truncate skill.description maxDescriptionChars
      whenToUse := skill.whenToUse.map fun text => truncate text maxDescriptionChars
      allowedTools := skill.allowedTools.map boundedValues
      paths := skill.paths.map boundedValues }
  { listing with identity := skillMetadataIdentity generalist listing }

def hexDigit (n : Nat) : UInt16 := (if n < 10 then 48 + n else 87 + n).toUInt16

def isHigh (unit : UInt16) : Bool := 0xD800 ≤ unit && unit < 0xDC00

def isLow (unit : UInt16) : Bool := 0xDC00 ≤ unit && unit < 0xE000

def escapeUnit (unit : UInt16) : Utf16 :=
  if unit = 34 then [92, 34]
  else if unit = 92 then [92, 92]
  else if unit = 8 then [92, 98]
  else if unit = 9 then [92, 116]
  else if unit = 10 then [92, 110]
  else if unit = 12 then [92, 102]
  else if unit = 13 then [92, 114]
  else if unit < 32 || isHigh unit || isLow unit then
    [92, 117, hexDigit (unit.toNat / 4096), hexDigit (unit.toNat / 256 % 16), hexDigit (unit.toNat / 16 % 16),
      hexDigit (unit.toNat % 16)]
  else [unit]

def escapeUnits : Utf16 → Utf16
  | [] => []
  | [unit] => escapeUnit unit
  | unit :: next :: rest =>
    if isHigh unit && isLow next then unit :: next :: escapeUnits rest else escapeUnit unit ++ escapeUnits (next :: rest)

def stringifyText (value : Utf16) : Utf16 := 34 :: escapeUnits value ++ [34]

def stringifyTexts (values : List Utf16) : Utf16 :=
  utf16 "[" ++ (utf16 ",").intercalate (values.map stringifyText) ++ utf16 "]"

def stringifyBool (value : Bool) : Utf16 := utf16 (if value then "true" else "false")

/-- `JSON.stringify` of what a skill is listed with, without its name. -/
def stringifyListing (skill : SkillListing) : Utf16 :=
  let field (name : String) (value : Utf16) : Utf16 := stringifyText (utf16 name) ++ utf16 ":" ++ value
  let fields : List (Option Utf16) :=
    [some (field "description" (stringifyText skill.description)),
      skill.whenToUse.map fun value => field "whenToUse" (stringifyText value),
      skill.allowedTools.map fun value => field "allowedTools" (stringifyTexts value),
      skill.disableModelInvocation.map fun value => field "disableModelInvocation" (stringifyBool value),
      skill.userInvocable.map fun value => field "userInvocable" (stringifyBool value),
      skill.contextFork.map fun value => field "contextFork" (stringifyBool value),
      skill.paths.map fun value => field "paths" (stringifyTexts value)]
  utf16 "\x7b" ++ (utf16 ",").intercalate (fields.filterMap id) ++ utf16 "\x7d"

end Listings

def guidanceEntry (generalist : Generalist) (file : GuidanceFile) (scope : List Char) (capturedAt : String) :
    GuidanceEntry where
  title := file.path
  content := file.content
  path := some file.path
  createdAt := capturedAt
  updatedAt := capturedAt
  version := 1
  id := guidanceEntryId generalist .workspace file.path
  kind := .prompt
  scope

def skillEntry (generalist : Generalist) (skill : SkillListing) (scope : List Char) (capturedAt : String) :
    GuidanceEntry where
  title := skill.name
  content := stringifyListing skill
  path := none
  createdAt := capturedAt
  updatedAt := capturedAt
  version := 1
  id := guidanceEntryId generalist .skill skill.name
  kind := .skill
  scope

def snapshotOf (state : generalist.State) : GuidanceSnapshot generalist :=
  ⟨generalist.snapshotId state, generalist.snapshotPayload state⟩

def registrationOf (state : generalist.State) : PinnedRegistration generalist :=
  ⟨generalist.registrationId state codecVersion, generalist.capability state codecVersion,
    generalist.registrationPayload state codecVersion⟩

section Models

def credentialKeys : List String :=
  ["secret", "token", "password", "apikey", "api-key", "api_key", "privatekey", "private-key", "private_key",
    "authorization", "accesskey", "access-key", "access_key"]

/-- A key that `nonSecretKey` matches. -/
def namesCredential (key : String) : Bool :=
  (key.toList.map Char.toLower).tails.any fun rest => credentialKeys.any fun name => name.toList.isPrefixOf rest

mutual

def containsCredentialValue : Json → Bool
  | .array values => containsCredentialItem values
  | .object fields => containsCredentialEntry fields
  | _ => false

def containsCredentialItem : List Json → Bool
  | [] => false
  | value :: values => containsCredentialValue value || containsCredentialItem values

def containsCredentialEntry : List (String × Json) → Bool
  | [] => false
  | (key, value) :: fields =>
    namesCredential key && key ≠ "credentialRefs" || containsCredentialValue value || containsCredentialEntry fields

end

def isIdentifier (max : Nat) (value : String) : Bool := value ≠ "" && (utf16 value).length ≤ max

def isCredentialReference (value : String) : Bool :=
  let rest := value.toList.drop 13
  "credential://".toList.isPrefixOf value.toList && rest ≠ [] &&
    rest.all fun c => c.isAlphanum || c ∈ ['.', '_', ':', '/', '-']

def ModelConfiguration.accepted (model : ModelConfiguration) : Bool :=
  isIdentifier 512 model.selection.provider && isIdentifier 512 model.selection.model &&
    model.selection.registrationKey.all (isIdentifier 512) &&
    model.settings.maxOutputTokens.all (fun tokens => -9007199254740991 ≤ tokens && tokens ≤ 9007199254740991) &&
    model.settings.reasoningEffort.all (isIdentifier 512) &&
    model.settings.options.all (fun options => options.all fun option => isIdentifier 512 option.1) &&
    model.credentialRefs.all fun credential =>
      isIdentifier 512 credential.provider && isCredentialReference credential.reference

def validateModelSync (model : ModelConfiguration) : Option ModelConfiguration :=
  if model.settings.options.any containsCredentialEntry then none else if model.accepted then some model else none

def WorkspaceBinding.accepted (binding : WorkspaceBinding) : Bool :=
  isIdentifier 256 binding.workspaceId && isIdentifier 256 binding.assignmentId && 1 ≤ binding.generation &&
    binding.generation ≤ 9007199254740991 &&
    (match binding.placement with
    | .runner checkoutFingerprint workspaceId => isIdentifier 256 checkoutFingerprint && isIdentifier 256 workspaceId
    | .orb workspaceId lineageId => isIdentifier 256 workspaceId && isIdentifier 256 lineageId) &&
    isIdentifier 256 binding.buildId && 1 ≤ binding.protocolVersion && binding.protocolVersion ≤ 1024

end Models

structure WorkspaceReader where
  guidance : Except Failure (List GuidanceFile)
  skills : Except Failure (List Skill)

structure MaterializerLimits where
  maxSkills : Option Finite
  maxDescriptionChars : Option Finite
  maxSkillListingTokens : Option Finite

structure DiscoverInput where
  sessionId : String
  guidanceScope : String
  binding : WorkspaceBinding
  capturedAt : String
  model : ModelConfiguration
  tools : List ToolGrant
  limits : MaterializerLimits

def limit (value : Option Finite) (byDefault : Nat) : Nat := (value.map fun value => ⌊value⌋.toNat).getD byDefault

/-- What decides beside the source: the schema of a materialization, which holds Generalist's,
and the language in which names are compared. -/
structure Environment (generalist : Generalist) where
  accepted : SessionMaterialization generalist → Bool
  collation : Collation

def orThrow {α : Type} (value : Option α) : Except Failure α :=
  match value with
  | none => .error .thrown
  | some value => .ok value

section

variable (environment : Environment generalist)

def decodeMaterialization (materialization : SessionMaterialization generalist) :
    Except Failure (SessionMaterialization generalist) :=
  if environment.accepted materialization then .ok materialization else .error .thrown

def selectedSkills (input : DiscoverInput) (discovered : List Skill) : List SkillMetadata :=
  let sorted := StableSort.toSorted (fun left right => environment.collation.compare left.name right.name) discovered
  ((generalist.selectListings sorted (limit input.limits.maxSkillListingTokens 2048)).take
    (limit input.limits.maxSkills 40)).map fun skill =>
      skillMetadata generalist skill.toSkillListing (max 1 (limit input.limits.maxDescriptionChars 1024))

def initialEntries (generalist : Generalist) (scope : List Char) (capturedAt : String) (files : List GuidanceFile)
    (skills : List SkillMetadata) : List GuidanceEntry :=
  files.map (fun file => guidanceEntry generalist file scope capturedAt) ++
    skills.map fun skill => skillEntry generalist skill.toSkillListing scope capturedAt

def initialMaterialization (input : DiscoverInput) (scope : List Char) (binding : WorkspaceBinding)
    (state : generalist.State) (skills : List SkillMetadata) (model : ModelConfiguration) :
    SessionMaterialization generalist where
  sessionId := input.sessionId
  guidanceScope := scope
  workspace := binding
  guidance := snapshotOf state
  registration := registrationOf state
  skills
  activatedSkills := []
  model
  modelPin := generalist.makeModel model
  tools := input.tools
  settingsRevision := 0

def discoverWithReader (reader : WorkspaceReader) (input : DiscoverInput) :
    Except Failure (SessionMaterialization generalist) := do
  if !input.binding.accepted then failure .binding "Context materialization failed"
  let model ←
    match validateModelSync input.model with
    | none => failure .settings "Model configuration must contain secure credential references only"
    | some model => .ok model
  let files ← reader.guidance
  let discovered ← reader.skills
  let skills := selectedSkills environment input discovered
  if ¬(skills.map (·.name)).Nodup then failure .duplicateSkill "Workspace skill names must be unique"
  if ¬(files.map (·.path)).Nodup then failure .guidance "Workspace guidance paths must be unique"
  let scope := canonicalGuidanceScope input.guidanceScope
  let state ← orThrow (generalist.makeState scope (initialEntries generalist scope input.capturedAt files skills))
  decodeMaterialization environment (initialMaterialization input scope input.binding state skills model)

end

section

variable (materialization : SessionMaterialization generalist)

def metadataByName (name : String) : Option SkillMetadata :=
  materialization.skills.find? fun skill => skill.name = name

def activatedEntries (generalist : Generalist) (entries : List GuidanceEntry) (name : String) (body : Utf16)
    (capturedAt : String) : List GuidanceEntry :=
  entries.map fun entry =>
    if entry.id = guidanceEntryId generalist .skill name then
      { entry with
        content := body
        updatedAt := capturedAt
        version := entry.version + 1 }
    else entry

def activated (state : generalist.State) (skill : ActivatedSkill) :
    SessionMaterialization generalist :=
  { materialization with
    guidance := snapshotOf state
    registration := registrationOf state
    activatedSkills := (materialization.activatedSkills.filter fun item => item.name ≠ skill.name) ++ [skill] }

def activatedState (name : String) (body : Utf16)
    (capturedAt : String) : Except Failure generalist.State :=
  orThrow <| generalist.makeState materialization.guidanceScope <|
    activatedEntries generalist (generalist.payloadEntries materialization.guidance.payload) name body capturedAt

end

structure ActivateSkillInput where
  requestId : String
  name : String
  capturedAt : String

def activateWithReader (environment : Environment generalist) (reader : WorkspaceReader)
    (materialization : SessionMaterialization generalist) (input : ActivateSkillInput) :
    Except Failure (SessionMaterialization generalist) := do
  match metadataByName materialization input.name with
  | none => failure .skillNotFound "Selected skill is not pinned"
  | some existing =>
    if existing.disableModelInvocation = some true then
      failure .skillNotInvocable "Selected skill cannot be activated by the model"
    else
      let skills ← reader.skills
      match skills.find? fun skill => skill.name = input.name with
      | none => failure .skillNotFound "Selected skill is unavailable"
      | some skill =>
        match skill.instructions with
        | .error message => failure .skillBody message
        | .ok body =>
          let state ← activatedState materialization input.name body input.capturedAt
          decodeMaterialization environment <| activated materialization state
            ⟨input.name, existing.identity, skillBodyIdentity generalist body, input.capturedAt⟩

inductive SessionMaterializationCommand
  | activateSkill (requestId name : String) (body : Utf16) (bodyIdentity : ContentIdentity) (capturedAt : String)
  | changeSettings (requestId : String) (expectedRevision : Int) (model : ModelConfiguration) (modelPin : String)
  | rebindWorkspace (expected workspace : WorkspaceBinding)

def componentTransition (state : SessionMaterialization generalist) :
    SessionMaterializationCommand → Except Failure (SessionMaterialization generalist)
  | .rebindWorkspace expected workspace =>
    if !sameBinding state.workspace expected then .error .thrown
    else if !sameWorkspacePolicy state.workspace workspace || workspace.generation ≤ state.workspace.generation then
      .error .thrown
    else .ok { state with workspace }
  | .activateSkill _ name body bodyIdentity capturedAt =>
    match metadataByName state name with
    | none => .error .thrown
    | some skill =>
      if skill.disableModelInvocation = some true then .error .thrown
      else if bodyIdentity ≠ skillBodyIdentity generalist body then .error .thrown
      else
        (activatedState state name body capturedAt).map fun guidance =>
          activated state guidance ⟨name, skill.identity, bodyIdentity, capturedAt⟩
  | .changeSettings _ expectedRevision model modelPin =>
    if expectedRevision ≠ state.settingsRevision then .error .thrown
    else if (validateModelSync model).isNone then .error .thrown
    else if generalist.makeModel model ≠ modelPin then .error .thrown
    else .ok { state with model, modelPin, settingsRevision := state.settingsRevision + 1 }

def bodiesPinned (state : generalist.State) (activatedSkills : List ActivatedSkill) : Bool :=
  activatedSkills.all fun activated =>
    ((generalist.allEntries state).find? fun entry => entry.id = guidanceEntryId generalist .skill activated.name).any
      fun entry => (skillBodyIdentity generalist entry.content).digest = activated.bodyIdentity.digest

def pinnedGuidance (materialization : SessionMaterialization generalist) : Except Failure generalist.State :=
  match generalist.decode materialization.registration.id materialization.registration.payload with
  | none => failure .contentMissing "Pinned guidance content cannot be reconstructed"
  | some decoded =>
    if generalist.stateScope decoded ≠ materialization.guidanceScope ∨
        materialization.guidance.id ≠ materialization.registration.id ∨
        (snapshotOf decoded).id ≠ materialization.guidance.id ∨
        generalist.payloadDigest materialization.guidance.payload ≠
          generalist.payloadDigest materialization.registration.payload then
      failure .contentMissing "Pinned guidance registration does not match the Session"
    else if (registrationOf decoded).capability.pin ≠ materialization.registration.capability.pin ∨
        (registrationOf decoded).capability.content.map (·.digest) ≠
          materialization.registration.capability.content.map (·.digest) then
      failure .contentMissing "Pinned guidance capability does not match the Session"
    else if !bodiesPinned decoded materialization.activatedSkills then
      failure .contentMissing "Pinned activated skill content cannot be reconstructed"
    else .ok decoded

def restoreWithReader (materialization : SessionMaterialization generalist) :
    Except Failure (SessionMaterialization generalist) :=
  match pinnedGuidance materialization with
  | .error error => .error error
  | .ok _ =>
    if generalist.makeModel materialization.model ≠ materialization.modelPin then
      failure .settings "Pinned model configuration does not match the Session"
    else .ok materialization

/-- What is done to a materialization: a command of its component, or an activation that reads
the skill's body from the workspace. -/
inductive Operation
  | command (issued : SessionMaterializationCommand)
  | activate (reader : WorkspaceReader) (input : ActivateSkillInput)

section

variable (environment : Environment generalist) (materialization : SessionMaterialization generalist)

def Operation.apply : Operation → Except Failure (SessionMaterialization generalist)
  | .command issued => componentTransition materialization issued
  | .activate reader input => activateWithReader environment reader materialization input

def Operation.next (operation : Operation) : SessionMaterialization generalist :=
  match operation.apply environment materialization with
  | .error _ => materialization
  | .ok materialization => materialization

def run (operations : List Operation) : SessionMaterialization generalist :=
  operations.foldl (Operation.next environment) materialization

end

def Operation.changesSettings (materialization : SessionMaterialization generalist) : Operation → Bool
  | .command (.changeSettings requestId expectedRevision model modelPin) =>
    (componentTransition materialization (.changeSettings requestId expectedRevision model modelPin)).isOk
  | _ => false

def settingsChanges (environment : Environment generalist) : SessionMaterialization generalist → List Operation → Nat
  | _, [] => 0
  | materialization, operation :: operations =>
    (if operation.changesSettings materialization then 1 else 0) +
      settingsChanges environment (operation.next environment materialization) operations

end Rika.SessionContext
