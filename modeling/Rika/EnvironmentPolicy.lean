import Rika.InsertionMap
import Rika.StableSort

namespace Rika.EnvironmentPolicy

/-- `/^[\x21-\x7e]{1,255}$/`. -/
def isOpaqueId (text : String) : Bool :=
  1 ≤ text.length && text.length ≤ 255 && text.toList.all fun c => '!' ≤ c && c ≤ '~'

structure OpaqueId where
  text : String
  valid : isOpaqueId text = true

inductive EnvironmentPhase
  | setup
  | runtime
deriving DecidableEq

inductive EnvironmentClassification
  | plain
  | secret
deriving DecidableEq

inductive EnvironmentScope
  | personal
  | organization
  | project
deriving DecidableEq

inductive ReferenceState
  | active
  | revoked
deriving DecidableEq

structure EnvironmentReference where
  id : OpaqueId
  ownerId : String
  projectId : Option String
  scope : EnvironmentScope
  scopeId : String
  name : String
  classification : EnvironmentClassification
  phases : List EnvironmentPhase
  revision : String
  valueDigest : String
  state : ReferenceState
  updatedByUserId : String
  updatedAt : String

structure SourceTrust where
  owner : String
  commitSha : String
  fork : Bool
  trustedRef : Bool

structure SourceEnvironmentApproval where
  ownerId : String
  projectId : Option String
  sourceOwner : String
  sourceCommitSha : String
  phase : EnvironmentPhase
  approvedByUserId : String
  approvedAt : String
  revokedAt : Option String

structure ResolveEnvironmentInput where
  candidates : List EnvironmentReference
  phase : EnvironmentPhase
  source : SourceTrust
  approval : Option SourceEnvironmentApproval
  organizationPersonalOverrides : Bool

def scopeRank : EnvironmentScope → Nat
  | .organization => 1
  | .project => 2
  | .personal => 3

/-- How the platform compares and lowers text. No two distinct texts of printable ASCII compare
equal. -/
structure Language where
  localeCompare : Collation
  toLowerCase : String → String
  eq_of_compare : ∀ left right : OpaqueId, localeCompare.compare left.text right.text = .eq → left.text = right.text

variable (language : Language)

def sourceMayReceiveSecrets (source : SourceTrust) (phase : EnvironmentPhase)
    (approval : Option SourceEnvironmentApproval) (ownerId : Option String) : Bool :=
  if !source.fork && source.trustedRef then true
  else
    match approval with
    | none => false
    | some approval =>
      (ownerId.all fun ownerId => approval.ownerId = ownerId) && approval.revokedAt.isNone &&
        language.toLowerCase approval.sourceOwner = language.toLowerCase source.owner &&
        language.toLowerCase approval.sourceCommitSha = language.toLowerCase source.commitSha && approval.phase = phase

variable (input : ResolveEnvironmentInput)

def mayReceiveSecrets (reference : EnvironmentReference) : Bool :=
  sourceMayReceiveSecrets language input.source input.phase input.approval (some reference.ownerId)

def admitted (reference : EnvironmentReference) : Bool :=
  reference.state = .active && input.phase ∈ reference.phases &&
    (reference.classification = .plain || mayReceiveSecrets language input reference)

def compareReferences (left right : EnvironmentReference) : Ordering :=
  (compare (scopeRank left.scope) (scopeRank right.scope)).then
    ((language.localeCompare.compare left.name right.name).then (language.localeCompare.compare left.id.text right.id.text))

def visit (organizationPersonalOverrides : Bool) (selected : InsertionMap String EnvironmentReference)
    (candidate : EnvironmentReference) : InsertionMap String EnvironmentReference :=
  match selected.get candidate.name with
  | none => selected.set candidate.name candidate
  | some current =>
    if candidate.scope = .personal && current.scope ≠ .personal && !organizationPersonalOverrides then selected
    else if scopeRank current.scope ≤ scopeRank candidate.scope then selected.set candidate.name candidate
    else selected

def sortedCandidates : List EnvironmentReference :=
  StableSort.toSorted (compareReferences language) (input.candidates.filter (admitted language input))

def resolveEnvironmentReferences : List EnvironmentReference :=
  StableSort.toSorted (fun left right => language.localeCompare.compare left.name right.name)
    ((sortedCandidates language input).foldl (visit input.organizationPersonalOverrides) .empty).values

end Rika.EnvironmentPolicy
