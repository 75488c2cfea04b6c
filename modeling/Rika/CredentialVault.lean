import Rika.Utf8Stream

namespace Rika.CredentialVault

open WideText (Units scalars units)

inductive CredentialOwner
  | user (id : Units)
  | organization (id : Units)
deriving DecidableEq

namespace CredentialOwner

def id : CredentialOwner → Units
  | user id => id
  | organization id => id

end CredentialOwner

structure CredentialBinding where
  credentialId : Units
  owner : CredentialOwner
  provider : Units
  revision : Nat
deriving DecidableEq

inductive OwnerType
  | user
  | organization
deriving DecidableEq

def OwnerType.text : OwnerType → Units
  | .user => units "user".toList
  | .organization => units "organization".toList

def ownerType (binding : CredentialBinding) : OwnerType :=
  match binding.owner with
  | .user _ => .user
  | .organization _ => .organization

structure CredentialKmsEncryptionContext where
  credentialId : Units
  ownerType : OwnerType
  ownerId : Units
  provider : Units
  revision : Units
  version : Units
deriving DecidableEq

def revisionText (revision : Nat) : Units := units revision.repr.toList

section

variable (binding : CredentialBinding)

def credentialKmsEncryptionContext : CredentialKmsEncryptionContext where
  credentialId := binding.credentialId
  ownerType := ownerType binding
  ownerId := binding.owner.id
  provider := binding.provider
  revision := revisionText binding.revision
  version := units ['1']

def textEncode (text : Units) : List UInt8 := Utf8Stream.encode (scalars text)

def authenticatedFields : List Units :=
  let context := credentialKmsEncryptionContext binding
  [context.version, context.credentialId, context.ownerType.text, context.ownerId, context.provider, context.revision]

def prefixed (value : Units) : Units := units (textEncode value).length.repr.toList ++ units [':'] ++ value

def credentialAdditionalAuthenticatedData : List UInt8 :=
  textEncode ((authenticatedFields binding).flatMap prefixed)

end

inductive RevocationReason
  | manual
  | rotated
deriving DecidableEq

inductive CredentialState
  | active
  | revoked (revokedAt : Int) (reason : RevocationReason) (successorRevision : Option Nat)
deriving DecidableEq

structure CredentialMetadata where
  binding : CredentialBinding
  createdAt : Int
  state : CredentialState
deriving DecidableEq

structure EncryptedCredentialMaterial where
  ciphertext : String
  nonce : String
  authTag : String
  wrappedDataEncryptionKey : String
deriving DecidableEq

structure EncryptedCredential where
  metadata : CredentialMetadata
  material : EncryptedCredentialMaterial
deriving DecidableEq

structure CredentialRotation where
  previous : EncryptedCredential
  current : EncryptedCredential
  rotatedAt : Int

structure EncryptedCredentialBytes where
  ciphertext : List UInt8
  nonce : List UInt8
  authTag : List UInt8
deriving DecidableEq

inductive BindingField
  | credentialId
  | owner
  | provider
  | revision
deriving DecidableEq

inductive MaterialComponent
  | ciphertext
  | nonce
  | authTag
  | wrappedDataEncryptionKey
deriving DecidableEq

inductive KmsOperation
  | generateDataKey
  | decrypt
deriving DecidableEq

inductive KmsReason
  | requestFailed
  | invalidResponse
deriving DecidableEq

inductive CipherOperation
  | encrypt
  | decrypt
deriving DecidableEq

inductive CipherReason
  | invalidKey
  | randomGenerationFailed
  | encryptionFailed
  | authenticationFailed
deriving DecidableEq

/-- Why a call of the vault fails; `invalid` is a value that its schema does not admit. -/
inductive Failure
  | kms (operation : KmsOperation) (reason : KmsReason)
  | cipher (operation : CipherOperation) (reason : CipherReason)
  | bindingMismatch (field : BindingField)
  | revoked (credentialId : Units) (revision : Nat) (revokedAt : Int)
  | materialInvalid (component : MaterialComponent)
  | invalid
deriving DecidableEq

/-- The key service, the cipher and the encoding that the vault calls; what is random or left unanswered is `Entropy`. -/
structure Services (Entropy Key : Type) where
  generateDataKey : CredentialKmsEncryptionContext → Entropy → Except Failure (Key × List UInt8)
  decryptDataKey : List UInt8 → CredentialKmsEncryptionContext → Entropy → Except Failure Key
  encrypt : Key → List UInt8 → List UInt8 → Entropy → Except Failure EncryptedCredentialBytes
  decrypt : Key → EncryptedCredentialBytes → List UInt8 → Except Failure (List UInt8)
  encodeBase64 : List UInt8 → String
  decodeBase64 : String → Option (List UInt8)
  isBase64 : String → Bool

structure EncryptCredentialInput where
  binding : CredentialBinding
  plaintext : List UInt8
  createdAt : Int

structure DecryptCredentialInput where
  credential : EncryptedCredential
  binding : CredentialBinding

def credentialBindingMismatch (expected actual : CredentialBinding) : Option BindingField :=
  if expected.credentialId ≠ actual.credentialId then some .credentialId
  else if ownerType expected ≠ ownerType actual ∨ expected.owner.id ≠ actual.owner.id then some .owner
  else if expected.provider ≠ actual.provider then some .provider
  else if expected.revision ≠ actual.revision then some .revision
  else none

def requireBinding (expected : CredentialBinding) (credential : EncryptedCredential) : Except Failure Unit :=
  match credentialBindingMismatch expected credential.metadata.binding with
  | some field => .error (.bindingMismatch field)
  | none => .ok ()

def requireActive (credential : EncryptedCredential) : Except Failure Unit :=
  match credential.metadata.state with
  | .revoked revokedAt _ _ =>
    .error (.revoked credential.metadata.binding.credentialId credential.metadata.binding.revision revokedAt)
  | .active => .ok ()

def maxSafeInteger : Nat := 9007199254740991

def makeRevision (revision : Nat) : Except Failure Nat :=
  if 1 ≤ revision ∧ revision ≤ maxSafeInteger then .ok revision else .error .invalid

variable {Entropy Key A : Type} (services : Services Entropy Key)

def materialOf (encrypted : EncryptedCredentialBytes) (wrapped : List UInt8) : EncryptedCredentialMaterial where
  ciphertext := services.encodeBase64 encrypted.ciphertext
  nonce := services.encodeBase64 encrypted.nonce
  authTag := services.encodeBase64 encrypted.authTag
  wrappedDataEncryptionKey := services.encodeBase64 wrapped

def admitted (material : EncryptedCredentialMaterial) : Bool :=
  services.isBase64 material.ciphertext && (services.isBase64 material.nonce && material.nonce.length = 16) &&
    (services.isBase64 material.authTag && material.authTag.length = 24) &&
      (services.isBase64 material.wrappedDataEncryptionKey && 4 ≤ material.wrappedDataEncryptionKey.length)

def decodeMaterialPart (component : MaterialComponent) (encoded : String) : Except Failure (List UInt8) :=
  match services.decodeBase64 encoded with
  | none => .error (.materialInvalid component)
  | some bytes => .ok bytes

def decodeMaterial (material : EncryptedCredentialMaterial) : Except Failure (EncryptedCredentialBytes × List UInt8) := do
  let ciphertext ← decodeMaterialPart services .ciphertext material.ciphertext
  let nonce ← decodeMaterialPart services .nonce material.nonce
  let authTag ← decodeMaterialPart services .authTag material.authTag
  let wrapped ← decodeMaterialPart services .wrappedDataEncryptionKey material.wrappedDataEncryptionKey
  .ok (⟨ciphertext, nonce, authTag⟩, wrapped)

def encrypt (input : EncryptCredentialInput) (keyEntropy cipherEntropy : Entropy) : Except Failure EncryptedCredential := do
  let generated ← services.generateDataKey (credentialKmsEncryptionContext input.binding) keyEntropy
  let encrypted ←
    services.encrypt generated.1 input.plaintext (credentialAdditionalAuthenticatedData input.binding) cipherEntropy
  let material := materialOf services encrypted generated.2
  if admitted services material then .ok ⟨⟨input.binding, input.createdAt, .active⟩, material⟩ else .error .invalid

def decrypt (input : DecryptCredentialInput) (entropy : Entropy) (use : List UInt8 → Except Failure A) : Except Failure A := do
  requireBinding input.binding input.credential
  requireActive input.credential
  let material ← decodeMaterial services input.credential.material
  let key ← services.decryptDataKey material.2 (credentialKmsEncryptionContext input.binding) entropy
  let plaintext ← services.decrypt key material.1 (credentialAdditionalAuthenticatedData input.binding)
  use plaintext

def revoke (input : DecryptCredentialInput) (revokedAt : Int) : Except Failure EncryptedCredential := do
  requireBinding input.binding input.credential
  requireActive input.credential
  .ok ⟨{ input.credential.metadata with state := .revoked revokedAt .manual none }, input.credential.material⟩

structure RotationEntropy (Entropy : Type) where
  opening : Entropy
  key : Entropy
  cipher : Entropy

section

variable (input : DecryptCredentialInput) (rotatedAt : Int) (entropy : RotationEntropy Entropy)

def rotatePlaintext (plaintext : List UInt8) : Except Failure CredentialRotation := do
  let successorRevision ← makeRevision (input.binding.revision + 1)
  let current ← encrypt services ⟨{ input.binding with revision := successorRevision }, plaintext, rotatedAt⟩ entropy.key entropy.cipher
  let previous : EncryptedCredential :=
    ⟨{ input.credential.metadata with state := .revoked rotatedAt .rotated (some successorRevision) }, input.credential.material⟩
  .ok ⟨previous, current, rotatedAt⟩

def rotate : Except Failure CredentialRotation :=
  decrypt services input entropy.opening (rotatePlaintext services input rotatedAt entropy)

end

end Rika.CredentialVault
