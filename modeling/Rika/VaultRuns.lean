import Rika.AdditionalData
import Rika.Base64Url
import Rika.Fold

namespace Rika.CredentialVault

open Fold (bind_eq_ok)
open WideText (units)

variable {Entropy Key A : Type} (services : Services Entropy Key)

/-- The key service and the cipher open only what was sealed under the same context, key and data. -/
structure Authentic : Prop where
  key : ∀ {context other entropy opening key wrapped opened}, services.generateDataKey context entropy = .ok (key, wrapped) →
    services.decryptDataKey wrapped other opening = .ok opened → other = context ∧ opened = key
  data : ∀ {key other plaintext data otherData entropy encrypted opened},
    services.encrypt key plaintext data entropy = .ok encrypted →
      services.decrypt other encrypted otherData = .ok opened → other = key ∧ otherData = data ∧ opened = plaintext
  base64 : ∀ bytes, services.decodeBase64 (services.encodeBase64 bytes) = some bytes

/-- Where the key service answers, what was sealed is opened. -/
structure Opening (answers : Entropy → Prop) : Prop where
  key : ∀ {context entropy opening key wrapped}, services.generateDataKey context entropy = .ok (key, wrapped) →
    answers opening → services.decryptDataKey wrapped context opening = .ok key
  data : ∀ {key plaintext data entropy encrypted}, services.encrypt key plaintext data entropy = .ok encrypted →
    services.decrypt key encrypted data = .ok plaintext

structure Seal where
  binding : CredentialBinding
  plaintext : List UInt8
  material : EncryptedCredentialMaterial

structure Vault where
  records : List EncryptedCredential := []
  seals : List Seal := []

inductive Call (Entropy : Type)
  | encrypt (input : EncryptCredentialInput) (keyEntropy cipherEntropy : Entropy)
  | rotate (input : DecryptCredentialInput) (rotatedAt : Int) (entropy : RotationEntropy Entropy)
  | revoke (input : DecryptCredentialInput) (revokedAt : Int)

def Vault.Composes (vault : Vault) (credential : EncryptedCredential) : Prop :=
  (∃ record ∈ vault.records, record.metadata = credential.metadata) ∧
    ∃ record ∈ vault.records, record.material = credential.material

def Vault.Admits (vault : Vault) : Call Entropy → Prop
  | .encrypt _ _ _ => True
  | .rotate input _ _ => vault.Composes input.credential
  | .revoke input _ => vault.Composes input.credential

def opened (input : DecryptCredentialInput) (entropy : Entropy) : List UInt8 :=
  match decrypt services input entropy Except.ok with
  | .ok plaintext => plaintext
  | .error _ => []

def Vault.act (vault : Vault) : Call Entropy → Vault
  | .encrypt input keyEntropy cipherEntropy =>
    match encrypt services input keyEntropy cipherEntropy with
    | .ok credential =>
      { records := vault.records ++ [credential]
        seals := vault.seals ++ [⟨input.binding, input.plaintext, credential.material⟩] }
    | .error _ => vault
  | .rotate input rotatedAt entropy =>
    match rotate services input rotatedAt entropy with
    | .ok rotation =>
      { records := vault.records ++ [rotation.previous, rotation.current]
        seals := vault.seals ++
          [⟨rotation.current.metadata.binding, opened services input entropy.opening, rotation.current.material⟩] }
    | .error _ => vault
  | .revoke input revokedAt =>
    match revoke input revokedAt with
    | .ok credential => { vault with records := vault.records ++ [credential] }
    | .error _ => vault

inductive Vault.Reachable : Vault → Prop
  | start : Vault.Reachable {}
  | act {vault : Vault} (call : Call Entropy) : vault.Reachable → vault.Admits call → (vault.act services call).Reachable

/-- The seal is of a call of `encrypt`. -/
def Seal.Made (made : Seal) : Prop :=
  ∃ createdAt keyEntropy cipherEntropy credential,
    encrypt services ⟨made.binding, made.plaintext, createdAt⟩ keyEntropy cipherEntropy = .ok credential ∧
      credential.material = made.material

/-- Every record's material is sealed, and every seal was made. -/
structure Vault.Sealed (vault : Vault) : Prop where
  made : ∀ made ∈ vault.seals, made.Made services
  sealed : ∀ record ∈ vault.records, ∃ made ∈ vault.seals, made.material = record.material

variable {services}

section Calls

variable {expected : CredentialBinding} {credential : EncryptedCredential} {input : DecryptCredentialInput}
    {entropy keyEntropy cipherEntropy : Entropy} {use : List UInt8 → Except Failure A} {a : A}

theorem credentialBindingMismatch_eq_none {actual : CredentialBinding} :
    credentialBindingMismatch expected actual = none ↔ expected = actual := by
  constructor
  · intro h
    rw [credentialBindingMismatch] at h
    by_cases hcredential : expected.credentialId = actual.credentialId
    · by_cases howner : ownerType expected = ownerType actual ∧ expected.owner.id = actual.owner.id
      · by_cases hprovider : expected.provider = actual.provider
        · by_cases hrevision : expected.revision = actual.revision
          · have hsame := owner_eq howner.1 howner.2
            cases expected
            cases actual
            simp_all
          · simp [hcredential, howner, hprovider, hrevision] at h
        · simp [hcredential, howner, hprovider] at h
      · have hdiffers : ownerType expected ≠ ownerType actual ∨ expected.owner.id ≠ actual.owner.id := by
          rwa [← not_and_or]
        simp [hcredential, hdiffers] at h
    · simp [hcredential] at h
  · rintro rfl
    simp [credentialBindingMismatch]

theorem requireBinding_eq_ok : requireBinding expected credential = .ok () ↔ expected = credential.metadata.binding := by
  rw [← credentialBindingMismatch_eq_none, requireBinding]
  cases credentialBindingMismatch expected credential.metadata.binding <;> simp

theorem requireActive_eq_ok : requireActive credential = .ok () ↔ credential.metadata.state = .active := by
  rw [requireActive]
  cases credential.metadata.state <;> simp

theorem decrypt_eq_ok : decrypt services input entropy use = .ok a ↔
      input.binding = input.credential.metadata.binding ∧ input.credential.metadata.state = .active ∧
        ∃ parts, decodeMaterial services input.credential.material = .ok parts ∧
          ∃ key, services.decryptDataKey parts.2 (credentialKmsEncryptionContext input.binding) entropy = .ok key ∧
            ∃ plaintext, services.decrypt key parts.1 (credentialAdditionalAuthenticatedData input.binding) = .ok plaintext ∧
              use plaintext = .ok a := by
  have hunit {check : Except Failure Unit} : (∃ passed, check = .ok passed) ↔ check = .ok () :=
    ⟨fun h => h.choose_spec, fun h => ⟨(), h⟩⟩
  simp only [decrypt, bind_eq_ok, exists_and_right, hunit, requireBinding_eq_ok, requireActive_eq_ok]

theorem encrypt_eq_ok {input : EncryptCredentialInput} :
    encrypt services input keyEntropy cipherEntropy = .ok credential ↔
      ∃ generated, services.generateDataKey (credentialKmsEncryptionContext input.binding) keyEntropy = .ok generated ∧
        ∃ encrypted, services.encrypt generated.1 input.plaintext (credentialAdditionalAuthenticatedData input.binding)
            cipherEntropy = .ok encrypted ∧
          admitted services (materialOf services encrypted generated.2) = true ∧
            (⟨⟨input.binding, input.createdAt, .active⟩, materialOf services encrypted generated.2⟩ : EncryptedCredential) =
              credential := by
  have hmake (fits : Bool) (made : EncryptedCredential) :
      (if fits = true then Except.ok made else .error Failure.invalid) = .ok credential ↔ fits = true ∧ made = credential := by
    cases fits <;> simp
  simp only [encrypt, bind_eq_ok, hmake]

theorem rotate_eq_ok {rotatedAt : Int} {entropy : RotationEntropy Entropy}
    {rotation : CredentialRotation} (h : rotate services input rotatedAt entropy = .ok rotation) :
    ∃ plaintext, decrypt services input entropy.opening Except.ok = .ok plaintext ∧
      encrypt services ⟨{ input.binding with revision := input.binding.revision + 1 }, plaintext, rotatedAt⟩ entropy.key
          entropy.cipher = .ok rotation.current ∧
        rotation.previous.metadata =
          { input.credential.metadata with state := .revoked rotatedAt .rotated (some (input.binding.revision + 1)) } ∧
          rotation.previous.material = input.credential.material := by
  obtain ⟨hbinding, hactive, parts, hparts, key, hkey, plaintext, hplaintext, hrotate⟩ := decrypt_eq_ok.mp h
  simp only [rotatePlaintext, bind_eq_ok] at hrotate
  obtain ⟨successor, hsuccessor, current, hcurrent, hrotation⟩ := hrotate
  have hrevision : successor = input.binding.revision + 1 := by
    rw [makeRevision] at hsuccessor
    split at hsuccessor
    · exact (Except.ok.inj hsuccessor).symm
    · cases hsuccessor
  subst hrevision
  have hresult := Except.ok.inj hrotation
  subst hresult
  exact ⟨plaintext, decrypt_eq_ok.mpr ⟨hbinding, hactive, parts, hparts, key, hkey, plaintext, hplaintext, rfl⟩, hcurrent,
    rfl, rfl⟩

theorem revoke_eq_ok {revokedAt : Int}
    (h : revoke input revokedAt = .ok credential) : credential.material = input.credential.material := by
  simp only [revoke, bind_eq_ok] at h
  obtain ⟨-, -, -, -, hcredential⟩ := h
  rw [← Except.ok.inj hcredential]

theorem encrypt_binding {input : EncryptCredentialInput}
    (h : encrypt services input keyEntropy cipherEntropy = .ok credential) :
    credential.metadata = ⟨input.binding, input.createdAt, .active⟩ := by
  obtain ⟨generated, -, encrypted, -, -, hcredential⟩ := encrypt_eq_ok.mp h
  rw [← hcredential]

theorem decodeMaterial_materialOf (hauthentic : Authentic services) (encrypted : EncryptedCredentialBytes) (wrapped : List UInt8) :
    decodeMaterial services (materialOf services encrypted wrapped) = .ok (encrypted, wrapped) := by
  simp [decodeMaterial, decodeMaterialPart, materialOf, hauthentic.base64, bind, Except.bind]

theorem Seal.Made.opens {made : Seal} (hmade : made.Made services) (hauthentic : Authentic services)
    (hmaterial : made.material = input.credential.material)
    {plaintext : List UInt8} (h : decrypt services input entropy Except.ok = .ok plaintext) :
    made.binding = input.binding ∧ made.plaintext = plaintext := by
  obtain ⟨createdAt, keyEntropy, cipherEntropy, credential, hencrypt, hcredential⟩ := hmade
  obtain ⟨generated, hgenerated, encrypted, hencrypted, -, hsealed⟩ := encrypt_eq_ok.mp hencrypt
  obtain ⟨-, -, parts, hparts, key, hkey, opened, hopened, hresult⟩ := decrypt_eq_ok.mp h
  have hparts' : parts = (encrypted, generated.2) := by
    rw [← hmaterial, ← hcredential, ← hsealed, decodeMaterial_materialOf hauthentic] at hparts
    exact (Except.ok.inj hparts).symm
  rw [hparts'] at hkey hopened
  obtain ⟨hcontext, -⟩ := hauthentic.key hgenerated hkey
  obtain ⟨-, -, hsame⟩ := hauthentic.data hencrypted hopened
  exact ⟨(credentialKmsEncryptionContext_injective hcontext).symm, hsame.symm.trans (Except.ok.inj hresult)⟩

theorem decrypt_encrypted {answers : Entropy → Prop} (hauthentic : Authentic services) (hopening : Opening services answers)
    {input : EncryptCredentialInput}
    (h : encrypt services input keyEntropy cipherEntropy = .ok credential) (hanswers : answers entropy) :
    decrypt services ⟨credential, input.binding⟩ entropy Except.ok = .ok input.plaintext := by
  obtain ⟨generated, hgenerated, encrypted, hencrypted, -, hcredential⟩ := encrypt_eq_ok.mp h
  subst hcredential
  exact decrypt_eq_ok.mpr ⟨rfl, rfl, _, decodeMaterial_materialOf hauthentic encrypted generated.2, generated.1,
    hopening.key hgenerated hanswers, input.plaintext, hopening.data hencrypted, rfl⟩

theorem decrypt_bind (input : DecryptCredentialInput) (entropy : Entropy) (use : List UInt8 → Except Failure A) :
    decrypt services input entropy use = decrypt services input entropy Except.ok >>= use := by
  simp only [decrypt, bind_assoc]
  rfl

theorem decrypt_use : decrypt services input entropy use = .ok a ↔
      ∃ plaintext, decrypt services input entropy Except.ok = .ok plaintext ∧ use plaintext = .ok a := by
  rw [decrypt_bind, bind_eq_ok]

theorem decrypt_ne_ok_of_revoked
    (h : input.credential.metadata.state ≠ .active) : decrypt services input entropy use ≠ .ok a := by
  intro hopened
  exact h (decrypt_eq_ok.mp hopened).2.1

end Calls

section Runs

variable {vault : Vault} {credential : EncryptedCredential} {plaintext : List UInt8}

theorem Vault.Sealed.encrypt (h : vault.Sealed services) {input : EncryptCredentialInput} {keyEntropy cipherEntropy : Entropy}
    (hencrypt : CredentialVault.encrypt services input keyEntropy cipherEntropy = .ok credential) :
    Vault.Sealed services
      { records := vault.records ++ [credential]
        seals := vault.seals ++ [⟨input.binding, input.plaintext, credential.material⟩] } where
  made made hmade := by
    rcases List.mem_append.mp hmade with hold | hnew
    · exact h.made made hold
    · rw [List.mem_singleton] at hnew
      subst hnew
      exact ⟨input.createdAt, keyEntropy, cipherEntropy, credential, hencrypt, rfl⟩
  sealed record hrecord := by
    rcases List.mem_append.mp hrecord with hold | hnew
    · obtain ⟨made, hmade, hmaterial⟩ := h.sealed record hold
      exact ⟨made, List.mem_append_left _ hmade, hmaterial⟩
    · rw [List.mem_singleton] at hnew
      exact ⟨_, List.mem_append_right _ List.mem_cons_self, by rw [hnew]⟩

theorem Vault.Sealed.append (h : vault.Sealed services) {record : EncryptedCredential}
    (hrecord : record ∈ vault.records) (hmaterial : record.material = credential.material) :
    Vault.Sealed services { vault with records := vault.records ++ [credential] } where
  made := h.made
  sealed other hother := by
    rcases List.mem_append.mp hother with hold | hnew
    · exact h.sealed other hold
    · rw [List.mem_singleton] at hnew
      rw [hnew, ← hmaterial]
      exact h.sealed record hrecord

theorem Vault.Sealed.act (h : vault.Sealed services) (call : Call Entropy) (hadmits : vault.Admits call) :
    (vault.act services call).Sealed services := by
  cases call with
  | encrypt input keyEntropy cipherEntropy =>
    rw [Vault.act]
    cases hencrypt : CredentialVault.encrypt services input keyEntropy cipherEntropy with
    | error failure => exact h
    | ok credential => exact h.encrypt hencrypt
  | rotate input rotatedAt entropy =>
    rw [Vault.act]
    cases hrotate : CredentialVault.rotate services input rotatedAt entropy with
    | error failure => exact h
    | ok rotation =>
      obtain ⟨plaintext, hopened, hcurrent, -, hprevious⟩ := rotate_eq_ok hrotate
      obtain ⟨-, record, hrecord, hmaterial⟩ := hadmits
      have hpast := h.append hrecord (hmaterial.trans hprevious.symm)
      have hsealed := hpast.encrypt hcurrent
      have hplaintext : opened services input entropy.opening = plaintext := by
        rw [opened, hopened]
      simpa only [hplaintext, encrypt_binding hcurrent, List.append_assoc, List.cons_append, List.nil_append] using hsealed
  | revoke input revokedAt =>
    rw [Vault.act]
    cases hrevoke : CredentialVault.revoke input revokedAt with
    | error failure => exact h
    | ok credential =>
      obtain ⟨-, record, hrecord, hmaterial⟩ := hadmits
      exact h.append hrecord (hmaterial.trans (revoke_eq_ok hrevoke).symm)

theorem Vault.Reachable.sealed (h : vault.Reachable services) : vault.Sealed services := by
  induction h with
  | start => exact ⟨nofun, nofun⟩
  | act call hreachable hadmits ih => exact ih.act call hadmits

/-- A credential opens under a binding, to a plaintext, as its own metadata and the seals of its material say. -/
structure Vault.Opens (vault : Vault) (credential : EncryptedCredential) (binding : CredentialBinding)
    (plaintext : List UInt8) : Prop where
  active : credential.metadata.state = .active
  own : binding = credential.metadata.binding
  sealed : ∃ made ∈ vault.seals, made.material = credential.material
  only : ∀ made ∈ vault.seals, made.material = credential.material → made.binding = binding ∧ made.plaintext = plaintext

/-- A rotation leaves a record that opens to the plaintext under the next revision, and one that opens under no binding.
-/
structure Succeeds (services : Services Entropy Key) (answers : Entropy → Prop) (binding : CredentialBinding)
    (plaintext : List UInt8) (rotation : CredentialRotation) : Prop where
  current : ∀ (A : Type) (use : List UInt8 → Except Failure A) entropy, answers entropy →
    decrypt services ⟨rotation.current, { binding with revision := binding.revision + 1 }⟩ entropy use = use plaintext
  previous : ∀ (A : Type) (use : List UInt8 → Except Failure A) entropy other a,
    decrypt services ⟨rotation.previous, other⟩ entropy use ≠ .ok a

theorem Vault.Sealed.opens (h : vault.Sealed services) (hauthentic : Authentic services)
    (hcomposes : vault.Composes credential) {binding : CredentialBinding} {entropy : Entropy}
    (hopened : decrypt services ⟨credential, binding⟩ entropy Except.ok = .ok plaintext) :
    vault.Opens credential binding plaintext where
  active := (decrypt_eq_ok.mp hopened).2.1
  own := (decrypt_eq_ok.mp hopened).1
  sealed := by
    obtain ⟨-, record, hrecord, hmaterial⟩ := hcomposes
    rw [← hmaterial]
    exact h.sealed record hrecord
  only made hmade hmaterial := (h.made made hmade).opens hauthentic hmaterial hopened

theorem succeeds_rotate {answers : Entropy → Prop} (hauthentic : Authentic services) (hopening : Opening services answers)
    {input : DecryptCredentialInput} {rotatedAt : Int} {entropy : RotationEntropy Entropy} {rotation : CredentialRotation}
    (h : rotate services input rotatedAt entropy = .ok rotation)
    (hopened : decrypt services input entropy.opening Except.ok = .ok plaintext) :
    Succeeds services answers input.binding plaintext rotation := by
  obtain ⟨sealed, hsealed, hcurrent, hprevious, -⟩ := rotate_eq_ok h
  rw [hopened] at hsealed
  obtain rfl := Except.ok.inj hsealed
  refine ⟨fun B use opening hanswers => ?_, fun B use opening other b => ?_⟩
  · rw [decrypt_bind, decrypt_encrypted hauthentic hopening hcurrent hanswers]
    rfl
  · refine decrypt_ne_ok_of_revoked ?_
    rw [hprevious]
    exact CredentialState.noConfusion

/-- A composed record opens only under its own binding and as sealed, and a rotation hands the plaintext on. -/
theorem composed_opens_own {answers : Entropy → Prop} (hauthentic : Authentic services) (hopening : Opening services answers)
    {vault : Vault} (hreachable : vault.Reachable services) {credential : EncryptedCredential}
    (hcomposes : vault.Composes credential) (binding : CredentialBinding) :
    (∀ (A : Type) (use : List UInt8 → Except Failure A) entropy a,
        decrypt services ⟨credential, binding⟩ entropy use = .ok a →
          ∃ plaintext, vault.Opens credential binding plaintext ∧ use plaintext = .ok a) ∧
      ∀ rotatedAt entropy rotation, rotate services ⟨credential, binding⟩ rotatedAt entropy = .ok rotation →
        ∃ plaintext, vault.Opens credential binding plaintext ∧ Succeeds services answers binding plaintext rotation := by
  constructor
  · intro A use entropy a hdecrypt
    obtain ⟨plaintext, hopened, huse⟩ := decrypt_use.mp hdecrypt
    exact ⟨plaintext, hreachable.sealed.opens hauthentic hcomposes hopened, huse⟩
  · intro rotatedAt entropy rotation hrotate
    obtain ⟨plaintext, hopened, -⟩ := rotate_eq_ok hrotate
    exact ⟨plaintext, hreachable.sealed.opens hauthentic hcomposes hopened, succeeds_rotate hauthentic hopening hrotate hopened⟩

end Runs

section Samples

def sampleBinding (revision : Nat) : CredentialBinding :=
  ⟨units "credential".toList, .user (units "user".toList), units "provider".toList, revision⟩

def sampleRevision (context : CredentialKmsEncryptionContext) : Option Nat :=
  [1, 2].find? fun revision => context = credentialKmsEncryptionContext (sampleBinding revision)

def sampleKey (context : CredentialKmsEncryptionContext) (answers : Bool) : Except Failure (Nat × List UInt8) :=
  match answers, sampleRevision context with
  | true, some revision => .ok (revision, [UInt8.ofNat revision])
  | _, _ => .error (.kms .generateDataKey .requestFailed)

def sampleSealed (key : Nat) (plaintext : List UInt8) : EncryptedCredentialBytes :=
  ⟨plaintext, List.replicate 12 0, List.replicate 16 (UInt8.ofNat key)⟩

def sampleFits (key : Nat) (data : List UInt8) : Prop :=
  (key = 1 ∨ key = 2) ∧ data = credentialAdditionalAuthenticatedData (sampleBinding key)

instance (key : Nat) (data : List UInt8) : Decidable (sampleFits key data) := inferInstanceAs (Decidable (_ ∧ _))

def sampleServices : Services Bool Nat where
  generateDataKey := sampleKey
  decryptDataKey wrapped context answers :=
    match sampleKey context answers with
    | .ok (key, known) => if known = wrapped then .ok key else .error (.kms .decrypt .requestFailed)
    | .error failure => .error failure
  encrypt key plaintext data _ :=
    if sampleFits key data then .ok (sampleSealed key plaintext) else .error (.cipher .encrypt .encryptionFailed)
  decrypt key encrypted data :=
    if sampleFits key data ∧ encrypted = sampleSealed key encrypted.ciphertext then .ok encrypted.ciphertext
    else .error (.cipher .decrypt .authenticationFailed)
  encodeBase64 bytes :=
    String.ofList (Base64Url.encode (bytes.map UInt8.toNat) ++ List.replicate ((3 - bytes.length % 3) % 3) '=')
  decodeBase64 text := (Base64Url.decode (text.toList.takeWhile (· ≠ '='))).map (·.map UInt8.ofNat)
  isBase64 text := (Base64Url.decode (text.toList.takeWhile (· ≠ '='))).isSome

theorem sampleKey_eq_ok {context : CredentialKmsEncryptionContext} {answers : Bool} {made : Nat × List UInt8}
    (h : sampleKey context answers = .ok made) :
    answers = true ∧ (made.1 = 1 ∨ made.1 = 2) ∧ context = credentialKmsEncryptionContext (sampleBinding made.1) ∧
      made.2 = [UInt8.ofNat made.1] := by
  unfold sampleKey at h
  split at h
  · next revision hrevision =>
      cases h
      have hmem := List.mem_of_find?_eq_some hrevision
      have hcontext := List.find?_some hrevision
      exact ⟨rfl, by simpa using hmem, by simpa using hcontext, rfl⟩
  · cases h

theorem sample_authentic : Authentic sampleServices where
  key hgenerated hopened := by
    obtain ⟨-, hkey, hcontext, hwrapped⟩ := sampleKey_eq_ok hgenerated
    simp only [sampleServices] at hopened
    split at hopened
    · next key known hknown =>
        obtain ⟨-, hother, hotherContext, hotherWrapped⟩ := sampleKey_eq_ok hknown
        split at hopened
        · next hsame =>
            have hbyte : UInt8.ofNat key = UInt8.ofNat _ := List.head_eq_of_cons_eq (hotherWrapped.symm.trans (hsame.trans hwrapped))
            cases hopened
            dsimp only at hkey hother hbyte hcontext hotherContext
            rcases hkey with rfl | rfl <;> rcases hother with rfl | rfl
            · exact ⟨hotherContext.trans hcontext.symm, rfl⟩
            · exact absurd hbyte (by decide)
            · exact absurd hbyte (by decide)
            · exact ⟨hotherContext.trans hcontext.symm, rfl⟩
        · cases hopened
    · cases hopened
  data {key other plaintext data otherData entropy encrypted opened} hsealed hopened := by
    simp only [sampleServices] at hsealed hopened
    split at hsealed
    · next hfits =>
        cases hsealed
        split at hopened
        · next hopens =>
            cases hopened
            have hbyte : UInt8.ofNat key = UInt8.ofNat other :=
              List.head_eq_of_cons_eq (congrArg EncryptedCredentialBytes.authTag hopens.2)
            have hkeys : other = key := by
              rcases hfits.1 with rfl | rfl <;> rcases hopens.1.1 with rfl | rfl
              · rfl
              · exact absurd hbyte (by decide)
              · exact absurd hbyte (by decide)
              · rfl
            subst hkeys
            exact ⟨rfl, hopens.1.2.trans hfits.2.symm, rfl⟩
        · cases hopened
    · cases hsealed
  base64 bytes := by
    have hbytes : ∀ byte ∈ bytes.map UInt8.toNat, byte < 256 := by
      intro byte hbyte
      obtain ⟨value, -, rfl⟩ := List.mem_map.mp hbyte
      exact value.toNat_lt
    have hplain : ∀ c ∈ Base64Url.encode (bytes.map UInt8.toNat), decide (c ≠ '=') = true := by
      have hall : (Base64Url.alphabet.all fun c => decide (c ≠ '=')) = true := by decide +kernel
      exact fun c hc => List.all_eq_true.mp hall c (Base64Url.mem_alphabet_of_mem_encode hc)
    have hpadding (n : Nat) : (List.replicate n '=').takeWhile (fun c => decide (c ≠ '=')) = [] := by
      cases n <;> simp [List.replicate_succ]
    have hround : (bytes.map UInt8.toNat).map UInt8.ofNat = bytes := by
      rw [List.map_map]
      exact (List.map_congr_left fun byte _ => UInt8.ofNat_toNat).trans (List.map_id bytes)
    simp only [sampleServices, String.toList_ofList]
    rw [List.takeWhile_append_of_pos hplain, hpadding, List.append_nil, Base64Url.decode_encode hbytes, Option.map_some, hround]

theorem sample_opening : Opening sampleServices (· = true) where
  key hgenerated hanswers := by
    obtain ⟨hanswered, -, -, -⟩ := sampleKey_eq_ok hgenerated
    subst hanswers hanswered
    simp only [sampleServices] at hgenerated ⊢
    rw [hgenerated]
    exact if_pos rfl
  data hsealed := by
    simp only [sampleServices] at hsealed ⊢
    split at hsealed
    · next hfits =>
        cases hsealed
        exact if_pos ⟨hfits, rfl⟩
    · cases hsealed

def sampleCall : Call Bool := .encrypt ⟨sampleBinding 1, [7, 8], 0⟩ true true

def sampleCredential : EncryptedCredential :=
  ⟨⟨sampleBinding 1, 0, .active⟩, materialOf sampleServices (sampleSealed 1 [7, 8]) [1]⟩

theorem sample_opens_own : ∃ rotation plaintext,
      rotate sampleServices ⟨sampleCredential, sampleBinding 1⟩ 5 ⟨true, true, true⟩ = .ok rotation ∧
        (Vault.act sampleServices {} sampleCall).Opens sampleCredential (sampleBinding 1) plaintext ∧
          Succeeds sampleServices (· = true) (sampleBinding 1) plaintext rotation := by
  have hencrypt : encrypt sampleServices ⟨sampleBinding 1, [7, 8], 0⟩ true true = .ok sampleCredential := by decide +kernel
  have hvault : (Vault.act sampleServices {} sampleCall).records = [sampleCredential] := by
    rw [sampleCall, Vault.act, hencrypt]
    rfl
  have hreachable : (Vault.act sampleServices {} sampleCall).Reachable sampleServices := .act sampleCall .start trivial
  have hcomposes : (Vault.act sampleServices {} sampleCall).Composes sampleCredential := by
    rw [Vault.Composes, hvault]
    exact ⟨⟨_, List.mem_cons_self, rfl⟩, ⟨_, List.mem_cons_self, rfl⟩⟩
  have hrotates : (rotate sampleServices ⟨sampleCredential, sampleBinding 1⟩ 5 ⟨true, true, true⟩).isOk = true := by decide +kernel
  cases hrotate : rotate sampleServices ⟨sampleCredential, sampleBinding 1⟩ 5 ⟨true, true, true⟩ with
  | error failure =>
    rw [hrotate] at hrotates
    cases hrotates
  | ok rotation =>
    obtain ⟨plaintext, hopens, hsucceeds⟩ :=
      (composed_opens_own sample_authentic sample_opening hreachable hcomposes (sampleBinding 1)).2 5 ⟨true, true, true⟩
        rotation hrotate
    exact ⟨rotation, plaintext, rfl, hopens, hsucceeds⟩

end Samples

end Rika.CredentialVault
