import Rika.AssignmentFencing
import Rika.DeviceAuthority

namespace Rika.DeviceAuthority

open Assignments (AssignmentRow AssignmentStore Clock Millis)

variable {store : Store} {world : World} {now : Clock} {userId deviceId : String}

/-! ### A device that is cut off -/

def CutOff (store : Store) (userId deviceId : String) : Prop :=
  ∃ device, store.devices.find deviceId = some device ∧ (device.userId = userId → device.revokedAt ≠ none)

theorem requireActiveClient_eq_ok {ownerId : String} {actor : ActorAttribution} {expiresAfter : Millis}
    {client : ActiveClient} (h : requireActiveClient store world ownerId actor expiresAfter = .ok client) :
    ∃ device, store.devices.find actor.deviceId = some device ∧ device.userId = actor.userId ∧
      device.revokedAt = none := by
  unfold requireActiveClient at h
  split at h
  · cases h
  · dsimp only at h
    split at h
    · next owner authority client device howner hauthority hclient hdevice =>
        split at h
        · next hactive =>
            obtain ⟨huser, -, howned, -, hopen, -⟩ := hactive
            exact ⟨device, hdevice, howned.trans huser, hopen⟩
        · cases h
    · cases h

theorem CutOff.denied (h : CutOff store userId deviceId) {input : ThreadAccessInput} (huser : input.actor.userId = userId)
    (hdevice : input.actor.deviceId = deviceId) (action : AuthorizationAction) (expiresAfter : Millis) :
    requireThreadAccess store world input action expiresAfter ≠ .ok () := by
  intro hok
  rw [requireThreadAccess] at hok
  split at hok
  · cases hok
  · next client hclient =>
      obtain ⟨device, hfind, howned, hopen⟩ := requireActiveClient_eq_ok hclient
      obtain ⟨device', hfind', hcut⟩ := h
      rw [hdevice] at hfind
      obtain rfl := Option.some_inj.mp (hfind.symm.trans hfind')
      exact hcut (howned.trans huser) hopen

def Holds (device device' : Device) : Prop :=
  device'.userId = device.userId ∧ (device.revokedAt ≠ none → device'.revokedAt ≠ none)

def Devices (store store' : Store) : Prop :=
  ∀ id device, store.devices.find id = some device →
    ∃ device', store'.devices.find id = some device' ∧ Holds device device'

theorem Devices.refl : Devices store store := fun _ device hdevice => ⟨device, hdevice, rfl, fun h => h⟩

variable {store' : Store} {old : CliRegistration} {row row' : AssignmentRow} {id : String}

theorem Devices.of_eq (h : store'.devices = store.devices) : Devices store store' := by
  intro id device hdevice
  rw [h]
  exact ⟨device, hdevice, rfl, fun h => h⟩

theorem Devices.trans {store'' : Store} (h : Devices store store') (h' : Devices store' store'') : Devices store store'' := by
  intro id device hdevice
  obtain ⟨device', hdevice', hof, hrevoked⟩ := h id device hdevice
  obtain ⟨device'', hdevice'', hof', hrevoked'⟩ := h' id device' hdevice'
  exact ⟨device'', hdevice'', hof'.trans hof, fun hsome => hrevoked' (hrevoked hsome)⟩

theorem CutOff.mono (h : CutOff store userId deviceId) (hdevices : Devices store store') : CutOff store' userId deviceId := by
  obtain ⟨device, hdevice, hcut⟩ := h
  obtain ⟨device', hdevice', hof, hrevoked⟩ := hdevices deviceId device hdevice
  exact ⟨device', hdevice', fun howned => hrevoked (hcut (hof.symm.trans howned))⟩

theorem revokeDeviceAuthority_find (store : Store) (now : Clock) (old : CliRegistration) (id : String) :
    (revokeDeviceAuthority store now old).devices.find id =
      (store.devices.find id).map fun row =>
        if old.isOf row.id row.userId then row.withoutAuthority now.transaction else row :=
  Table.find_update _ _ _ (Device.withoutAuthority_id now.transaction) _

theorem Device.withoutAuthority_revokedAt (revokedAt : Millis) (row : Device) :
    (row.withoutAuthority revokedAt).revokedAt ≠ none := by
  rw [withoutAuthority]
  cases row.revokedAt with
  | none =>
    intro hnone
    cases hnone
  | some before =>
    intro hnone
    cases hnone

theorem revokeDeviceAuthority_devices (store : Store) (now : Clock) (old : CliRegistration) :
    Devices store (revokeDeviceAuthority store now old) := by
  intro id device hdevice
  refine ⟨_, by rw [revokeDeviceAuthority_find, hdevice, Option.map_some], ?_⟩
  split
  · exact ⟨rfl, fun _ => device.withoutAuthority_revokedAt now.transaction⟩
  · exact ⟨rfl, fun h => h⟩

theorem revokeDeviceAuthority_cutOff (now : Clock) (huser : old.userId = some userId)
    (hdevice : (store.devices.find old.deviceId).isSome = true) :
    CutOff (revokeDeviceAuthority store now old) userId old.deviceId := by
  obtain ⟨device, hfind⟩ := Option.isSome_iff_exists.mp hdevice
  refine ⟨_, by rw [revokeDeviceAuthority_find, hfind, Option.map_some], ?_⟩
  split
  · exact fun _ => device.withoutAuthority_revokedAt now.transaction
  · next hother =>
      intro howned
      have hid : device.id = old.deviceId := Table.key_of_find hfind
      rw [CliRegistration.isOf, hid, howned, huser] at hother
      simp at hother

theorem foldl_devices (now : Clock) (olds : List CliRegistration) (store : Store) :
    Devices store (olds.foldl (fun store old => revokeDeviceAuthority store now old) store) := by
  induction olds generalizing store with
  | nil => exact .refl
  | cons old olds ih => exact (revokeDeviceAuthority_devices store now old).trans (ih _)

theorem foldl_cutOff (now : Clock) {olds : List CliRegistration} (hold : old ∈ olds)
    (huser : old.userId = some userId) (hdevice : (store.devices.find old.deviceId).isSome = true) :
    CutOff (olds.foldl (fun store old => revokeDeviceAuthority store now old) store) userId old.deviceId := by
  induction olds generalizing store with
  | nil => cases hold
  | cons first olds ih =>
    rcases List.mem_cons.mp hold with rfl | hlater
    · exact (revokeDeviceAuthority_cutOff now huser hdevice).mono (foldl_devices now olds _)
    · apply ih hlater
      obtain ⟨device, hfind⟩ := Option.isSome_iff_exists.mp hdevice
      obtain ⟨device', hfind', -⟩ := revokeDeviceAuthority_devices store now first _ device hfind
      rw [hfind']
      rfl

inductive Statement (store : Store) : Store → Prop
  | registrations (oauthClients : List String) (registrations : Table CliRegistration.clientId)
      (requests : List ProductActor) : Statement store { store with oauthClients, registrations, requests }
  | triggered (oauthClients : List String) (registrations : Table CliRegistration.clientId) (now : Clock)
      (olds : List CliRegistration) :
      Statement store
        (olds.foldl (fun store old => revokeDeviceAuthority store now old) { store with oauthClients, registrations })
  | device (device : Device)
      (h : ∀ row, store.devices.find device.id = some row →
        device.userId = row.userId ∧ device.revokedAt = row.revokedAt) :
      Statement store { store with devices := store.devices.set device }
  | clients (clients : Table Client.id) : Statement store { store with clients }
  | authorities (authorities : Table ClientAuthority.key) : Statement store { store with authorities }
  | assignments (now : Clock) (call : Assignments.Call) :
      Statement store
        { store with assignments := (Assignments.serve store.assignments now call).toOption.getD store.assignments }

theorem Statement.refl : Statement store store := .clients store.clients

theorem register_statement {input : CliDeviceRegistration} (h : register store input = some store') :
    Statement store store' := by
  unfold register at h
  dsimp only at h
  split at h
  · cases h
  · split at h
    · cases h
    · split at h
      · cases h
        exact .registrations store.oauthClients _ store.requests
      · split at h
        · cases h
          exact .registrations store.oauthClients _ store.requests
        · cases h

theorem registerDevice_statement {input : RegisterDeviceInput} {device : Device}
    (h : registerDevice store input = .ok (store', device)) : Statement store store' := by
  rw [registerDevice] at h
  split at h
  · next hnone =>
      split at h
      · cases h
      · cases h
        refine .device input.device ?_
        intro row hrow
        exact absurd (hnone.symm.trans hrow) (by intro heq; cases heq)
  · next row hfind =>
      split at h
      · cases h
      · split at h
        · cases h
        · cases h
          refine .device (registeredDevice input row) ?_
          intro row' hrow'
          have hkey : row.id = input.id := Table.key_of_find hfind
          have hid : (registeredDevice input row).id = input.id := hkey
          rw [hid, hfind] at hrow'
          obtain rfl := Option.some_inj.mp hrow'
          exact ⟨rfl, rfl⟩

theorem authenticateClient_statement {input : AuthenticateClientInput} {client : Client}
    (h : authenticateClient store input = .ok (store', client)) : Statement store store' := by
  unfold authenticateClient at h
  dsimp only at h
  split at h
  · cases h
  · split at h
    · cases h
      exact .clients _
    · split at h
      · cases h
      · cases h
        exact .clients _

theorem grantClientAuthority_statement {input : GrantClientAuthorityInput}
    (h : grantClientAuthority store world input = .ok store') : Statement store store' := by
  rw [grantClientAuthority] at h
  split at h
  · split at h
    · cases h
      exact .authorities _
    · cases h
  · cases h

theorem step_statement (store : Store) (event : Event) : Statement store (step store event) := by
  cases event with
  | issueClient clientId => exact .registrations _ store.registrations store.requests
  | register input =>
    rw [step]
    cases hregister : register store input with
    | none => exact .refl
    | some store' => exact register_statement hregister
  | discard now clientId => exact .triggered _ _ now (discarded store clientId)
  | authenticate principal =>
    unfold step authenticate
    dsimp only
    split
    · exact .registrations store.oauthClients _ _
    · exact .registrations store.oauthClients store.registrations _
  | revoke now userId deviceId => exact .triggered store.oauthClients _ now (revoked store userId (some deviceId))
  | revokeAll now userId => exact .triggered store.oauthClients _ now (revoked store userId none)
  | registerDevice request now =>
    rw [step]
    split
    · exact .refl
    · next actor _ =>
        cases hregister : registerDevice store (actor.registration now) with
        | error error => exact .refl
        | ok result => exact registerDevice_statement hregister
  | authenticateClient request now expiresAt =>
    rw [step]
    split
    · exact .refl
    · next actor _ =>
        cases hclient : authenticateClient store (actor.client now expiresAt) with
        | error error => exact .refl
        | ok result => exact authenticateClient_statement hclient
  | grantClientAuthority world input =>
    rw [step]
    cases hgrant : grantClientAuthority store world input with
    | error error => exact .refl
    | ok store' => exact grantClientAuthority_statement hgrant
  | assignment now call => exact .assignments now call

theorem Statement.devices_kept (h : Statement store store') : Devices store store' := by
  cases h with
  | registrations | clients | authorities | assignments => exact .of_eq rfl
  | triggered oauthClients registrations now olds =>
    refine Devices.trans ?_ (foldl_devices now olds _)
    exact .of_eq rfl
  | device device hkept =>
    intro id row hrow
    by_cases hid : id = device.id
    · obtain ⟨howned, hrevoked⟩ := hkept row (hid ▸ hrow)
      refine ⟨device, ?_, howned, ?_⟩
      · rw [Table.find_set, if_pos hid]
      · rw [hrevoked]
        exact fun h => h
    · refine ⟨row, ?_, rfl, fun h => h⟩
      rw [Table.find_set, if_neg hid, hrow]

theorem step_devices (store : Store) (event : Event) : Devices store (step store event) :=
  (step_statement store event).devices_kept

theorem run_devices (store : Store) (events : List Event) : Devices store (run store events) := by
  induction events generalizing store with
  | nil => exact .refl
  | cons event events ih => exact (step_devices store event).trans (ih _)

/-! ### Assignments of a device -/

/-- A row does not come back, and a generation lies between a row and its end. -/
structure Retires (row row' : AssignmentRow) : Prop where
  placement : row'.placement = row.placement
  generation : row.generation ≤ row'.generation
  stays : row.lifecycle = .terminated → row'.lifecycle = .terminated
  ends : row.lifecycle ≠ .terminated → row'.lifecycle = .terminated → row.generation < row'.generation

theorem Retires.refl (row : AssignmentRow) : Retires row row :=
  ⟨rfl, le_rfl, fun h => h, fun h h' => absurd h' h⟩

theorem Retires.trans {row'' : AssignmentRow} (h : Retires row row') (h' : Retires row' row'') : Retires row row'' := by
  refine ⟨h'.placement.trans h.placement, h.generation.trans h'.generation, fun hrow => h'.stays (h.stays hrow), ?_⟩
  intro hrow hrow''
  by_cases hbetween : row'.lifecycle = .terminated
  · exact (h.ends hrow hbetween).trans_le h'.generation
  · exact h.generation.trans_lt (h'.ends hbetween hrow'')

def onDevice (row : AssignmentRow) (deviceId : String) : Prop :=
  ∃ placement, row.placement = .runnerPlacement placement ∧ placement.deviceId = deviceId

theorem revokeDevices_retires {assignments : AssignmentStore} (now : Clock) (deviceId : String)
    (hrow : assignments.assignments.find id = some row) :
    ∃ row', (Assignments.revokeDevices assignments now none [deviceId]).assignments.find id = some row' ∧
      Retires row row' ∧ (onDevice row deviceId → row'.lifecycle = .terminated) := by
  refine ⟨_, by rw [Assignments.revokeDevices, Table.find_update, hrow, Option.map_some], ?_⟩
  cases hplacement : row.placement with
  | orbPlacement placement =>
    rw [if_neg (by simp)]
    refine ⟨.refl row, ?_⟩
    rintro ⟨placement', hrunner, -⟩
    rw [hplacement] at hrunner
    cases hrunner
  | runnerPlacement placement =>
    dsimp only
    split
    · have hrevoked : Retires row (row.revoked now) :=
        ⟨rfl, Nat.le_succ _, fun _ => rfl, fun _ _ => Nat.lt_succ_self _⟩
      rcases Assignments.clearStale_cases row (row.revoked now) with hclear | hclear
      · rw [hclear]
        exact ⟨⟨rfl, hrevoked.generation, hrevoked.stays, hrevoked.ends⟩, fun _ => rfl⟩
      · rw [hclear]
        exact ⟨⟨rfl, hrevoked.generation, hrevoked.stays, hrevoked.ends⟩, fun _ => rfl⟩
    · next hguard =>
        refine ⟨.refl row, ?_⟩
        rintro ⟨placement', hrunner, hdevice⟩
        rw [hplacement] at hrunner
        obtain rfl := Assignments.ExecutorPlacement.runnerPlacement.inj hrunner
        by_contra hlive
        apply hguard
        simp [hlive, hdevice]

/-- What a call may do to the assignments: they stay, at no lower a generation. -/
def Grows (assignments assignments' : AssignmentStore) : Prop :=
  ∀ id row, assignments.assignments.find id = some row →
    ∃ row', assignments'.assignments.find id = some row' ∧ row.generation ≤ row'.generation

theorem generation_le (h : Assignments.Rewrite now row row') : row.generation ≤ row'.generation := by
  cases h with
  | retired | replaced | rotated | revoked => exact Nat.le_succ _
  | provisioned | resumed | paused | terminated | bound | opened | capable | reconnected | beaten | checkpointed => exact le_rfl

theorem serve_grows (assignments : AssignmentStore) (now : Clock) (call : Assignments.Call) :
    Grows assignments ((Assignments.serve assignments now call).toOption.getD assignments) := by
  intro id row hrow
  cases hserve : Assignments.serve assignments now call with
  | error refusal => exact ⟨row, hrow, le_rfl⟩
  | ok assignments' =>
    obtain ⟨row', hrow', hstep, -⟩ := (Assignments.serve_changes hserve).kept hrow
    refine ⟨row', hrow', ?_⟩
    cases hstep with
    | same => exact le_rfl
    | @rewritten row'' hrewrite =>
      have hle := generation_le hrewrite
      rcases Assignments.clearStale_cases row row'' with hclear | hclear
      · rw [hclear]
        exact hle
      · rw [hclear]
        exact hle

theorem foldl_retires (now : Clock) (olds : List CliRegistration) (store : Store)
    (hrow : store.assignments.assignments.find id = some row) :
    ∃ row', (olds.foldl (fun store old => revokeDeviceAuthority store now old) store).assignments.assignments.find id =
        some row' ∧
      Retires row row' ∧ ∀ old ∈ olds, onDevice row old.deviceId → row'.lifecycle = .terminated := by
  induction olds generalizing store row with
  | nil => exact ⟨row, hrow, .refl row, nofun⟩
  | cons first olds ih =>
    obtain ⟨between, hbetween, hfirst, hends⟩ := revokeDevices_retires now first.deviceId hrow
    obtain ⟨row', hrow', hrest, hlater⟩ := ih (revokeDeviceAuthority store now first) hbetween
    refine ⟨row', hrow', hfirst.trans hrest, ?_⟩
    intro old hold hon
    rcases List.mem_cons.mp hold with rfl | hold
    · exact hrest.stays (hends hon)
    · obtain ⟨placement, hplacement, hdevice⟩ := hon
      exact hlater old hold ⟨placement, hfirst.placement.trans hplacement, hdevice⟩

theorem step_retires (store : Store) (event : Event) (hold : old ∈ event.revokes store)
    (hrow : store.assignments.assignments.find id = some row)
    (hon : onDevice row old.deviceId) :
    ∃ row', (step store event).assignments.assignments.find id = some row' ∧ Retires row row' ∧
      row'.lifecycle = .terminated := by
  have hended : ∀ olds : List CliRegistration, old ∈ olds → (∃ row', (step store event).assignments.assignments.find id = some row' ∧
      Retires row row' ∧ ∀ old ∈ olds, onDevice row old.deviceId → row'.lifecycle = .terminated) →
      ∃ row', (step store event).assignments.assignments.find id = some row' ∧ Retires row row' ∧
        row'.lifecycle = .terminated := by
    rintro olds hmem ⟨row', hrow', hretires, hends⟩
    exact ⟨row', hrow', hretires, hends old hmem hon⟩
  cases event with
  | discard now clientId => exact hended _ hold (foldl_retires now (discarded store clientId) _ hrow)
  | revoke now userId deviceId => exact hended _ hold (foldl_retires now (revoked store userId (some deviceId)) _ hrow)
  | revokeAll now userId => exact hended _ hold (foldl_retires now (revoked store userId none) _ hrow)
  | _ => cases hold

theorem Statement.grows (h : Statement store store') : Grows store.assignments store'.assignments := by
  cases h with
  | registrations | clients | authorities | device => exact fun id row hrow => ⟨row, hrow, le_rfl⟩
  | triggered oauthClients registrations now olds =>
    intro id row hrow
    obtain ⟨row', hrow', hretires, -⟩ := foldl_retires now olds { store with oauthClients, registrations } hrow
    exact ⟨row', hrow', hretires.generation⟩
  | assignments now call => exact serve_grows store.assignments now call

theorem run_grows (store : Store) (events : List Event) : Grows store.assignments (run store events).assignments := by
  induction events generalizing store with
  | nil => exact fun id row hrow => ⟨row, hrow, le_rfl⟩
  | cons event events ih =>
    intro id row hrow
    obtain ⟨between, hbetween, hle⟩ := (step_statement store event).grows id row hrow
    obtain ⟨row', hrow', hle'⟩ := ih (step store event) id between hbetween
    exact ⟨row', hrow', hle.trans hle'⟩

theorem run_append (store : Store) (done later : List Event) : run store (done ++ later) = run (run store done) later :=
  List.foldl_append

/-! ### Revocations -/

def Recorded (store : Store) (event : Event) : Prop :=
  ∀ old ∈ event.revokes store, old.userId.isSome = true → (store.devices.find old.deviceId).isSome = true

/-- After `done`, the event revokes a registration of the device for good. -/
structure Revokes (initial : Store) (done : List Event) (event : Event) (later : List Event) (old : CliRegistration) :
    Prop where
  denied : ∀ userId, old.userId = some userId → ∀ world input action expiresAfter,
    input.actor.userId = userId → input.actor.deviceId = old.deviceId →
      requireThreadAccess (run initial (done ++ event :: later)) world input action expiresAfter ≠ .ok ()
  terminated : ∀ id row, (run initial done).assignments.assignments.find id = some row → onDevice row old.deviceId →
    ∃ row', (run initial (done ++ [event])).assignments.assignments.find id = some row' ∧ row'.lifecycle = .terminated ∧
      (row.lifecycle ≠ .terminated → ∀ before between, done = before ++ between →
        ∀ earlier, (run initial before).assignments.assignments.find id = some earlier →
          earlier.generation < row'.generation)

theorem step_cutOff {event : Event} (h : Recorded store event) (hold : old ∈ event.revokes store)
    (huser : old.userId = some userId) : CutOff (step store event) userId old.deviceId := by
  have hdevice := h old hold (by rw [huser]; rfl)
  cases event with
  | discard now clientId | revoke now userId deviceId | revokeAll now userId =>
    exact foldl_cutOff now hold huser hdevice
  | _ => cases hold

/-- A revocation that finds the device recorded is complete, and stays. -/
theorem revocation_complete (initial : Store) (done later : List Event) (event : Event)
    (h : Recorded (run initial done) event) :
    ∀ old ∈ event.revokes (run initial done), Revokes initial done event later old := by
  intro old hold
  refine ⟨?_, ?_⟩
  · intro userId huser world input action expiresAfter hactor hdevice
    have hcut := step_cutOff h hold huser
    have hstays : CutOff (run initial (done ++ event :: later)) userId old.deviceId := by
      rw [run_append]
      exact hcut.mono (run_devices (step (run initial done) event) later)
    exact hstays.denied hactor hdevice action expiresAfter
  · intro id row hrow hon
    obtain ⟨row', hrow', hretires, hterminated⟩ := step_retires (run initial done) event hold hrow hon
    refine ⟨row', ?_, hterminated, ?_⟩
    · rw [run_append]
      exact hrow'
    · intro hlive before between hdone earlier hearlier
      obtain ⟨row'', hrow'', hle⟩ := run_grows (run initial before) between id earlier hearlier
      rw [← run_append, ← hdone, hrow] at hrow''
      obtain rfl := Option.some_inj.mp hrow''
      exact hle.trans_lt (hretires.ends hlive hterminated)

/-! ### A device without a row -/

def samplePrincipal : IdentityPrincipal := ⟨"user", some "client", some "thumbprint"⟩

def sampleActor : ActorAttribution := .personalActor "user" "user" "client" "device"

def sampleWorld : World where
  owners := [⟨"owner", .personalOwner "user"⟩]
  members := []
  threads := [⟨"owner", "thread", "user", none, .runner, false⟩]
  threadGrants := []
  projectGrants := []

def sampleStore : Store := start ⟨.codePoint, [], .empty, .empty, .empty⟩

def sampleRegistered : List Event :=
  [.issueClient "client", .register ⟨"client", "device", "thumbprint"⟩, .authenticate samplePrincipal]

def sampleRevoke : Event := .revoke ⟨10, 10⟩ "user" "device"

def sampleCarryOn : List Event :=
  [.registerDevice 0 20, .authenticateClient 0 30 1000, .grantClientAuthority sampleWorld ⟨"owner", sampleActor, 40, 1000⟩]

def sampleRevoked : CliRegistration := ⟨"client", "device", "thumbprint", some "user", none⟩

theorem revocation_complete_sample :
    sampleRevoke.revokes (run sampleStore (sampleRegistered ++ [.registerDevice 0 5])) = [sampleRevoked] ∧
      Revokes sampleStore (sampleRegistered ++ [.registerDevice 0 5]) sampleRevoke sampleCarryOn sampleRevoked := by
  have hrevokes : sampleRevoke.revokes (run sampleStore (sampleRegistered ++ [.registerDevice 0 5])) = [sampleRevoked] := by
    decide +kernel
  refine ⟨hrevokes, revocation_complete _ _ _ _ ?_ _ (by rw [hrevokes]; exact List.mem_singleton_self _)⟩
  unfold Recorded
  rw [hrevokes]
  decide +kernel

/-- The first request of a device is let in after the revocation, with no row to stop it. -/
theorem late_request_enters :
    sampleRevoked ∈ sampleRevoke.revokes (run sampleStore sampleRegistered) ∧
      requireThreadAccess (run sampleStore (sampleRegistered ++ sampleRevoke :: sampleCarryOn)) sampleWorld
        ⟨"owner", "thread", sampleActor⟩ .threadControl 50 = .ok () ∧
      ¬ Revokes sampleStore sampleRegistered sampleRevoke sampleCarryOn sampleRevoked := by
  have hentered : requireThreadAccess (run sampleStore (sampleRegistered ++ sampleRevoke :: sampleCarryOn)) sampleWorld
      ⟨"owner", "thread", sampleActor⟩ .threadControl 50 = .ok () := by
    decide +kernel
  refine ⟨by decide +kernel, hentered, ?_⟩
  intro h
  exact h.denied "user" rfl sampleWorld _ .threadControl 50 rfl rfl hentered

end Rika.DeviceAuthority
