import Rika.SessionContext

namespace Rika.SessionContext

variable {generalist : Generalist} {environment : Environment generalist}
variable {materialization : SessionMaterialization generalist} {state : generalist.State}

def CollisionFree (generalist : Generalist) (skills : List SkillMetadata) : Prop :=
  ∀ left ∈ skills, ∀ right ∈ skills,
    guidanceEntryId generalist .skill left.name = guidanceEntryId generalist .skill right.name → left.name = right.name

section

variable (generalist : Generalist) (entries : List GuidanceEntry)

def Listed (name : String) : Prop :=
  ∃ entry ∈ entries, entry.id = guidanceEntryId generalist .skill name

def HoldsBody (activated : ActivatedSkill) : Prop :=
  Listed generalist entries activated.name ∧
    ∀ entry ∈ entries, entry.id = guidanceEntryId generalist .skill activated.name →
      activated.bodyIdentity = skillBodyIdentity generalist entry.content

end

/-- All that is pinned in a materialization is of one state. -/
structure Pinned (materialization : SessionMaterialization generalist) (state : generalist.State) : Prop where
  guidance : materialization.guidance = snapshotOf state
  registration : materialization.registration = registrationOf state
  scope : generalist.stateScope state = materialization.guidanceScope
  model : generalist.makeModel materialization.model = materialization.modelPin
  listed : ∀ skill ∈ materialization.skills, Listed generalist (generalist.allEntries state) skill.name
  activated : ∀ activated ∈ materialization.activatedSkills,
    (∃ skill ∈ materialization.skills, skill.name = activated.name) ∧
      HoldsBody generalist (generalist.allEntries state) activated

section Entries

variable {entries entries' : List GuidanceEntry} {activated : ActivatedSkill} {name : String} {body : Utf16}
variable {capturedAt : String}

theorem Listed.congr (h : ∀ entry, entry ∈ entries' ↔ entry ∈ entries) (hlisted : Listed generalist entries name) :
    Listed generalist entries' name := by
  obtain ⟨entry, hmem, hid⟩ := hlisted
  exact ⟨entry, (h entry).mpr hmem, hid⟩

theorem HoldsBody.congr (h : ∀ entry, entry ∈ entries' ↔ entry ∈ entries) (hbody : HoldsBody generalist entries activated) :
    HoldsBody generalist entries' activated :=
  ⟨hbody.1.congr h, fun entry hmem => hbody.2 entry ((h entry).mp hmem)⟩

theorem Listed.activatedEntries {other : String} (h : Listed generalist entries other) :
    Listed generalist (activatedEntries generalist entries name body capturedAt) other := by
  obtain ⟨entry, hmem, hid⟩ := h
  refine ⟨_, List.mem_map_of_mem hmem, ?_⟩
  split
  · exact hid
  · exact hid

theorem holdsBody_activatedEntries {identity : ContentIdentity} (h : Listed generalist entries name) :
    HoldsBody generalist (activatedEntries generalist entries name body capturedAt)
      ⟨name, identity, skillBodyIdentity generalist body, capturedAt⟩ := by
  refine ⟨h.activatedEntries, fun entry hmem hid => ?_⟩
  obtain ⟨old, hold, rfl⟩ := List.mem_map.mp hmem
  split at hid
  · next heq => rw [if_pos heq]
  · next hne => exact absurd hid hne

theorem HoldsBody.activatedEntries (h : HoldsBody generalist entries activated)
    (hne : guidanceEntryId generalist .skill activated.name ≠ guidanceEntryId generalist .skill name) :
    HoldsBody generalist (activatedEntries generalist entries name body capturedAt) activated := by
  refine ⟨h.1.activatedEntries, fun entry hmem hid => ?_⟩
  obtain ⟨old, hold, rfl⟩ := List.mem_map.mp hmem
  split at hid
  · next heq => exact absurd (hid.symm.trans heq) hne
  · next hother =>
      rw [if_neg hother]
      exact h.2 old hold hid

theorem HoldsBody.find (h : HoldsBody generalist entries activated) :
    ∃ entry, entries.find? (fun entry => entry.id = guidanceEntryId generalist .skill activated.name) = some entry ∧
      activated.bodyIdentity = skillBodyIdentity generalist entry.content := by
  obtain ⟨entry, hmem, hid⟩ := h.1
  cases hfind : entries.find? fun entry => entry.id = guidanceEntryId generalist .skill activated.name with
  | none =>
    have hnone := List.find?_eq_none.mp hfind entry hmem
    exact absurd (decide_eq_true hid) hnone
  | some found =>
    have hid := List.find?_some hfind
    exact ⟨found, rfl, h.2 found (List.mem_of_find?_eq_some hfind) (of_decide_eq_true hid)⟩

end Entries

section Restore

section

variable (h : Pinned materialization state)

include h

theorem Pinned.bodiesPinned : bodiesPinned state materialization.activatedSkills = true := by
  rw [SessionContext.bodiesPinned, List.all_eq_true]
  intro activated hmem
  obtain ⟨entry, hentry, hbody⟩ := (h.activated activated hmem).2.find
  rw [hentry, hbody]
  exact decide_eq_true rfl

theorem Pinned.pinnedGuidance : pinnedGuidance materialization = .ok state := by
  have hid : (registrationOf state).id = (snapshotOf state).id := generalist.registrationId_make state codecVersion
  have hpayload : (registrationOf state).payload = (snapshotOf state).payload :=
    generalist.registrationPayload_make state codecVersion
  have hdecode : generalist.decode materialization.registration.id materialization.registration.payload = some state := by
    rw [h.registration, hid, hpayload]
    exact generalist.decode_make state
  rw [SessionContext.pinnedGuidance, hdecode]
  dsimp only
  rw [if_neg, if_neg, if_neg]
  · simp [h.bodiesPinned]
  · simp [h.registration]
  · simp [h.guidance, h.registration, h.scope, hid, hpayload]

theorem Pinned.restore : restoreWithReader materialization = .ok materialization := by
  rw [restoreWithReader, h.pinnedGuidance]
  dsimp only
  rw [if_neg (fun hne => hne h.model)]

theorem Pinned.holdsBody {activated : ActivatedSkill}
    (hmem : activated ∈ materialization.activatedSkills) :
    HoldsBody generalist (generalist.payloadEntries materialization.guidance.payload) activated := by
  rw [h.guidance]
  exact (h.activated activated hmem).2.congr (generalist.payloadEntries_make state)

end

end Restore

section Discovery

theorem decodeMaterialization_eq_ok {decoded : SessionMaterialization generalist}
    (h : decodeMaterialization environment materialization = .ok decoded) : decoded = materialization := by
  rw [decodeMaterialization] at h
  split at h
  · cases h
    rfl
  · cases h

theorem orThrow_eq_ok {α : Type} {value : Option α} {result : α} (h : orThrow value = .ok result) :
    value = some result := by
  cases value with
  | none => cases h
  | some value =>
    cases h
    rfl

variable {reader : WorkspaceReader} {input : DiscoverInput}

section

variable (h : discoverWithReader environment reader input = .ok materialization)

include h

theorem discovered : ∃ scope files skills state model,
      generalist.makeState scope (initialEntries generalist scope input.capturedAt files skills) = some state ∧
        materialization = initialMaterialization input scope input.binding state skills model := by
  simp only [discoverWithReader, failure, bind, Except.bind] at h
  split at h
  · cases h
  split at h
  · cases h
  split at h
  · cases h
  split at h
  · cases h
  split at h
  · cases h
  split at h
  · cases h
  split at h
  · cases h
  next hstate => exact ⟨_, _, _, _, _, orThrow_eq_ok hstate, decodeMaterialization_eq_ok h⟩

theorem pinned_discovered : ∃ state, Pinned materialization state := by
  obtain ⟨scope, files, skills, state, model, hstate, rfl⟩ := discovered h
  refine ⟨state, rfl, rfl, generalist.scope_make hstate, rfl, fun skill hskill => ?_, fun activated hmem => ?_⟩
  · refine Listed.congr (generalist.entries_make hstate) ?_
    exact ⟨_, List.mem_append_right _ (List.mem_map_of_mem hskill), rfl⟩
  · cases hmem

theorem settingsRevision_discovered : materialization.settingsRevision = 0 := by
  obtain ⟨scope, files, skills, state, model, _, rfl⟩ := discovered h
  rfl

end

end Discovery

section Operations

inductive Changed (materialization : SessionMaterialization generalist) :
    Operation → SessionMaterialization generalist → Prop
  | activated (operation : Operation) (state : generalist.State) (name : String) (body : Utf16)
      (identity : ContentIdentity) (capturedAt : String) (hsettings : operation.changesSettings materialization = false)
      (hskill : ∃ skill ∈ materialization.skills, skill.name = name)
      (hstate : generalist.makeState materialization.guidanceScope (activatedEntries generalist
        (generalist.payloadEntries materialization.guidance.payload) name body capturedAt) = some state) :
      Changed materialization operation
        (activated materialization state ⟨name, identity, skillBodyIdentity generalist body, capturedAt⟩)
  | settings (operation : Operation) (model : ModelConfiguration) (modelPin : String)
      (hsettings : operation.changesSettings materialization = true) (hmodel : generalist.makeModel model = modelPin) :
      Changed materialization operation
        { materialization with
          model
          modelPin
          settingsRevision := materialization.settingsRevision + 1 }
  | rebound (operation : Operation) (workspace : WorkspaceBinding)
      (hsettings : operation.changesSettings materialization = false)
      (hpolicy : sameWorkspacePolicy materialization.workspace workspace = true)
      (hgeneration : materialization.workspace.generation < workspace.generation) :
      Changed materialization operation { materialization with workspace }

variable {name : String} {next : SessionMaterialization generalist} {operation : Operation}

theorem metadataByName_eq_some {skill : SkillMetadata}
    (h : metadataByName materialization name = some skill) : ∃ skill ∈ materialization.skills, skill.name = name :=
  ⟨skill, List.mem_of_find?_eq_some h, by simpa using List.find?_some h⟩

theorem activatedState_eq_ok {body : Utf16} {capturedAt : String}
    (h : activatedState materialization name body capturedAt = .ok state) :
    generalist.makeState materialization.guidanceScope (activatedEntries generalist
      (generalist.payloadEntries materialization.guidance.payload) name body capturedAt) = some state :=
  orThrow_eq_ok h

theorem changed_of_command {issued : SessionMaterializationCommand}
    (h : componentTransition materialization issued = .ok next) : Changed materialization (.command issued) next := by
  cases issued with
  | rebindWorkspace expected workspace =>
    unfold componentTransition at h
    dsimp only at h
    split at h
    · cases h
    split at h
    · cases h
    · next hrebind =>
        cases h
        simp only [Bool.not_eq_true', Bool.or_eq_true, decide_eq_true_eq, not_or, Bool.not_eq_false, not_le] at hrebind
        exact .rebound _ _ rfl hrebind.1 hrebind.2
  | activateSkill requestId name body bodyIdentity capturedAt =>
    unfold componentTransition at h
    dsimp only at h
    split at h
    · cases h
    next hskill =>
      split at h
      · cases h
      split at h
      · cases h
      next hidentity =>
        obtain rfl := not_not.mp hidentity
        cases hstate : activatedState materialization name body capturedAt with
        | error failure =>
          rw [hstate] at h
          cases h
        | ok state =>
          rw [hstate] at h
          cases h
          exact .activated _ _ _ _ _ _ rfl (metadataByName_eq_some hskill) (activatedState_eq_ok hstate)
  | changeSettings requestId expectedRevision model modelPin =>
    have hsettings : (Operation.command (.changeSettings requestId expectedRevision model modelPin)).changesSettings
        materialization = true := by
      rw [Operation.changesSettings, h]
      rfl
    unfold componentTransition at h
    dsimp only at h
    split at h
    · cases h
    split at h
    · cases h
    split at h
    · cases h
    · next hmodel =>
        cases h
        exact .settings _ _ _ hsettings (not_not.mp hmodel)

theorem changed_of_activate {reader : WorkspaceReader} {input : ActivateSkillInput}
    (h : activateWithReader environment reader materialization input = .ok next) :
    Changed materialization (.activate reader input) next := by
  unfold activateWithReader at h
  simp only [failure, bind, Except.bind] at h
  split at h
  · cases h
  next hskill =>
    split at h
    · cases h
    split at h
    · cases h
    split at h
    · cases h
    split at h
    · cases h
    split at h
    · cases h
    next hstate =>
      obtain rfl := decodeMaterialization_eq_ok h
      exact .activated _ _ _ _ _ _ rfl (metadataByName_eq_some hskill) (activatedState_eq_ok hstate)

theorem changed_of_apply
    (h : operation.apply environment materialization = .ok next) : Changed materialization operation next := by
  cases operation with
  | command issued => exact changed_of_command h
  | activate reader input => exact changed_of_activate h

theorem next_cases (environment : Environment generalist) (materialization : SessionMaterialization generalist)
    (operation : Operation) :
    Changed materialization operation (operation.next environment materialization) ∨
      (∃ failure, operation.apply environment materialization = .error failure) ∧
        operation.next environment materialization = materialization := by
  cases h : operation.apply environment materialization with
  | error failure =>
    refine .inr ⟨⟨failure, rfl⟩, ?_⟩
    rw [Operation.next, h]
  | ok next =>
    refine .inl ?_
    rw [Operation.next, h]
    exact changed_of_apply h

theorem changesSettings_of_rejected {failure : Failure} (h : operation.apply environment materialization = .error failure) :
    operation.changesSettings materialization = false := by
  cases operation with
  | activate reader input => rfl
  | command issued =>
    cases issued with
    | activateSkill requestId name body bodyIdentity capturedAt => rfl
    | rebindWorkspace expected workspace => rfl
    | changeSettings requestId expectedRevision model modelPin =>
      rw [Operation.apply] at h
      rw [Operation.changesSettings, h]
      rfl

end Operations

section Steps

variable {operation : Operation} {next : SessionMaterialization generalist}

theorem Changed.skills (h : Changed materialization operation next) : next.skills = materialization.skills := by
  cases h <;> rfl

theorem Changed.settingsRevision (h : Changed materialization operation next) :
    next.settingsRevision =
      (if operation.changesSettings materialization then 1 else 0) + materialization.settingsRevision := by
  cases h with
  | activated state name body identity capturedAt hsettings hskill hstate =>
    rw [hsettings]
    exact (Nat.zero_add _).symm
  | settings model modelPin hsettings hmodel =>
    rw [hsettings]
    exact Nat.add_comm _ _
  | rebound workspace hsettings hpolicy hgeneration =>
    rw [hsettings]
    exact (Nat.zero_add _).symm

def policy (binding : WorkspaceBinding) : String × String × Nat × WorkspacePlacement :=
  (binding.workspaceId, binding.buildId, binding.protocolVersion, binding.placement)

theorem policy_eq_of_sameWorkspacePolicy {left right : WorkspaceBinding} (h : sameWorkspacePolicy left right = true) :
    policy right = policy left := by
  simp only [sameWorkspacePolicy, Bool.and_eq_true, decide_eq_true_eq] at h
  obtain ⟨⟨⟨⟨⟨_, _⟩, hworkspace⟩, hbuild⟩, hprotocol⟩, hplacement⟩ := h
  rw [policy, policy, hworkspace, hbuild, hprotocol, hplacement]

theorem Changed.workspace (h : Changed materialization operation next) :
    policy next.workspace = policy materialization.workspace ∧
      materialization.workspace.generation ≤ next.workspace.generation := by
  cases h with
  | activated state name body identity capturedAt hsettings hskill hstate
  | settings model modelPin hsettings hmodel => exact ⟨rfl, Nat.le_refl _⟩
  | rebound workspace hsettings hpolicy hgeneration =>
    exact ⟨policy_eq_of_sameWorkspacePolicy hpolicy, Nat.le_of_lt hgeneration⟩

theorem Pinned.changed (h : Pinned materialization state) (hfree : CollisionFree generalist materialization.skills)
    (hchanged : Changed materialization operation next) : ∃ state, Pinned next state := by
  cases hchanged with
  | settings model modelPin hsettings hmodel =>
    exact ⟨state, h.guidance, h.registration, h.scope, hmodel, h.listed, h.activated⟩
  | rebound workspace hsettings hpolicy hgeneration =>
    exact ⟨state, h.guidance, h.registration, h.scope, h.model, h.listed, h.activated⟩
  | activated state' name body identity capturedAt hsettings hskill hstate =>
    have hpayload : ∀ entry, entry ∈ generalist.payloadEntries materialization.guidance.payload ↔
        entry ∈ generalist.allEntries state := by
      rw [h.guidance]
      exact generalist.payloadEntries_make state
    have hentries := generalist.entries_make hstate
    obtain ⟨skill, hskill, rfl⟩ := hskill
    refine ⟨state', rfl, rfl, generalist.scope_make hstate, h.model, fun other hmem => ?_, fun other hmem => ?_⟩
    · exact (((h.listed other hmem).congr hpayload).activatedEntries).congr hentries
    · rcases List.mem_append.mp hmem with hmem | hmem
      · -- Another skill's entry is another one, so that its body stays.
        obtain ⟨hmem, hne⟩ := List.mem_filter.mp hmem
        obtain ⟨⟨listed, hlisted, hname⟩, hbody⟩ := h.activated other hmem
        refine ⟨⟨listed, hlisted, hname⟩, ((hbody.congr hpayload).activatedEntries fun hid => ?_).congr hentries⟩
        rw [← hname] at hid
        have hnames := hfree listed hlisted skill hskill hid
        exact of_decide_eq_true hne (hname.symm.trans hnames)
      · obtain rfl := List.mem_singleton.mp hmem
        exact ⟨⟨skill, hskill, rfl⟩,
          (holdsBody_activatedEntries ((h.listed skill hskill).congr hpayload)).congr hentries⟩

end Steps

section Runs

variable {initial : SessionMaterialization generalist}

theorem run_append (before after : List Operation) :
    run environment initial (before ++ after) = run environment (run environment initial before) after :=
  List.foldl_append

theorem run_concat (before : List Operation) (operation : Operation) :
    run environment initial (before ++ [operation]) = operation.next environment (run environment initial before) :=
  run_append before [operation]

section

variable (operations : List Operation)

theorem pinned_run {state : generalist.State} (h : Pinned initial state)
    (hfree : CollisionFree generalist initial.skills) : ∃ state, Pinned (run environment initial operations) state := by
  induction operations generalizing initial state with
  | nil => exact ⟨state, h⟩
  | cons operation operations ih =>
    change ∃ state, Pinned (run environment (operation.next environment initial) operations) state
    rcases next_cases environment initial operation with hchanged | ⟨_, hsame⟩
    · obtain ⟨state', h'⟩ := h.changed hfree hchanged
      rw [← hchanged.skills] at hfree
      exact ih h' hfree
    · rw [hsame]
      exact ih h hfree

theorem settingsRevision_run : (run environment initial operations).settingsRevision =
      initial.settingsRevision + settingsChanges environment initial operations := by
  induction operations generalizing initial with
  | nil => rfl
  | cons operation operations ih =>
    change (run environment (operation.next environment initial) operations).settingsRevision = _
    rw [ih, settingsChanges]
    rcases next_cases environment initial operation with
      hchanged | ⟨⟨failure, hfailure⟩, hsame⟩
    · rw [hchanged.settingsRevision]
      omega
    · rw [hsame, changesSettings_of_rejected hfailure]
      simp

theorem workspace_run :
    policy (run environment initial operations).workspace = policy initial.workspace ∧
      initial.workspace.generation ≤ (run environment initial operations).workspace.generation := by
  induction operations generalizing initial with
  | nil => exact ⟨rfl, Nat.le_refl _⟩
  | cons operation operations ih =>
    change policy (run environment (operation.next environment initial) operations).workspace = _ ∧
      _ ≤ (run environment (operation.next environment initial) operations).workspace.generation
    rcases next_cases environment initial operation with hchanged | ⟨_, hsame⟩
    · obtain ⟨hpolicy, hgeneration⟩ := hchanged.workspace
      obtain ⟨ihpolicy, ihgeneration⟩ := @ih (operation.next environment initial)
      exact ⟨ihpolicy.trans hpolicy, hgeneration.trans ihgeneration⟩
    · rw [hsame]
      exact ih

end

/-- A discovered context stays restorable, whatever is done to it. -/
theorem context_stays_restorable (environment : Environment generalist) (reader : WorkspaceReader) (input : DiscoverInput)
    (initial : SessionMaterialization generalist) (hdiscover : discoverWithReader environment reader input = .ok initial)
    (hfree : CollisionFree generalist initial.skills) (operations : List Operation) :
    restoreWithReader (run environment initial operations) = .ok (run environment initial operations) ∧
      (∀ activated ∈ (run environment initial operations).activatedSkills,
        HoldsBody generalist
          (generalist.payloadEntries (run environment initial operations).guidance.payload) activated) ∧
      (run environment initial operations).settingsRevision = settingsChanges environment initial operations ∧
      (∀ before after, operations = before ++ after →
        policy (run environment initial operations).workspace = policy (run environment initial before).workspace ∧
          (run environment initial before).workspace.generation ≤
            (run environment initial operations).workspace.generation) ∧
      ∀ before operation failure, operation.apply environment (run environment initial before) = .error failure →
        run environment initial (before ++ [operation]) = run environment initial before := by
  obtain ⟨state, hpinned⟩ := pinned_discovered hdiscover
  obtain ⟨final, hfinal⟩ := pinned_run operations hpinned hfree
  refine ⟨hfinal.restore, fun activated hmem => hfinal.holdsBody hmem, ?_, fun before after hsplit => ?_,
    fun before operation failure hfailure => ?_⟩
  · rw [settingsRevision_run, settingsRevision_discovered hdiscover, Nat.zero_add]
  · rw [hsplit, run_append]
    exact workspace_run after
  · rw [run_concat, Operation.next, hfailure]

def sampleGeneralist : Generalist where
  State := List Char × List GuidanceEntry
  Payload := List Char × List GuidanceEntry
  digest
    | .guidanceEntry _ value => value.toList
    | .skillMetadata listing => listing.name.toList
    | .skillBody body => body.map fun unit => Char.ofNat unit.toNat
  payloadDigest payload := payload.1
  makeModel model := model.selection.model
  selectListings skills _ := skills
  makeState scope entries := some (scope, entries)
  stateScope state := state.1
  allEntries state := state.2
  snapshotId state := state.1
  snapshotPayload state := state
  payloadEntries payload := payload.2
  registrationId state _ := state.1
  registrationPayload state _ := state
  capability _ codec := ⟨"guidance", codec, none⟩
  decode _ payload := some payload
  scope_make := by
    rintro scope entries state ⟨⟩
    rfl
  entries_make := by
    rintro scope entries state ⟨⟩ entry
    rfl
  payloadEntries_make _ _ := Iff.rfl
  registrationId_make _ _ := rfl
  registrationPayload_make _ _ := rfl
  decode_make _ := rfl

def sampleEnvironment : Environment sampleGeneralist := ⟨fun _ => true, Collation.codePoint⟩

def sampleListing (name : String) : SkillListing := ⟨name, utf16 "A skill", none, none, none, none, none, none⟩

def sampleReader : WorkspaceReader :=
  ⟨.ok [⟨"AGENTS.md", utf16 "Be brief"⟩],
    .ok [⟨sampleListing "review", .ok (utf16 "Read it twice")⟩, ⟨sampleListing "deploy", .ok (utf16 "Push it")⟩]⟩

def sampleBinding (generation : Nat) : WorkspaceBinding :=
  ⟨"workspace", "assignment", generation, .runner "checkout" "workspace", "build", 1⟩

def sampleModel (model : String) : ModelConfiguration := ⟨⟨"openai", model, none⟩, ⟨none, none, none, none⟩, []⟩

def sampleInput : DiscoverInput :=
  ⟨"session", "thread-1", sampleBinding 1, "2026-01-01", sampleModel "gpt", [], ⟨none, none, none⟩⟩

def sampleOperations : List Operation :=
  [.activate sampleReader ⟨"request-1", "review", "2026-01-02"⟩,
    .command (.changeSettings "request-2" 0 (sampleModel "gpt-5") "gpt-5"),
    .command (.changeSettings "request-3" 0 (sampleModel "gpt") "gpt"),
    .command (.rebindWorkspace (sampleBinding 1) (sampleBinding 2)),
    .command (.activateSkill "request-4" "review" (utf16 "Read it")
      (skillBodyIdentity sampleGeneralist (utf16 "Read it")) "2026-01-03")]

theorem context_stays_restorable_sample :
    ∃ initial, discoverWithReader sampleEnvironment sampleReader sampleInput = .ok initial ∧
      restoreWithReader (run sampleEnvironment initial sampleOperations) =
        .ok (run sampleEnvironment initial sampleOperations) ∧
      settingsChanges sampleEnvironment initial sampleOperations = 1 ∧
      (run sampleEnvironment initial sampleOperations).settingsRevision = 1 := by
  have hnames : (discoverWithReader sampleEnvironment sampleReader sampleInput).toOption.map
      (fun initial => initial.skills.map (·.name)) = some ["deploy", "review"] := by decide +kernel
  have hchanges : (discoverWithReader sampleEnvironment sampleReader sampleInput).toOption.map
      (fun initial => settingsChanges sampleEnvironment initial sampleOperations) = some 1 := by decide +kernel
  cases hdiscover : discoverWithReader sampleEnvironment sampleReader sampleInput with
  | error failure =>
    rw [hdiscover] at hnames
    cases hnames
  | ok initial =>
    rw [hdiscover] at hnames hchanges
    have hskills : initial.skills.map (·.name) = ["deploy", "review"] := Option.some.inj hnames
    have hchanged : settingsChanges sampleEnvironment initial sampleOperations = 1 := Option.some.inj hchanges
    have hfree : CollisionFree sampleGeneralist initial.skills := by
      intro left hleft right hright hid
      have hall : ∀ left ∈ ["deploy", "review"], ∀ right ∈ ["deploy", "review"],
          guidanceEntryId sampleGeneralist .skill left = guidanceEntryId sampleGeneralist .skill right →
            left = right := by decide
      rw [← hskills] at hall
      exact hall _ (List.mem_map_of_mem hleft) _ (List.mem_map_of_mem hright) hid
    obtain ⟨hrestore, _, hrevision, _⟩ :=
      context_stays_restorable sampleEnvironment sampleReader sampleInput initial hdiscover hfree sampleOperations
    exact ⟨initial, rfl, hrestore, hchanged, hrevision.trans hchanged⟩

end Runs

end Rika.SessionContext
