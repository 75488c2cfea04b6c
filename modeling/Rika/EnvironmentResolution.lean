import Mathlib.Data.List.Induction
import Rika.EnvironmentPolicy

namespace Rika.EnvironmentPolicy

open InsertionMap (empty get_empty get_eq_some get_set keys mem_values nodupKeys values)

variable {language : Language} {input : ResolveEnvironmentInput} {organizationPersonalOverrides : Bool}

section Selection

/-- What is selected for a name, once a candidate of that name has been looked at. -/
def select (organizationPersonalOverrides : Bool) (current : Option EnvironmentReference)
    (candidate : EnvironmentReference) : Option EnvironmentReference :=
  match current with
  | none => some candidate
  | some held =>
    if candidate.scope = .personal && held.scope ≠ .personal && !organizationPersonalOverrides then some held
    else if scopeRank held.scope ≤ scopeRank candidate.scope then some candidate
    else some held

theorem get_visit (selected : InsertionMap String EnvironmentReference) (candidate : EnvironmentReference) (name : String) :
    (visit organizationPersonalOverrides selected candidate).get name =
      if candidate.name = name then select organizationPersonalOverrides (selected.get name) candidate
      else selected.get name := by
  by_cases hname : candidate.name = name
  · subst hname
    rw [if_pos rfl]
    unfold visit select
    cases hheld : selected.get candidate.name with
    | none =>
      dsimp only
      rw [get_set, if_pos rfl]
    | some held =>
      dsimp only
      split
      · exact hheld
      split
      · rw [get_set, if_pos rfl]
      · exact hheld
  · rw [if_neg hname, visit]
    cases selected.get candidate.name with
    | none =>
      dsimp only
      rw [get_set, if_neg (Ne.symm hname)]
    | some held =>
      dsimp only
      split
      · rfl
      split
      · rw [get_set, if_neg (Ne.symm hname)]
      · rfl

theorem get_foldl_visit (candidates : List EnvironmentReference) (selected : InsertionMap String EnvironmentReference)
    (name : String) :
    (candidates.foldl (visit organizationPersonalOverrides) selected).get name =
      (candidates.filter fun candidate => candidate.name = name).foldl (select organizationPersonalOverrides)
        (selected.get name) := by
  induction candidates generalizing selected with
  | nil => rfl
  | cons candidate candidates ih =>
    rw [List.foldl_cons, ih, get_visit, List.filter_cons]
    by_cases hname : candidate.name = name
    · rw [if_pos hname, if_pos (decide_eq_true hname), List.foldl_cons]
    · rw [if_neg hname, if_neg (by simpa using hname)]

theorem key_visit {selected : InsertionMap String EnvironmentReference}
    (h : ∀ entry ∈ selected.entries, entry.2.name = entry.1) (candidate : EnvironmentReference) :
    ∀ entry ∈ (visit organizationPersonalOverrides selected candidate).entries, entry.2.name = entry.1 := by
  rintro ⟨name, reference⟩ hentry
  have hget := get_eq_some.mpr hentry
  rw [get_visit] at hget
  by_cases hname : candidate.name = name
  · rw [if_pos hname] at hget
    unfold select at hget
    cases hheld : selected.get name with
    | none =>
      rw [hheld] at hget
      cases hget
      exact hname
    | some held =>
      have hheldName : held.name = name := h (name, held) (get_eq_some.mp hheld)
      rw [hheld] at hget
      dsimp only at hget
      split at hget
      · cases hget
        exact hheldName
      split at hget <;> cases hget
      · exact hname
      · exact hheldName
  · rw [if_neg hname] at hget
    exact h (name, reference) (get_eq_some.mp hget)

theorem key_foldl_visit (candidates : List EnvironmentReference) {selected : InsertionMap String EnvironmentReference}
    (h : ∀ entry ∈ selected.entries, entry.2.name = entry.1) :
    ∀ entry ∈ (candidates.foldl (visit organizationPersonalOverrides) selected).entries, entry.2.name = entry.1 := by
  induction candidates generalizing selected with
  | nil => exact h
  | cons candidate candidates ih => exact ih (key_visit h candidate)

/-- Where personal references do not override, others of the name shut them out. -/
def Eligible (organizationPersonalOverrides : Bool) (candidates : List EnvironmentReference)
    (candidate : EnvironmentReference) : Prop :=
  candidate ∈ candidates ∧
    (organizationPersonalOverrides = true ∨ candidate.scope ≠ .personal ∨ ∀ other ∈ candidates, other.scope = .personal)

structure Chosen (organizationPersonalOverrides : Bool) (candidates : List EnvironmentReference)
    (reference : EnvironmentReference) : Prop where
  eligible : Eligible organizationPersonalOverrides candidates reference
  highest : ∀ other, Eligible organizationPersonalOverrides candidates other →
    scopeRank other.scope ≤ scopeRank reference.scope

theorem Chosen.select {candidates : List EnvironmentReference} {reference candidate : EnvironmentReference}
    (h : Chosen organizationPersonalOverrides candidates reference)
    (hlast : ∀ other ∈ candidates, scopeRank other.scope ≤ scopeRank candidate.scope) :
    ∃ chosen, EnvironmentPolicy.select organizationPersonalOverrides (some reference) candidate = some chosen ∧
      Chosen organizationPersonalOverrides (candidates ++ [candidate]) chosen := by
  have hmem := h.eligible.1
  rw [EnvironmentPolicy.select]
  by_cases hskip : (candidate.scope = .personal && reference.scope ≠ .personal && !organizationPersonalOverrides) = true
  · rw [if_pos hskip]
    rw [Bool.and_eq_true, Bool.and_eq_true, decide_eq_true_eq, decide_eq_true_eq, Bool.not_eq_true'] at hskip
    obtain ⟨⟨hpersonal, hreference⟩, hoverrides⟩ := hskip
    refine ⟨reference, rfl, ⟨List.mem_append_left _ hmem, Or.inr (Or.inl hreference)⟩, ?_⟩
    rintro other ⟨hother, heligible⟩
    have hscope : other.scope ≠ .personal := by
      rcases heligible with htrue | hscope | hall
      · rw [hoverrides] at htrue
        cases htrue
      · exact hscope
      · exact absurd (hall reference (List.mem_append_left _ hmem)) hreference
    have hold : other ∈ candidates := by
      refine (List.mem_append.mp hother).resolve_right fun hnew => hscope ?_
      rw [List.mem_singleton.mp hnew]
      exact hpersonal
    exact h.highest other ⟨hold, Or.inr (Or.inl hscope)⟩
  · rw [if_neg hskip, if_pos (hlast reference hmem)]
    refine ⟨candidate, rfl, ⟨List.mem_append_right _ List.mem_cons_self, ?_⟩, ?_⟩
    · cases hoverrides : organizationPersonalOverrides with
      | true => exact Or.inl rfl
      | false =>
        refine Or.inr (or_iff_not_imp_left.mpr fun hpersonal other hother => ?_)
        rw [not_not] at hpersonal
        rw [hpersonal, hoverrides] at hskip
        have hreference : reference.scope = .personal := by simpa using hskip
        rcases List.mem_append.mp hother with hold | hnew
        · by_contra hscope
          have hshut := h.eligible.2
          rw [hoverrides, hreference] at hshut
          exact hscope ((hshut.resolve_left Bool.false_ne_true).resolve_left (fun hne => hne rfl) other hold)
        · rw [List.mem_singleton.mp hnew]
          exact hpersonal
    · rintro other ⟨hother, _⟩
      rcases List.mem_append.mp hother with hold | hnew
      · exact hlast other hold
      · rw [List.mem_singleton.mp hnew]

/-- Over candidates of rising rank, the eligible one of the highest scope is selected. -/
theorem foldl_select {candidates : List EnvironmentReference}
    (hsorted : candidates.Pairwise fun left right => scopeRank left.scope ≤ scopeRank right.scope)
    (hne : candidates ≠ []) :
    ∃ chosen, candidates.foldl (EnvironmentPolicy.select organizationPersonalOverrides) none = some chosen ∧
      Chosen organizationPersonalOverrides candidates chosen := by
  induction candidates using List.reverseRecOn with
  | nil => exact absurd rfl hne
  | append_singleton candidates candidate ih =>
    rw [List.pairwise_append] at hsorted
    have hlast : ∀ other ∈ candidates, scopeRank other.scope ≤ scopeRank candidate.scope :=
      fun other hother => hsorted.2.2 other hother candidate List.mem_cons_self
    rw [List.foldl_append]
    by_cases hempty : candidates = []
    · subst hempty
      refine ⟨candidate, rfl, ⟨List.mem_cons_self, Or.inr (or_iff_not_imp_left.mpr fun hpersonal other hother => ?_)⟩, ?_⟩
      · rw [List.mem_singleton.mp hother]
        exact not_not.mp hpersonal
      · rintro other ⟨hother, _⟩
        rw [List.mem_singleton.mp hother]
    · obtain ⟨reference, hreference, hchosen⟩ := ih hsorted.1 hempty
      rw [hreference]
      exact hchosen.select hlast

end Selection

section Resolution

instance compareReferences_trans (language : Language) : Std.TransCmp (compareReferences language) :=
  inferInstanceAs (Std.TransCmp (compareLex
    (fun left right : EnvironmentReference => compare (scopeRank left.scope) (scopeRank right.scope))
    (compareLex (fun left right => language.localeCompare.compare left.name right.name)
      fun left right => language.localeCompare.compare left.id.text right.id.text)))

def competing (language : Language) (input : ResolveEnvironmentInput) (name : String) : List EnvironmentReference :=
  (sortedCandidates language input).filter fun candidate => candidate.name = name

variable {name : String} {reference : EnvironmentReference}

theorem mem_competing : reference ∈ competing language input name ↔
      (reference ∈ input.candidates ∧ admitted language input reference = true) ∧ reference.name = name := by
  rw [competing, List.mem_filter, sortedCandidates, StableSort.mem_toSorted, List.mem_filter, decide_eq_true_eq]

theorem competing_sorted (name : String) :
    (competing language input name).Pairwise fun left right => scopeRank left.scope ≤ scopeRank right.scope := by
  have hsorted : StableSort.Sorted (compareReferences language) (sortedCandidates language input) :=
    StableSort.toSorted_sorted _
  refine List.Pairwise.imp (fun {left right} hle => ?_) (hsorted.filter fun candidate => candidate.name = name)
  rw [compareReferences, Ordering.isLE_then_iff_and] at hle
  exact Nat.isLE_compare.mp hle.1

theorem get_selected (name : String) :
    ((sortedCandidates language input).foldl (visit input.organizationPersonalOverrides) .empty).get name =
      (competing language input name).foldl (select input.organizationPersonalOverrides) none := by
  rw [get_foldl_visit, get_empty]
  rfl

theorem mem_resolve : reference ∈ resolveEnvironmentReferences language input ↔
      (competing language input reference.name).foldl (select input.organizationPersonalOverrides) none =
        some reference := by
  rw [resolveEnvironmentReferences, StableSort.mem_toSorted, mem_values]
  constructor
  · rintro ⟨name, hget⟩
    have hname : reference.name = name :=
      @key_foldl_visit _ _ .empty (fun _ hentry => absurd hentry List.not_mem_nil) _ (get_eq_some.mp hget)
    rw [← get_selected, hname]
    exact hget
  · intro hselected
    exact ⟨reference.name, (get_selected _).trans hselected⟩

/-- An active organization or project reference of the phase defines the name. -/
def Defined (input : ResolveEnvironmentInput) (name : String) : Prop :=
  ∃ other ∈ input.candidates, other.name = name ∧ other.state = .active ∧ input.phase ∈ other.phases ∧
    other.scope ≠ .personal

/-- The source is trusted, or an approval of the owner for the same source, commit and phase has not been revoked. -/
def Approved (language : Language) (input : ResolveEnvironmentInput) (ownerId : String) : Prop :=
  (input.source.fork = false ∧ input.source.trustedRef = true) ∨
    ∃ approval, input.approval = some approval ∧ approval.ownerId = ownerId ∧ approval.revokedAt = none ∧
      language.toLowerCase approval.sourceOwner = language.toLowerCase input.source.owner ∧
      language.toLowerCase approval.sourceCommitSha = language.toLowerCase input.source.commitSha ∧
      approval.phase = input.phase

/-- A candidate that may be used: active, of the phase, no secret withheld from the source, and no personal one of a
fixed name. -/
structure Usable (language : Language) (input : ResolveEnvironmentInput) (reference : EnvironmentReference) : Prop where
  candidate : reference ∈ input.candidates
  active : reference.state = .active
  phase : input.phase ∈ reference.phases
  secret : reference.classification = .secret → Approved language input reference.ownerId
  personal : reference.scope = .personal → input.organizationPersonalOverrides = true ∨ ¬Defined input reference.name

structure Resolved (language : Language) (input : ResolveEnvironmentInput) (references : List EnvironmentReference) :
    Prop where
  unique : (references.map (·.name)).Nodup
  usable : ∀ reference ∈ references, Usable language input reference
  highest : ∀ reference ∈ references, ∀ other, Usable language input other → other.name = reference.name →
    scopeRank other.scope ≤ scopeRank reference.scope
  complete : ∀ other, Usable language input other → ∃ reference ∈ references, reference.name = other.name
  unordered : (input.candidates.map (·.id)).Nodup → ∀ candidates, candidates.Perm input.candidates →
    resolveEnvironmentReferences language { input with candidates } = references

theorem mayReceiveSecrets_iff :
    mayReceiveSecrets language input reference = true ↔ Approved language input reference.ownerId := by
  unfold mayReceiveSecrets sourceMayReceiveSecrets Approved
  by_cases htrusted : (!input.source.fork && input.source.trustedRef) = true
  · rw [if_pos htrusted]
    refine iff_of_true rfl (Or.inl ?_)
    simpa using htrusted
  · rw [if_neg htrusted]
    have hnot : ¬(input.source.fork = false ∧ input.source.trustedRef = true) := by simpa using htrusted
    cases happroval : input.approval with
    | none => simp [hnot]
    | some approval => simp [hnot, and_assoc]

theorem admitted_iff : admitted language input reference = true ↔
      reference.state = .active ∧ input.phase ∈ reference.phases ∧
        (reference.classification = .secret → Approved language input reference.ownerId) := by
  rw [admitted, Bool.and_eq_true, Bool.and_eq_true, decide_eq_true_eq, decide_eq_true_eq, Bool.or_eq_true,
    decide_eq_true_eq, mayReceiveSecrets_iff, and_assoc]
  cases reference.classification with
  | plain => simp
  | secret => simp

/-- Each shared name that a personal candidate may be used for has a shared candidate that is not withheld. -/
def Covered (language : Language) (input : ResolveEnvironmentInput) : Prop :=
  input.organizationPersonalOverrides = true ∨
    ∀ reference ∈ input.candidates, admitted language input reference = true → reference.scope = .personal →
      Defined input reference.name →
        ∃ other ∈ input.candidates, admitted language input other = true ∧ other.name = reference.name ∧
          other.scope ≠ .personal

/-- The candidates of a name that compete and are eligible are the usable ones, where that name is covered. -/
theorem eligible_iff (hcovered : Covered language input) (hname : reference.name = name) :
    Eligible input.organizationPersonalOverrides (competing language input name) reference ↔
      Usable language input reference := by
  subst hname
  rw [Eligible, mem_competing, admitted_iff]
  constructor
  · rintro ⟨⟨⟨hcandidate, hactive, hphase, hsecret⟩, _⟩, heligible⟩
    refine ⟨hcandidate, hactive, hphase, hsecret, fun hpersonal => ?_⟩
    by_cases hoverrides : input.organizationPersonalOverrides = true
    · exact Or.inl hoverrides
    · refine Or.inr fun hdefined => ?_
      obtain ⟨other, hother, hadmitted, hotherName, hscope⟩ := hcovered.resolve_left hoverrides reference hcandidate
        (admitted_iff.mpr ⟨hactive, hphase, hsecret⟩) hpersonal hdefined
      have hall := (heligible.resolve_left hoverrides).resolve_left (not_not_intro hpersonal)
      exact hscope (hall other (mem_competing.mpr ⟨⟨hother, hadmitted⟩, hotherName⟩))
  · intro h
    refine ⟨⟨⟨h.candidate, h.active, h.phase, h.secret⟩, rfl⟩, ?_⟩
    by_cases hpersonal : reference.scope = .personal
    · rcases h.personal hpersonal with hoverrides | hundefined
      · exact Or.inl hoverrides
      · refine Or.inr (Or.inr fun other hother => ?_)
        obtain ⟨⟨hcandidate, hadmitted⟩, hotherName⟩ := mem_competing.mp hother
        obtain ⟨hactive, hphase, _⟩ := admitted_iff.mp hadmitted
        by_contra hscope
        exact hundefined ⟨other, hcandidate, hotherName, hactive, hphase, hscope⟩
    · exact Or.inr (Or.inl hpersonal)

theorem chosen_of_mem (h : reference ∈ resolveEnvironmentReferences language input) :
    Chosen input.organizationPersonalOverrides (competing language input reference.name) reference := by
  have hselected := mem_resolve.mp h
  have hne : competing language input reference.name ≠ [] := by
    intro hnil
    rw [hnil] at hselected
    cases hselected
  obtain ⟨chosen, hchosen, heligible⟩ := foldl_select (competing_sorted reference.name) hne
  rw [hselected] at hchosen
  cases hchosen
  exact heligible

theorem exists_mem_resolve (hne : competing language input name ≠ []) :
    ∃ reference ∈ resolveEnvironmentReferences language input, reference.name = name := by
  obtain ⟨chosen, hselected, hchosen⟩ :=
    @foldl_select input.organizationPersonalOverrides _ (competing_sorted name) hne
  have hname : chosen.name = name := (mem_competing.mp hchosen.eligible.1).2
  refine ⟨chosen, mem_resolve.mpr ?_, hname⟩
  rw [hname]
  exact hselected

theorem nodup_names : ((resolveEnvironmentReferences language input).map (·.name)).Nodup := by
  have hkeys : ((sortedCandidates language input).foldl (visit input.organizationPersonalOverrides)
      empty).values.map (·.name) =
        ((sortedCandidates language input).foldl (visit input.organizationPersonalOverrides) empty).keys := by
    rw [values, keys, List.map_map]
    exact List.map_congr_left (@key_foldl_visit _ _ .empty fun _ hentry => absurd hentry List.not_mem_nil)
  rw [resolveEnvironmentReferences, ((StableSort.toSorted_perm _ _).map _).nodup_iff, hkeys]
  exact nodupKeys _

theorem resolve_perm (hunique : (input.candidates.map (·.id)).Nodup) {candidates : List EnvironmentReference}
    (hperm : candidates.Perm input.candidates) :
    resolveEnvironmentReferences language { input with candidates } = resolveEnvironmentReferences language input := by
  have hsorted : sortedCandidates language { input with candidates } = sortedCandidates language input := by
    refine (StableSort.toSorted_eq_of_perm (hperm.filter _).symm ?_).symm
    intro left hleft right hright heq
    rw [compareReferences, Ordering.then_eq_eq, Ordering.then_eq_eq] at heq
    have hid : left.id = right.id := by
      have htext := language.eq_of_compare left.id right.id heq.2.2
      cases hleftId : left.id
      cases hrightId : right.id
      rw [hleftId, hrightId] at htext
      cases htext
      rfl
    exact List.inj_on_of_nodup_map hunique (List.mem_filter.mp hleft).1 (List.mem_filter.mp hright).1 hid
  rw [resolveEnvironmentReferences, hsorted]
  rfl

/-- The resolution is what it has to be exactly when no personal reference stands in for a secret that is withheld
from the source. -/
theorem resolved_iff (language : Language) (input : ResolveEnvironmentInput) :
    Resolved language input (resolveEnvironmentReferences language input) ↔ Covered language input := by
  constructor
  · intro h
    refine or_iff_not_imp_left.mpr fun hoverrides reference hcandidate hadmitted hpersonal hdefined => ?_
    have hmem : reference ∈ competing language input reference.name := mem_competing.mpr ⟨⟨hcandidate, hadmitted⟩, rfl⟩
    obtain ⟨used, hused, hname⟩ := exists_mem_resolve (List.ne_nil_of_mem hmem)
    have husable := h.usable used hused
    refine ⟨used, husable.candidate, admitted_iff.mpr ⟨husable.active, husable.phase, husable.secret⟩, hname, ?_⟩
    intro husedPersonal
    rw [← hname] at hdefined
    exact (husable.personal husedPersonal).elim hoverrides fun hnot => hnot hdefined
  · intro hcovered
    have hiff : ∀ reference ∈ resolveEnvironmentReferences language input, ∀ other, other.name = reference.name →
        (Eligible input.organizationPersonalOverrides (competing language input reference.name) other ↔
          Usable language input other) := fun _ _ _ hname => eligible_iff hcovered hname
    refine ⟨nodup_names, fun reference hmem => ?_, fun reference hmem other hother hname => ?_, fun other hother => ?_,
      fun hunique candidates hperm => resolve_perm hunique hperm⟩
    · exact (hiff reference hmem reference rfl).mp (chosen_of_mem hmem).eligible
    · exact (chosen_of_mem hmem).highest other ((hiff reference hmem other hname).mpr hother)
    · exact exists_mem_resolve (List.ne_nil_of_mem ((eligible_iff hcovered rfl).mpr hother).1)

section Samples

def sampleLanguage : Language := ⟨.codePoint, String.toLower, fun _ _ h => Std.LawfulEqOrd.eq_of_compare h⟩

def sampleReference (id : OpaqueId) (scope : EnvironmentScope) (classification : EnvironmentClassification) :
    EnvironmentReference where
  id
  ownerId := "owner"
  projectId := none
  scope
  scopeId := "scope"
  name := "TOKEN"
  classification
  phases := [.setup, .runtime]
  revision := "1"
  valueDigest := "sha256"
  state := .active
  updatedByUserId := "user"
  updatedAt := "2026-08-21T00:00:00.000Z"

def withheldInput : ResolveEnvironmentInput where
  candidates :=
    [sampleReference ⟨"organization-TOKEN", by decide⟩ .organization .secret,
      sampleReference ⟨"personal-TOKEN", by decide⟩ .personal .plain]
  phase := .runtime
  source := ⟨"In-Time-Tec", "0123456789012345678901234567890123456789", true, false⟩
  approval := none
  organizationPersonalOverrides := false

end Samples

/-- The organization's secret is withheld from the fork, and the personal value is used in its place. -/
theorem withheld_name_overridden :
    ((resolveEnvironmentReferences sampleLanguage withheldInput).map fun reference =>
      (reference.name, reference.scope)) = [("TOKEN", .personal)] ∧
        withheldInput.organizationPersonalOverrides = false ∧ Defined withheldInput "TOKEN" ∧
          ¬Resolved sampleLanguage withheldInput (resolveEnvironmentReferences sampleLanguage withheldInput) := by
  have hresolved : ((resolveEnvironmentReferences sampleLanguage withheldInput).map fun reference =>
      (reference.name, reference.scope)) = [("TOKEN", EnvironmentScope.personal)] := by decide +kernel
  have hdefined : Defined withheldInput "TOKEN" :=
    ⟨_, List.mem_cons_self, rfl, rfl, List.mem_cons_of_mem _ List.mem_cons_self, EnvironmentScope.noConfusion⟩
  refine ⟨hresolved, rfl, hdefined, fun h => ?_⟩
  have hmem : ("TOKEN", EnvironmentScope.personal) ∈
      (resolveEnvironmentReferences sampleLanguage withheldInput).map fun reference =>
        (reference.name, reference.scope) := by
    rw [hresolved]
    exact List.mem_cons_self
  obtain ⟨reference, hreference, heq⟩ := List.mem_map.mp hmem
  cases reference with
  | mk id ownerId projectId scope scopeId name =>
    cases heq
    rcases (h.usable _ hreference).personal rfl with hoverrides | hnot
    · cases hoverrides
    · exact hnot hdefined

end Resolution

end Rika.EnvironmentPolicy
