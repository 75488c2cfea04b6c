import Rika.DownstreamGrants
import Rika.UseTickets

namespace Rika.ProductAuthority

open Fold (Throughout throughout_append_iff)
open InsertionMap (get_delete get_empty get_set)

/-- The authentication is one that was granted: of the principal, for the owner, the
thread and the original request, and before it expires. -/
def Issue.Grants (issue : Issue) (authentication : Authentication) : Prop :=
  issue.credential = authentication.credential ∧ issue.grant.principal = authentication.principal ∧
    authentication.readAt < issue.grant.expiresAt ∧ issue.grant.ownerId = authentication.context.ownerId ∧
    issue.grant.threadId = authentication.context.threadId ∧
    authentication.context.originalUrl = some issue.grant.requestUrl ∧
    authentication.context.originalMethod = some issue.grant.requestMethod

/-- The grant is the one that was issued, but for the uses that remain. -/
def Issue.Covers (issue : Issue) (credential : String) (grant : DownstreamGrant) : Prop :=
  issue.credential = credential ∧ grant = { issue.grant with remainingUses := grant.remainingUses }

theorem deleteOldest_get {ν : Type} (map : InsertionMap String ν) (k : String) :
    (deleteOldest map).get k = map.get k ∨ (deleteOldest map).get k = none := by
  rw [deleteOldest]
  split
  · split
    · exact .inl rfl
    · rw [get_delete]
      split
      · exact .inr rfl
      · exact .inl rfl
  · exact .inl rfl

theorem refuses_eq_false {grant : DownstreamGrant} {context : DownstreamContext} {now : Int}
    (h : grant.refuses context now = false) :
    now < grant.expiresAt ∧ grant.remainingUses ≠ 0 ∧ grant.ownerId = context.ownerId ∧
      grant.threadId = context.threadId ∧ context.originalUrl = some grant.requestUrl ∧
      context.originalMethod = some grant.requestMethod := by
  simpa [DownstreamGrant.refuses, and_assoc] using h

namespace State

/-- A credential is drawn that has not been drawn before. -/
def Fresh (state : State) : Input → Prop
  | .downstreamCredential _ _ uuid => ¬state.Issued ("rika-ds-" ++ uuid)
  | _ => True

/-- An authentication that its device check lets in finds the grant as it read it. -/
def FindsGrant (state : State) : Input → Prop
  | .checked check deviceId =>
    ∀ waiting ∈ state.checks[check]?, state.accepts waiting deviceId = true →
      state.grants.get waiting.credential = some waiting.grant
  | _ => True

instance (state : State) : (input : Input) → Decidable (state.Fresh input)
  | .downstreamCredential .. => inferInstanceAs (Decidable (¬_))
  | .rememberActor .. | .authenticateDownstream .. | .checked .. | .unavailable _ => inferInstanceAs (Decidable True)

instance (state : State) : (input : Input) → Decidable (state.FindsGrant input)
  | .checked check _ => inferInstanceAs (Decidable (∀ waiting ∈ state.checks[check]?, _))
  | .rememberActor .. | .downstreamCredential .. | .authenticateDownstream .. | .unavailable _ =>
    inferInstanceAs (Decidable True)

structure Sound (state : State) : Prop where
  issues : (state.issues.map (·.credential)).Nodup
  grants {credential grant} (h : state.grants.get credential = some grant) :
    ∃ issue ∈ state.issues, issue.Covers credential grant
  checks {check} (h : check ∈ state.checks) :
    (∃ issue ∈ state.issues, issue.Covers check.credential check.grant) ∧
      check.grant.refuses check.context check.readAt = false
  authentications {authentication} (h : authentication ∈ state.authentications) :
    ∃ issue ∈ state.issues, issue.Grants authentication

def ticket (state : State) (credential : String) : Ticket where
  phase :=
    match state.grants.get credential with
    | some grant => .live grant.remainingUses
    | none => if state.Issued credential then .gone else .unissued
  uses := state.uses credential

variable {state state' : State} {credential : String}

theorem make_sound : make.Sound where
  issues := List.nodup_nil
  grants h := by
    rw [make, get_empty] at h
    cases h
  checks h := absurd h List.not_mem_nil
  authentications h := absurd h List.not_mem_nil

variable {grant : DownstreamGrant} {waiting : DeviceCheck}

theorem Sound.issued (h : state.Sound) (hgrant : state.grants.get credential = some grant) : state.Issued credential := by
  obtain ⟨issue, hissue, hcovers⟩ := h.grants hgrant
  exact List.mem_map.mpr ⟨issue, hissue, hcovers.1⟩

theorem Sound.uses_eq_zero (h : state.Sound) (hnot : ¬state.Issued credential) : state.uses credential = 0 := by
  rw [uses, List.countP_eq_zero]
  intro authentication hmem hcredential
  obtain ⟨issue, hissue, hgrants⟩ := h.authentications hmem
  exact hnot (List.mem_map.mpr ⟨issue, hissue, hgrants.1.trans (of_decide_eq_true hcredential)⟩)

theorem Sound.of_fewer (h : state.Sound) (hissues : state'.issues = state.issues)
    (hauthentications : state'.authentications = state.authentications)
    (hgrants : ∀ {credential grant}, state'.grants.get credential = some grant →
      state.grants.get credential = some grant)
    (hchecks : ∀ {check}, check ∈ state'.checks → check ∈ state.checks) : state'.Sound where
  issues := by rw [hissues]; exact h.issues
  grants hgrant := by rw [hissues]; exact h.grants (hgrants hgrant)
  checks hcheck := by rw [hissues]; exact h.checks (hchecks hcheck)
  authentications hmem := by
    rw [hauthentications] at hmem
    rw [hissues]
    exact h.authentications hmem

theorem get_of_delete {map : InsertionMap String DownstreamGrant} {other : String}
    (h : (map.delete other).get credential = some grant) : map.get credential = some grant := by
  rw [get_delete] at h
  split at h
  · cases h
  · exact h

section

variable (h : state.Sound)

include h

theorem Sound.downstreamCredential (input : DownstreamCredentialInput) (now : Int) (uuid : String)
    (hfresh : ¬state.Issued ("rika-ds-" ++ uuid)) : (state.downstreamCredential input now uuid).Sound := by
  unfold State.downstreamCredential
  split
  · exact h
  · split
    · exact h
    · next actor _ _ =>
        refine ⟨?_, fun {credential grant} hgrant => ?_, fun {check} hcheck => ?_, fun {authentication} hmem => ?_⟩
        · simp only [List.map_append, List.map_singleton]
          exact List.Nodup.append h.issues (List.nodup_singleton _) (List.disjoint_singleton.mpr hfresh)
        · obtain hsame | hnone := deleteOldest_get _ credential
          · rw [hsame, get_set] at hgrant
            split at hgrant
            · next hcredential =>
                cases hgrant
                exact ⟨_, List.mem_append_right _ (List.mem_singleton_self _), hcredential.symm, rfl⟩
            · obtain ⟨issue, hissue, hcovers⟩ := h.grants hgrant
              exact ⟨issue, List.mem_append_left _ hissue, hcovers⟩
          · rw [hnone] at hgrant
            cases hgrant
        · obtain ⟨⟨issue, hissue, hcovers⟩, hrefuses⟩ := h.checks hcheck
          exact ⟨⟨issue, List.mem_append_left _ hissue, hcovers⟩, hrefuses⟩
        · obtain ⟨issue, hissue, hgrants⟩ := h.authentications hmem
          exact ⟨issue, List.mem_append_left _ hissue, hgrants⟩

theorem Sound.authenticateDownstream (credential : String) (context : DownstreamContext) (now : Int) :
    (state.authenticateDownstream credential context now).Sound := by
  unfold State.authenticateDownstream
  split
  · exact h
  · next grant hgrant =>
      split
      · split
        · exact h.of_fewer rfl rfl get_of_delete id
        · exact h
      · next hrefuses =>
          refine ⟨h.issues, h.grants, fun {check} hcheck => ?_, h.authentications⟩
          obtain hold | hnew := List.mem_append.mp hcheck
          · exact h.checks hold
          · obtain rfl := List.mem_singleton.mp hnew
            exact ⟨h.grants hgrant, by simpa using hrefuses⟩

theorem Sound.settleCheck (check : Nat) : (state.settleCheck check).Sound :=
  h.of_fewer rfl rfl id fun hcheck => List.mem_of_mem_eraseIdx hcheck

theorem Sound.checked (deviceId : Option String)
    (hcovers : ∃ issue ∈ state.issues, issue.Covers waiting.credential waiting.grant)
    (hrefuses : waiting.grant.refuses waiting.context waiting.readAt = false) :
    (state.checked waiting deviceId).Sound := by
  unfold State.checked
  split
  · exact h.of_fewer rfl rfl get_of_delete id
  · obtain ⟨issue, hissue, hcredential, hgrant⟩ := hcovers
    obtain ⟨hexpires, -, howner, hthread, hurl, hmethod⟩ := refuses_eq_false hrefuses
    refine ⟨h.issues, fun {credential grant} hget => ?_, h.checks, fun {authentication} hmem => ?_⟩
    · split at hget
      · exact h.grants (get_of_delete hget)
      · rw [get_set] at hget
        split at hget
        · next hsame =>
            cases hget
            exact ⟨issue, hissue, hcredential.trans hsame.symm, by rw [hgrant]⟩
        · exact h.grants hget
    · obtain hold | hnew := List.mem_append.mp hmem
      · exact h.authentications hold
      · obtain rfl := List.mem_singleton.mp hnew
        rw [hgrant] at hexpires howner hthread hurl hmethod
        exact ⟨issue, hissue, hcredential, by rw [hgrant], hexpires, howner, hthread, hurl, hmethod⟩

theorem Sound.step {input : Input} (hfresh : state.Fresh input) : (state.step input).Sound := by
  cases input with
  | rememberActor principal identity deviceId => exact h.of_fewer rfl rfl id id
  | downstreamCredential input now uuid => exact h.downstreamCredential input now uuid hfresh
  | authenticateDownstream credential context now => exact h.authenticateDownstream credential context now
  | checked check deviceId =>
    rw [State.step]
    split
    · exact h
    · next waiting hwaiting =>
        obtain ⟨hcovers, hrefuses⟩ := h.checks (List.mem_of_getElem? hwaiting)
        exact (h.settleCheck check).checked deviceId hcovers hrefuses
  | unavailable check => exact h.settleCheck check

end

theorem ticket_of_get (h : state.grants.get credential = some grant) :
    state.ticket credential = ⟨.live grant.remainingUses, state.uses credential⟩ := by
  rw [ticket, h]

theorem ticket_of_issued (h : state.grants.get credential = none) (hissued : state.Issued credential) :
    state.ticket credential = ⟨.gone, state.uses credential⟩ := by
  rw [ticket, h]
  exact congrArg (Ticket.mk · _) (if_pos hissued)

theorem ticket_of_unissued (h : state.grants.get credential = none) (hnot : ¬state.Issued credential) :
    state.ticket credential = ⟨.unissued, state.uses credential⟩ := by
  rw [ticket, h]
  exact congrArg (Ticket.mk · _) (if_neg hnot)

theorem ticket_congr (hgrants : state'.grants.get credential = state.grants.get credential)
    (hissued : state'.Issued credential ↔ state.Issued credential) (huses : state'.uses credential = state.uses credential) :
    state'.ticket credential = state.ticket credential := by
  simp only [ticket, hgrants, hissued, huses]

theorem ticketStep_of {ticket ticket' : Ticket} (hbefore : state.ticket credential = ticket)
    (hafter : state'.ticket credential = ticket') (h : Ticket.Step downstreamGrantUses ticket ticket') :
    Ticket.Step downstreamGrantUses (state.ticket credential) (state'.ticket credential) := by
  rwa [hbefore, hafter]

theorem ticket_kept (hgrants : state'.grants.get credential = state.grants.get credential)
    (hissued : state'.Issued credential ↔ state.Issued credential) (huses : state'.uses credential = state.uses credential) :
    Ticket.Step downstreamGrantUses (state.ticket credential) (state'.ticket credential) :=
  ticketStep_of rfl (ticket_congr hgrants hissued huses) (.keep _)

theorem Sound.ticket_removed (h : state.Sound) (hnone : state'.grants.get credential = none)
    (hissued : state'.Issued credential ↔ state.Issued credential) (huses : state'.uses credential = state.uses credential) :
    Ticket.Step downstreamGrantUses (state.ticket credential) (state'.ticket credential) := by
  cases hget : state.grants.get credential with
  | none => exact ticket_kept (hnone.trans hget.symm) hissued huses
  | some grant =>
    refine ticketStep_of (ticket_of_get hget) (ticket_of_issued hnone (hissued.mpr (h.issued hget))) ?_
    rw [huses]
    exact .remove _ _

theorem issued_concat (state : State) (grants : InsertionMap String DownstreamGrant) (grant : DownstreamGrant)
    (drawn : String) :
    ({ state with grants, issues := state.issues ++ [⟨drawn, grant⟩] } : State).Issued credential ↔
      state.Issued credential ∨ credential = drawn := by
  simp [Issued]

theorem Sound.ticket_downstreamCredential (h : state.Sound) (input : DownstreamCredentialInput) (now : Int)
    (uuid : String) (hfresh : ¬state.Issued ("rika-ds-" ++ uuid)) :
    Ticket.Step downstreamGrantUses (state.ticket credential)
      ((state.downstreamCredential input now uuid).ticket credential) := by
  unfold State.downstreamCredential
  split
  · exact .keep _
  · split
    · exact .keep _
    · next actor _ _ =>
        have hissued : ∀ grants grant, ({ state with grants, issues := state.issues ++ [⟨"rika-ds-" ++ uuid, grant⟩] } : State).Issued
            credential ↔ state.Issued credential ∨ credential = "rika-ds-" ++ uuid :=
          fun grants grant => issued_concat state grants grant _
        by_cases hcredential : credential = "rika-ds-" ++ uuid
        · have hunissued : ¬state.Issued credential := by rwa [hcredential]
          have hbefore : state.grants.get credential = none := by
            by_contra hsome
            obtain ⟨grant, hgrant⟩ := Option.ne_none_iff_exists'.mp hsome
            exact hunissued (h.issued hgrant)
          obtain hsame | hnone := deleteOldest_get (state.grants.set ("rika-ds-" ++ uuid) _) credential
          · rw [get_set, if_pos hcredential] at hsame
            refine ticketStep_of (ticket_of_unissued hbefore hunissued) (ticket_of_get hsame) ?_
            change Ticket.Step _ ⟨_, state.uses credential⟩ ⟨_, state.uses credential⟩
            rw [h.uses_eq_zero hunissued]
            exact .issue
          · exact ticketStep_of (ticket_of_unissued hbefore hunissued)
              (ticket_of_issued hnone ((hissued _ _).mpr (.inr hcredential))) (.void _)
        · obtain hsame | hnone := deleteOldest_get (state.grants.set ("rika-ds-" ++ uuid) _) credential
          · rw [get_set, if_neg hcredential] at hsame
            exact ticket_kept hsame ((hissued _ _).trans (or_iff_left hcredential)) rfl
          · exact h.ticket_removed hnone ((hissued _ _).trans (or_iff_left hcredential)) rfl

theorem Sound.ticket_delete (h : state.Sound) (other : String) :
    Ticket.Step downstreamGrantUses (state.ticket credential)
      (({ state with grants := state.grants.delete other } : State).ticket credential) := by
  by_cases hcredential : credential = other
  · exact h.ticket_removed ((get_delete _ _ _).trans (if_pos hcredential)) Iff.rfl rfl
  · have hget : (state.grants.delete other).get credential = state.grants.get credential := by
      rw [get_delete, if_neg hcredential]
    exact ticket_kept hget Iff.rfl rfl

theorem uses_concat (state : State) (grants : InsertionMap String DownstreamGrant) (authentication : Authentication) :
    ({ state with grants, authentications := state.authentications ++ [authentication] } : State).uses credential =
      state.uses credential + if authentication.credential = credential then 1 else 0 := by
  simp [uses, List.countP_append, List.countP_singleton]

theorem Sound.ticket_checked (h : state.Sound) (deviceId : Option String)
    (hrefuses : waiting.grant.refuses waiting.context waiting.readAt = false)
    (hfinds : state.accepts waiting deviceId = true → state.grants.get waiting.credential = some waiting.grant) :
    Ticket.Step downstreamGrantUses (state.ticket credential) ((state.checked waiting deviceId).ticket credential) := by
  unfold State.checked
  split
  · exact h.ticket_delete waiting.credential
  · next haccepts =>
      have hget := hfinds (by simpa using haccepts)
      by_cases hcredential : credential = waiting.credential
      · subst hcredential
        split
        · next hone =>
            refine ticketStep_of (ticket_of_get hget)
              (ticket_of_issued ((get_delete _ _ _).trans (if_pos rfl)) (h.issued hget)) ?_
            rw [hone, uses_concat, if_pos rfl]
            exact .useUp _
        · next hmore =>
            refine ticketStep_of (ticket_of_get hget) (ticket_of_get ((get_set _ _ _ _).trans (if_pos rfl))) ?_
            rw [uses_concat, if_pos rfl]
            obtain ⟨remaining, hremaining⟩ := Nat.exists_eq_succ_of_ne_zero (refuses_eq_false hrefuses).2.1
            rw [hremaining]
            exact .use remaining _
      · refine ticket_kept ?_ Iff.rfl ?_
        · dsimp only
          split
          · rw [get_delete, if_neg hcredential]
          · rw [get_set, if_neg hcredential]
        · rw [uses_concat, if_neg (Ne.symm hcredential), Nat.add_zero]

theorem Sound.ticket_step (h : state.Sound) {input : Input} (hfresh : state.Fresh input) (hfinds : state.FindsGrant input)
    (credential : String) :
    Ticket.Step downstreamGrantUses (state.ticket credential) ((state.step input).ticket credential) := by
  cases input with
  | rememberActor principal identity deviceId => exact .keep _
  | downstreamCredential input now uuid => exact h.ticket_downstreamCredential input now uuid hfresh
  | authenticateDownstream other context now =>
    rw [State.step, State.authenticateDownstream]
    split
    · exact .keep _
    · split
      · split
        · exact h.ticket_delete other
        · exact .keep _
      · exact .keep _
  | checked check deviceId =>
    rw [State.step]
    split
    · exact .keep _
    · next waiting hwaiting =>
        obtain ⟨-, hrefuses⟩ := h.checks (List.mem_of_getElem? hwaiting)
        exact (h.settleCheck check).ticket_checked deviceId hrefuses (hfinds waiting hwaiting)
  | unavailable check => exact .keep _

theorem run_tickets {inputs : List Input} (h : state.Sound) (hfresh : Throughout step Fresh state inputs)
    (hfinds : Throughout step FindsGrant state inputs) (credential : String) :
    (inputs.foldl step state).Sound ∧
      Relation.ReflTransGen (Ticket.Step downstreamGrantUses) (state.ticket credential)
        ((inputs.foldl step state).ticket credential) := by
  induction inputs generalizing state with
  | nil => exact ⟨h, .refl⟩
  | cons input inputs ih =>
    obtain ⟨hsound, hrun⟩ := ih (h.step hfresh.1) hfresh.2 hfinds.2
    exact ⟨hsound, hrun.head (h.ticket_step hfresh.1 hfinds.1 credential)⟩

/-- In every run whose device checks find the grants as they were read, a credential is used as it was granted, and no
more often. -/
theorem credential_uses_bounded (before after : List Input) (hfresh : Throughout step Fresh make (before ++ after))
    (hfinds : Throughout step FindsGrant make (before ++ after)) :
    (∀ credential, (run before).uses credential ≤ downstreamGrantUses) ∧
      ((run before).issues.map (·.credential)).Nodup ∧
      (∀ authentication ∈ (run before).authentications, ∃ issue ∈ (run before).issues, issue.Grants authentication) ∧
      ∀ credential, (run before).Issued credential → (run before).grants.get credential = none →
        (run (before ++ after)).grants.get credential = none ∧
          (run (before ++ after)).uses credential = (run before).uses credential := by
  rw [throughout_append_iff] at hfresh hfinds
  have hbefore := fun credential => run_tickets make_sound hfresh.1 hfinds.1 credential
  have hsound : (run before).Sound := (hbefore "").1
  refine ⟨fun credential => ?_, hsound.issues, fun _ hmem => hsound.authentications hmem, ?_⟩
  · have hbounded : (make.ticket credential).Bounded downstreamGrantUses := rfl
    exact (Ticket.Run.bounded (hbefore credential).2 hbounded).uses_le
  · intro credential hissued hnone
    have hgone := ticket_of_issued hnone hissued
    have hrun := (run_tickets hsound hfresh.2 hfinds.2 credential).2
    have hlater := Ticket.Run.gone hrun (by rw [hgone])
    rw [hgone] at hlater
    have happend : run (before ++ after) = after.foldl step (run before) := List.foldl_append ..
    rw [← happend] at hlater
    cases hget : (run (before ++ after)).grants.get credential with
    | none =>
      refine ⟨rfl, ?_⟩
      exact congrArg Ticket.uses hlater
    | some grant =>
      rw [ticket_of_get hget] at hlater
      cases hlater

def samplePrincipal : Principal := ⟨"principal", "owner", .controller⟩

def sampleContext : DownstreamContext := ⟨"owner", "thread", some "url", some "GET"⟩

def sampleInputs (checks : Nat) : List Input :=
  [.rememberActor samplePrincipal ⟨"user", some "client"⟩ "device",
    .downstreamCredential ⟨samplePrincipal, "owner", "thread", "url", "GET"⟩ 0 "uuid"] ++
    List.replicate checks (.authenticateDownstream "rika-ds-uuid" sampleContext 1) ++
    List.replicate checks (.checked 0 (some "device"))

theorem credential_uses_bounded_sample :
    (∀ credential, (run (sampleInputs 1)).uses credential ≤ downstreamGrantUses) ∧
      ((run (sampleInputs 1)).issues.map (·.credential)).Nodup ∧
      (∀ authentication ∈ (run (sampleInputs 1)).authentications,
        ∃ issue ∈ (run (sampleInputs 1)).issues, issue.Grants authentication) ∧
      ∀ credential, (run (sampleInputs 1)).Issued credential → (run (sampleInputs 1)).grants.get credential = none →
        (run (sampleInputs 1 ++ [])).grants.get credential = none ∧
          (run (sampleInputs 1 ++ [])).uses credential = (run (sampleInputs 1)).uses credential :=
  credential_uses_bounded (sampleInputs 1) [] (by decide +kernel) (by decide +kernel)

/-- Authentications under way at once all use up the same use, and one of them
brings back a grant that a refused device has taken out. -/
theorem concurrent_uses_unbounded : (run (sampleInputs 5)).uses "rika-ds-uuid" = 5 ∧
      let removed := run (sampleInputs 0 ++
        [.authenticateDownstream "rika-ds-uuid" sampleContext 1, .authenticateDownstream "rika-ds-uuid" sampleContext 1,
          .checked 0 none])
      removed.grants.get "rika-ds-uuid" = none ∧
        ([.checked 0 (some "device"), .authenticateDownstream "rika-ds-uuid" sampleContext 2,
          .checked 0 (some "device")].foldl step removed).uses "rika-ds-uuid" = 2 := by
  decide +kernel

end State

end Rika.ProductAuthority
