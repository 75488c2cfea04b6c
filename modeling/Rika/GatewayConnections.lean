import Mathlib.Data.Set.Insert
import Rika.RunnerGateway
import Rika.WorkspaceComponent

namespace Rika.RunnerGateway

theorem mem_set_iff {α : Type*} {l : List α} {index : Nat} {old new a : α} (h : l[index]? = some old) (hold : a ≠ old)
    (hnew : a ≠ new) : a ∈ l.set index new ↔ a ∈ l := by
  obtain ⟨hindex, rfl⟩ := List.getElem?_eq_some_iff.mp h
  have hsplit : l.take index ++ l[index] :: l.drop (index + 1) = l := by
    rw [← List.drop_eq_getElem_cons hindex, List.take_append_drop]
  rw [List.set_eq_take_append_cons_drop, if_pos hindex]
  conv_rhs => rw [← hsplit]
  simp only [List.mem_append, List.mem_cons, hold, hnew, false_or]

/-! ### The registry -/

section
variable {current next : GatewayState}

variable {registration : Reservation}

theorem reservedBy_eq_true : reservedBy current registration = true ↔
    ∃ row ∈ current.reservations.rows, row.assignmentId = registration.assignmentId ∧ row.token = registration.token := by
  rw [reservedBy, decide_eq_true_eq, Table.map_find_eq_some]

theorem connectedBy_eq_true : connectedBy current registration = true ↔
    ∃ row ∈ current.connections.rows, row.assignmentId = registration.assignmentId ∧ row.token = registration.token := by
  rw [connectedBy, decide_eq_true_eq, Table.map_find_eq_some]

theorem mem_unregister_reservations {row : Reservation} :
    row ∈ (unregister current registration).2.reservations.rows ↔
      row ∈ current.reservations.rows ∧
        ¬ (row.assignmentId = registration.assignmentId ∧ row.token = registration.token) :=
  Table.mem_delete_held

theorem mem_unregister_connections {row : Registration} :
    row ∈ (unregister current registration).2.connections.rows ↔
      row ∈ current.connections.rows ∧
        ¬ (row.assignmentId = registration.assignmentId ∧ row.token = registration.token) :=
  Table.mem_delete_held

/-- A reservation is for an assignment that has nothing, while there is room. -/
structure Reserves (current next : GatewayState) (reservation : Reservation) : Prop where
  opened : current.closed = false
  unreserved : ∀ row ∈ current.reservations.rows, row.assignmentId ≠ reservation.assignmentId
  unconnected : ∀ row ∈ current.connections.rows, row.assignmentId ≠ reservation.assignmentId
  room : current.reservations.rows.length + current.connections.rows.length < maximumConnections
  next_eq : next = { current with reservations := current.reservations.set reservation }

theorem reserve_eq_ok {reservation : Reservation} (h : reserve current reservation = .ok next) :
    Reserves current next reservation := by
  rw [reserve] at h
  obtain ⟨hopened, h⟩ := Fold.ite_error_eq_ok.mp h
  obtain ⟨hfree, h⟩ := Fold.ite_error_eq_ok.mp h
  obtain ⟨hroom, h⟩ := Fold.ite_error_eq_ok.mp h
  rw [not_or, Option.not_isSome_iff_eq_none, Option.not_isSome_iff_eq_none, Table.find_eq_none,
    Table.find_eq_none] at hfree
  exact ⟨Bool.eq_false_iff.mpr hopened, hfree.1, hfree.2, Nat.lt_of_not_le hroom, (Except.ok.inj h).symm⟩

/-- A connection takes the place of its own reservation. -/
structure Installs (current next : GatewayState) (registration : Registration) : Prop where
  opened : current.closed = false
  reserved : ∃ row, current.reservations.find registration.assignmentId = some row ∧ row.token = registration.token
  unconnected : ∀ row ∈ current.connections.rows, row.assignmentId ≠ registration.assignmentId
  next_eq : next =
    { current with
      reservations := current.reservations.delete fun row => row.assignmentId = registration.assignmentId
      connections := current.connections.set registration }

theorem install_eq_some {registration : Registration} (h : install current registration = some next) :
    Installs current next registration := by
  rw [install] at h
  obtain ⟨hinstalls, h⟩ := Option.ite_none_left_eq_some.mp h
  rw [not_or, not_or, not_not, Option.map_eq_some_iff, Option.not_isSome_iff_eq_none, Table.find_eq_none] at hinstalls
  exact ⟨Bool.eq_false_iff.mpr hinstalls.1, hinstalls.2.1, hinstalls.2.2, (Option.some_inj.mp h).symm⟩

theorem install_eq_none {registration : Registration} (h : install current registration = none) :
    current.closed = true ∨
      (∀ row ∈ current.reservations.rows, row.assignmentId = registration.assignmentId →
        row.token ≠ registration.token) ∨
      ∃ row ∈ current.connections.rows, row.assignmentId = registration.assignmentId := by
  rw [install] at h
  split at h
  · next hrefused =>
      rcases hrefused with hclosed | htoken | hconnected
      · exact .inl hclosed
      · refine .inr (.inl ?_)
        rintro row hrow hkey hsame
        apply htoken
        rw [Table.find_eq_some.mpr ⟨hrow, hkey⟩, Option.map_some, hsame]
      · obtain ⟨row, hrow⟩ := Option.isSome_iff_exists.mp hconnected
        exact .inr (.inr ⟨row, Table.mem_of_find hrow, Table.key_of_find hrow⟩)
  · cases h

namespace Reserves

variable {reservation : Reservation}

section

variable (h : Reserves current next reservation)

include h

theorem mem_reservations {row : Reservation} :
    row ∈ next.reservations.rows ↔ row = reservation ∨ row ∈ current.reservations.rows := by
  rw [h.next_eq, Table.mem_set_new h.unreserved]

theorem connections : next.connections = current.connections := by
  rw [h.next_eq]

theorem closed : next.closed = false := by
  rw [h.next_eq]
  exact h.opened

theorem bounded :
    next.reservations.rows.length + next.connections.rows.length ≤ maximumConnections := by
  have hlength := Table.length_set_le current.reservations reservation
  have hroom := h.room
  rw [h.next_eq]
  dsimp only
  omega

end

end Reserves

namespace Installs

variable {registration : Registration}

variable {row : Reservation}

section

variable (h : Installs current next registration)

include h

theorem mem_reservations : row ∈ next.reservations.rows ↔
      row ∈ current.reservations.rows ∧ row.assignmentId ≠ registration.assignmentId := by
  rw [h.next_eq, Table.mem_delete, decide_eq_false_iff_not]

theorem mem_connections {row : Registration} :
    row ∈ next.connections.rows ↔ row = registration ∨ row ∈ current.connections.rows := by
  rw [h.next_eq, Table.mem_set_new h.unconnected]

theorem closed : next.closed = false := by
  rw [h.next_eq]
  exact h.opened

theorem bounded (hbounded : current.reservations.rows.length + current.connections.rows.length ≤ maximumConnections) :
    next.reservations.rows.length + next.connections.rows.length ≤ maximumConnections := by
  obtain ⟨row, hrow, -⟩ := h.reserved
  have hreservations := Table.length_delete_key hrow
  have hconnections := Table.length_set_le current.connections registration
  rw [h.next_eq]
  dsimp only
  omega

theorem token_eq (hrow : row ∈ current.reservations.rows)
    (hkey : row.assignmentId = registration.assignmentId) : row.token = registration.token := by
  obtain ⟨own, hown, htoken⟩ := h.reserved
  rw [current.reservations.eq_of_key_eq hrow (Table.mem_of_find hown) (hkey.trans (Table.key_of_find hown).symm), htoken]

end

end Installs

end

/-! ### What the gateway has for a call -/

def Stage.pending : Stage → Option WorkspaceBinding
  | .acquiring binding | .unregistering binding _ | .installing binding => some binding
  | .authorizing | .refused _ | .reserving _ | .finalizing _ | .connected _ | .closing _ | .failed _ => none

def Stage.installed : Stage → Option WorkspaceBinding
  | .finalizing binding | .connected binding => some binding
  | .authorizing | .refused _ | .reserving _ | .acquiring _ | .unregistering _ _ | .installing _ | .closing _
  | .failed _ => none

def Stage.reached : Stage → Bool
  | .authorizing | .refused _ | .reserving _ => false
  | .acquiring _ | .unregistering _ _ | .installing _ | .finalizing _ | .connected _ | .closing _ | .failed _ => true

@[ext] structure View where
  stage : Option Stage
  enrollment : Option Enrollment
  reservations : Set Reservation
  connections : Set Registration
  releases : Set Reservation
  owing : Prop
  closed : Prop

def Gateway.view (gateway : Gateway) (token : Nat) : View where
  stage := gateway.stage token
  enrollment := gateway.enrollment token
  reservations := {row | row ∈ gateway.state.reservations.rows ∧ row.token = token}
  connections := {row | row ∈ gateway.state.connections.rows ∧ row.token = token}
  releases := {row | .unregistering row ∈ gateway.releases ∧ row.token = token}
  owing := .closing token ∈ gateway.releases ∨ ∃ scopes ∈ gateway.finalizers, token ∈ scopes
  closed := token ∈ gateway.closings

namespace View

def registered (view : View) : Prop := view.reservations.Nonempty ∨ view.connections.Nonempty

def owed (view : View) : Prop := (∃ error, view.stage = some (.closing error)) ∨ view.owing

structure Sound (token : Nat) (view : View) : Prop where
  reserved : ∀ row ∈ view.reservations, ∃ stage, view.stage = some stage ∧ stage.pending = some row.binding
  connected : ∀ row ∈ view.connections, row.executor = ⟨token, row.binding⟩ ∧
    ∃ stage, view.stage = some stage ∧ stage.installed = some row.binding
  reached : view.owed ∨ view.closed → ∃ stage, view.stage = some stage ∧ stage.reached = true
  accounted : ∀ stage, view.stage = some stage → stage.reached = true → view.registered ∨ view.owed ∨ view.closed
  unregistered : view.owed ∨ view.closed → ¬ view.registered
  releasing : ∀ row ∈ view.releases, view.stage = some (.connected row.binding)
  enrolled : ∀ binding, view.enrollment = some (.ready binding) → view.stage = some (.connected binding)

end View

structure Sound (gateway : Gateway) : Prop where
  views : ∀ token, (gateway.view token).Sound token
  apart : ∀ row ∈ gateway.state.reservations.rows, ∀ row' ∈ gateway.state.connections.rows,
    row.assignmentId ≠ row'.assignmentId
  bounded : gateway.state.reservations.rows.length + gateway.state.connections.rows.length ≤ maximumConnections
  closed : gateway.state.closed = true →
    gateway.state.reservations.rows = [] ∧ gateway.state.connections.rows = []
  once : gateway.closings.Nodup

/-! ### How a view moves -/

namespace View

variable {view : View} {token : Nat} {old new : Stage}

theorem owed_iff (hstage : view.stage = some old) (hold : ∀ error, old ≠ .closing error) : view.owed ↔ view.owing := by
  constructor
  · rintro (⟨error, hclosing⟩ | howing)
    · exact absurd (Option.some_inj.mp (hstage.symm.trans hclosing)) (hold error)
    · exact howing
  · exact .inr

namespace Sound

section

variable (h : view.Sound token) (hstage : view.stage = some old)

include h hstage

theorem pending {row : Reservation} (hrow : row ∈ view.reservations) :
    old.pending = some row.binding := by
  obtain ⟨stage, hsome, hpending⟩ := h.reserved row hrow
  rwa [Option.some_inj.mp (hstage.symm.trans hsome)]

theorem installed {row : Registration} (hrow : row ∈ view.connections) :
    old.installed = some row.binding := by
  obtain ⟨-, stage, hsome, hinstalled⟩ := h.connected row hrow
  rwa [Option.some_inj.mp (hstage.symm.trans hsome)]

theorem reached_of (hover : view.owed ∨ view.closed) : old.reached = true := by
  obtain ⟨stage, hsome, hreached⟩ := h.reached hover
  rwa [Option.some_inj.mp (hstage.symm.trans hsome)]

theorem not_connected (hold : ∀ binding, old ≠ .connected binding) :
    (∀ row, row ∉ view.releases) ∧ ∀ binding, view.enrollment ≠ some (.ready binding) := by
  constructor
  · intro row hrow
    exact hold row.binding (Option.some_inj.mp (hstage.symm.trans (h.releasing row hrow)))
  · intro binding hready
    exact hold binding (Option.some_inj.mp (hstage.symm.trans (h.enrolled binding hready)))

theorem no_reservations (hold : old.pending = none) : view.reservations = ∅ := by
  rw [Set.eq_empty_iff_forall_notMem]
  intro row hrow
  cases hold.symm.trans (h.pending hstage hrow)

theorem no_connections (hold : old.installed = none) : view.connections = ∅ := by
  rw [Set.eq_empty_iff_forall_notMem]
  intro row hrow
  cases hold.symm.trans (h.installed hstage hrow)

theorem move (hpending : new.pending = old.pending)
    (hinstalled : new.installed = old.installed) (hreached : new.reached = old.reached)
    (hconnected : ∀ binding, old ≠ .connected binding) (hold : ∀ error, old ≠ .closing error)
    (hnew : ∀ error, new ≠ .closing error) : View.Sound token { view with stage := some new } := by
  have howed : View.owed { view with stage := some new } ↔ view.owed := by
    rw [owed_iff hstage hold]
    exact owed_iff rfl hnew
  obtain ⟨hreleases, hready⟩ := h.not_connected hstage hconnected
  refine ⟨?_, ?_, ?_, ?_, ?_, ?_, ?_⟩
  · intro row hrow
    exact ⟨new, rfl, hpending.trans (h.pending hstage hrow)⟩
  · intro row hrow
    exact ⟨(h.connected row hrow).1, new, rfl, hinstalled.trans (h.installed hstage hrow)⟩
  · rw [howed]
    intro hover
    exact ⟨new, rfl, hreached.trans (h.reached_of hstage hover)⟩
  · rw [howed]
    intro stage hsome hof
    obtain rfl := Option.some_inj.mp hsome
    exact h.accounted old hstage (hreached.symm.trans hof)
  · rw [howed]
    exact h.unregistered
  · intro row hrow
    exact absurd hrow (hreleases row)
  · intro binding hof
    exact absurd hof (hready binding)

theorem giveUp (hconnected : ∀ binding, old ≠ .connected binding) (error : GatewayError) :
    View.Sound token { view with stage := some (.closing error), reservations := ∅, connections := ∅ } := by
  obtain ⟨hreleases, hready⟩ := h.not_connected hstage hconnected
  refine ⟨?_, ?_, ?_, ?_, ?_, ?_, ?_⟩
  · exact fun row hrow => absurd hrow (Set.notMem_empty row)
  · exact fun row hrow => absurd hrow (Set.notMem_empty row)
  · exact fun _ => ⟨_, rfl, rfl⟩
  · exact fun _ _ _ => .inr (.inl (.inl ⟨error, rfl⟩))
  · rintro - (hsome | hsome)
    · exact absurd hsome Set.not_nonempty_empty
    · exact absurd hsome Set.not_nonempty_empty
  · intro row hrow
    exact absurd hrow (hreleases row)
  · intro binding hof
    exact absurd hof (hready binding)

end

variable {releases : Set Reservation} {owing : Prop} {binding : WorkspaceBinding}

theorem close (h : view.Sound token) (howed : view.owed) (hstage : view.stage = some old)
    (hnew : new = old ∨ new.reached = true ∧ ∀ binding, old ≠ .connected binding)
    {enrollment : Option Enrollment}
    (henrollment : ∀ binding, enrollment = some (.ready binding) → view.enrollment = some (.ready binding))
    (hreleases : ∀ row ∈ releases, row ∈ view.releases) :
    View.Sound token { view with stage := some new, enrollment, releases, owing, closed := True } := by
  have hunregistered := h.unregistered (.inl howed)
  refine ⟨?_, ?_, ?_, ?_, ?_, ?_, ?_⟩
  · exact fun row hrow => absurd (.inl ⟨row, hrow⟩) hunregistered
  · exact fun row hrow => absurd (.inr ⟨row, hrow⟩) hunregistered
  · intro _
    rcases hnew with rfl | ⟨hreached, -⟩
    · exact ⟨_, rfl, h.reached_of hstage (.inl howed)⟩
    · exact ⟨_, rfl, hreached⟩
  · exact fun _ _ _ => .inr (.inr trivial)
  · exact fun _ => hunregistered
  · intro row hrow
    have hconnected := h.releasing row (hreleases row hrow)
    rcases hnew with rfl | ⟨-, hother⟩
    · exact hstage.symm.trans hconnected
    · exact absurd (Option.some_inj.mp (hstage.symm.trans hconnected)) (hother row.binding)
  · intro binding hready
    have hconnected := h.enrolled binding (henrollment binding hready)
    rcases hnew with rfl | ⟨-, hother⟩
    · exact hstage.symm.trans hconnected
    · exact absurd (Option.some_inj.mp (hstage.symm.trans hconnected)) (hother binding)

theorem reserve (h : view.Sound token) (hstage : view.stage = some (.reserving binding)) :
    View.Sound token { view with stage := some (.acquiring binding), reservations := {⟨token, binding⟩} } := by
  obtain ⟨hreleases, hready⟩ := h.not_connected hstage nofun
  have hconnections := h.no_connections hstage rfl
  have hopen : ¬ (view.owed ∨ view.closed) := by
    intro hover
    cases h.reached_of hstage hover
  have hnot : ¬ (View.owed { view with stage := some (.acquiring binding), reservations := {⟨token, binding⟩} } ∨
      view.closed) := by
    rintro ((⟨error, hclosing⟩ | howing) | hclosed)
    · cases hclosing
    · exact hopen (.inl (.inr howing))
    · exact hopen (.inr hclosed)
  refine ⟨?_, ?_, ?_, ?_, ?_, ?_, ?_⟩
  · intro row hrow
    obtain rfl := Set.mem_singleton_iff.mp hrow
    exact ⟨_, rfl, rfl⟩
  · intro row hrow
    exact absurd hrow (hconnections ▸ Set.notMem_empty row)
  · exact fun hover => absurd hover hnot
  · exact fun _ _ _ => .inl (.inl ⟨_, rfl⟩)
  · exact fun hover => absurd hover hnot
  · intro row hrow
    exact absurd hrow (hreleases row)
  · intro binding hof
    exact absurd hof (hready binding)

theorem install (h : view.Sound token) (hstage : view.stage = some (.installing binding)) (hreserved : view.registered) :
    View.Sound token
      { view with
        stage := some (.finalizing binding)
        reservations := ∅
        connections := {⟨⟨token, binding⟩, ⟨token, binding⟩⟩} } := by
  obtain ⟨hreleases, hready⟩ := h.not_connected hstage nofun
  have hopen : ¬ (view.owed ∨ view.closed) := fun hover => h.unregistered hover hreserved
  refine ⟨?_, ?_, ?_, ?_, ?_, ?_, ?_⟩
  · exact fun row hrow => absurd hrow (Set.notMem_empty row)
  · intro row hrow
    obtain rfl := Set.mem_singleton_iff.mp hrow
    exact ⟨rfl, _, rfl, rfl⟩
  · exact fun _ => ⟨_, rfl, rfl⟩
  · exact fun _ _ _ => .inl (.inr ⟨_, rfl⟩)
  · rintro ((⟨error, hclosing⟩ | howing) | hclosed)
    · cases hclosing
    · exact absurd (.inl (.inr howing)) hopen
    · exact absurd (.inr hclosed) hopen
  · intro row hrow
    exact absurd hrow (hreleases row)
  · intro binding hof
    exact absurd hof (hready binding)

theorem drop (h : view.Sound token)
    (hreleases : ∀ row ∈ releases, row ∈ view.releases) (howing : owing ↔ view.owing ∨ view.registered) :
    View.Sound token { view with reservations := ∅, connections := ∅, releases, owing } := by
  have hover : View.owed { view with reservations := ∅, connections := ∅, releases, owing } ∨ view.closed ↔
      (view.owed ∨ view.closed) ∨ view.registered := by
    rw [View.owed, View.owed, howing]
    tauto
  refine ⟨?_, ?_, ?_, ?_, ?_, ?_, ?_⟩
  · exact fun row hrow => absurd hrow (Set.notMem_empty row)
  · exact fun row hrow => absurd hrow (Set.notMem_empty row)
  · intro howed
    rcases hover.mp howed with hbefore | ⟨row, hrow⟩ | ⟨row, hrow⟩
    · exact h.reached hbefore
    · obtain ⟨stage, hstage, hpending⟩ := h.reserved row hrow
      refine ⟨stage, hstage, ?_⟩
      cases stage with
      | acquiring | unregistering | installing => rfl
      | authorizing | refused | reserving | finalizing | connected | closing | failed => cases hpending
    · obtain ⟨-, stage, hstage, hinstalled⟩ := h.connected row hrow
      refine ⟨stage, hstage, ?_⟩
      cases stage with
      | finalizing | connected => rfl
      | authorizing | refused | reserving | acquiring | unregistering | installing | closing | failed => cases hinstalled
  · intro stage hstage hreached
    refine .inr (hover.mpr ?_)
    rcases h.accounted stage hstage hreached with hregistered | hbefore
    · exact .inr hregistered
    · exact .inl hbefore
  · rintro - (hsome | hsome)
    · exact absurd hsome Set.not_nonempty_empty
    · exact absurd hsome Set.not_nonempty_empty
  · exact fun row hrow => h.releasing row (hreleases row hrow)
  · exact h.enrolled

end Sound

end View

/-! ### Steps -/

namespace Gateway

variable {gateway : Gateway} {token token' : Nat} {old : Stage}

theorem view_atStage (h : gateway.stage token = some old) (stage : Stage) :
    (gateway.atStage token stage).view token = { gateway.view token with stage := some stage } := by
  obtain ⟨call, hcall, -⟩ := Option.map_eq_some_iff.mp h
  simp [view, atStage, Gateway.stage, enrollment, hcall]

theorem view_atStage_of_ne (h : token' ≠ token) (stage : Stage) :
    (gateway.atStage token stage).view token' = gateway.view token' := by
  simp [view, atStage, Gateway.stage, enrollment, h.symm]

theorem view_enrolled (h : gateway.stage token = some old) (enrollment : Enrollment) :
    (gateway.enrolled token enrollment).view token = { gateway.view token with enrollment := some enrollment } := by
  obtain ⟨call, hcall, -⟩ := Option.map_eq_some_iff.mp h
  simp [view, enrolled, Gateway.stage, Gateway.enrollment, hcall]

theorem view_enrolled_of_ne (h : token' ≠ token) (enrollment : Enrollment) :
    (gateway.enrolled token enrollment).view token' = gateway.view token' := by
  simp [view, enrolled, Gateway.stage, Gateway.enrollment, h.symm]

theorem view_closings (gateway : Gateway) (closings : List Nat) (token : Nat) :
    { gateway with closings }.view token = { gateway.view token with closed := token ∈ closings } := rfl

theorem view_closeScope (h : gateway.stage token = some old) :
    ∃ enrollment, (∀ binding, enrollment = some (.ready binding) → gateway.enrollment token = some (.ready binding)) ∧
      (gateway.closeScope token).view token = { gateway.view token with enrollment, closed := True } := by
  rw [closeScope]
  split
  · next hclosed =>
      refine ⟨gateway.enrollment token, fun _ hready => hready, ?_⟩
      ext <;> simp [view, hclosed]
  · refine ⟨some .closed, fun _ hready => (by cases hready), ?_⟩
    rw [view_closings, view_enrolled h]
    simp

theorem view_closeScope_of_ne (h : token' ≠ token) : (gateway.closeScope token).view token' = gateway.view token' := by
  rw [closeScope]
  split
  · rfl
  · rw [view_closings, view_enrolled_of_ne h]
    simp [view, h]

theorem closings_closeScope : (gateway.closeScope token).closings.Nodup ↔ gateway.closings.Nodup := by
  rw [closeScope]
  split
  · rfl
  · next hopen =>
      rw [List.nodup_append]
      constructor
      · exact fun h => h.1
      · refine fun h => ⟨h, List.nodup_singleton _, ?_⟩
        rintro closed hclosed _ hnew rfl
        obtain rfl := List.mem_singleton.mp hnew
        exact hopen hclosed

theorem state_closeScope : (gateway.closeScope token).state = gateway.state := by
  rw [closeScope]
  split
  · rfl
  · rfl

theorem view_state (gateway : Gateway) (state : GatewayState) (token : Nat) : { gateway with state }.view token =
    { gateway.view token with
      reservations := {row | row ∈ state.reservations.rows ∧ row.token = token}
      connections := {row | row ∈ state.connections.rows ∧ row.token = token} } := rfl

theorem view_state_eq {state : GatewayState}
    (hreservations : ∀ row : Reservation, row.token = token →
      (row ∈ state.reservations.rows ↔ row ∈ gateway.state.reservations.rows))
    (hconnections : ∀ row : Registration, row.token = token →
      (row ∈ state.connections.rows ↔ row ∈ gateway.state.connections.rows)) :
    { gateway with state }.view token = gateway.view token := by
  rw [view_state]
  ext1
  · rfl
  · rfl
  · ext row
    exact and_congr_left (hreservations row)
  · ext row
    exact and_congr_left (hconnections row)
  · rfl
  · rfl
  · rfl

/-- The fibers have to do with a token by what they release of it, and by whether they are to close it. -/
theorem view_fibers_eq {releases : List Release} {finalizers : List (List Nat)}
    (hreleases : ∀ row : Reservation, row.token = token → (.unregistering row ∈ releases ↔ .unregistering row ∈ gateway.releases))
    (howing : (.closing token ∈ releases ∨ ∃ scopes ∈ finalizers, token ∈ scopes) ↔ (gateway.view token).owing) :
    Gateway.view { gateway with releases, finalizers } token = gateway.view token := by
  ext1
  · rfl
  · rfl
  · rfl
  · rfl
  · ext row
    exact and_congr_left (hreleases row)
  · exact propext howing
  · rfl

end Gateway

section
variable {gateway gateway' : Gateway} {token : Nat} {old : Stage} {binding : WorkspaceBinding} {error : GatewayError}

section

variable (h : Sound gateway)

include h

theorem Sound.of_view (hother : ∀ token', token' ≠ token → gateway'.view token' = gateway.view token')
    (hown : (gateway'.view token).Sound token) (token' : Nat) : (gateway'.view token').Sound token' := by
  by_cases htoken : token' = token
  · exact htoken ▸ hown
  · rw [hother token' htoken]
    exact h.views token'

theorem Sound.of_state (hstate : gateway'.state = gateway.state)
    (hclosings : gateway'.closings.Nodup) (hother : ∀ token', token' ≠ token → gateway'.view token' = gateway.view token')
    (hown : (gateway'.view token).Sound token) : Sound gateway' := by
  refine ⟨h.of_view hother hown, ?_, ?_, ?_, hclosings⟩
  · rw [hstate]
    exact h.apart
  · rw [hstate]
    exact h.bounded
  · rw [hstate]
    exact h.closed

theorem atStage_sound (hstage : gateway.stage token = some old) {new : Stage}
    (hown : View.Sound token { gateway.view token with stage := some new }) : Sound (gateway.atStage token new) := by
  refine h.of_state ?_ h.once (fun token' hne => Gateway.view_atStage_of_ne hne new) ?_
  · rfl
  · rw [Gateway.view_atStage hstage]
    exact hown

theorem enrolled_sound (hstage : gateway.stage token = some old) {enrollment : Enrollment}
    (hready : ∀ binding, enrollment = .ready binding → old = .connected binding) : Sound (gateway.enrolled token enrollment) := by
  refine h.of_state ?_ h.once (fun token' hne => Gateway.view_enrolled_of_ne hne enrollment) ?_
  · rfl
  · rw [Gateway.view_enrolled hstage]
    obtain ⟨hreserved, hconnected, hreached, haccounted, hunregistered, hreleasing, -⟩ := h.views token
    refine ⟨hreserved, hconnected, hreached, haccounted, hunregistered, hreleasing, ?_⟩
    intro binding hof
    rw [← hready binding (Option.some_inj.mp hof)]
    exact hstage

theorem reserving_sound (hstage : gateway.stage token = some (.reserving binding)) :
    Sound (gateway.proceed token (.reserving binding)) := by
  have hview := h.views token
  rw [Gateway.proceed]
  cases hreserve : reserve gateway.state ⟨token, binding⟩ with
  | error error =>
    apply atStage_sound h hstage
    have hreservations := hview.no_reservations hstage rfl
    have hconnections := hview.no_connections hstage rfl
    have hgiven := hview.giveUp hstage nofun error
    rwa [← hreservations, ← hconnections] at hgiven
  | ok next =>
    have hreserves := reserve_eq_ok hreserve
    refine ⟨@Sound.of_view gateway _ token h ?_ ?_, ?_, hreserves.bounded, ?_, h.once⟩
    · intro token' hne
      rw [Gateway.view_state_eq, Gateway.view_atStage_of_ne hne]
      · intro row hrow
        rw [hreserves.mem_reservations, or_iff_right]
        · rfl
        · rintro rfl
          exact hne hrow.symm
      · intro row _
        rw [hreserves.connections]
        rfl
    · have hmine : {row : Reservation | row ∈ next.reservations.rows ∧ row.token = token} = {⟨token, binding⟩} := by
        have hnone := hview.no_reservations hstage rfl
        ext row
        rw [Set.mem_singleton_iff]
        constructor
        · rintro ⟨hrow, htoken⟩
          rcases hreserves.mem_reservations.mp hrow with hnew | hbefore
          · exact hnew
          · exact absurd ⟨hbefore, htoken⟩ (Set.eq_empty_iff_forall_notMem.mp hnone row)
        · rintro rfl
          exact ⟨hreserves.mem_reservations.mpr (.inl rfl), rfl⟩
      have hreserved := hview.reserve hstage
      rw [Gateway.view_state, Gateway.view_atStage hstage, hmine, hreserves.connections]
      exact hreserved
    · intro row hrow row' hrow'
      dsimp only at hrow hrow'
      rw [hreserves.mem_reservations] at hrow
      rw [hreserves.connections] at hrow'
      rcases hrow with rfl | hrow
      · exact Ne.symm (hreserves.unconnected row' hrow')
      · exact h.apart row hrow row' hrow'
    · intro hclosed
      exact absurd hclosed (by rw [hreserves.closed]; exact Bool.false_ne_true)

end

theorem View.Sound.binding_eq {view : View} (h : view.Sound token) (hstage : view.stage = some old)
    (hof : old.pending = some binding ∨ old.installed = some binding) :
    (∀ row ∈ view.reservations, row.binding = binding) ∧ ∀ row ∈ view.connections, row.binding = binding := by
  constructor
  · intro row hrow
    have hpending := h.pending hstage hrow
    rcases hof with hof | hof
    · exact Option.some_inj.mp (hpending.symm.trans hof)
    · cases old with
      | finalizing | connected => cases hpending
      | authorizing | refused | reserving | acquiring | unregistering | installing | closing | failed => cases hof
  · intro row hrow
    have hinstalled := h.installed hstage hrow
    rcases hof with hof | hof
    · cases old with
      | finalizing | connected => cases hof
      | authorizing | refused | reserving | acquiring | unregistering | installing | closing | failed => cases hinstalled
    · exact Option.some_inj.mp (hinstalled.symm.trans hof)

theorem view_unregister (h : Sound gateway) (hstage : gateway.stage token = some old)
    (hof : old.pending = some binding ∨ old.installed = some binding) (token' : Nat) :
    { gateway with state := (unregister gateway.state ⟨token, binding⟩).2 }.view token' =
      if token' = token then { gateway.view token with reservations := ∅, connections := ∅ } else gateway.view token' := by
  obtain ⟨hreservations, hconnections⟩ := (h.views token).binding_eq hstage hof
  split
  · next htoken =>
      rw [htoken, Gateway.view_state]
      ext1
      · rfl
      · rfl
      · apply Set.eq_empty_iff_forall_notMem.mpr
        rintro row ⟨hrow, hmine⟩
        obtain ⟨hmem, hkept⟩ := mem_unregister_reservations.mp hrow
        exact hkept ⟨congrArg WorkspaceBinding.assignmentId (hreservations row ⟨hmem, hmine⟩), hmine⟩
      · apply Set.eq_empty_iff_forall_notMem.mpr
        rintro row ⟨hrow, hmine⟩
        obtain ⟨hmem, hkept⟩ := mem_unregister_connections.mp hrow
        exact hkept ⟨congrArg WorkspaceBinding.assignmentId (hconnections row ⟨hmem, hmine⟩), hmine⟩
      · rfl
      · rfl
      · rfl
  · next hne =>
      apply Gateway.view_state_eq
      · intro row hrow
        rw [mem_unregister_reservations, and_iff_left]
        exact fun hsame => hne (hrow.symm.trans hsame.2)
      · intro row hrow
        rw [mem_unregister_connections, and_iff_left]
        exact fun hsame => hne (hrow.symm.trans hsame.2)

variable {releases : List Release} {finalizers : List (List Nat)} {index : Nat}

section

variable (h : Sound gateway)

include h

theorem unregister_sound (registration : Reservation) {connects : List Connect}
    (hviews : ∀ token, (Gateway.view ⟨(unregister gateway.state registration).2, connects, releases, finalizers,
      gateway.closings⟩ token).Sound token) :
    Sound ⟨(unregister gateway.state registration).2, connects, releases, finalizers, gateway.closings⟩ := by
  refine ⟨hviews, ?_, ?_, ?_, h.once⟩
  · intro row hrow row' hrow'
    exact h.apart row (mem_unregister_reservations.mp hrow).1 row' (mem_unregister_connections.mp hrow').1
  · have hreservations := List.length_filter_le
      (fun row : Reservation => !(reservedBy gateway.state registration && row.assignmentId = registration.assignmentId))
      gateway.state.reservations.rows
    have hconnections := List.length_filter_le
      (fun row : Registration => !(connectedBy gateway.state registration && row.assignmentId = registration.assignmentId))
      gateway.state.connections.rows
    exact (Nat.add_le_add hreservations hconnections).trans h.bounded
  · intro hclosed
    obtain ⟨hreservations, hconnections⟩ := h.closed hclosed
    constructor
    · apply List.eq_nil_iff_forall_not_mem.mpr
      intro row hrow
      have hbefore := (mem_unregister_reservations.mp hrow).1
      rw [hreservations] at hbefore
      cases hbefore
    · apply List.eq_nil_iff_forall_not_mem.mpr
      intro row hrow
      have hbefore := (mem_unregister_connections.mp hrow).1
      rw [hconnections] at hbefore
      cases hbefore

theorem unregistering_sound (hstage : gateway.stage token = some (.unregistering binding error)) :
    Sound (gateway.proceed token (.unregistering binding error)) := by
  have hview := h.views token
  have hgiven := hview.giveUp hstage nofun error
  have hviews := view_unregister h hstage (.inl rfl)
  have hstage' : Gateway.stage { gateway with state := (unregister gateway.state ⟨token, binding⟩).2 } token =
      some (.unregistering binding error) := hstage
  apply unregister_sound h
  apply @Sound.of_view gateway _ token h
  · intro token' hne
    exact (Gateway.view_atStage_of_ne hne (.closing error)).trans ((hviews token').trans (if_neg hne))
  · have hown := (Gateway.view_atStage hstage' (.closing error))
    rw [hviews token, if_pos rfl] at hown
    exact hown ▸ hgiven

theorem installing_sound (hstage : gateway.stage token = some (.installing binding)) :
    Sound (gateway.proceed token (.installing binding)) := by
  have hview := h.views token
  have hbinding := (hview.binding_eq hstage (.inl rfl)).1
  rw [Gateway.proceed]
  cases hinstall : install gateway.state ⟨⟨token, binding⟩, ⟨token, binding⟩⟩ with
  | none =>
    apply atStage_sound h hstage
    have hnone : (gateway.view token).reservations = ∅ := by
      apply Set.eq_empty_iff_forall_notMem.mpr
      rintro row ⟨hrow, htoken⟩
      have hkey : row.assignmentId = binding.assignmentId :=
        congrArg WorkspaceBinding.assignmentId (hbinding row ⟨hrow, htoken⟩)
      rcases install_eq_none hinstall with hclosed | hother | ⟨row', hrow', hkey'⟩
      · rw [(h.closed hclosed).1] at hrow
        cases hrow
      · exact hother row hrow hkey htoken
      · exact h.apart row hrow row' hrow' (hkey.trans hkey'.symm)
    have hconnections := hview.no_connections hstage rfl
    have hgiven := hview.giveUp hstage nofun unavailableRegistration
    rwa [← hnone, ← hconnections] at hgiven
  | some next =>
    have hinstalls := install_eq_some hinstall
    have hnone := hview.no_connections hstage rfl
    refine ⟨@Sound.of_view gateway _ token h ?_ ?_, ?_, hinstalls.bounded h.bounded, ?_, h.once⟩
    · intro token' hne
      dsimp only
      rw [Gateway.view_state_eq, Gateway.view_atStage_of_ne hne]
      · intro row hrow
        rw [hinstalls.mem_reservations]
        constructor
        · exact fun hkept => hkept.1
        · refine fun hmem => ⟨hmem, ?_⟩
          intro hkey
          exact hne (hrow.symm.trans (hinstalls.token_eq hmem hkey))
      · intro row hrow
        rw [hinstalls.mem_connections, or_iff_right]
        · rfl
        · rintro rfl
          exact hne hrow.symm
    · have hregistered : (gateway.view token).registered := by
        obtain ⟨row, hrow, htoken⟩ := hinstalls.reserved
        exact .inl ⟨row, Table.mem_of_find hrow, htoken⟩
      have hinstalled := hview.install hstage hregistered
      have hreservations : {row : Reservation | row ∈ next.reservations.rows ∧ row.token = token} = ∅ := by
        apply Set.eq_empty_iff_forall_notMem.mpr
        rintro row ⟨hrow, htoken⟩
        obtain ⟨hmem, hkey⟩ := hinstalls.mem_reservations.mp hrow
        exact hkey (congrArg WorkspaceBinding.assignmentId (hbinding row ⟨hmem, htoken⟩))
      have hconnections : {row : Registration | row ∈ next.connections.rows ∧ row.token = token} =
          {⟨⟨token, binding⟩, ⟨token, binding⟩⟩} := by
        ext row
        rw [Set.mem_singleton_iff]
        constructor
        · rintro ⟨hrow, htoken⟩
          rcases hinstalls.mem_connections.mp hrow with hnew | hbefore
          · exact hnew
          · exact absurd ⟨hbefore, htoken⟩ (Set.eq_empty_iff_forall_notMem.mp hnone row)
        · rintro rfl
          exact ⟨hinstalls.mem_connections.mpr (.inl rfl), rfl⟩
      rw [Gateway.view_state, Gateway.view_atStage hstage, hreservations, hconnections]
      exact hinstalled
    · intro row hrow row' hrow'
      obtain ⟨hmem, hkey⟩ := hinstalls.mem_reservations.mp hrow
      rcases hinstalls.mem_connections.mp hrow' with rfl | hbefore
      · exact hkey
      · exact h.apart row hmem row' hbefore
    · intro hclosed
      exact absurd hclosed (by rw [hinstalls.closed]; exact Bool.false_ne_true)

theorem closing_sound (hstage : gateway.stage token = some (.closing error)) :
    Sound (gateway.proceed token (.closing error)) := by
  obtain ⟨enrollment, henrollment, hclose⟩ := Gateway.view_closeScope hstage
  have hstage' : (gateway.closeScope token).stage token = some (.closing error) := by
    have hof := congrArg View.stage hclose
    exact hof.trans hstage
  rw [Gateway.proceed]
  refine @Sound.of_state gateway _ token h ?_ ?_ ?_ ?_
  · exact Gateway.state_closeScope
  · exact Gateway.closings_closeScope.mpr h.once
  · intro token' hne
    rw [Gateway.view_atStage_of_ne hne, Gateway.view_closeScope_of_ne hne]
  · rw [Gateway.view_atStage hstage', hclose]
    exact (h.views token).close (.inl ⟨error, hstage⟩) hstage (.inr ⟨rfl, nofun⟩) henrollment
      (fun _ hrow => hrow)

theorem proceed_sound (hstage : gateway.stage token = some old) :
    Sound (gateway.proceed token old) := by
  cases old with
  | reserving binding => exact reserving_sound h hstage
  | unregistering binding error => exact unregistering_sound h hstage
  | installing binding => exact installing_sound h hstage
  | finalizing binding =>
    exact atStage_sound h hstage ((h.views token).move hstage rfl rfl rfl nofun
      nofun nofun)
  | closing error => exact closing_sound h hstage
  | authorizing | refused | acquiring | connected | failed => exact h

end

/-! ### Releases and the finalizer -/

section

variable (h : Sound gateway)

include h

theorem unregister_removed (hstage : gateway.stage token = some (.connected binding)) :
    (unregister gateway.state ⟨token, binding⟩).1 = true ↔ (gateway.view token).registered := by
  obtain ⟨hreservations, hconnections⟩ := (h.views token).binding_eq hstage (.inr rfl)
  rw [unregister, Bool.or_eq_true, reservedBy_eq_true, connectedBy_eq_true]
  apply or_congr
  · constructor
    · rintro ⟨row, hrow, -, htoken⟩
      exact ⟨row, hrow, htoken⟩
    · rintro ⟨row, hrow, htoken⟩
      exact ⟨row, hrow, congrArg WorkspaceBinding.assignmentId (hreservations row ⟨hrow, htoken⟩), htoken⟩
  · constructor
    · rintro ⟨row, hrow, -, htoken⟩
      exact ⟨row, hrow, htoken⟩
    · rintro ⟨row, hrow, htoken⟩
      exact ⟨row, hrow, congrArg WorkspaceBinding.assignmentId (hconnections row ⟨hrow, htoken⟩), htoken⟩

theorem release_unregisters {registration : Reservation}
    (hrelease : gateway.releases[index]? = some (.unregistering registration)) :
    Sound (gateway.proceedRelease index (.unregistering registration)) := by
  obtain ⟨token, binding⟩ := registration
  have hview := h.views token
  have hstage : gateway.stage token = some (.connected binding) :=
    hview.releasing ⟨token, binding⟩ ⟨List.mem_of_getElem? hrelease, rfl⟩
  have hviews := view_unregister h hstage (.inr rfl)
  have hremoved := unregister_removed h hstage
  rw [Gateway.proceedRelease]
  apply unregister_sound h
  apply @Sound.of_view gateway _ token h
  · intro token' hne
    refine Eq.trans (@Gateway.view_fibers_eq { gateway with state := (unregister gateway.state ⟨token, binding⟩).2 } token' _ _
      ?_ ?_) ((hviews token').trans (if_neg hne))
    · intro row htoken
      apply mem_set_iff hrelease
      · intro heq
        exact hne (htoken.symm.trans (congrArg Reservation.token (Release.unregistering.inj heq)))
      · split <;> exact fun heq => (by cases heq)
    · apply or_congr_left
      apply mem_set_iff hrelease
      · exact fun heq => (by cases heq)
      · split
        · exact fun heq => hne (Release.closing.inj heq)
        · exact fun heq => (by cases heq)
  · have hown := (hviews token).trans (if_pos rfl)
    rw [Gateway.view, View.mk.injEq] at hown
    obtain ⟨-, -, hreservations, hconnections, -, -, -⟩ := hown
    rw [Gateway.view, hreservations, hconnections]
    apply hview.drop
    · rintro row ⟨hrow, htoken⟩
      refine ⟨?_, htoken⟩
      rcases List.mem_or_eq_of_mem_set hrow with hmem | heq
      · exact hmem
      · split at heq
        · cases heq
        · cases heq
    · have hindex := (List.getElem?_eq_some_iff.mp hrelease).1
      split
      · next htook => exact iff_of_true (.inl (List.mem_set hindex _)) (.inr (hremoved.mp htook))
      · next hkept =>
          rw [or_iff_left (mt hremoved.mpr hkept)]
          apply or_congr_left
          apply mem_set_iff hrelease
          · intro heq
            cases heq
          · intro heq
            cases heq

theorem closeScope_sound (howed : (gateway.view token).owed)
    (hother : ∀ token', token' ≠ token → Gateway.view { gateway with releases, finalizers } token' = gateway.view token')
    (hreleases : ∀ row, .unregistering row ∈ releases → .unregistering row ∈ gateway.releases) :
    Sound { gateway.closeScope token with releases, finalizers } := by
  obtain ⟨stage, hstage, -⟩ := (h.views token).reached (.inl howed)
  obtain ⟨enrollment, henrollment, hclose⟩ := Gateway.view_closeScope hstage
  refine @Sound.of_state gateway _ token h ?_ ?_ ?_ ?_
  · exact Gateway.state_closeScope
  · exact Gateway.closings_closeScope.mpr h.once
  · intro token' hne
    have hfibers := hother token' hne
    have hscopes := @Gateway.view_closeScope_of_ne gateway _ _ hne
    rw [Gateway.view, Gateway.view, View.mk.injEq] at hfibers hscopes
    rw [Gateway.view, Gateway.view, View.mk.injEq]
    exact ⟨hscopes.1, hscopes.2.1, hscopes.2.2.1, hscopes.2.2.2.1, hfibers.2.2.2.2.1, hfibers.2.2.2.2.2.1,
      hscopes.2.2.2.2.2.2⟩
  · rw [Gateway.view, View.mk.injEq] at hclose
    obtain ⟨hsame, henrolled, hreservations, hconnections, -, -, hclosed⟩ := hclose
    have hown : Gateway.view { gateway.closeScope token with releases, finalizers } token =
        { gateway.view token with
          stage := some stage
          enrollment
          releases := {row | .unregistering row ∈ releases ∧ row.token = token}
          owing := .closing token ∈ releases ∨ ∃ scopes ∈ finalizers, token ∈ scopes
          closed := True } := by
      rw [Gateway.view, View.mk.injEq]
      exact ⟨hsame.trans hstage, henrolled, hreservations, hconnections, rfl, rfl, hclosed⟩
    rw [hown]
    exact (h.views token).close howed hstage (.inl rfl) henrollment fun row hrow => ⟨hreleases row hrow.1, hrow.2⟩

theorem proceedRelease_sound {release : Release}
    (hrelease : gateway.releases[index]? = some release) : Sound (gateway.proceedRelease index release) := by
  cases release with
  | unregistering registration => exact release_unregisters h hrelease
  | closing token =>
    have hfinalizers : (gateway.closeScope token).finalizers = gateway.finalizers := by
      rw [Gateway.closeScope]
      split
      · rfl
      · rfl
    have hsound : Sound { gateway.closeScope token with
        releases := gateway.releases.set index .ended, finalizers := gateway.finalizers } := by
      apply closeScope_sound h (.inr (.inl (List.mem_of_getElem? hrelease)))
      · intro token' hne
        apply Gateway.view_fibers_eq
        · exact fun row _ => mem_set_iff hrelease (fun heq => (by cases heq)) (fun heq => (by cases heq))
        · apply or_congr_left
          exact mem_set_iff hrelease (fun heq => hne (Release.closing.inj heq)) (fun heq => (by cases heq))
      · intro row hrow
        rcases List.mem_or_eq_of_mem_set hrow with hmem | heq
        · exact hmem
        · cases heq
    rw [← hfinalizers] at hsound
    exact hsound
  | ended => exact h

theorem proceedShutdown_sound {rest : List Nat}
    (hscopes : gateway.finalizers[index]? = some (token :: rest)) :
    Sound { gateway.closeScope token with finalizers := gateway.finalizers.set index rest } := by
  have hreleases : (gateway.closeScope token).releases = gateway.releases := by
    rw [Gateway.closeScope]
    split
    · rfl
    · rfl
  have howed : (gateway.view token).owed :=
    .inr (.inr ⟨token :: rest, List.mem_of_getElem? hscopes, List.mem_cons_self⟩)
  have hsound : Sound { gateway.closeScope token with
      releases := gateway.releases, finalizers := gateway.finalizers.set index rest } := by
    apply closeScope_sound h howed
    · intro token' hne
      apply Gateway.view_fibers_eq
      · exact fun _ _ => Iff.rfl
      · apply or_congr_right
        constructor
        · rintro ⟨scopes, hmem, htoken⟩
          rcases List.mem_or_eq_of_mem_set hmem with hbefore | rfl
          · exact ⟨scopes, hbefore, htoken⟩
          · exact ⟨token :: scopes, List.mem_of_getElem? hscopes, List.mem_cons_of_mem _ htoken⟩
        · rintro ⟨scopes, hmem, htoken⟩
          by_cases hmine : scopes = token :: rest
          · rw [hmine, List.mem_cons, or_iff_right hne] at htoken
            exact ⟨rest, List.mem_set (List.getElem?_eq_some_iff.mp hscopes).1 rest, htoken⟩
          · by_cases hrest : scopes = rest
            · exact ⟨rest, List.mem_set (List.getElem?_eq_some_iff.mp hscopes).1 rest, hrest ▸ htoken⟩
            · exact ⟨scopes, (mem_set_iff hscopes hmine hrest).mpr hmem, htoken⟩
    · exact fun _ hrow => hrow
  rw [← hreleases] at hsound
  exact hsound

theorem shutdown_sound : Sound (step gateway .shutdown) := by
  rw [step, close]
  by_cases hclosed : gateway.state.closed = true
  · rw [if_pos hclosed]
    refine ⟨?_, h.apart, h.bounded, h.closed, h.once⟩
    intro token
    have hsame : Gateway.view { gateway with finalizers := gateway.finalizers ++ [[]] } token = gateway.view token :=
      Gateway.view_fibers_eq (fun _ _ => Iff.rfl) (by simp [Gateway.view])
    exact hsame ▸ h.views token
  · rw [if_neg hclosed]
    refine ⟨?_, nofun, Nat.zero_le _, fun _ => ⟨rfl, rfl⟩, h.once⟩
    intro token
    have hdrop := (h.views token).drop (fun _ hrow => hrow) Iff.rfl
    have hview : Gateway.view
        { gateway with
          state := { closed := true, reservations := .empty, connections := .empty }
          finalizers := gateway.finalizers ++
            [gateway.state.reservations.rows.map (·.token) ++ gateway.state.connections.rows.map (·.token)] } token =
        { gateway.view token with
          reservations := ∅, connections := ∅, owing := (gateway.view token).owing ∨ (gateway.view token).registered } := by
      ext1
      · rfl
      · rfl
      · exact Set.eq_empty_iff_forall_notMem.mpr fun row hrow => absurd hrow.1 List.not_mem_nil
      · exact Set.eq_empty_iff_forall_notMem.mpr fun row hrow => absurd hrow.1 List.not_mem_nil
      · rfl
      · simp only [Gateway.view, View.registered, Set.Nonempty, List.mem_append, List.mem_singleton, or_and_right, exists_or,
          exists_eq_left, List.mem_map, or_assoc]
        rfl
      · rfl
    exact hview ▸ hdrop

theorem connect_sound : Sound (step gateway .connect) := by
  rw [step]
  split
  · exact h
  · refine @Sound.of_state gateway _ gateway.connects.length h rfl h.once ?_ ?_
    · intro token hne
      have hentry : (gateway.connects ++ [⟨.authorizing, .awaiting⟩])[token]? = gateway.connects[token]? := by
        rw [List.getElem?_append]
        split
        · rfl
        · next hlength =>
            rw [List.getElem?_eq_none (Nat.le_of_not_lt hlength), List.getElem?_eq_none]
            rw [List.length_singleton]
            omega
      rw [Gateway.view, Gateway.view, Gateway.stage, Gateway.stage, Gateway.enrollment, Gateway.enrollment, hentry]
    · have hview := h.views gateway.connects.length
      have hnone : (gateway.view gateway.connects.length).stage = none := by
        simp [Gateway.view, Gateway.stage]
      have hnew : Gateway.view { gateway with connects := gateway.connects ++ [⟨.authorizing, .awaiting⟩] }
          gateway.connects.length =
            { gateway.view gateway.connects.length with stage := some .authorizing, enrollment := some .awaiting } := by
        simp [Gateway.view, Gateway.stage, Gateway.enrollment]
      have hstage : ∀ stage, (gateway.view gateway.connects.length).stage ≠ some stage := by
        intro stage hsome
        rw [hnone] at hsome
        cases hsome
      have hopen : ¬ ((gateway.view gateway.connects.length).owing ∨ (gateway.view gateway.connects.length).closed) := by
        intro hover
        obtain ⟨stage, hsome, -⟩ := hview.reached (hover.imp_left .inr)
        exact hstage stage hsome
      have hopen' : ¬ (View.owed { gateway.view gateway.connects.length with
          stage := some .authorizing, enrollment := some .awaiting } ∨ (gateway.view gateway.connects.length).closed) := by
        rintro ((⟨error, hclosing⟩ | howing) | hclosed)
        · cases hclosing
        · exact hopen (.inl howing)
        · exact hopen (.inr hclosed)
      rw [hnew]
      refine ⟨?_, ?_, ?_, ?_, ?_, ?_, ?_⟩
      · intro row hrow
        obtain ⟨stage, hsome, -⟩ := hview.reserved row hrow
        exact absurd hsome (hstage stage)
      · intro row hrow
        obtain ⟨-, stage, hsome, -⟩ := hview.connected row hrow
        exact absurd hsome (hstage stage)
      · exact fun hover => absurd hover hopen'
      · intro stage hsome hreached
        obtain rfl := Option.some_inj.mp hsome
        cases hreached
      · exact fun hover => absurd hover hopen'
      · intro row hrow
        exact absurd (hview.releasing row hrow) (hstage _)
      · intro binding hready
        cases Option.some_inj.mp hready

theorem release_sound (hstage : gateway.stage token = some (.connected binding)) :
    Sound { gateway with releases := gateway.releases ++ [.unregistering ⟨token, binding⟩] } := by
  refine @Sound.of_state gateway _ token h rfl h.once ?_ ?_
  · intro token' hne
    apply Gateway.view_fibers_eq
    · rintro row rfl
      rw [List.mem_append, List.mem_singleton, or_iff_left]
      exact fun heq => hne (congrArg Reservation.token (Release.unregistering.inj heq))
    · simp [Gateway.view]
  · have hview := h.views token
    have howing : Gateway.view { gateway with releases := gateway.releases ++ [.unregistering ⟨token, binding⟩] } token =
        { gateway.view token with
          releases := {row | .unregistering row ∈ gateway.releases ++ [.unregistering ⟨token, binding⟩] ∧ row.token = token} } := by
      ext1
      · rfl
      · rfl
      · rfl
      · rfl
      · rfl
      · simp [Gateway.view]
      · rfl
    rw [howing]
    refine ⟨hview.reserved, hview.connected, hview.reached, hview.accounted, hview.unregistered, ?_, hview.enrolled⟩
    rintro row ⟨hrow, htoken⟩
    rcases List.mem_append.mp hrow with hbefore | hnew
    · exact hview.releasing row ⟨hbefore, htoken⟩
    · obtain rfl := Release.unregistering.inj (List.mem_singleton.mp hnew)
      exact hstage

theorem step_sound (event : Event) : Sound (step gateway event) := by
  cases event with
  | connect => exact connect_sound h
  | authorized token answer =>
    unfold step
    dsimp only
    split
    · next binding hstage =>
        exact atStage_sound h hstage ((h.views token).move hstage rfl rfl rfl nofun
          nofun nofun)
    · next error hstage =>
        exact atStage_sound h hstage ((h.views token).move hstage rfl rfl rfl nofun
          nofun nofun)
    · exact h
  | acquired token answer =>
    unfold step
    dsimp only
    split
    · next binding hstage =>
        exact atStage_sound h hstage ((h.views token).move hstage rfl rfl rfl nofun
          nofun nofun)
    · next binding error hstage =>
        exact atStage_sound h hstage ((h.views token).move hstage rfl rfl rfl nofun
          nofun nofun)
    · exact h
  | proceed token =>
    rw [step]
    cases hstage : gateway.stage token with
    | none => exact h
    | some stage => exact proceed_sound h hstage
  | enroll token frame =>
    rw [step]
    split
    · next binding hstage henrollment =>
        apply enrolled_sound h hstage
        intro binding' hready
        split at hready
        · next hsame =>
            obtain rfl := Enrollment.ready.inj hready
            rw [(WorkspaceBinding.sameBinding_eq_true.mp hsame).1]
        · cases hready
    · next binding _ hstage henrollment =>
        apply enrolled_sound h hstage
        intro binding' hready
        cases hready
    · exact h
  | expire token =>
    rw [step]
    split
    · next binding hstage => exact enrolled_sound h hstage nofun
    · next binding hstage => exact enrolled_sound h hstage nofun
    · next binding hstage => exact enrolled_sound h hstage nofun
    · exact h
  | release token =>
    rw [step]
    split
    · next binding hstage => exact release_sound h hstage
    · exact h
  | proceedRelease index =>
    rw [step]
    cases hrelease : gateway.releases[index]? with
    | none => exact h
    | some release => exact proceedRelease_sound h hrelease
  | shutdown => exact shutdown_sound h
  | proceedShutdown index =>
    rw [step]
    split
    · next token rest hscopes => exact proceedShutdown_sound h hscopes
    · exact h

end

theorem makeWorkspaceGateway_sound : Sound makeWorkspaceGateway := by
  refine ⟨?_, ?_, Nat.zero_le _, fun _ => ⟨rfl, rfl⟩, List.nodup_nil⟩
  · intro token
    have hstage : ∀ stage, (makeWorkspaceGateway.view token).stage ≠ some stage := fun _ hsome => (by cases hsome)
    have hopen : ¬ ((makeWorkspaceGateway.view token).owed ∨ (makeWorkspaceGateway.view token).closed) := by
      rintro ((⟨error, hclosing⟩ | (howing | ⟨scopes, hscopes, -⟩)) | hclosed)
      · cases hclosing
      · cases howing
      · cases hscopes
      · cases hclosed
    refine ⟨?_, ?_, fun hover => absurd hover hopen, fun stage hsome => absurd hsome (hstage stage),
      fun hover => absurd hover hopen, ?_, ?_⟩
    · exact fun row hrow => absurd hrow.1 List.not_mem_nil
    · exact fun row hrow => absurd hrow.1 List.not_mem_nil
    · exact fun row hrow => absurd hrow.1 List.not_mem_nil
    · intro binding hready
      cases hready
  · exact nofun

end

theorem run_append (done : List Event) (event : Event) : run (done ++ [event]) = step (run done) event := by
  rw [run, List.foldl_append]
  rfl

theorem run_sound (events : List Event) : Sound (run events) := by
  induction events using List.reverseRecOn with
  | nil => exact makeWorkspaceGateway_sound
  | append_singleton done event ih =>
    rw [run_append]
    exact step_sound ih event

/-! ### One live Runner for an assignment -/

def Gateway.registered (gateway : Gateway) (token : Nat) : Prop :=
  (∃ row ∈ gateway.state.reservations.rows, row.token = token) ∨ ∃ row ∈ gateway.state.connections.rows, row.token = token

/-- The call waits for an authorization, a transport or a disconnect, or is over. -/
def Stage.waiting : Stage → Bool
  | .authorizing | .refused _ | .acquiring _ | .connected _ | .failed _ => true
  | .reserving _ | .unregistering _ _ | .installing _ | .finalizing _ | .closing _ => false

structure Quiet (gateway : Gateway) : Prop where
  calls : ∀ token stage, gateway.stage token = some stage → stage.waiting = true
  releases : ∀ release ∈ gateway.releases, release = .ended
  finalizers : ∀ scopes ∈ gateway.finalizers, scopes = []

structure Orderly (gateway : Gateway) : Prop where
  oneEach : (gateway.state.reservations.rows.map (·.assignmentId) ++
    gateway.state.connections.rows.map (·.assignmentId)).Nodup
  bounded : gateway.state.reservations.rows.length + gateway.state.connections.rows.length ≤ maximumConnections
  held : ∀ row ∈ gateway.state.reservations.rows, ∃ stage, gateway.stage row.token = some stage ∧
    stage.pending = some row.binding
  closedOnce : gateway.closings.Nodup
  closedAfter : ∀ token ∈ gateway.closings, ¬ gateway.registered token
  accounted : ∀ token stage, gateway.stage token = some stage → stage.reached = true →
    gateway.registered token ∨ (gateway.view token).owed ∨ token ∈ gateway.closings
  settled : Quiet gateway → ∀ token stage, gateway.stage token = some stage → stage.reached = true →
    (token ∈ gateway.closings ↔ ¬ gateway.registered token)
  found : ∀ binding executor, connectionFor gateway.state binding = .ok executor →
    executor.binding = binding ∧
      (∃ stage, gateway.stage executor.token = some stage ∧ stage.installed = some binding) ∧
      executor.token ∉ gateway.closings ∧
      ∀ frame, gateway.enrollment executor.token = some (.ready frame) → frame = binding

variable {gateway : Gateway}

theorem Quiet.not_owed (h : Quiet gateway) (token : Nat) : ¬ (gateway.view token).owed := by
  rintro (⟨error, hclosing⟩ | (hrelease | ⟨scopes, hscopes, htoken⟩))
  · cases h.calls token _ hclosing
  · cases h.releases _ hrelease
  · rw [h.finalizers scopes hscopes] at htoken
    cases htoken

theorem connectionFor_eq_ok {current : GatewayState} {binding : WorkspaceBinding} {executor : WorkspaceExecutor}
    (h : connectionFor current binding = .ok executor) :
    ∃ row ∈ current.connections.rows, row.binding = binding ∧ row.executor = executor := by
  rw [connectionFor] at h
  obtain ⟨-, h⟩ := Fold.ite_error_eq_ok.mp h
  split at h
  · cases h
  · next row hrow =>
      obtain ⟨hsame, h⟩ := Fold.ite_error_eq_ok.mp h
      have hbinding := (WorkspaceBinding.sameBinding_eq_true.mp (not_not.mp hsame)).1
      exact ⟨row, Table.mem_of_find hrow, hbinding.symm, Except.ok.inj h⟩

theorem Sound.orderly (h : Sound gateway) : Orderly gateway := by
  refine ⟨?_, h.bounded, ?_, h.once, ?_, ?_, ?_, ?_⟩
  · apply List.Nodup.append gateway.state.reservations.unique gateway.state.connections.unique
    intro assignmentId hreserved hconnected
    obtain ⟨row, hrow, rfl⟩ := List.mem_map.mp hreserved
    obtain ⟨row', hrow', hkey⟩ := List.mem_map.mp hconnected
    exact h.apart row hrow row' hrow' hkey.symm
  · exact fun row hrow => (h.views row.token).reserved row ⟨hrow, rfl⟩
  · exact fun token hclosed => (h.views token).unregistered (.inr hclosed)
  · exact fun token => (h.views token).accounted
  · intro hquiet token stage hstage hreached
    constructor
    · exact fun hclosed => (h.views token).unregistered (.inr hclosed)
    · intro hnone
      rcases (h.views token).accounted stage hstage hreached with hregistered | howed | hclosed
      · exact absurd hregistered hnone
      · exact absurd howed (hquiet.not_owed token)
      · exact hclosed
  · intro binding executor hfound
    obtain ⟨row, hrow, rfl, rfl⟩ := connectionFor_eq_ok hfound
    obtain ⟨hexecutor, stage, hstage, hinstalled⟩ := (h.views row.token).connected row ⟨hrow, rfl⟩
    rw [hexecutor]
    refine ⟨rfl, ⟨stage, hstage, hinstalled⟩, ?_, ?_⟩
    · exact fun hclosed => (h.views row.token).unregistered (.inr hclosed) (.inr ⟨row, hrow, rfl⟩)
    · intro frame hready
      have hconnected := (h.views row.token).enrolled frame hready
      obtain rfl := Option.some_inj.mp (hconnected.symm.trans hstage)
      exact Option.some_inj.mp hinstalled

/-- A connection goes with its own release, a reservation with its own call, and everything with the gateway. -/
structure Keeps (gateway : Gateway) (event : Event) : Prop where
  connections : ∀ row ∈ gateway.state.connections.rows, row ∈ (step gateway event).state.connections.rows ∨
    event = .shutdown ∨
    ∃ index, event = .proceedRelease index ∧ gateway.releases[index]? = some (.unregistering row.toReservation)
  reservations : ∀ row ∈ gateway.state.reservations.rows, row ∈ (step gateway event).state.reservations.rows ∨
    event = .shutdown ∨ event = .proceed row.token

theorem Keeps.of_state {gateway : Gateway} {event : Event} (h : (step gateway event).state = gateway.state) :
    Keeps gateway event := by
  constructor
  · intro row hrow
    rw [h]
    exact .inl hrow
  · intro row hrow
    rw [h]
    exact .inl hrow

theorem proceed_keeps (h : Sound gateway) (token : Nat) : Keeps gateway (.proceed token) := by
  cases hstage : gateway.stage token with
  | none =>
    apply Keeps.of_state
    rw [step, hstage]
    rfl
  | some stage =>
    have hstep : step gateway (.proceed token) = gateway.proceed token stage := by
      rw [step, hstage]
      rfl
    cases stage with
    | reserving binding =>
      rw [Gateway.proceed] at hstep
      cases hreserve : reserve gateway.state ⟨token, binding⟩ with
      | error error =>
        rw [hreserve] at hstep
        apply Keeps.of_state
        rw [hstep]
        rfl
      | ok next =>
        rw [hreserve] at hstep
        have hreserves := reserve_eq_ok hreserve
        constructor
        · intro row hrow
          rw [hstep]
          exact .inl (hreserves.connections ▸ hrow)
        · intro row hrow
          rw [hstep]
          exact .inl (hreserves.mem_reservations.mpr (.inr hrow))
    | unregistering binding error =>
      have hnone := (h.views token).no_connections hstage rfl
      constructor
      · intro row hrow
        rw [hstep]
        refine .inl (mem_unregister_connections.mpr ⟨hrow, ?_⟩)
        exact fun hsame => Set.eq_empty_iff_forall_notMem.mp hnone row ⟨hrow, hsame.2⟩
      · intro row hrow
        by_cases htoken : row.token = token
        · exact .inr (.inr (htoken ▸ rfl))
        · rw [hstep]
          exact .inl (mem_unregister_reservations.mpr ⟨hrow, fun hsame => htoken hsame.2⟩)
    | installing binding =>
      rw [Gateway.proceed] at hstep
      cases hinstall : install gateway.state ⟨⟨token, binding⟩, ⟨token, binding⟩⟩ with
      | none =>
        rw [hinstall] at hstep
        apply Keeps.of_state
        rw [hstep]
        rfl
      | some next =>
        rw [hinstall] at hstep
        have hinstalls := install_eq_some hinstall
        constructor
        · intro row hrow
          rw [hstep]
          exact .inl (hinstalls.mem_connections.mpr (.inr hrow))
        · intro row hrow
          by_cases hkey : row.assignmentId = binding.assignmentId
          · have htoken : row.token = token := hinstalls.token_eq hrow hkey
            exact .inr (.inr (htoken ▸ rfl))
          · rw [hstep]
            exact .inl (hinstalls.mem_reservations.mpr ⟨hrow, hkey⟩)
    | finalizing binding =>
      apply Keeps.of_state
      rw [hstep]
      rfl
    | closing error =>
      apply Keeps.of_state
      rw [hstep]
      exact Gateway.state_closeScope
    | authorizing | refused | acquiring | connected | failed => exact .of_state (congrArg Gateway.state hstep)

theorem proceedRelease_keeps (h : Sound gateway) (index : Nat) : Keeps gateway (.proceedRelease index) := by
  cases hrelease : gateway.releases[index]? with
  | none =>
    apply Keeps.of_state
    rw [step, hrelease]
    rfl
  | some release =>
    have hstep : step gateway (.proceedRelease index) = gateway.proceedRelease index release := by
      rw [step, hrelease]
      rfl
    cases release with
    | unregistering registration =>
      have hview := h.views registration.token
      have hstage : gateway.stage registration.token = some (.connected registration.binding) :=
        hview.releasing registration ⟨List.mem_of_getElem? hrelease, rfl⟩
      have hbinding := (hview.binding_eq hstage (.inr rfl)).2
      have hnone := hview.no_reservations hstage rfl
      constructor
      · intro row hrow
        by_cases htoken : row.token = registration.token
        · refine .inr (.inr ⟨index, rfl, ?_⟩)
          rw [hrelease]
          obtain ⟨⟨token, binding⟩, executor⟩ := row
          obtain ⟨token', binding'⟩ := registration
          obtain rfl : token = token' := htoken
          obtain rfl : binding = binding' := hbinding _ ⟨hrow, rfl⟩
          rfl
        · rw [hstep]
          exact .inl (mem_unregister_connections.mpr ⟨hrow, fun hsame => htoken hsame.2⟩)
      · intro row hrow
        rw [hstep]
        refine .inl (mem_unregister_reservations.mpr ⟨hrow, ?_⟩)
        exact fun hsame => Set.eq_empty_iff_forall_notMem.mp hnone row ⟨hrow, hsame.2⟩
    | closing token =>
      apply Keeps.of_state
      rw [hstep]
      exact Gateway.state_closeScope
    | ended => exact .of_state (congrArg Gateway.state hstep)

theorem step_keeps (h : Sound gateway) (event : Event) : Keeps gateway event := by
  cases event with
  | proceed token => exact proceed_keeps h token
  | proceedRelease index => exact proceedRelease_keeps h index
  | shutdown => exact ⟨fun _ _ => .inr (.inl rfl), fun _ _ => .inr (.inl rfl)⟩
  | connect =>
    apply Keeps.of_state
    rw [step]
    split
    · rfl
    · rfl
  | authorized token answer | acquired token answer | enroll token binding | expire token | release token =>
    apply Keeps.of_state
    unfold step
    dsimp only
    split <;> rfl
  | proceedShutdown index =>
    apply Keeps.of_state
    rw [step]
    split
    · exact Gateway.state_closeScope
    · rfl

/-- The gateway keeps one live Runner for an assignment, closes every scope once, and finds
an executor by its own binding only. -/
theorem gateway_orderly (events : List Event) : Orderly (run events) ∧ ∀ event, Keeps (run events) event :=
  ⟨(run_sound events).orderly, step_keeps (run_sound events)⟩

def sampleBinding : WorkspaceBinding :=
  ⟨"workspace", "assignment", 1, .runner "checkout" "workspace", "build", 1⟩

def sampleConnects : List Event :=
  [.connect, .authorized 0 (.ok sampleBinding), .proceed 0, .acquired 0 (.ok ()), .proceed 0, .proceed 0]

/-- A lookup does not wait for the Runner to enroll. -/
theorem unenrolled_executor_found :
    connectionFor (run sampleConnects).state sampleBinding = .ok ⟨0, sampleBinding⟩ ∧
      (run sampleConnects).enrollment 0 = some .awaiting := by decide +kernel

end Rika.RunnerGateway
