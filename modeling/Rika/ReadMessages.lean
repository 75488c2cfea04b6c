import Rika.Fold
import Rika.ThreadRead

namespace Rika.ThreadRead

open Fold (bind_eq_ok)

section Results

variable {ε α β : Type} {x : Except ε α} {f : α → Except ε β} {xs : List α} {ys : List β}

theorem mapM_eq_ok (h : xs.mapM f = .ok ys) : xs.map f = ys.map .ok := by
  induction xs generalizing ys with
  | nil =>
    cases h
    rfl
  | cons x xs ih =>
    rw [List.mapM_cons] at h
    cases hx : f x with
    | error e =>
      rw [hx] at h
      cases h
    | ok y =>
      cases hxs : xs.mapM f with
      | error e =>
        rw [hx, hxs] at h
        cases h
      | ok rest =>
        rw [hx, hxs] at h
        cases h
        rw [List.map_cons, List.map_cons, hx, ih hxs]

theorem exists_mapM (h : ∀ x ∈ xs, ∃ y, f x = .ok y) : ∃ ys, xs.mapM f = .ok ys := by
  induction xs with
  | nil => exact ⟨[], rfl⟩
  | cons x xs ih =>
    obtain ⟨y, hy⟩ := h x List.mem_cons_self
    obtain ⟨ys, hys⟩ := ih fun x' hx' => h x' (List.mem_cons_of_mem x hx')
    exact ⟨y :: ys, by rw [List.mapM_cons, hy, hys]; rfl⟩

theorem mem_mapM (h : xs.mapM f = .ok ys) {x : α} (hx : x ∈ xs) : ∃ y ∈ ys, f x = .ok y := by
  have hmap : f x ∈ ys.map .ok := mapM_eq_ok h ▸ List.mem_map_of_mem hx
  obtain ⟨y, hy, hfx⟩ := List.mem_map.mp hmap
  exact ⟨y, hy, hfx.symm⟩

end Results

def Holds (parent child : TranscriptUnit) : Prop := ∃ link, childLink parent = some link ∧ child.parentId = some link.parentId

structure ParentsFirst (units : List TranscriptUnit) : Prop where
  forward : units.Pairwise fun left right => ¬ Holds right left
  irreflexive : ∀ unit ∈ units, ¬ Holds unit unit

def Layered (rank : TranscriptUnit → Nat) (units : List TranscriptUnit) : Prop :=
  ∀ parent ∈ units, ∀ child ∈ units, Holds parent child → rank parent < rank child

open Classical in
theorem ParentsFirst.layered {units : List TranscriptUnit} (h : ParentsFirst units) : ∃ rank, Layered rank units := by
  refine ⟨fun unit => units.idxOf unit, fun parent hparent child hchild hholds => ?_⟩
  by_contra hle
  have hparentAt := List.idxOf_lt_length_iff.mpr hparent
  have hchildAt := List.idxOf_lt_length_iff.mpr hchild
  have hparentGet := List.getElem_idxOf hparentAt
  have hchildGet := List.getElem_idxOf hchildAt
  rcases Nat.lt_or_eq_of_le (Nat.le_of_not_lt hle) with hlt | heq
  · have hforward := List.pairwise_iff_getElem.mp h.forward _ _ hchildAt hparentAt hlt
    rw [hparentGet, hchildGet] at hforward
    exact hforward hholds
  · have hsame : child = parent := by
      rw [← hchildGet, ← hparentGet]
      congr 1
    rw [hsame] at hholds
    exact h.irreflexive parent hparent hholds

section Counting

theorem countP_lt {α : Type} {p q : α → Bool} {xs : List α} (hle : ∀ x, p x = true → q x = true) {x : α} (hx : x ∈ xs)
    (hp : p x = false) (hq : q x = true) : xs.countP p < xs.countP q := by
  obtain ⟨before, after, rfl⟩ := List.append_of_mem hx
  have hmono (ys : List α) : ys.countP p ≤ ys.countP q := List.countP_mono_left fun y _ => hle y
  have hbefore := hmono before
  have hafter := hmono after
  rw [List.countP_append, List.countP_append, List.countP_cons, List.countP_cons, hp, hq]
  simp only [Bool.false_eq_true, if_false, if_true]
  omega

variable {rank : TranscriptUnit → Nat} {all : List TranscriptUnit}

section

variable (rank : TranscriptUnit → Nat) (all : List TranscriptUnit) (unit : TranscriptUnit)

def below : Nat :=
  all.countP fun other => rank unit < rank other

def above : Nat :=
  all.countP fun other => rank other < rank unit

end

variable {parent child : TranscriptUnit}

theorem below_lt (hchild : child ∈ all) (h : rank parent < rank child) : below rank all child < below rank all parent := by
  refine countP_lt (fun other hother => ?_) hchild (decide_eq_false (lt_irrefl _)) (decide_eq_true h)
  rw [decide_eq_true_eq] at hother ⊢
  omega

theorem above_lt (hparent : parent ∈ all) (h : rank parent < rank child) : above rank all parent < above rank all child := by
  refine countP_lt (fun other hother => ?_) hparent (decide_eq_false (lt_irrefl _)) (decide_eq_true h)
  rw [decide_eq_true_eq] at hother ⊢
  omega

end Counting

def heading (unit : TranscriptUnit) : Option (Role × Text × Option Text) :=
  match unit.content with
  | .entry role text => some (role, text, none)
  | .subagentCard _ _ _ | .other => (childLink unit).map fun link => (.child, link.text, some link.subagentId)

section Rendering

variable {all units : List TranscriptUnit} {textLimit depth : Nat} {unit : TranscriptUnit} {rank : TranscriptUnit → Nat}

variable {role : Role} {text : Text}

theorem messageWithin_entry (h : unit.content = .entry role text) :
    messageWithin all textLimit (depth + 1) unit = .ok (some (.mk role (safeText text textLimit) none [])) := by
  rw [messageWithin, h]

theorem messageWithin_none (hentry : ∀ role text, unit.content ≠ .entry role text) (h : childLink unit = none) :
    messageWithin all textLimit (depth + 1) unit = .ok none := by
  rw [messageWithin]
  cases hcontent : unit.content with
  | entry role text => exact absurd hcontent (hentry role text)
  | subagentCard id summary prompt => simp only [h]
  | other => simp only [h]

theorem messageWithin_card {link : ChildLink} (h : childLink unit = some link) :
    messageWithin all textLimit (depth + 1) unit = (do
      let children ← (all.filter fun candidate => candidate.parentId = some link.parentId).mapM (messageWithin all textLimit depth)
      return some (.mk .child (safeText link.text textLimit) (some link.subagentId) (children.filterMap id))) := by
  rw [messageWithin]
  cases hcontent : unit.content with
  | entry role text => simp [childLink, hcontent] at h
  | subagentCard id summary prompt => simp only [h]
  | other => simp only [h]

theorem content_cases (unit : TranscriptUnit) : (∃ role text, unit.content = .entry role text ∧ childLink unit = none) ∨
    (∃ link, childLink unit = some link ∧ heading unit = some (.child, link.text, some link.subagentId)) ∨
    ((∀ role text, unit.content ≠ .entry role text) ∧ childLink unit = none ∧ heading unit = none) := by
  cases hcontent : unit.content with
  | entry role text => exact .inl ⟨role, text, rfl, by rw [childLink, hcontent]⟩
  | subagentCard id summary prompt =>
    have hlink : childLink unit = some ⟨id, id, if summary = [] then prompt else summary⟩ := by rw [childLink, hcontent]
    exact .inr (.inl ⟨_, hlink, by rw [heading, hcontent, hlink]; rfl⟩)
  | other =>
    have hlink : childLink unit = none := by rw [childLink, hcontent]
    exact .inr (.inr ⟨fun _ _ => by simp, hlink, by rw [heading, hcontent, hlink]; rfl⟩)

theorem exists_messageWithin (hlayered : Layered rank units) (hall : ∀ other ∈ all, other ∈ units) (hunit : unit ∈ units)
    (hdepth : below rank all unit < depth) : ∃ rendered, messageWithin all textLimit depth unit = .ok rendered := by
  induction depth generalizing unit with
  | zero => omega
  | succ depth ih =>
    rcases content_cases unit with ⟨role, text, hentry, -⟩ | ⟨link, hlink, -⟩ | ⟨hentry, hlink, -⟩
    · exact ⟨_, messageWithin_entry hentry⟩
    · rw [messageWithin_card hlink]
      have hchild : ∀ child ∈ all.filter fun candidate => candidate.parentId = some link.parentId,
          ∃ rendered, messageWithin all textLimit depth child = .ok rendered := by
        intro child hchild
        obtain ⟨hmem, hparent⟩ := List.mem_filter.mp hchild
        have hrank := hlayered unit hunit child (hall child hmem) ⟨link, hlink, of_decide_eq_true hparent⟩
        have hlt := below_lt hmem hrank
        exact ih (hall child hmem) (by omega)
      obtain ⟨children, hchildren⟩ := exists_mapM hchild
      rw [hchildren]
      exact ⟨_, rfl⟩
    · exact ⟨_, messageWithin_none hentry hlink⟩

theorem exists_message (hlayered : Layered rank units) (hall : ∀ other ∈ all, other ∈ units) (hunit : unit ∈ units) :
    ∃ rendered, message unit all textLimit = .ok rendered := by
  have hle : below rank all unit ≤ all.length := List.countP_le_length
  exact exists_messageWithin hlayered hall hunit (by omega)

/-- A message with a role, a subagent and the beginning of a text is in a message. -/
inductive Contains (role : Role) (subagentId : Option Text) (text : Text) : Message → Prop
  | here {children : List Message} : Contains role subagentId text (.mk role text subagentId children)
  | child {role' : Role} {text' : Text} {subagentId' : Option Text} {children : List Message} {message : Message} :
      message ∈ children → Contains role subagentId text message →
      Contains role subagentId text (.mk role' text' subagentId' children)

def HoldsIn (all : List TranscriptUnit) (parent child : TranscriptUnit) : Prop := child ∈ all ∧ Holds parent child

theorem messageWithin_contains {target : TranscriptUnit} {subagentId : Option Text}
    (hheading : heading target = some (role, text, subagentId)) (hway : Relation.ReflTransGen (HoldsIn all) unit target)
    {rendered : Option Message} (h : messageWithin all textLimit depth unit = .ok rendered) :
    ∃ message, rendered = some message ∧ Contains role subagentId (safeText text textLimit) message := by
  induction hway using Relation.ReflTransGen.head_induction_on generalizing depth rendered with
  | refl =>
    cases depth with
    | zero => cases h
    | succ depth =>
      rcases content_cases target with ⟨role', text', hentry, -⟩ | ⟨link, hlink, hcard⟩ | ⟨-, -, hnone⟩
      · rw [messageWithin_entry hentry] at h
        cases h
        rw [heading, hentry] at hheading
        cases hheading
        exact ⟨_, rfl, .here⟩
      · rw [messageWithin_card hlink] at h
        obtain ⟨children, -, hrendered⟩ := bind_eq_ok.mp h
        cases hrendered
        rw [hcard] at hheading
        cases hheading
        exact ⟨_, rfl, .here⟩
      · rw [hnone] at hheading
        cases hheading
  | head hstep _ ih =>
    rename_i parent child
    obtain ⟨hmem, link, hlink, hparent⟩ := hstep
    cases depth with
    | zero => cases h
    | succ depth =>
      rw [messageWithin_card hlink] at h
      obtain ⟨children, hchildren, hrendered⟩ := bind_eq_ok.mp h
      cases hrendered
      obtain ⟨shown, hshown, hchild⟩ := mem_mapM hchildren (List.mem_filter.mpr ⟨hmem, decide_eq_true hparent⟩)
      obtain ⟨message, rfl, hcontains⟩ := ih hchild
      exact ⟨_, rfl, .child (List.mem_filterMap.mpr ⟨some message, hshown, rfl⟩) hcontains⟩

end Rendering

end Rika.ThreadRead
