import Mathlib.Data.List.Basic

/-- A component of a path text: nothing or a dot, two dots, or a name. -/
inductive Component (ν : Type*)
  | here
  | up
  | name (name : ν)
deriving DecidableEq

namespace FileTree

variable {ν : Type*}

inductive Node (ν : Type*)
  | directory
  | file
  | link (target : List (Component ν))
deriving DecidableEq

abbrev Tree (ν : Type*) := List ν → Option (Node ν)

def lexical : List ν → List (Component ν) → Option (List ν)
  | dir, [] => some dir
  | dir, .here :: rest => lexical dir rest
  | dir, .up :: rest => if dir.isEmpty then none else lexical dir.dropLast rest
  | dir, .name name :: rest => lexical (dir ++ [name]) rest

/-- One pass over a path, which follows a link where more is to come; above the root is nothing. -/
def resolveWith (tree : Tree ν) (follow : List ν → List (Component ν) → Option (List ν)) :
    List ν → List (Component ν) → Option (List ν)
  | dir, [] => some dir
  | dir, .here :: rest => resolveWith tree follow dir rest
  | dir, .up :: rest => if dir.isEmpty then none else resolveWith tree follow dir.dropLast rest
  | dir, .name name :: rest =>
    match tree (dir ++ [name]) with
    | none => none
    | some .directory => resolveWith tree follow (dir ++ [name]) rest
    | some .file => if rest.isEmpty then some (dir ++ [name]) else none
    | some (.link target) => if rest.isEmpty then some (dir ++ [name]) else follow dir (target ++ rest)

def resolve (tree : Tree ν) : Nat → List ν → List (Component ν) → Option (List ν)
  | 0 => resolveWith tree fun _ _ => none
  | links + 1 => resolveWith tree (resolve tree links)

/-- Every name with more to come is a directory's, or that of a link from
which the rest of the path leads where it would from a directory there. -/
def Returns (tree : Tree ν) (links : Nat) : List ν → List (Component ν) → Prop
  | _, [] => True
  | dir, .here :: rest => Returns tree links dir rest
  | dir, .up :: rest => Returns tree links dir.dropLast rest
  | dir, .name name :: rest =>
    match tree (dir ++ [name]) with
    | some .directory => Returns tree links (dir ++ [name]) rest
    | some (.link target) =>
      rest = [] ∨ 0 < links ∧ resolve tree (links - 1) dir (target ++ rest) = lexical (dir ++ [name]) rest
    | some .file | none => rest = []

def Plain (tree : Tree ν) : List ν → List (Component ν) → Prop
  | _, [] => True
  | dir, .here :: rest => Plain tree dir rest
  | dir, .up :: rest => Plain tree dir.dropLast rest
  | dir, .name name :: rest =>
    (rest = [] ∨ tree (dir ++ [name]) = some .directory) ∧ Plain tree (dir ++ [name]) rest

instance plainDecidable [DecidableEq ν] (tree : Tree ν) :
    (dir : List ν) → (components : List (Component ν)) → Decidable (Plain tree dir components)
  | _, [] => inferInstanceAs (Decidable True)
  | dir, .here :: rest => plainDecidable tree dir rest
  | dir, .up :: rest => plainDecidable tree dir.dropLast rest
  | dir, .name name :: rest =>
    have := plainDecidable tree (dir ++ [name]) rest
    inferInstanceAs (Decidable ((rest = [] ∨ tree (dir ++ [name]) = some .directory) ∧ Plain tree (dir ++ [name]) rest))

variable {tree : Tree ν} {dir path : List ν} {components : List (Component ν)} {links : Nat}

theorem returns_of_plain (links : Nat) (h : Plain tree dir components) : Returns tree links dir components := by
  induction components generalizing dir with
  | nil => trivial
  | cons component rest ih =>
    cases component with
    | here => exact ih h
    | up => exact ih h
    | name name =>
      obtain ⟨hdirectory, hrest⟩ := h
      rw [Returns]
      rcases hdirectory with rfl | hdirectory
      · split
        · trivial
        · exact .inl rfl
        · rfl
        · rfl
      · rw [hdirectory]
        exact ih hrest

def follow (tree : Tree ν) (links : Nat) (dir : List ν) (components : List (Component ν)) : Option (List ν) :=
  if 0 < links then resolve tree (links - 1) dir components else none

theorem resolve_eq (tree : Tree ν) (links : Nat) : resolve tree links = resolveWith tree (follow tree links) := by
  cases links with
  | zero => rfl
  | succ links => rfl

theorem resolve_iff (hpath : lexical dir components = some path) (hsome : (tree path).isSome = true) :
    resolve tree links dir components = some path ↔ Returns tree links dir components := by
  rw [resolve_eq]
  induction components generalizing dir with
  | nil => exact iff_of_true hpath trivial
  | cons component rest ih =>
    cases component with
    | here => exact ih hpath
    | up =>
      rw [lexical] at hpath
      rw [resolveWith]
      by_cases hroot : dir.isEmpty = true
      · rw [if_pos hroot] at hpath
        cases hpath
      · rw [if_neg hroot] at hpath ⊢
        exact ih hpath
    | name name =>
      rw [lexical] at hpath
      rw [resolveWith, Returns]
      cases hnode : tree (dir ++ [name]) with
      | none =>
        refine iff_of_false (by simp) ?_
        rintro rfl
        cases hpath
        rw [hnode] at hsome
        cases hsome
      | some node =>
        cases node with
        | directory => exact ih hpath
        | file =>
          cases rest with
          | nil => exact iff_of_true hpath rfl
          | cons => simp
        | link target =>
          cases rest with
          | nil => exact iff_of_true hpath (.inl rfl)
          | cons next rest =>
            rw [hpath]
            by_cases hlinks : 0 < links <;> simp [follow, hlinks]

def chase (tree : Tree ν) (links : Nat) : Nat → List ν → Option (List ν)
  | 0, path => some path
  | reads + 1, path =>
    match tree path with
    | some (.link target) => (resolve tree links path.dropLast target).bind (chase tree links reads)
    | some .directory | some .file | none => some path

theorem chase_good {Good : List ν → Prop} (h : ∀ path target, tree path = some (.link target) →
      ∃ reached, resolve tree links path.dropLast target = some reached ∧ Good reached)
    (reads : Nat) (hpath : Good path) :
    ∃ reached, chase tree links reads path = some reached ∧ Good reached := by
  induction reads generalizing path with
  | zero => exact ⟨path, rfl, hpath⟩
  | succ reads ih =>
    rw [chase]
    split
    · next target hlink =>
        obtain ⟨next, hnext, hgood⟩ := h path target hlink
        rw [hnext]
        exact ih hgood
    · exact ⟨path, rfl, hpath⟩
    · exact ⟨path, rfl, hpath⟩
    · exact ⟨path, rfl, hpath⟩

end FileTree
