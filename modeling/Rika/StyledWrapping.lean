import Rika.ComposerModel
import Rika.WordWrapping

namespace Rika.StyledWrapping

open WordWrapping
open WideText (Units)

section Model

variable (Color : Type)

structure TerminalTextChunk where
  text : Units
  fg : Option Color
  bg : Option Color
  attributes : Option Nat
  link : Option String

structure StyledCell where
  chunk : TerminalTextChunk Color
  text : Units
  width : Nat

structure WordPart where
  cells : List (StyledCell Color)
  whitespace : Bool

structure Graphemes where
  segment : Units → List Units
  stringWidth : Units → Nat
  flatten_segment : ∀ text, (segment text).flatten = text

structure Wrap where
  lines : List (List (StyledCell Color))
  current : List (StyledCell Color)
  currentWidth : Nat
  pendingWhitespace : List (StyledCell Color)

variable {Color}

def sameStyle [DecidableEq Color] (left right : TerminalTextChunk Color) : Bool :=
  left.fg = right.fg && left.bg = right.bg && left.attributes = right.attributes && left.link = right.link

/-- `/^[\x20-\x7e]*$/u` -/
def isPrintable (text : Units) : Bool := text.all fun u => 0x20 ≤ u.toNat && u.toNat ≤ 0x7E

def styledCells (graphemes : Graphemes) (chunks : List (TerminalTextChunk Color)) : List (StyledCell Color) :=
  chunks.flatMap fun chunk =>
    if isPrintable chunk.text then chunk.text.map fun u => ⟨chunk, [u], 1⟩
    else (graphemes.segment chunk.text).map fun segment => ⟨chunk, segment, graphemes.stringWidth segment⟩

def addCell [DecidableEq Color] (chunks : List (TerminalTextChunk Color)) (cell : StyledCell Color) : List (TerminalTextChunk Color) :=
  match chunks.getLast? with
  | some previous =>
    if sameStyle previous cell.chunk then chunks.dropLast ++ [{ previous with text := previous.text ++ cell.text }]
    else chunks ++ [{ cell.chunk with text := cell.text }]
  | none => chunks ++ [{ cell.chunk with text := cell.text }]

def cellsToChunks [DecidableEq Color] (cells : List (StyledCell Color)) : List (TerminalTextChunk Color) := cells.foldl addCell []

def cellsWidth (cells : List (StyledCell Color)) : Nat := cells.foldl (fun total cell => total + cell.width) 0

/-- `/^\s+$/u` -/
def StyledCell.whitespace (cell : StyledCell Color) : Bool := !cell.text.isEmpty && cell.text.all Composer.isSpace

def addPart (parts : List (WordPart Color)) (cell : StyledCell Color) : List (WordPart Color) :=
  match parts.getLast? with
  | some previous =>
    if previous.whitespace = cell.whitespace then parts.dropLast ++ [{ previous with cells := previous.cells ++ [cell] }]
    else parts ++ [⟨[cell], cell.whitespace⟩]
  | none => parts ++ [⟨[cell], cell.whitespace⟩]

def wordParts (cells : List (StyledCell Color)) : List (WordPart Color) := cells.foldl addPart []

def Wrap.push (wrap : Wrap Color) : Wrap Color :=
  { wrap with lines := wrap.lines ++ [wrap.current], current := [], currentWidth := 0 }

section

variable (width : Nat) (wrap : Wrap Color)

def Wrap.append (cell : StyledCell Color) : Wrap Color :=
  let next := if 0 < wrap.current.length ∧ width < wrap.currentWidth + cell.width then wrap.push else wrap
  { next with current := next.current ++ [cell], currentWidth := next.currentWidth + cell.width }

def Wrap.appendWord (cells : List (StyledCell Color)) : Wrap Color :=
  cells.foldl (Wrap.append width) wrap

def Wrap.next (part : WordPart Color) : Wrap Color :=
  if part.whitespace then { wrap with pendingWhitespace := part.cells }
  else
    let nextWidth := cellsWidth wrap.pendingWhitespace + cellsWidth part.cells
    let placed :=
      if 0 < wrap.current.length ∧ wrap.currentWidth + nextWidth ≤ width then
        { wrap with
          current := wrap.current ++ wrap.pendingWhitespace ++ part.cells
          currentWidth := wrap.currentWidth + nextWidth }
      else (if 0 < wrap.current.length then wrap.push else wrap).appendWord width part.cells
    { placed with pendingWhitespace := [] }

end

/-- The lines of cells that `wrapStyledLine` returns. -/
def wrapCells (graphemes : Graphemes) (chunks : List (TerminalTextChunk Color)) (width : Nat) :
    List (List (StyledCell Color)) :=
  let wrap := (wordParts (styledCells graphemes chunks)).foldl (Wrap.next width) ⟨[], [], 0, []⟩
  if 0 < wrap.current.length ∨ wrap.lines.length = 0 then wrap.lines ++ [wrap.current] else wrap.lines

def wrapStyledLine [DecidableEq Color] (graphemes : Graphemes) (chunks : List (TerminalTextChunk Color)) (width : Nat) :
    List (List (TerminalTextChunk Color)) :=
  (wrapCells graphemes chunks width).map cellsToChunks

end Model

section Styles

variable {Color : Type}

def styled (chunks : List (TerminalTextChunk Color)) : List (TerminalTextChunk Color × UInt16) :=
  chunks.flatMap fun chunk => chunk.text.map fun u => ({ chunk with text := [] }, u)

def StyledCell.styled (cell : StyledCell Color) : List (TerminalTextChunk Color × UInt16) :=
  cell.text.map fun u => ({ cell.chunk with text := [] }, u)

theorem styled_append (chunks others : List (TerminalTextChunk Color)) :
    styled (chunks ++ others) = styled chunks ++ styled others := List.flatMap_append

theorem styled_addCell [DecidableEq Color] (chunks : List (TerminalTextChunk Color)) (cell : StyledCell Color) :
    styled (addCell chunks cell) = styled chunks ++ cell.styled := by
  have hnew : styled [{ cell.chunk with text := cell.text }] = cell.styled := List.append_nil _
  rw [addCell]
  cases hlast : chunks.getLast? with
  | none => rw [styled_append, hnew]
  | some previous =>
    dsimp only
    by_cases hsame : sameStyle previous cell.chunk = true
    · have hsplit := List.dropLast_append_getLast? previous hlast
      simp only [sameStyle, Bool.and_eq_true, decide_eq_true_eq] at hsame
      have hstyle : ({ previous with text := [] } : TerminalTextChunk Color) = { cell.chunk with text := [] } := by
        rw [TerminalTextChunk.mk.injEq]
        exact ⟨rfl, hsame.1.1.1, hsame.1.1.2, hsame.1.2, hsame.2⟩
      rw [if_pos (by simp only [sameStyle, hsame, decide_true, Bool.and_self])]
      conv_rhs => rw [← hsplit]
      rw [styled_append, styled_append, List.append_assoc]
      refine congrArg (styled chunks.dropLast ++ ·) ?_
      simp only [styled, StyledCell.styled, List.flatMap_cons, List.flatMap_nil, List.append_nil, List.map_append, hstyle]
    · rw [if_neg hsame, styled_append, hnew]

theorem styled_cellsToChunks [DecidableEq Color] (cells : List (StyledCell Color)) :
    styled (cellsToChunks cells) = cells.flatMap StyledCell.styled := by
  have hall : ∀ chunks : List (TerminalTextChunk Color),
      styled (cells.foldl addCell chunks) = styled chunks ++ cells.flatMap StyledCell.styled := by
    induction cells with
    | nil => exact fun chunks => (List.append_nil _).symm
    | cons cell cells ih =>
      intro chunks
      rw [List.foldl_cons, ih, styled_addCell, List.append_assoc]
      rfl
  exact hall []

theorem styled_styledCells (graphemes : Graphemes) (chunks : List (TerminalTextChunk Color)) :
    (styledCells graphemes chunks).flatMap StyledCell.styled = styled chunks := by
  rw [styledCells, List.flatMap_assoc, styled]
  refine congrArg (List.flatMap · chunks) (funext fun chunk => ?_)
  by_cases hprintable : isPrintable chunk.text = true
  · rw [if_pos hprintable, List.flatMap_map]
    exact (List.map_eq_flatMap ..).symm
  · rw [if_neg hprintable, List.flatMap_map]
    conv_rhs => rw [← graphemes.flatten_segment chunk.text, List.map_flatten, ← List.flatMap_def]
    rfl

end Styles

section Parts

variable {Color : Type}

inductive Alternating : Option Bool → List (WordPart Color) → Prop
  | nil {previous : Option Bool} : Alternating previous []
  | cons {previous : Option Bool} {part : WordPart Color} {parts : List (WordPart Color)} :
      previous ≠ some part.whitespace → part.cells ≠ [] → (∀ cell ∈ part.cells, cell.whitespace = part.whitespace) →
      Alternating (some part.whitespace) parts → Alternating previous (part :: parts)

variable {previous : Option Bool} {parts : List (WordPart Color)}

theorem Alternating.concat (h : Alternating previous parts)
    {part : WordPart Color} (hcells : part.cells ≠ []) (hall : ∀ cell ∈ part.cells, cell.whitespace = part.whitespace)
    (hlast : ((parts.getLast?.map WordPart.whitespace).or previous) ≠ some part.whitespace) :
    Alternating previous (parts ++ [part]) := by
  induction h with
  | nil => exact .cons hlast hcells hall .nil
  | @cons previous other parts hprevious hother hsame _ ih =>
    refine .cons hprevious hother hsame (ih ?_)
    cases parts with
    | nil => exact hlast
    | cons next parts =>
      rw [List.getLast?_cons_cons] at hlast
      rw [List.getLast?_eq_some_getLast (List.cons_ne_nil next parts)] at hlast ⊢
      exact hlast

theorem Alternating.grow {last : WordPart Color}
    (h : Alternating previous (parts ++ [last])) {cell : StyledCell Color} (hcell : cell.whitespace = last.whitespace) :
    Alternating previous (parts ++ [{ last with cells := last.cells ++ [cell] }]) := by
  induction parts generalizing previous with
  | nil =>
    cases h with
    | cons hprevious hcells hall hrest =>
      refine .cons hprevious ?_ ?_ .nil
      · exact List.append_ne_nil_of_right_ne_nil _ (List.cons_ne_nil _ _)
      · intro other hother
        rcases List.mem_append.mp hother with hbefore | hnew
        · exact hall other hbefore
        · rw [List.mem_singleton.mp hnew]
          exact hcell
  | cons part parts ih =>
    cases h with
    | cons hprevious hcells hall hrest => exact .cons hprevious hcells hall (ih hrest)

theorem addPart_alternating (h : Alternating none parts) (cell : StyledCell Color) :
    Alternating none (addPart parts cell) ∧
      (addPart parts cell).flatMap WordPart.cells = parts.flatMap WordPart.cells ++ [cell] := by
  have hnew : ∀ other ∈ [cell], other.whitespace = cell.whitespace := fun other hother => by
    rw [List.mem_singleton.mp hother]
  rw [addPart]
  cases hlast : parts.getLast? with
  | none =>
    refine ⟨h.concat (List.cons_ne_nil _ _) hnew ?_, List.flatMap_append⟩
    rw [hlast]
    exact (Option.some_ne_none _).symm
  | some previous =>
    have hsplit := List.dropLast_append_getLast? previous hlast
    dsimp only
    by_cases hsame : previous.whitespace = cell.whitespace
    · rw [if_pos hsame]
      rw [← hsplit] at h
      refine ⟨h.grow hsame.symm, ?_⟩
      conv_rhs => rw [← hsplit]
      rw [List.flatMap_append, List.flatMap_append, List.append_assoc, List.flatMap_singleton, List.flatMap_singleton]
    · rw [if_neg hsame]
      refine ⟨h.concat (List.cons_ne_nil _ _) hnew ?_, List.flatMap_append⟩
      rw [hlast, Option.map_some, Option.some_or]
      exact fun heq => hsame (Option.some.inj heq)

theorem wordParts_alternating (cells : List (StyledCell Color)) :
    Alternating none (wordParts cells) ∧ (wordParts cells).flatMap WordPart.cells = cells := by
  have hall : ∀ parts : List (WordPart Color), Alternating none parts →
      Alternating none (cells.foldl addPart parts) ∧
        (cells.foldl addPart parts).flatMap WordPart.cells = parts.flatMap WordPart.cells ++ cells := by
    induction cells with
    | nil => exact fun parts hparts => ⟨hparts, (List.append_nil _).symm⟩
    | cons cell cells ih =>
      intro parts hparts
      obtain ⟨halternating, hcells⟩ := addPart_alternating hparts cell
      obtain ⟨hrest, heq⟩ := ih _ halternating
      refine ⟨hrest, ?_⟩
      rw [List.foldl_cons, heq, hcells, List.append_assoc]
      rfl
  exact hall [] .nil

end Parts

section Wrapping

variable {Color : Type} {width : Nat} {whole done : List (StyledCell Color)} {wrap : Wrap Color}

theorem cellsWidth_eq (cells : List (StyledCell Color)) : cellsWidth cells = total StyledCell.width cells := by
  have hall : ∀ start : Nat, cells.foldl (fun total cell => total + cell.width) start = start + total StyledCell.width cells := by
    induction cells with
    | nil => exact fun start => rfl
    | cons cell cells ih =>
      intro start
      rw [List.foldl_cons, ih, total_cons, Nat.add_assoc]
  rw [cellsWidth, hall, Nat.zero_add]

structure Placed (width : Nat) (whole done : List (StyledCell Color)) (wrap : Wrap Color) : Prop where
  currentWidth : wrap.currentWidth = total StyledCell.width wrap.current
  fits : total StyledCell.width wrap.current ≤ width
  pending : ∀ cell ∈ wrap.pendingWhitespace, cell.whitespace = true
  first : wrap.current = [] → wrap.lines = []
  laid : ∃ before, Laid StyledCell.width StyledCell.whitespace width whole before wrap.lines ∧
    Seam StyledCell.width StyledCell.whitespace width whole before ∧ (wrap.current = [] → before = []) ∧
      done = before ++ wrap.current ++ wrap.pendingWhitespace

theorem appendWord_placed {passed cells right : List (StyledCell Color)}
    (hword : WordAt StyledCell.whitespace whole done (passed ++ wrap.current ++ cells) right)
    (hcells : ∀ cell ∈ cells, cell.width ≤ width) (hwidth : wrap.currentWidth = total StyledCell.width wrap.current)
    (hfits : total StyledCell.width wrap.current ≤ width)
    (hlaid : Laid StyledCell.width StyledCell.whitespace width whole (done ++ passed) wrap.lines)
    (hseam : Seam StyledCell.width StyledCell.whitespace width whole (done ++ passed))
    (hnext : wrap.current ≠ [] ∨ cells ≠ []) :
    ∃ rest, passed ++ wrap.current ++ cells = rest ++ (wrap.appendWord width cells).current ∧
      (wrap.appendWord width cells).current ≠ [] ∧
      (wrap.appendWord width cells).currentWidth = total StyledCell.width (wrap.appendWord width cells).current ∧
      total StyledCell.width (wrap.appendWord width cells).current ≤ width ∧
      Laid StyledCell.width StyledCell.whitespace width whole (done ++ rest) (wrap.appendWord width cells).lines ∧
      Seam StyledCell.width StyledCell.whitespace width whole (done ++ rest) := by
  induction cells generalizing wrap passed with
  | nil => exact ⟨passed, List.append_nil _, hnext.resolve_right fun h => h rfl, hwidth, hfits, hlaid, hseam⟩
  | cons cell cells ih =>
    have hrest : ∀ other ∈ cells, other.width ≤ width := fun other hother => hcells other (List.mem_cons_of_mem _ hother)
    have hcons : wrap.appendWord width (cell :: cells) = (wrap.append width cell).appendWord width cells := rfl
    rw [hcons]
    by_cases hover : 0 < wrap.current.length ∧ width < wrap.currentWidth + cell.width
    · -- the current line ends inside of the word, which does not fit a line
      have hnow : wrap.append width cell = ⟨wrap.lines ++ [wrap.current], [cell], 0 + cell.width, wrap.pendingWhitespace⟩ := by
        rw [Wrap.append, if_pos hover]
        rfl
      have hsplit : passed ++ wrap.current ++ cell :: cells = passed ++ wrap.current ++ [cell] ++ cells := by
        rw [List.append_assoc _ [cell]]
        rfl
      have hwide : width < total StyledCell.width (passed ++ wrap.current ++ cell :: cells) := by
        rw [total_append, total_append, total_cons]
        omega
      have hend := hlaid.line hseam hfits fun other (hother : other ∈ []) => absurd hother List.not_mem_nil
      rw [List.append_nil, List.append_assoc] at hend
      have hbreak := Seam.word hword hwide
      rw [hsplit] at hword ⊢
      rw [hnow]
      refine @ih ⟨wrap.lines ++ [wrap.current], [cell], 0 + cell.width, wrap.pendingWhitespace⟩ _ hword hrest ?_ ?_ hend hbreak (.inl (List.cons_ne_nil _ _))
      · rw [total_cons, total_nil, Nat.add_comm]
      · rw [total_cons, total_nil]
        exact hcells cell List.mem_cons_self
    · have hnow : wrap.append width cell =
          ⟨wrap.lines, wrap.current ++ [cell], wrap.currentWidth + cell.width, wrap.pendingWhitespace⟩ := by
        rw [Wrap.append, if_neg hover]
      have hsplit : passed ++ wrap.current ++ cell :: cells = passed ++ (wrap.current ++ [cell]) ++ cells := by
        rw [List.append_assoc, List.append_assoc, List.append_assoc]
        rfl
      have hsum : total StyledCell.width (wrap.current ++ [cell]) = wrap.currentWidth + cell.width := by
        rw [total_append, total_cons, total_nil, hwidth, Nat.add_zero]
      rw [hsplit] at hword ⊢
      rw [hnow]
      refine @ih ⟨wrap.lines, wrap.current ++ [cell], wrap.currentWidth + cell.width, wrap.pendingWhitespace⟩ _ hword hrest hsum.symm ?_ hlaid hseam (.inl ?_)
      · rw [hsum]
        by_cases hempty : wrap.current = []
        · rw [hwidth, hempty, total_nil, Nat.zero_add]
          exact hcells cell List.mem_cons_self
        · have hlength := List.length_pos_of_ne_nil hempty
          omega
      · exact List.append_ne_nil_of_right_ne_nil _ (List.cons_ne_nil _ _)

theorem Placed.push (h : Placed width whole done wrap) :
    Laid StyledCell.width StyledCell.whitespace width whole done
      (if 0 < wrap.current.length then wrap.push else wrap).lines := by
  obtain ⟨before, hlaid, hseam, hfirst, hdone⟩ := h.laid
  by_cases hcurrent : wrap.current = []
  · rw [if_neg (by rw [hcurrent]; exact Nat.lt_irrefl 0), h.first hcurrent, hdone, hfirst hcurrent, hcurrent]
    exact .start h.pending
  · rw [if_pos (List.length_pos_of_ne_nil hcurrent), hdone]
    exact hlaid.line hseam h.fits h.pending

theorem Placed.next {part : WordPart Color} {right : List (StyledCell Color)} (h : Placed width whole done wrap)
    (hwhole : whole = done ++ part.cells ++ right) (hcells : part.cells ≠ [])
    (hall : ∀ cell ∈ part.cells, cell.whitespace = part.whitespace) (hwidths : ∀ cell ∈ part.cells, cell.width ≤ width)
    (hpending : part.whitespace = true → wrap.pendingWhitespace = [])
    (hbefore : part.whitespace = false → ∀ cell, done.getLast? = some cell → cell.whitespace = true)
    (hafter : part.whitespace = false → ∀ cell, right.head? = some cell → cell.whitespace = true) :
    Placed width whole (done ++ part.cells) (wrap.next width part) := by
  obtain ⟨before, hlaid, hseam, hfirst, hdone⟩ := h.laid
  by_cases hspace : part.whitespace = true
  · have hnow : wrap.next width part = { wrap with pendingWhitespace := part.cells } := if_pos hspace
    rw [hnow]
    refine ⟨h.currentWidth, h.fits, ?_, h.first, before, hlaid, hseam, hfirst, ?_⟩
    · intro cell hcell
      rw [hall cell hcell, hspace]
    · rw [hdone, hpending hspace, List.append_nil]
  have hsolid := Bool.eq_false_iff.mpr hspace
  have hnow : wrap.next width part =
      { (if 0 < wrap.current.length ∧ wrap.currentWidth + (cellsWidth wrap.pendingWhitespace + cellsWidth part.cells) ≤ width then
          { wrap with
            current := wrap.current ++ wrap.pendingWhitespace ++ part.cells
            currentWidth := wrap.currentWidth + (cellsWidth wrap.pendingWhitespace + cellsWidth part.cells) }
        else (if 0 < wrap.current.length then wrap.push else wrap).appendWord width part.cells : Wrap Color) with
        pendingWhitespace := [] } := if_neg hspace
  have hnone : ∀ cell ∈ ([] : List (StyledCell Color)), cell.whitespace = true := nofun
  by_cases hroom : 0 < wrap.current.length ∧
      wrap.currentWidth + (cellsWidth wrap.pendingWhitespace + cellsWidth part.cells) ≤ width
  · have hsum : total StyledCell.width (wrap.current ++ wrap.pendingWhitespace ++ part.cells) =
        wrap.currentWidth + (cellsWidth wrap.pendingWhitespace + cellsWidth part.cells) := by
      rw [total_append, total_append, cellsWidth_eq, cellsWidth_eq, h.currentWidth, Nat.add_assoc]
    have hne : wrap.current ++ wrap.pendingWhitespace ++ part.cells ≠ [] := List.append_ne_nil_of_right_ne_nil _ hcells
    rw [hnow, if_pos hroom]
    refine ⟨hsum.symm, ?_, hnone, fun hempty => absurd hempty hne, before, hlaid, hseam, fun hempty => absurd hempty hne, ?_⟩
    · rw [hsum]
      exact hroom.2
    · simp only [hdone, List.append_nil, List.append_assoc]
  · have hpush := h.push
    rw [hnow, if_neg hroom]
    generalize hpushed : (if 0 < wrap.current.length then wrap.push else wrap) = pushed at *
    have hcurrent : pushed.current = [] ∧ pushed.currentWidth = 0 := by
      rw [← hpushed]
      by_cases hcurrent : wrap.current = []
      · rw [if_neg (by rw [hcurrent]; exact Nat.lt_irrefl 0), h.currentWidth, hcurrent]
        exact ⟨rfl, rfl⟩
      · rw [if_pos (List.length_pos_of_ne_nil hcurrent)]
        exact ⟨rfl, rfl⟩
    have hword : WordAt StyledCell.whitespace whole done ([] ++ pushed.current ++ part.cells) right := by
      rw [hcurrent.1]
      exact ⟨hwhole, fun cell hcell => (hall cell hcell).trans hsolid, hbefore hsolid, hafter hsolid⟩
    have hbegin : Seam StyledCell.width StyledCell.whitespace width whole (done ++ []) := by
      rw [List.append_nil]
      cases hlast : done.getLast? with
      | none =>
        rw [List.getLast?_eq_none_iff.mp hlast]
        exact .start
      | some cell => exact .blank hlast (hbefore hsolid cell hlast)
    rw [← List.append_nil done] at hpush
    obtain ⟨rest, hparts, hne, hwidth, hfits, hplaced, hbreak⟩ := appendWord_placed hword hwidths
      (by rw [hcurrent.1, hcurrent.2]; rfl) (by rw [hcurrent.1]; exact Nat.zero_le _) hpush hbegin (.inr hcells)
    rw [hcurrent.1] at hparts
    refine ⟨hwidth, hfits, hnone, fun hempty => absurd hempty hne, done ++ rest, hplaced, hbreak, fun hempty => absurd hempty hne, ?_⟩
    have hpart : part.cells = rest ++ (pushed.appendWord width part.cells).current := hparts
    rw [List.append_nil, List.append_assoc, ← hpart]

theorem placed_run {previous : Option Bool} {parts : List (WordPart Color)} (h : Alternating previous parts)
    (hplaced : Placed width whole done wrap) (hwhole : whole = done ++ parts.flatMap WordPart.cells)
    (hwidths : ∀ cell ∈ whole, cell.width ≤ width) (hprevious : done.getLast?.map StyledCell.whitespace = previous)
    (hpending : previous ≠ some true → wrap.pendingWhitespace = []) :
    Placed width whole whole (parts.foldl (Wrap.next width) wrap) := by
  induction h generalizing done wrap with
  | nil =>
    have hdone : whole = done := hwhole.trans (List.append_nil done)
    rw [hdone] at hplaced ⊢
    exact hplaced
  | @cons previous part parts hturn hcells hall hrest ih =>
    have hsplit : whole = done ++ part.cells ++ parts.flatMap WordPart.cells := by
      rw [hwhole, List.append_assoc]
      rfl
    have hlast : (done ++ part.cells).getLast?.map StyledCell.whitespace = some part.whitespace := by
      rw [List.getLast?_append_of_ne_nil _ hcells, List.getLast?_eq_some_getLast hcells, Option.map_some,
        hall _ (List.getLast_mem hcells)]
    have hmem : ∀ cell ∈ part.cells, cell ∈ whole := by
      intro cell hcell
      rw [hsplit]
      exact List.mem_append_left _ (List.mem_append_right _ hcell)
    rw [List.foldl_cons]
    refine ih (hplaced.next hsplit hcells hall (fun cell hcell => hwidths cell (hmem cell hcell)) ?_ ?_ ?_) hsplit hlast ?_
    · intro hspace
      exact hpending (hspace ▸ hturn)
    · intro hsolid cell hcell
      rw [hcell, Option.map_some] at hprevious
      rw [← hprevious, hsolid] at hturn
      exact eq_true_of_ne_false fun hfalse => hturn (congrArg some hfalse)
    · intro hsolid cell hcell
      cases hrest with
      | nil => cases hcell
      | @cons _ next others hnext hothers hsame _ =>
        rw [List.flatMap_cons, List.head?_append_of_ne_nil _ hothers] at hcell
        rw [hsame cell (List.mem_of_head? hcell)]
        exact eq_true_of_ne_false fun hfalse => hnext (congrArg some (hsolid.trans hfalse.symm))
    · intro hsolid
      rw [Wrap.next, if_neg fun hspace => hsolid (congrArg some hspace)]

/-- The lines fit, keep what is no white space with its styles, and begin where a line may begin. -/
structure Lossless [DecidableEq Color] (graphemes : Graphemes) (chunks : List (TerminalTextChunk Color)) (width : Nat) : Prop where
  fits : ∀ line ∈ wrapCells graphemes chunks width, cellsWidth line ≤ width
  kept : (wrapCells graphemes chunks width).flatten.filter (fun cell => !cell.whitespace) =
    (styledCells graphemes chunks).filter fun cell => !cell.whitespace
  laid : Laid StyledCell.width StyledCell.whitespace width (styledCells graphemes chunks) (styledCells graphemes chunks)
    (wrapCells graphemes chunks width)
  lines : (wrapStyledLine graphemes chunks width).map styled =
    (wrapCells graphemes chunks width).map fun line => line.flatMap StyledCell.styled
  cells : (styledCells graphemes chunks).flatMap StyledCell.styled = styled chunks

theorem wrapStyledLine_loses_nothing [DecidableEq Color] (graphemes : Graphemes) {chunks : List (TerminalTextChunk Color)} {width : Nat}
    (h : ∀ cell ∈ styledCells graphemes chunks, cell.width ≤ width) : Lossless graphemes chunks width := by
  obtain ⟨halternating, hcells⟩ := wordParts_alternating (styledCells graphemes chunks)
  have hnone : ∀ cell ∈ ([] : List (StyledCell Color)), cell.whitespace = true := nofun
  have hstart : Placed width (styledCells graphemes chunks) [] ⟨[], [], 0, []⟩ :=
    ⟨rfl, Nat.zero_le _, hnone, fun _ => rfl, [], .start hnone, .start, fun _ => rfl, rfl⟩
  have hplaced := placed_run halternating hstart hcells.symm h rfl fun _ => rfl
  have hlaid : Laid StyledCell.width StyledCell.whitespace width (styledCells graphemes chunks) (styledCells graphemes chunks)
      (wrapCells graphemes chunks width) := by
    rw [wrapCells]
    generalize (wordParts (styledCells graphemes chunks)).foldl (Wrap.next width) ⟨[], [], 0, []⟩ = wrap at hplaced
    obtain ⟨before, hlaid, hseam, hfirst, hdone⟩ := hplaced.laid
    have hlast : 0 < wrap.current.length ∨ wrap.lines.length = 0 := by
      by_cases hcurrent : wrap.current = []
      · exact .inr (List.length_eq_zero_iff.mpr (hplaced.first hcurrent))
      · exact .inl (List.length_pos_of_ne_nil hcurrent)
    have hline := hlaid.line hseam hplaced.fits hplaced.pending
    rw [if_pos hlast]
    rwa [← hdone] at hline
  refine ⟨?_, hlaid.kept, hlaid, ?_, styled_styledCells graphemes chunks⟩
  · intro line hline
    rw [cellsWidth_eq]
    exact hlaid.fits line hline
  · rw [wrapStyledLine, List.map_map]
    exact List.map_congr_left fun line _ => styled_cellsToChunks line

theorem wrapStyledLine_loses_nothing_sample :
    @Lossless Nat inferInstance ⟨fun text => text.map fun u => [u], List.length, List.flatMap_singleton'⟩
      [⟨[97, 32, 98], none, none, none, none⟩, ⟨[99, 100, 0xE9], some 1, none, none, none⟩] 3 :=
  wrapStyledLine_loses_nothing _ (by decide)

end Wrapping

end Rika.StyledWrapping
