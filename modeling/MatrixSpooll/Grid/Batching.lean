import Mathlib.Data.List.Nodup
import Mathlib.Order.MinMax

/-!
# Grids of scenes

A group of scenes is drawn in grids.  `plan_grid_chunks` cuts the group into
chunks that fit one grid each, `build_frame_chain` lays a chunk out in the
cells of its grid, and the front end computes the number of grids on its own.
-/

namespace MatrixSpooll.Grid

open List

structure Rung where
  cellCount : Nat
  gridSize : String
  side : Nat

/-- `_GRID_LADDER`; the ladder of the front end has the same rungs. -/
def gridLadder : List Rung :=
  [⟨4, "grid_4", 2⟩, ⟨9, "grid_9", 3⟩, ⟨16, "grid_16", 4⟩, ⟨25, "grid_25", 5⟩]

def maxCellCount (allowLargeGrid : Bool) : Nat :=
  if allowLargeGrid then 25 else 9

inductive Orientation where
  | horizontal
  | vertical
  deriving DecidableEq

/-- `_ORIENTATION_ASPECT`. -/
def Orientation.aspect : Orientation → String
  | .horizontal => "16:9"
  | .vertical => "9:16"

inductive Failure where
  | valueError
  | indexError
  | stopIteration
  deriving DecidableEq

structure GridLayout where
  gridSize : String
  rows : Nat
  cols : Nat
  gridAspectRatio : String
  cellCount : Nat
  placeholderCount : Nat
  deriving DecidableEq

/-! ## Planning -/

section Planning

variable (int : String → Option Int) (aspectRatio : String) (allowLargeGrid : Bool)

/-- `_orientation_of`, with `int` of the source language. -/
def orientationOf : Except Failure Orientation :=
  match (aspectRatio.toList.splitOn ':').map String.ofList with
  | [] => .error .indexError
  | first :: rest =>
    match int first, rest with
    | none, _ => .error .valueError
    | some _, [] => .error .indexError
    | some width, second :: _ =>
      match int second with
      | none => .error .valueError
      | some height => .ok (if height < width then .horizontal else .vertical)

def calculateGridLayout (numScenes : Nat) : Except Failure (Option GridLayout) :=
  if numScenes < 1 then .ok none
  else
    let effective := min numScenes (maxCellCount allowLargeGrid)
    match gridLadder.find? (fun rung => effective ≤ rung.cellCount) with
    | none => .error .stopIteration
    | some rung =>
      (orientationOf int aspectRatio).map (fun orientation => some
        { gridSize := rung.gridSize
          rows := rung.side
          cols := rung.side
          gridAspectRatio := orientation.aspect
          cellCount := rung.cellCount
          placeholderCount := rung.cellCount - effective })

/-- `range(0, stop, step)`. -/
def rangeStep (stop step : Nat) : List Nat :=
  (range ((stop + step - 1) / step)).map (fun turn => turn * step)

variable {Scene : Type}

/-- One turn of the loop of `plan_grid_chunks`. -/
def planChunk (group : List Scene) (cellCount : Nat)
    (plans : List (List Scene × GridLayout)) (start : Nat) :
    Except Failure (List (List Scene × GridLayout)) := do
  let chunk := (group.drop start).take cellCount
  match ← calculateGridLayout int aspectRatio allowLargeGrid chunk.length with
  | none => return plans
  | some layout => return plans ++ [(chunk, layout)]

def planGridChunks (group : List Scene) : Except Failure (List (List Scene × GridLayout)) := do
  match ← calculateGridLayout int aspectRatio allowLargeGrid group.length with
  | none => return []
  | some layout =>
    (rangeStep group.length layout.cellCount).foldlM
      (planChunk int aspectRatio allowLargeGrid group layout.cellCount) []

end Planning

/-! ## Cells -/

inductive FrameType where
  | first
  | transition
  | placeholder
  deriving DecidableEq

structure FrameCell (Scene : Type) where
  index : Nat
  row : Nat
  col : Nat
  frameType : FrameType
  prevSceneId : Option Scene
  nextSceneId : Option Scene

def buildFrameChain {Scene : Type} (sceneIds : List Scene) (rows cols : Nat) :
    List (FrameCell Scene) :=
  (range (rows * cols)).map (fun index =>
    let cell := FrameCell.mk index (index / cols) (index % cols)
    if index = 0 then cell .first none sceneIds[0]?
    else if index < sceneIds.length then
      cell .transition sceneIds[index - 1]? sceneIds[index]?
    else cell .placeholder none none)

/-- The chain that is built for a planned chunk. -/
def frameChain {Scene : Type} (plan : List Scene × GridLayout) : List (FrameCell Scene) :=
  buildFrameChain plan.1 plan.2.rows plan.2.cols

/-! ## The front end -/

structure FrontLayout where
  gridSize : Option String
  rows : Nat
  cols : Nat
  cellCount : Nat
  batchCount : Nat

/-- `computeGridSize`.  Lengths of arrays are far below the numbers whose
quotients a double rounds to the next integer. -/
def computeGridSize (count maxCellCount : Nat) : FrontLayout :=
  if count < 1 then ⟨none, 0, 0, 0, 0⟩
  else
    let effective := min count maxCellCount
    let rung := (gridLadder.find? (fun rung =>
      effective ≤ rung.cellCount)).getD ⟨25, "grid_25", 5⟩
    { gridSize := some rung.gridSize
      rows := rung.side
      cols := rung.side
      cellCount := rung.cellCount
      batchCount :=
        if rung.cellCount < count then
          (count + rung.cellCount - 1) / rung.cellCount
        else 1 }

/-! ## Layouts -/

variable {Scene : Type} {int : String → Option Int} {aspectRatio : String} {allowLargeGrid : Bool}

/-- What a layout of this many scenes is: they fit, or there are more of them
than a grid may have cells. -/
structure Fits (allowLargeGrid : Bool) (count : Nat) (layout : GridLayout) : Prop where
  enough : min count (maxCellCount allowLargeGrid) ≤ layout.cellCount
  bounded : layout.cellCount ≤ maxCellCount allowLargeGrid
  positive : 0 < layout.cellCount
  square : layout.rows * layout.cols = layout.cellCount
  front : (computeGridSize count (maxCellCount allowLargeGrid)).batchCount =
    if layout.cellCount < count then
      (count + layout.cellCount - 1) / layout.cellCount
    else 1

theorem calculateGridLayout_cases (int : String → Option Int)
    (aspectRatio : String) (allowLargeGrid : Bool) {count : Nat} (nonempty : 0 < count) :
    match orientationOf int aspectRatio with
    | .error failure => calculateGridLayout int aspectRatio allowLargeGrid
        count = .error failure
    | .ok _ => ∃ layout, calculateGridLayout int aspectRatio allowLargeGrid
        count = .ok (some layout) ∧ Fits allowLargeGrid count layout := by
  have found : ∃ rung, gridLadder.find? (fun rung =>
      min count (maxCellCount allowLargeGrid) ≤ rung.cellCount) = some rung ∧
      min count (maxCellCount allowLargeGrid) ≤ rung.cellCount ∧
      rung.cellCount ≤ maxCellCount allowLargeGrid ∧
      0 < rung.cellCount ∧ rung.side * rung.side = rung.cellCount := by
    cases allowLargeGrid <;>
      simp only [maxCellCount, gridLadder, find?_cons, if_true, Bool.false_eq_true, if_false]
    all_goals repeat' split
    all_goals simp_all
  obtain ⟨rung, found, enough, bounded, positive, square⟩ := found
  unfold calculateGridLayout
  simp only [Nat.not_lt.mpr nonempty, if_false, found]
  cases orientationOf int aspectRatio with
  | error failure => rfl
  | ok orientation =>
    refine ⟨_, rfl, enough, bounded, positive, square, ?_⟩
    simp only [computeGridSize, Nat.not_lt.mpr nonempty, if_false, found, Option.getD_some]

/-! ## Chunks -/

theorem flatten_chunks (group : List Scene) (size turns : Nat) : ((range turns).map (fun turn =>
      (group.drop (turn * size)).take size)).flatten = group.take (turns * size) := by
  induction turns with
  | zero => simp
  | succ turns induction =>
    rw [range_succ, map_append, flatten_append, induction, Nat.succ_mul, take_add]
    simp

theorem foldlM_planChunk {group : List Scene} {size : Nat} {starts : List Nat}
    {orientation : Orientation} (readable : orientationOf int aspectRatio = .ok orientation)
    (positive : 0 < size) (bounded : size ≤ maxCellCount allowLargeGrid)
    (inside : ∀ start ∈ starts, start < group.length) (plans : List (List Scene × GridLayout)) :
    ∃ added, starts.foldlM (planChunk int aspectRatio allowLargeGrid group size) plans =
          .ok (plans ++ added) ∧
      added.map Prod.fst = starts.map (fun start => (group.drop start).take size) ∧
      ∀ plan ∈ added, plan.1.length ≤ plan.2.cellCount ∧
        plan.2.rows * plan.2.cols = plan.2.cellCount := by
  induction starts generalizing plans with
  | nil => exact ⟨[], by simp [pure, Except.pure]⟩
  | cons start starts induction =>
    have here := inside start mem_cons_self
    have nonempty : 0 < ((group.drop start).take size).length := by
      rw [length_take, length_drop]
      omega
    have calculated := calculateGridLayout_cases int aspectRatio allowLargeGrid nonempty
    rw [readable] at calculated
    obtain ⟨layout, calculated, fits⟩ := calculated
    obtain ⟨added, looped, chunks, all⟩ := induction
      (fun later member => inside later (mem_cons_of_mem _ member))
      (plans ++ [((group.drop start).take size, layout)])
    refine ⟨((group.drop start).take size, layout) :: added, ?_, ?_, ?_⟩
    · rw [foldlM_cons, planChunk, calculated]
      simpa [bind, Except.bind, pure, Except.pure] using looped
    · rw [map_cons, chunks, map_cons]
    · intro plan member
      rcases mem_cons.mp member with same | later
      · subst same
        have enough := fits.enough
        rw [Nat.min_eq_left (Nat.le_trans (length_take_le _ _) bounded)] at enough
        exact ⟨enough, fits.square⟩
      · exact all plan later

/-! ## Chains -/

theorem filterMap_range (ids : List Scene) (count : Nat) :
    (range count).filterMap (fun index => ids[index]?) = ids.take count := by
  induction count with
  | zero => simp
  | succ count induction =>
    rw [range_succ, filterMap_append, induction, take_add_one]
    cases found : ids[count]? <;> simp [found]

/-- A cell stands before the scene of its index, if there is one. -/
theorem filterMap_buildFrameChain {ids : List Scene} {rows cols : Nat}
    (fits : ids.length ≤ rows * cols) :
    (buildFrameChain ids rows cols).filterMap FrameCell.nextSceneId = ids := by
  unfold buildFrameChain
  rw [filterMap_map]
  refine Eq.trans ?_ ((filterMap_range ids (rows * cols)).trans (take_of_length_le fits))
  apply filterMap_congr
  intro index _
  simp only [Function.comp_apply]
  split
  · next first => rw [first]
  · split
    · rfl
    · next past => exact (getElem?_eq_none (Nat.not_lt.mp past)).symm

theorem prevSceneId_buildFrameChain {ids : List Scene} {rows cols index : Nat}
    {cell : FrameCell Scene} (found : (buildFrameChain ids rows cols)[index]? = some cell)
    (linked : cell.prevSceneId.isSome = true) :
    ∃ before, 0 < index ∧ (buildFrameChain ids rows cols)[index - 1]? = some before ∧
      before.nextSceneId = cell.prevSceneId := by
  have inside : index < rows * cols := by
    have bound := (List.getElem?_eq_some_iff.mp found).1
    simpa [buildFrameChain] using bound
  have earlier : index - 1 < rows * cols := by omega
  simp only [buildFrameChain, getElem?_map, getElem?_range inside,
    Option.map_some, Option.some.injEq] at found
  simp only [buildFrameChain, getElem?_map, getElem?_range earlier, Option.map_some]
  subst found
  split at linked
  · cases linked
  · split at linked
    · next notFirst within =>
      refine ⟨_, Nat.pos_of_ne_zero notFirst, rfl, ?_⟩
      rw [if_neg notFirst, if_pos within]
      split
      · next isFirst => rw [isFirst]
      · rw [if_pos (by omega)]
    · cases linked

/-- A plan fails only for an aspect ratio that cannot be read.  Its chunks are
the group, each fits its grid; every scene comes next in exactly one cell, the
scene before a cell is the one that comes next in the cell before, and the
front end counts the same number of grids. -/
theorem grid_chunks_cover [DecidableEq Scene] (int : String → Option Int)
    (aspectRatio : String) (allowLargeGrid : Bool) (group : List Scene) (distinct : group.Nodup) :
    (∀ failure, planGridChunks int aspectRatio allowLargeGrid group = .error failure →
      orientationOf int aspectRatio = .error failure) ∧
    ∀ plans, planGridChunks int aspectRatio allowLargeGrid group = .ok plans →
      (plans.map Prod.fst).flatten = group ∧ (∀ plan ∈ plans, plan.1.length ≤ plan.2.cellCount ∧
        plan.2.rows * plan.2.cols = plan.2.cellCount) ∧
      (∀ scene ∈ group, (plans.flatMap frameChain).countP
        (fun cell => cell.nextSceneId = some scene) = 1) ∧
      (∀ plan ∈ plans, ∀ (index : Nat) (cell : FrameCell Scene),
        (frameChain plan)[index]? = some cell →
        cell.prevSceneId.isSome = true →
        ∃ before, 0 < index ∧ (frameChain plan)[index - 1]? = some before ∧
          before.nextSceneId = cell.prevSceneId) ∧
      plans.length = (computeGridSize group.length (maxCellCount allowLargeGrid)).batchCount := by
  rcases Nat.eq_zero_or_pos group.length with empty | nonempty
  · have none : planGridChunks int aspectRatio allowLargeGrid group = .ok [] := by
      rw [planGridChunks, empty]
      rfl
    have noScene := length_eq_zero_iff.mp empty
    subst noScene
    rw [none]
    refine ⟨?_, ?_⟩
    · intro failure failed
      cases failed
    · intro plans planned
      cases planned
      refine ⟨rfl, ?_, ?_, ?_, rfl⟩ <;> (intro _ member; cases member)
  · have calculated := calculateGridLayout_cases int aspectRatio allowLargeGrid nonempty
    cases readable : orientationOf int aspectRatio with
    | error failure =>
      rw [readable] at calculated
      rw [planGridChunks, calculated]
      refine ⟨?_, ?_⟩
      · intro other failed
        cases failed
        rfl
      · intro plans planned
        cases planned
    | ok orientation =>
      rw [readable] at calculated
      obtain ⟨layout, calculated, fits⟩ := calculated
      have positive := fits.positive
      have turns (turn : Nat) : turn < (group.length + layout.cellCount - 1) /
          layout.cellCount ↔ turn * layout.cellCount < group.length := by
        rw [Nat.lt_iff_add_one_le, Nat.le_div_iff_mul_le positive, Nat.succ_mul]
        omega
      have inside : ∀ start ∈ rangeStep group.length layout.cellCount, start < group.length := by
        intro start member
        obtain ⟨turn, within, rfl⟩ := mem_map.mp member
        exact (turns turn).mp (mem_range.mp within)
      obtain ⟨added, looped, chunks, fitting⟩ := foldlM_planChunk readable
        positive fits.bounded inside []
      rw [planGridChunks, calculated]
      refine ⟨fun failure failed => ?_, fun plans planned => ?_⟩
      · cases looped.symm.trans failed
      cases looped.symm.trans planned
      rw [nil_append]
      have whole : (added.map Prod.fst).flatten = group := by
        rw [chunks, rangeStep, map_map]
        refine (flatten_chunks group layout.cellCount _).trans ?_
        apply take_of_length_le
        exact Nat.not_lt.mp (fun more => Nat.lt_irrefl _ ((turns _).mpr more))
      refine ⟨whole, fitting, ?_, ?_, ?_⟩
      · intro scene member
        have scenes : (added.flatMap frameChain).filterMap FrameCell.nextSceneId = group := by
          rw [filterMap_flatMap, ← whole, ← flatMap_def]
          apply flatMap_congr
          intro plan isPlan
          obtain ⟨enough, square⟩ := fitting plan isPlan
          exact filterMap_buildFrameChain (square ▸ enough)
        have once := count_eq_one_of_mem distinct member
        rw [← scenes, count_filterMap] at once
        rw [← once]
        apply countP_congr
        intro cell _
        simp
      · intro plan _ index cell found linked
        exact prevSceneId_buildFrameChain found linked
      · rw [← length_map, chunks, length_map, rangeStep, length_map, length_range, fits.front]
        split
        · rfl
        · next few =>
          rw [Nat.div_eq_iff positive]
          omega

/-- `int` of a run of digits. -/
def decimal (part : String) : Option Int :=
  if part.toList.all Char.isDigit then
    some (part.toList.foldl (fun value digit => 10 * value + (digit.toNat - 48)) 0)
  else none

theorem grid_chunks_cover_eleven : (range 11).Nodup ∧
    ∃ plans, planGridChunks decimal "16:9" false (range 11) = .ok plans ∧
      plans.map (fun plan => plan.1.length) = [9, 2] ∧
      (plans.map Prod.fst).flatten = range 11 := by
  have planned : planGridChunks decimal "16:9" false (range 11) = .ok _ := rfl
  have distinct : (range 11).Nodup := nodup_range
  exact ⟨distinct, _, planned, rfl, ((grid_chunks_cover _ _ _ _ distinct).2 _ planned).1⟩

end MatrixSpooll.Grid
