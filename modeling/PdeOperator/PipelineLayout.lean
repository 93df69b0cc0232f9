import Mathlib.Data.Finset.Basic
import Mathlib.Data.Rat.Defs
import PdeOperator.BaseJson

/-! The layout of a pipeline report (`pipeline-viewer/layout.ts`): stages become nodes with positions and sizes,
bottom up, and edges between their ids. The numbers of the source are integers here but for the centers of the
branches, which are halves. -/

namespace PdeOperator
open Base

namespace Pipeline

/-- What the panel of a stage shows; `shown` are its further fields. -/
structure StageDetail where
  id : Text
  name : Text
  type : Text
  status : Option Text := none
  shown : JsonObject := []

mutual
/-- A missing list of parallel stages is an empty one. -/
inductive PipelineStage where
  | mk (detail : StageDetail) (parallelStages : List PipelineStage) (nestedPipeline : Option PipelineReport)
inductive PipelineReport where
  | mk (name status : Option Text) (stages : List PipelineStage)
end

def PipelineStage.detail : PipelineStage → StageDetail
  | .mk detail _ _ => detail

def PipelineStage.id (stage : PipelineStage) : Text := stage.detail.id

def PipelineReport.stages : PipelineReport → List PipelineStage
  | .mk _ _ stages => stages

def leafW : Int := 168
def leafH : Int := 44
def gapX : Int := 72
def gapY : Int := 16
def groupPad : Int := 20
def headerH : Int := 32
def minGroupW : Int := 140
def railGap : Int := 56
def railW : Int := 4

inductive Variant where
  | split | merge
  deriving DecidableEq

/-- `type` and `data` of a node. -/
inductive NodeData where
  | stage (label status : Text) (detail : StageDetail)
  | rail (branchCenters : List ℚ) (variant : Variant)
  | nestedPipeline (label status groupId : Text) (collapsed : Bool) (detail : StageDetail)

structure Node where
  id : Text
  x : Int
  y : Int
  parentId : Option Text
  extent : Option Text
  data : NodeData
  width : Int
  height : Int
  zIndex : Option Int := none

structure Edge where
  id : Text
  source : Text
  target : Text
  sourceHandle : Option Text
  targetHandle : Option Text

structure SegmentLayout where
  width : Int
  height : Int
  nodes : List Node
  edges : List Edge
  entries : List Text
  exits : List Text

def makeEdge (source target : Text) (sourceHandle targetHandle : Option Text) : Edge where
  id := source ++ ":".toList ++ sourceHandle.getD [] ++ "->".toList ++ target ++ ":".toList ++ targetHandle.getD []
  source := source
  target := target
  sourceHandle := sourceHandle
  targetHandle := targetHandle

/-- `id.endsWith("/" + word)` -/
def endsWith (id word : Text) : Bool := ('/' :: word).isSuffixOf id

def connectSegments (fromExits toEntries : List Text) : List Edge :=
  fromExits.flatMap fun source => toEntries.map fun target =>
    makeEdge source target (if endsWith source "merge".toList then some "out".toList else none)
      (if endsWith target "split".toList then some "in".toList else none)

def extentOf (parentId : Option Text) : Option Text := parentId.map fun _ => "parent".toList

/-- `text || other` -/
def orElse (text other : Option Text) : Text := if text.getD [] ≠ [] then text.getD [] else other.getD []

def layoutLeaf (detail : StageDetail) (nodeId : Text) (x y : Int) (parentId : Option Text) : SegmentLayout where
  width := leafW
  height := leafH
  nodes := [{ id := nodeId, x, y, parentId, extent := extentOf parentId,
              data := .stage detail.name (detail.status.getD []) detail, width := leafW, height := leafH }]
  edges := []
  entries := [nodeId]
  exits := [nodeId]

def makeRailNode (id : Text) (variant : Variant) (x y height : Int) (branchCenters : List ℚ)
    (parentId : Option Text) : Node where
  id := id
  x := x
  y := y
  parentId := parentId
  extent := extentOf parentId
  data := .rail branchCenters variant
  width := railW
  height := max height leafH
  zIndex := some 1

/-- `prefix/word` -/
def childPath (path word : Text) : Text := path ++ '/' :: word

def branchHandle (letter : Char) (i : Nat) : Text := letter :: Nat.toDigits 10 i

/-- The variables of the loop over the branches of a parallel block. -/
structure Branches where
  childY : Int
  maxChildW : Int := 0
  nodes : List Node := []
  edges : List Edge := []
  branchCenters : List ℚ := []

/-- The turn of the loop for the branch `i`. -/
def Branches.push (s : Branches) (splitId mergeId : Text) (y : Int) (i : Nat) (placed : SegmentLayout) :
    Branches where
  childY := s.childY + placed.height + gapY
  maxChildW := max s.maxChildW placed.width
  nodes := s.nodes ++ placed.nodes
  edges := s.edges ++ placed.edges ++
    placed.entries.map (fun entry => makeEdge splitId entry (some (branchHandle 's' i)) none) ++
    placed.exits.map fun exit => makeEdge exit mergeId none (some (branchHandle 't' i))
  branchCenters := s.branchCenters ++ [(s.childY : ℚ) + (placed.height : ℚ) / 2 - y]

/-- What follows the loop over the branches; `count` is their number. -/
def Branches.finish (s : Branches) (path : Text) (x y : Int) (count : Nat) (parentId : Option Text) :
    SegmentLayout :=
  let height := if count ≠ 0 then s.childY - y - gapY else leafH
  let mergeX := x + railGap + railW + s.maxChildW + railGap
  { width := if count ≠ 0 then mergeX + railW - x else railW
    height := max height leafH
    nodes := s.nodes ++
      [makeRailNode (childPath path "split".toList) .split x y height s.branchCenters parentId,
        makeRailNode (childPath path "merge".toList) .merge mergeX y height s.branchCenters parentId]
    edges := s.edges
    entries := [childPath path "split".toList]
    exits := [childPath path "merge".toList] }

/-- The variables of the loop over stages in a row. -/
structure Row where
  x : Int
  nodes : List Node := []
  edges : List Edge := []
  prevExits : List Text := []
  maxHeight : Int := 0
  firstEntries : List Text := []

/-- The turn of the loop for the stage `i`. -/
def Row.push (s : Row) (i : Nat) (placed : SegmentLayout) : Row where
  x := s.x + placed.width + gapX
  nodes := s.nodes ++ placed.nodes
  edges := s.edges ++ placed.edges ++
    (if s.prevExits ≠ [] then connectSegments s.prevExits placed.entries else [])
  prevExits := placed.exits
  maxHeight := max s.maxHeight placed.height
  firstEntries := if i = 0 then placed.entries else s.firstEntries

def Row.finish (s : Row) (offsetX : Int) (count : Nat) : SegmentLayout where
  width := if count ≠ 0 then s.x - offsetX - gapX else 0
  height := s.maxHeight
  nodes := s.nodes
  edges := s.edges
  entries := s.firstEntries
  exits := s.prevExits

def groupNode (detail : StageDetail) (name status : Option Text) (groupId : Text) (x y : Int)
    (parentId : Option Text) (isCollapsed : Bool) (groupW groupH : Int) : Node where
  id := groupId
  x := x
  y := y
  parentId := parentId
  extent := extentOf parentId
  data := .nestedPipeline (orElse name (some detail.name)) (orElse status detail.status) groupId isCollapsed detail
  width := groupW
  height := groupH
  zIndex := some 0

/-- The node of a group stands in front of the nodes inside it; a collapsed or an empty group has none. -/
def groupSegment (detail : StageDetail) (name status : Option Text) (groupId : Text) (x y : Int)
    (parentId : Option Text) (isCollapsed : Bool) (inner : Option SegmentLayout) : SegmentLayout :=
  let groupW := inner.elim minGroupW fun inner => max (inner.width + groupPad * 2) minGroupW
  let groupH := inner.elim (headerH + groupPad * 2) fun inner => headerH + groupPad * 2 + inner.height
  { width := groupW
    height := groupH
    nodes := groupNode detail name status groupId x y parentId isCollapsed groupW groupH ::
      inner.elim [] SegmentLayout.nodes
    edges := inner.elim [] SegmentLayout.edges
    entries := [groupId]
    exits := [groupId] }

section Layout

variable (collapsed : Finset Text)

mutual

def layoutStage : PipelineStage → Text → Int → Int → Option Text → SegmentLayout
  | .mk detail parallelStages nestedPipeline, nodeId, x, y, parentId =>
      if detail.type = "PARALLEL_BLOCK".toList ∧ parallelStages ≠ [] then
        (layoutBranches parallelStages nodeId (x + railGap + railW) y parentId 0 { childY := y }).finish nodeId x y
          parallelStages.length parentId
      else if detail.type = "ATLAS_PIPELINE_TRIGGER".toList then
        layoutNestedPipeline detail nestedPipeline nodeId x y parentId
      else layoutLeaf detail nodeId x y parentId

/-- The loop of `layoutParallelBlock` from the branch `i` on. -/
def layoutBranches : List PipelineStage → Text → Int → Int → Option Text → Nat → Branches → Branches
  | [], _, _, _, _, _, s => s
  | child :: children, path, childX, y, parentId, i, s =>
      layoutBranches children path childX y parentId (i + 1)
        (s.push (childPath path "split".toList) (childPath path "merge".toList) y i
          (layoutStage child (childPath path child.id) childX s.childY parentId))

/-- A trigger without a nested pipeline is a leaf. -/
def layoutNestedPipeline (detail : StageDetail) :
    Option PipelineReport → Text → Int → Int → Option Text → SegmentLayout
  | none, nodeId, x, y, parentId => layoutLeaf detail nodeId x y parentId
  | some (.mk name status stages), groupId, x, y, parentId =>
      groupSegment detail name status groupId x y parentId (decide (groupId ∈ collapsed))
        (if groupId ∉ collapsed ∧ stages ≠ [] then
          some ((layoutRow stages (childPath groupId "nested".toList) (headerH + groupPad) (some groupId) 0
            { x := groupPad }).finish groupPad stages.length)
        else none)

/-- The loop of `layoutStages` from the stage `i` on. -/
def layoutRow : List PipelineStage → Text → Int → Option Text → Nat → Row → Row
  | [], _, _, _, _, s => s
  | stage :: stages, path, y, parentId, i, s =>
      layoutRow stages path y parentId (i + 1)
        (s.push i (layoutStage stage (childPath path stage.id) s.x y parentId))

end

def layoutStages (stages : List PipelineStage) (path : Text) (offsetX offsetY : Int) (parentId : Option Text) :
    SegmentLayout :=
  (layoutRow collapsed stages path offsetY parentId 0 { x := offsetX }).finish offsetX stages.length

def layoutPipelineReport (report : PipelineReport) : List Node × List Edge :=
  if report.stages = [] then ([], [])
  else
    let result := layoutStages collapsed report.stages "root".toList 24 24 none
    (result.nodes, result.edges)

end Layout

end Pipeline
end PdeOperator
