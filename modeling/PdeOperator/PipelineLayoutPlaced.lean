import PdeOperator.BaseForest
import PdeOperator.BasePath
import PdeOperator.PipelineLayout

/-! The layout is well formed: one invariant of a placed segment, one of each loop, and an induction over the
stages. -/

namespace PdeOperator
open Base

namespace Pipeline

/-- An id as PDE gives it to a stage. -/
structure IsStageId (id : Text) : Prop where
  ne_nil : id ≠ []
  slash_notMem : '/' ∉ id
  ne_split : id ≠ "split".toList
  ne_merge : id ≠ "merge".toList
  ne_nested : id ≠ "nested".toList

structure Siblings (stages : List PipelineStage) : Prop where
  isStageId : ∀ stage ∈ stages, IsStageId stage.id
  nodup : (stages.map PipelineStage.id).Nodup

mutual
def PipelineStage.WellNamed : PipelineStage → Prop
  | .mk _ parallelStages nestedPipeline =>
      (Siblings parallelStages ∧ AllWellNamed parallelStages) ∧ NestedWellNamed nestedPipeline
def AllWellNamed : List PipelineStage → Prop
  | [] => True
  | stage :: stages => stage.WellNamed ∧ AllWellNamed stages
def NestedWellNamed : Option PipelineReport → Prop
  | none => True
  | some (.mk _ _ stages) => Siblings stages ∧ AllWellNamed stages
end

/-- Ids are stage ids, and different among siblings, at every depth. -/
def PipelineReport.WellNamed (report : PipelineReport) : Prop :=
  Siblings report.stages ∧ AllWellNamed report.stages

inductive HandleType where
  | source | target
  deriving DecidableEq

/-- The named handles that `RailNode` renders; `showTarget` and `showSource` come from the edges. -/
def Node.handles (edges : List Edge) (node : Node) : List (HandleType × Text) :=
  match node.data with
  | .rail branchCenters .split =>
      (if edges.any fun edge => edge.target = node.id then [(.target, "in".toList)] else []) ++
        branchCenters.mapIdx fun i _ => (.source, branchHandle 's' i)
  | .rail branchCenters .merge =>
      (branchCenters.mapIdx fun i _ => (.target, branchHandle 't' i)) ++
        if edges.any fun edge => edge.source = node.id then [(.source, "out".toList)] else []
  | _ => []

def Node.IsRail (node : Node) (variant : Variant) : Prop := ∃ centers, node.data = .rail centers variant

/-- A rail with a handle for a branch. -/
def Node.HasBranch (node : Node) (variant : Variant) (i : Nat) : Prop :=
  ∃ centers, node.data = .rail centers variant ∧ i < centers.length

/-- The ends of an edge with what its handles ask of them. -/
structure Joins (edge : Edge) (source target : Node) : Prop where
  source_id : source.id = edge.source
  target_id : target.id = edge.target
  parent_eq : source.parentId = target.parentId
  left : source.x + source.width < target.x
  sourceHandle : ∀ name ∈ edge.sourceHandle,
    (source.IsRail .merge ∧ name = "out".toList) ∨ ∃ i, source.HasBranch .split i ∧ name = branchHandle 's' i
  targetHandle : ∀ name ∈ edge.targetHandle,
    (target.IsRail .split ∧ name = "in".toList) ∨ ∃ i, target.HasBranch .merge i ∧ name = branchHandle 't' i

def EdgeOk (nodes : List Node) (edge : Edge) : Prop := ∃ source ∈ nodes, ∃ target ∈ nodes, Joins edge source target

theorem EdgeOk.mono {nodes nodes' : List Node} {edge : Edge} (h : EdgeOk nodes edge) (hsubset : nodes ⊆ nodes') :
    EdgeOk nodes' edge := by
  obtain ⟨source, hsource, target, htarget, hjoins⟩ := h
  exact ⟨source, hsubset hsource, target, hsubset htarget, hjoins⟩

theorem mem_handles_source {edges : List Edge} {edge : Edge} {source target : Node} (hedge : edge ∈ edges)
    (h : Joins edge source target) : ∀ name ∈ edge.sourceHandle, (.source, name) ∈ source.handles edges := by
  intro name hname
  rcases h.sourceHandle name hname with ⟨⟨centers, hdata⟩, rfl⟩ | ⟨i, ⟨centers, hdata, hi⟩, rfl⟩
  · have hany : (edges.any fun edge => edge.source = source.id) = true :=
      List.any_eq_true.mpr ⟨edge, hedge, decide_eq_true h.source_id.symm⟩
    simp only [Node.handles, hdata]
    rw [if_pos hany]
    exact List.mem_append_right _ (List.mem_singleton_self _)
  · simp only [Node.handles, hdata]
    exact List.mem_append_right _ (List.mem_mapIdx.mpr ⟨i, hi, rfl⟩)

theorem mem_handles_target {edges : List Edge} {edge : Edge} {source target : Node} (hedge : edge ∈ edges)
    (h : Joins edge source target) : ∀ name ∈ edge.targetHandle, (.target, name) ∈ target.handles edges := by
  intro name hname
  rcases h.targetHandle name hname with ⟨⟨centers, hdata⟩, rfl⟩ | ⟨i, ⟨centers, hdata, hi⟩, rfl⟩
  · have hany : (edges.any fun edge => edge.target = target.id) = true :=
      List.any_eq_true.mpr ⟨edge, hedge, decide_eq_true h.target_id.symm⟩
    simp only [Node.handles, hdata]
    rw [if_pos hany]
    exact List.mem_append_left _ (List.mem_singleton_self _)
  · simp only [Node.handles, hdata]
    exact List.mem_append_left _ (List.mem_mapIdx.mpr ⟨i, hi, rfl⟩)

def Node.item (node : Node) : Item Text Int where
  id := node.id
  parent := node.parentId
  box := ⟨node.x, node.y, node.x + node.width, node.y + node.height⟩
  inner := ⟨0, 0, node.width, node.height⟩

/-- A node at an end of a segment; the end of a block is a rail, and no other id looks like one. -/
def IsEnd (parentId : Option Text) (nodes : List Node) (word : Text) (variant : Variant) (id : Text) : Prop :=
  ∃ node ∈ nodes, node.id = id ∧ node.parentId = parentId ∧ (endsWith id word = true → node.IsRail variant)

/-- Nodes below a path, each below one of some words, in an area. -/
structure Laid (path : Text) (words : List Text) (parentId : Option Text) (area : Box Int) (nodes : List Node) :
    Prop where
  placed : Placed parentId (nodes.map Node.item)
  below : ∀ node ∈ nodes, ∃ word ∈ words, Below '/' (childPath path word) node.id
  within : Within parentId area (nodes.map Node.item)

/-- What a stage is laid out to. -/
structure Segment (nodeId : Text) (x y : Int) (parentId : Option Text) (layout : SegmentLayout) : Prop where
  placed : Placed parentId (layout.nodes.map Node.item)
  below : ∀ node ∈ layout.nodes, Below '/' nodeId node.id
  within : Within parentId ⟨x, y, x + layout.width, y + layout.height⟩ (layout.nodes.map Node.item)
  width_nonneg : 0 ≤ layout.width
  height_nonneg : 0 ≤ layout.height
  edges : ∀ edge ∈ layout.edges, EdgeOk layout.nodes edge
  entries : ∀ id ∈ layout.entries, IsEnd parentId layout.nodes "split".toList .split id
  exits : ∀ id ∈ layout.exits, IsEnd parentId layout.nodes "merge".toList .merge id

section Lemmas

variable {path word nodeId : Text} {words words' : List Text} {parentId : Option Text} {area area' all : Box Int}
  {nodes nodes' : List Node} {x y : Int} {layout : SegmentLayout}

theorem IsEnd.mono {variant : Variant} {id : Text} (h : IsEnd parentId nodes word variant id)
    (hsubset : nodes ⊆ nodes') : IsEnd parentId nodes' word variant id := by
  obtain ⟨node, hnode, hend⟩ := h
  exact ⟨node, hsubset hnode, hend⟩

theorem inside_of_within (h : Within parentId area (nodes.map Node.item)) {node : Node} (hnode : node ∈ nodes)
    (hparent : node.parentId = parentId) : node.item.box.Inside area :=
  h node.item (List.mem_map_of_mem hnode) hparent

theorem length_childPath (path word : Text) : (childPath path word).length = path.length + (word.length + 1) := by
  rw [childPath, List.length_append, List.length_cons]

/-- Ids below a path are longer than it. -/
theorem ne_some_of_below (hparent : ∀ group ∈ parentId, group.length ≤ path.length) {id : Text}
    (h : Below '/' (childPath path word) id) : parentId ≠ some id := by
  intro heq
  have hshort := hparent id heq
  have hlong := h.length_le
  rw [length_childPath] at hlong
  omega

theorem Segment.laid (h : Segment (childPath path word) x y parentId layout) :
    Laid path [word] parentId ⟨x, y, x + layout.width, y + layout.height⟩ layout.nodes where
  placed := h.placed
  below := fun node hnode => ⟨word, List.mem_singleton_self _, h.below node hnode⟩
  within := h.within

/-- A segment is laid out below its own word. -/
theorem Segment.of_laid
    (h : Laid path [word] parentId ⟨x, y, x + layout.width, y + layout.height⟩ layout.nodes)
    (hwidth : 0 ≤ layout.width) (hheight : 0 ≤ layout.height) (hedges : ∀ edge ∈ layout.edges, EdgeOk layout.nodes edge)
    (hentries : ∀ id ∈ layout.entries, IsEnd parentId layout.nodes "split".toList .split id)
    (hexits : ∀ id ∈ layout.exits, IsEnd parentId layout.nodes "merge".toList .merge id) :
    Segment (childPath path word) x y parentId layout where
  placed := h.placed
  below := by
    intro node hnode
    obtain ⟨word', hword', hbelow⟩ := h.below node hnode
    rwa [List.mem_singleton.mp hword'] at hbelow
  within := h.within
  width_nonneg := hwidth
  height_nonneg := hheight
  edges := hedges
  entries := hentries
  exits := hexits

theorem laid_nil : Laid path words parentId area [] where
  placed := placed_nil
  below := fun _ h => absurd h List.not_mem_nil
  within := fun _ h => absurd h List.not_mem_nil

theorem Laid.mono (h : Laid path words parentId area nodes) (harea : area.Inside all) :
    Laid path words parentId all nodes where
  placed := h.placed
  below := h.below
  within := h.within.mono harea

/-- Segments of different words in areas that are apart. -/
theorem Laid.append (h : Laid path words parentId area nodes) (h' : Laid path words' parentId area' nodes')
    (hparent : ∀ group ∈ parentId, group.length ≤ path.length) (hslash : ∀ word ∈ words ++ words', '/' ∉ word)
    (hwords : ∀ word ∈ words, ∀ word' ∈ words', word ≠ word') (hareas : area.Apart area')
    (harea : area.Inside all) (harea' : area'.Inside all) :
    Laid path (words ++ words') parentId all (nodes ++ nodes') where
  placed := by
    rw [List.map_append]
    refine h.placed.append h'.placed ?_ ?_ h.within h'.within hareas
    · intro item hitem item' hitem' hid
      obtain ⟨node, hnode, rfl⟩ := List.mem_map.mp hitem
      obtain ⟨node', hnode', rfl⟩ := List.mem_map.mp hitem'
      obtain ⟨word, hword, hbelow⟩ := h.below node hnode
      obtain ⟨word', hword', hbelow'⟩ := h'.below node' hnode'
      have hsame : node.id = node'.id := hid
      rw [← hsame] at hbelow'
      exact hwords word hword word' hword' (hbelow.child_unique (hslash word (List.mem_append_left _ hword))
        (hslash word' (List.mem_append_right _ hword')) hbelow')
    · intro item hitem
      rw [← List.map_append] at hitem
      obtain ⟨node, hnode, rfl⟩ := List.mem_map.mp hitem
      rcases List.mem_append.mp hnode with hnode | hnode
      · obtain ⟨word, -, hbelow⟩ := h.below node hnode
        exact ne_some_of_below hparent hbelow
      · obtain ⟨word, -, hbelow⟩ := h'.below node hnode
        exact ne_some_of_below hparent hbelow
  below := by
    intro node hnode
    rcases List.mem_append.mp hnode with hnode | hnode
    · obtain ⟨word, hword, hbelow⟩ := h.below node hnode
      exact ⟨word, List.mem_append_left _ hword, hbelow⟩
    · obtain ⟨word, hword, hbelow⟩ := h'.below node hnode
      exact ⟨word, List.mem_append_right _ hword, hbelow⟩
  within := by
    rw [List.map_append]
    exact (h.within.mono harea).append (h'.within.mono harea')

/-- One more word, whose nodes stand apart from the others. -/
theorem Laid.concat (h : Laid path words parentId area nodes) (h' : Laid path [word] parentId area' nodes')
    (hparent : ∀ group ∈ parentId, group.length ≤ path.length) (hslash : ∀ word' ∈ words ++ [word], '/' ∉ word')
    (hnew : word ∉ words) (hareas : area.Apart area') (harea : area.Inside all) (harea' : area'.Inside all) :
    Laid path (words ++ [word]) parentId all (nodes ++ nodes') := by
  refine h.append h' hparent hslash ?_ hareas harea harea'
  intro word' hword' word'' hword'' heq
  rw [List.mem_singleton.mp hword''] at heq
  exact hnew (heq ▸ hword')

/-- A single node of the common parent. -/
theorem placed_singleton {node : Node} (hself : parentId ≠ some node.id) (hnode : node.parentId = parentId)
    (hproper : node.item.box.Proper) : Placed parentId [node.item] :=
  Placed.cons node.item placed_nil hnode hproper (fun _ h => absurd h List.not_mem_nil)
    (fun _ h => absurd h List.not_mem_nil) hself fun _ h => absurd h List.not_mem_nil

theorem laid_singleton (node : Node) (hparent : ∀ group ∈ parentId, group.length ≤ path.length)
    (hid : node.id = childPath path word) (hnode : node.parentId = parentId) (hproper : node.item.box.Proper) :
    Laid path [word] parentId node.item.box [node] where
  placed := placed_singleton (ne_some_of_below hparent (Or.inl hid)) hnode hproper
  below := List.forall_mem_singleton.mpr ⟨word, List.mem_singleton_self _, Or.inl hid⟩
  within := List.forall_mem_singleton.mpr fun _ => Box.Inside.refl _

/-- The last word of a path decides how it ends. -/
theorem endsWith_childPath {last : Text} (hword : '/' ∉ word) (hlast : '/' ∉ last)
    (h : endsWith (childPath path word) last = true) : word = last := by
  obtain ⟨front, hfront⟩ := List.isSuffixOf_iff_suffix.mp h
  have hreverse := congrArg List.reverse hfront
  rw [childPath, List.reverse_append, List.reverse_append, List.reverse_cons, List.reverse_cons, List.append_assoc,
    List.append_assoc] at hreverse
  have hsame : last.reverse = word.reverse := word_unique (mt List.mem_reverse.mp hlast)
    (mt List.mem_reverse.mp hword) (by simp) (by simp) hreverse
  exact (List.reverse_injective hsame).symm

/-- A node with a size. -/
theorem proper_of_pos {node : Node} (hwidth : 0 < node.width) (hheight : 0 < node.height) :
    node.item.box.Proper :=
  ⟨Int.lt_add_of_pos_right node.x hwidth, Int.lt_add_of_pos_right node.y hheight⟩

/-- A node of a stage that stands for itself is both ends of its segment. -/
theorem isEnd_self {node : Node} {last : Text} {variant : Variant} (hnode : node ∈ nodes)
    (hparent : node.parentId = parentId) (hid : node.id = childPath path word) (hword : '/' ∉ word)
    (hlast : '/' ∉ last) (hne : word ≠ last) : IsEnd parentId nodes last variant node.id :=
  ⟨node, hnode, rfl, hparent, fun h => absurd (endsWith_childPath hword hlast (hid ▸ h)) hne⟩

theorem segment_layoutLeaf (detail : StageDetail) (x y : Int) (hword : IsStageId word)
    (hparent : ∀ group ∈ parentId, group.length ≤ path.length) :
    Segment (childPath path word) x y parentId (layoutLeaf detail (childPath path word) x y parentId) where
  placed := (laid_singleton _ hparent rfl rfl (proper_of_pos (by decide : 0 < leafW) (by decide : 0 < leafH))).placed
  below := List.forall_mem_singleton.mpr (below_refl _ _)
  within := (laid_singleton _ hparent rfl rfl (proper_of_pos (by decide : 0 < leafW) (by decide : 0 < leafH))).within
  width_nonneg := (by decide : (0 : Int) ≤ leafW)
  height_nonneg := (by decide : (0 : Int) ≤ leafH)
  edges := fun _ h => absurd h List.not_mem_nil
  entries := List.forall_mem_singleton.mpr
    (isEnd_self List.mem_cons_self rfl rfl hword.slash_notMem (by decide) hword.ne_split)
  exits := List.forall_mem_singleton.mpr
    (isEnd_self List.mem_cons_self rfl rfl hword.slash_notMem (by decide) hword.ne_merge)

end Lemmas

section Group

variable {path word : Text} {words : List Text} {parentId : Option Text} {x y : Int}

/-- A group around what is laid out inside it. -/
theorem laid_group (node : Node) {nodes : List Node} {area : Box Int}
    (hparent : ∀ group ∈ parentId, group.length ≤ path.length) (hid : node.id = childPath path word)
    (hnode : node.parentId = parentId) (hproper : node.item.box.Proper)
    (hlaid : Laid (childPath (childPath path word) "nested".toList) words (some (childPath path word)) area nodes)
    (harea : area.Inside node.item.inner) : Laid path [word] parentId node.item.box (node :: nodes) where
  placed := by
    have hplaced := hlaid.placed
    rw [← hid] at hplaced
    refine Placed.cons node.item hplaced hnode hproper ?_ ?_ (ne_some_of_below hparent (Or.inl hid)) ?_
    · intro item hitem heq
      obtain ⟨inner, hinner, rfl⟩ := List.mem_map.mp hitem
      obtain ⟨word', -, hbelow⟩ := hlaid.below inner hinner
      have hlong := hbelow.of_child.length_le
      have hsame : inner.id = node.id := heq
      rw [hsame, hid, length_childPath] at hlong
      omega
    · intro item hitem
      obtain ⟨inner, hinner, rfl⟩ := List.mem_map.mp hitem
      obtain ⟨word', -, hbelow⟩ := hlaid.below inner hinner
      exact ne_some_of_below hparent hbelow.of_child.of_child
    · have hwithin := hlaid.within.mono harea
      rw [← hid] at hwithin
      exact hwithin
  below := by
    intro inner hinner
    refine ⟨word, List.mem_singleton_self _, ?_⟩
    rcases List.mem_cons.mp hinner with rfl | hinner
    · exact Or.inl hid
    · obtain ⟨word', -, hbelow⟩ := hlaid.below inner hinner
      exact hbelow.of_child.of_child
  within := by
    intro item hitem hcommon
    obtain ⟨inner, hinner, rfl⟩ := List.mem_map.mp hitem
    rcases List.mem_cons.mp hinner with rfl | hinner
    · exact Box.Inside.refl _
    · have hitem : inner.item.parent = some (childPath path word) ∨ _ :=
        hlaid.placed.parent_cases (List.mem_map_of_mem hinner)
      rcases hitem with hown | ⟨above, habove, hown⟩
      · exact absurd (hcommon.symm.trans hown) (ne_some_of_below hparent (below_refl _ _))
      · obtain ⟨outer, houter, rfl⟩ := List.mem_map.mp habove
        obtain ⟨word', -, hbelow⟩ := hlaid.below outer houter
        exact absurd (hcommon.symm.trans hown) (ne_some_of_below hparent hbelow.of_child.of_child)

/-- A group in its place: the inner segment stays inside, under its header. -/
theorem segment_groupSegment (words : List Text) (detail : StageDetail) (name status : Option Text)
    (isCollapsed : Bool) {inner : Option SegmentLayout} (hword : IsStageId word)
    (hparent : ∀ group ∈ parentId, group.length ≤ path.length)
    (hinner : ∀ layout ∈ inner, Laid (childPath (childPath path word) "nested".toList) words
        (some (childPath path word)) ⟨groupPad, headerH + groupPad, groupPad + layout.width,
          headerH + groupPad + layout.height⟩ layout.nodes ∧
      0 ≤ layout.height ∧ ∀ edge ∈ layout.edges, EdgeOk layout.nodes edge) :
    Segment (childPath path word) x y parentId
      (groupSegment detail name status (childPath path word) x y parentId isCollapsed inner) := by
  have hpad : (0 : Int) < groupPad := by decide
  have hheader : (0 : Int) < headerH := by decide
  have hmin : (0 : Int) < minGroupW := by decide
  have hends : ∀ {node : Node} {nodes : List Node} {last : Text} {variant : Variant}, node.id = childPath path word →
      node.parentId = parentId → '/' ∉ last → word ≠ last →
      ∀ id ∈ [childPath path word], IsEnd parentId (node :: nodes) last variant id := by
    intro node nodes last variant hid hnode hlast hne id hmem
    rw [List.mem_singleton.mp hmem, ← hid]
    exact isEnd_self List.mem_cons_self hnode hid hword.slash_notMem hlast hne
  cases inner with
  | none =>
      have hlaid : Laid path [word] parentId ⟨x, y, x + minGroupW, y + (headerH + groupPad * 2)⟩ (groupSegment
          detail name status (childPath path word) x y parentId isCollapsed none).nodes := by
        refine laid_singleton (groupNode _ _ _ _ _ _ _ _ _ _) hparent rfl rfl (proper_of_pos hmin ?_)
        show 0 < headerH + groupPad * 2
        omega
      refine Segment.of_laid hlaid ?_ ?_ (fun _ h => absurd h List.not_mem_nil)
        (hends rfl rfl (by decide) hword.ne_split) (hends rfl rfl (by decide) hword.ne_merge)
      · show 0 ≤ minGroupW
        omega
      · show 0 ≤ headerH + groupPad * 2
        omega
  | some layout =>
      obtain ⟨hinside, hheight, hedges⟩ := hinner layout rfl
      have hlaid : Laid path [word] parentId ⟨x, y, x + max (layout.width + groupPad * 2) minGroupW,
          y + (headerH + groupPad * 2 + layout.height)⟩ (groupSegment detail name status (childPath path word) x y
            parentId isCollapsed (some layout)).nodes := by
        refine laid_group (groupNode _ _ _ _ _ _ _ _ _ _) hparent rfl rfl (proper_of_pos ?_ ?_) hinside
          ⟨?_, ?_, ?_, ?_⟩
        · show 0 < max (layout.width + groupPad * 2) minGroupW
          omega
        · show 0 < headerH + groupPad * 2 + layout.height
          omega
        · show 0 ≤ groupPad
          omega
        · show 0 ≤ headerH + groupPad
          omega
        · show groupPad + layout.width ≤ max (layout.width + groupPad * 2) minGroupW
          omega
        · show headerH + groupPad + layout.height ≤ headerH + groupPad * 2 + layout.height
          omega
      refine Segment.of_laid hlaid ?_ ?_ (fun edge hedge => (hedges edge hedge).mono (List.subset_cons_self _ _))
        (hends rfl rfl (by decide) hword.ne_split) (hends rfl rfl (by decide) hword.ne_merge)
      · show 0 ≤ max (layout.width + groupPad * 2) minGroupW
        omega
      · show 0 ≤ headerH + groupPad * 2 + layout.height
        omega

end Group

section Branches

variable {path : Text} {words : List Text} {parentId : Option Text} {x y : Int} {i : Nat} {s : Branches}

/-- An edge between a rail that is still to come and a node of a branch. -/
def Pending (path : Text) (parentId : Option Text) (i : Nat) (nodes : List Node) (edge : Edge) : Prop :=
  ∃ j < i, ∃ node ∈ nodes, node.parentId = parentId ∧
    (edge = makeEdge (childPath path "split".toList) node.id (some (branchHandle 's' j)) none ∨
      edge = makeEdge node.id (childPath path "merge".toList) none (some (branchHandle 't' j)))

/-- The loop over the branches, after `i` of them. -/
structure BranchesOk (path : Text) (words : List Text) (parentId : Option Text) (childX y : Int) (i : Nat)
    (s : Branches) : Prop where
  laid : Laid path words parentId ⟨childX, y, childX + s.maxChildW, s.childY - gapY⟩ s.nodes
  childY_ge : y ≤ s.childY
  maxChildW_nonneg : 0 ≤ s.maxChildW
  length_centers : s.branchCenters.length = i
  edges : ∀ edge ∈ s.edges, EdgeOk s.nodes edge ∨ Pending path parentId i s.nodes edge

theorem branchesOk_start (childX : Int) : BranchesOk path [] parentId childX y 0 { childY := y } where
  laid := laid_nil
  childY_ge := Int.le_refl _
  maxChildW_nonneg := Int.le_refl _
  length_centers := rfl
  edges := fun _ h => absurd h List.not_mem_nil

theorem Pending.mono {nodes nodes' : List Node} {edge : Edge} {j : Nat} (h : Pending path parentId i nodes edge)
    (hij : i ≤ j) (hsubset : nodes ⊆ nodes') : Pending path parentId j nodes' edge := by
  obtain ⟨k, hk, node, hnode, hedge⟩ := h
  exact ⟨k, hk.trans_le hij, node, hsubset hnode, hedge⟩

theorem BranchesOk.push {childX : Int} {word : Text} {placed : SegmentLayout}
    (h : BranchesOk path words parentId childX y i s)
    (hplaced : Segment (childPath path word) childX s.childY parentId placed)
    (hparent : ∀ group ∈ parentId, group.length ≤ path.length) (hslash : ∀ word' ∈ words ++ [word], '/' ∉ word')
    (hnew : word ∉ words) :
    BranchesOk path (words ++ [word]) parentId childX y (i + 1)
      (s.push (childPath path "split".toList) (childPath path "merge".toList) y i placed) := by
  have hgap : (0 : Int) < gapY := by decide
  have hwidth := hplaced.width_nonneg
  have hheight := hplaced.height_nonneg
  have hy := h.childY_ge
  have hmax := h.maxChildW_nonneg
  have hareas : Box.Apart (⟨childX, y, childX + s.maxChildW, s.childY - gapY⟩ : Box Int)
      ⟨childX, s.childY, childX + placed.width, s.childY + placed.height⟩ := by
    refine Or.inr (Or.inr (Or.inl ?_))
    show s.childY - gapY < s.childY
    omega
  exact
    { laid := by
        apply h.laid.concat hplaced.laid hparent hslash hnew hareas
        · refine ⟨Int.le_refl _, Int.le_refl _, ?_, ?_⟩
          · show childX + s.maxChildW ≤ childX + max s.maxChildW placed.width
            omega
          · show s.childY - gapY ≤ s.childY + placed.height + gapY - gapY
            omega
        · refine ⟨Int.le_refl _, hy, ?_, ?_⟩
          · show childX + placed.width ≤ childX + max s.maxChildW placed.width
            omega
          · show s.childY + placed.height ≤ s.childY + placed.height + gapY - gapY
            omega
      childY_ge := by
        show y ≤ s.childY + placed.height + gapY
        omega
      maxChildW_nonneg := by
        show 0 ≤ max s.maxChildW placed.width
        omega
      length_centers := by
        show (s.branchCenters ++ [_]).length = i + 1
        rw [List.length_append, h.length_centers, List.length_singleton]
      edges := by
        intro edge hedge
        rcases List.mem_append.mp hedge with hedge | hedge
        · rcases List.mem_append.mp hedge with hedge | hedge
          · rcases List.mem_append.mp hedge with hedge | hedge
            · exact (h.edges edge hedge).imp (fun h => h.mono (List.subset_append_left _ _))
                fun h => h.mono (Nat.le_succ i) (List.subset_append_left _ _)
            · exact Or.inl ((hplaced.edges edge hedge).mono (List.subset_append_right _ _))
          · obtain ⟨entry, hentry, rfl⟩ := List.mem_map.mp hedge
            obtain ⟨node, hnode, rfl, hcommon, -⟩ := hplaced.entries entry hentry
            exact Or.inr ⟨i, Nat.lt_succ_self i, node, List.mem_append_right _ hnode, hcommon, Or.inl rfl⟩
        · obtain ⟨exit, hexit, rfl⟩ := List.mem_map.mp hedge
          obtain ⟨node, hnode, rfl, hcommon, -⟩ := hplaced.exits exit hexit
          exact Or.inr ⟨i, Nat.lt_succ_self i, node, List.mem_append_right _ hnode, hcommon, Or.inr rfl⟩ }

/-- An edge to a branch joins its end with the handle of a rail, once the rails stand around the branches. -/
theorem edgeOk_of_pending {nodes : List Node} {split merge : Node} {centers : List ℚ} {area : Box Int} {edge : Edge}
    (hpending : Pending path parentId centers.length nodes edge)
    (hwithin : Within parentId area (nodes.map Node.item))
    (hsplit : split.id = childPath path "split".toList ∧ split.parentId = parentId ∧
      split.data = .rail centers .split ∧ split.x + split.width < area.left)
    (hmerge : merge.id = childPath path "merge".toList ∧ merge.parentId = parentId ∧
      merge.data = .rail centers .merge ∧ area.right < merge.x) :
    EdgeOk (nodes ++ [split, merge]) edge := by
  obtain ⟨j, hj, node, hnode, hparent, hedge⟩ := hpending
  obtain ⟨hsplitId, hsplitParent, hsplitData, hsplitX⟩ := hsplit
  obtain ⟨hmergeId, hmergeParent, hmergeData, hmergeX⟩ := hmerge
  have hinside := inside_of_within hwithin hnode hparent
  have hleft : area.left ≤ node.x := hinside.1
  have hright : node.x + node.width ≤ area.right := hinside.2.2.1
  rcases hedge with rfl | rfl
  · refine ⟨split, List.mem_append_right _ List.mem_cons_self, node, List.mem_append_left _ hnode, hsplitId, rfl,
      hsplitParent.trans hparent.symm, by omega, ?_, nofun⟩
    intro name hname
    exact Or.inr ⟨j, ⟨centers, hsplitData, hj⟩, (Option.some.inj hname).symm⟩
  · refine ⟨node, List.mem_append_left _ hnode, merge,
      List.mem_append_right _ (List.mem_cons_of_mem _ List.mem_cons_self), rfl, hmergeId,
      hparent.trans hmergeParent.symm, by omega, nofun, ?_⟩
    intro name hname
    exact Or.inr ⟨j, ⟨centers, hmergeData, hj⟩, (Option.some.inj hname).symm⟩

/-- Rails on both sides of what is laid out; `front` is around the nodes and the first rail. -/
theorem Laid.rails {nodes : List Node} {area all : Box Int} {split merge : Node} (front : Box Int)
    (h : Laid path words parentId area nodes) (hparent : ∀ group ∈ parentId, group.length ≤ path.length)
    (hwords : ∀ word ∈ words, IsStageId word) (hsplit : Laid path ["split".toList] parentId split.item.box [split])
    (hmerge : Laid path ["merge".toList] parentId merge.item.box [merge]) (hleft : split.x + split.width < area.left)
    (hright : front.right < merge.x) (hfront : area.Inside front ∧ split.item.box.Inside front)
    (hall : front.Inside all ∧ merge.item.box.Inside all) :
    Laid path (words ++ ["split".toList] ++ ["merge".toList]) parentId all (nodes ++ [split] ++ [merge]) := by
  have hslash : ∀ word ∈ words ++ ["split".toList], '/' ∉ word :=
    List.forall_mem_append.mpr ⟨fun word hword => (hwords word hword).slash_notMem, by decide⟩
  have hsplitNew : "split".toList ∉ words := fun hmem => (hwords _ hmem).ne_split rfl
  have hmergeNew : "merge".toList ∉ words ++ ["split".toList] := by
    intro hmem
    rcases List.mem_append.mp hmem with hmem | hmem
    · exact (hwords _ hmem).ne_merge rfl
    · exact absurd (List.mem_singleton.mp hmem) (by decide)
  have hbefore := h.concat hsplit hparent hslash hsplitNew (Or.inr (Or.inl hleft)) hfront.1 hfront.2
  exact hbefore.concat hmerge hparent (List.forall_mem_append.mpr ⟨hslash, by decide⟩) hmergeNew (Or.inl hright)
    hall.1 hall.2

/-- The block: its rails stand before and behind the branches. -/
theorem BranchesOk.segment_finish {count : Nat}
    (h : BranchesOk path words parentId (x + railGap + railW) y i s) (hcount : count ≠ 0)
    (hparent : ∀ group ∈ parentId, group.length ≤ path.length) (hwords : ∀ word ∈ words, IsStageId word) :
    Segment path x y parentId (s.finish path x y count parentId) := by
  have hgap : (0 : Int) < railGap := by decide
  have hrail : (0 : Int) < railW := by decide
  have hleaf : (0 : Int) < leafH := by decide
  have hmax := h.maxChildW_nonneg
  have hheight : 0 < max (s.childY - y - gapY) leafH := by omega
  have hfinish : s.finish path x y count parentId =
      { width := x + railGap + railW + s.maxChildW + railGap + railW - x
        height := max (s.childY - y - gapY) leafH
        nodes := s.nodes ++
          [makeRailNode (childPath path "split".toList) .split x y (s.childY - y - gapY) s.branchCenters parentId,
            makeRailNode (childPath path "merge".toList) .merge (x + railGap + railW + s.maxChildW + railGap) y
              (s.childY - y - gapY) s.branchCenters parentId]
        edges := s.edges
        entries := [childPath path "split".toList]
        exits := [childPath path "merge".toList] } := by
    rw [Branches.finish, if_pos hcount, if_pos hcount]
  have hlaid : Laid path (words ++ ["split".toList] ++ ["merge".toList]) parentId
      ⟨x, y, x + (x + railGap + railW + s.maxChildW + railGap + railW - x),
        y + max (s.childY - y - gapY) leafH⟩ (s.finish path x y count parentId).nodes := by
    rw [hfinish]
    show Laid path _ parentId _ (s.nodes ++ ([makeRailNode _ _ _ _ _ _ _] ++ [makeRailNode _ _ _ _ _ _ _]))
    rw [← List.append_assoc]
    apply h.laid.rails ⟨x, y, x + railGap + railW + s.maxChildW, y + max (s.childY - y - gapY) leafH⟩ hparent hwords
      (laid_singleton _ hparent rfl rfl (proper_of_pos hrail hheight))
      (laid_singleton _ hparent rfl rfl (proper_of_pos hrail hheight))
    · show x + railW < x + railGap + railW
      omega
    · show x + railGap + railW + s.maxChildW < x + railGap + railW + s.maxChildW + railGap
      omega
    · refine ⟨⟨?_, Int.le_refl _, Int.le_refl _, ?_⟩, Int.le_refl _, Int.le_refl _, ?_, Int.le_refl _⟩
      · show x ≤ x + railGap + railW
        omega
      · show s.childY - gapY ≤ y + max (s.childY - y - gapY) leafH
        omega
      · show x + railW ≤ x + railGap + railW + s.maxChildW
        omega
    · refine ⟨⟨Int.le_refl _, Int.le_refl _, ?_, Int.le_refl _⟩, ?_, Int.le_refl _, ?_, Int.le_refl _⟩
      · show x + railGap + railW + s.maxChildW ≤ x + (x + railGap + railW + s.maxChildW + railGap + railW - x)
        omega
      · show x ≤ x + railGap + railW + s.maxChildW + railGap
        omega
      · show x + railGap + railW + s.maxChildW + railGap + railW ≤
          x + (x + railGap + railW + s.maxChildW + railGap + railW - x)
        omega
  rw [hfinish] at hlaid ⊢
  exact
    { placed := hlaid.placed
      below := fun node hnode => by
        obtain ⟨word, -, hbelow⟩ := hlaid.below node hnode
        exact hbelow.of_child
      within := hlaid.within
      width_nonneg := by
        show 0 ≤ x + railGap + railW + s.maxChildW + railGap + railW - x
        omega
      height_nonneg := by
        show 0 ≤ max (s.childY - y - gapY) leafH
        omega
      edges := by
        intro edge hedge
        rcases h.edges edge hedge with hok | hpending
        · exact hok.mono (List.subset_append_left _ _)
        · rw [← h.length_centers] at hpending
          refine edgeOk_of_pending hpending h.laid.within ⟨rfl, rfl, rfl, ?_⟩ ⟨rfl, rfl, rfl, ?_⟩
          · show x + railW < x + railGap + railW
            omega
          · show x + railGap + railW + s.maxChildW < x + railGap + railW + s.maxChildW + railGap
            omega
      entries := List.forall_mem_singleton.mpr
        ⟨_, List.mem_append_right _ List.mem_cons_self, rfl, rfl, fun _ => ⟨s.branchCenters, rfl⟩⟩
      exits := List.forall_mem_singleton.mpr
        ⟨_, List.mem_append_right _ (List.mem_cons_of_mem _ List.mem_cons_self), rfl, rfl,
          fun _ => ⟨s.branchCenters, rfl⟩⟩ }

end Branches

section Row

variable {path : Text} {words : List Text} {parentId : Option Text} {offsetX y : Int} {i : Nat} {s : Row}

/-- The loop over the stages of a row. -/
structure RowOk (path : Text) (words : List Text) (parentId : Option Text) (offsetX y : Int) (s : Row) : Prop where
  laid : Laid path words parentId ⟨offsetX, y, s.x - gapX, y + s.maxHeight⟩ s.nodes
  x_ge : offsetX ≤ s.x
  maxHeight_nonneg : 0 ≤ s.maxHeight
  edges : ∀ edge ∈ s.edges, EdgeOk s.nodes edge
  prevExits : ∀ id ∈ s.prevExits, IsEnd parentId s.nodes "merge".toList .merge id

theorem rowOk_start : RowOk path [] parentId offsetX y { x := offsetX } where
  laid := laid_nil
  x_ge := Int.le_refl _
  maxHeight_nonneg := Int.le_refl _
  edges := fun _ h => absurd h List.not_mem_nil
  prevExits := fun _ h => absurd h List.not_mem_nil

/-- The edges between two segments of a row join an exit of the one with an entry of the other. -/
theorem edgeOk_of_mem_connectSegments {nodes nodes' : List Node} {area area' : Box Int} {exits entries : List Text}
    (hexits : ∀ id ∈ exits, IsEnd parentId nodes "merge".toList .merge id)
    (hentries : ∀ id ∈ entries, IsEnd parentId nodes' "split".toList .split id)
    (hwithin : Within parentId area (nodes.map Node.item))
    (hwithin' : Within parentId area' (nodes'.map Node.item)) (hareas : area.right < area'.left) {edge : Edge}
    (hedge : edge ∈ connectSegments exits entries) : EdgeOk (nodes ++ nodes') edge := by
  obtain ⟨source, hsource, hedge⟩ := List.mem_flatMap.mp hedge
  obtain ⟨target, htarget, rfl⟩ := List.mem_map.mp hedge
  obtain ⟨node, hnode, rfl, hparent, hmerge⟩ := hexits source hsource
  obtain ⟨node', hnode', rfl, hparent', hsplit⟩ := hentries target htarget
  have hright : node.x + node.width ≤ area.right := (inside_of_within hwithin hnode hparent).2.2.1
  have hleft : area'.left ≤ node'.x := (inside_of_within hwithin' hnode' hparent').1
  refine ⟨node, List.mem_append_left _ hnode, node', List.mem_append_right _ hnode', rfl, rfl,
    hparent.trans hparent'.symm, by omega, ?_, ?_⟩
  · intro name hname
    simp only [makeEdge, Option.mem_def, Option.ite_none_right_eq_some, Option.some.injEq] at hname
    exact Or.inl ⟨hmerge hname.1, hname.2.symm⟩
  · intro name hname
    simp only [makeEdge, Option.mem_def, Option.ite_none_right_eq_some, Option.some.injEq] at hname
    exact Or.inl ⟨hsplit hname.1, hname.2.symm⟩

theorem RowOk.push {word : Text} {placed : SegmentLayout} (h : RowOk path words parentId offsetX y s) (i : Nat)
    (hplaced : Segment (childPath path word) s.x y parentId placed)
    (hparent : ∀ group ∈ parentId, group.length ≤ path.length) (hslash : ∀ word' ∈ words ++ [word], '/' ∉ word')
    (hnew : word ∉ words) : RowOk path (words ++ [word]) parentId offsetX y (s.push i placed) := by
  have hgap : (0 : Int) < gapX := by decide
  have hareas : Box.Apart (⟨offsetX, y, s.x - gapX, y + s.maxHeight⟩ : Box Int)
      ⟨s.x, y, s.x + placed.width, y + placed.height⟩ := by
    refine Or.inl ?_
    show s.x - gapX < s.x
    omega
  have hwidth := hplaced.width_nonneg
  have hheight := hplaced.height_nonneg
  have hx := h.x_ge
  have hmax : s.maxHeight ≤ max s.maxHeight placed.height := Int.le_max_left _ _
  have hmax' : placed.height ≤ max s.maxHeight placed.height := Int.le_max_right _ _
  exact
    { laid := by
        apply h.laid.concat hplaced.laid hparent hslash hnew hareas
        · refine ⟨Int.le_refl _, Int.le_refl _, ?_, ?_⟩
          · show s.x - gapX ≤ s.x + placed.width + gapX - gapX
            omega
          · show y + s.maxHeight ≤ y + max s.maxHeight placed.height
            omega
        · refine ⟨hx, Int.le_refl _, ?_, ?_⟩
          · show s.x + placed.width ≤ s.x + placed.width + gapX - gapX
            omega
          · show y + placed.height ≤ y + max s.maxHeight placed.height
            omega
      x_ge := by
        show offsetX ≤ s.x + placed.width + gapX
        omega
      maxHeight_nonneg := by
        show 0 ≤ max s.maxHeight placed.height
        omega
      edges := by
        intro edge hedge
        rcases List.mem_append.mp hedge with hedge | hedge
        · rcases List.mem_append.mp hedge with hedge | hedge
          · exact (h.edges edge hedge).mono (List.subset_append_left _ _)
          · exact (hplaced.edges edge hedge).mono (List.subset_append_right _ _)
        · split at hedge
          · refine edgeOk_of_mem_connectSegments h.prevExits hplaced.entries h.laid.within hplaced.within ?_ hedge
            show s.x - gapX < s.x
            omega
          · exact absurd hedge List.not_mem_nil
      prevExits := fun id hid => (hplaced.exits id hid).mono (List.subset_append_right _ _) }

/-- What a row hands to a group. -/
theorem RowOk.finish {count : Nat} (h : RowOk path words parentId offsetX y s) (hcount : count ≠ 0) :
    Laid path words parentId
        ⟨offsetX, y, offsetX + (s.finish offsetX count).width, y + (s.finish offsetX count).height⟩
        (s.finish offsetX count).nodes ∧
      0 ≤ (s.finish offsetX count).height ∧
      ∀ edge ∈ (s.finish offsetX count).edges, EdgeOk (s.finish offsetX count).nodes edge := by
  have hwidth : (s.finish offsetX count).width = s.x - offsetX - gapX := if_pos hcount
  refine ⟨h.laid.mono ⟨Int.le_refl _, Int.le_refl _, ?_, Int.le_refl _⟩, h.maxHeight_nonneg, h.edges⟩
  show s.x - gapX ≤ offsetX + (s.finish offsetX count).width
  omega

end Row

/-! ### The induction over the stages -/

section Induction

variable (collapsed : Finset Text)

/-- The words of the siblings in front of a stage, and those of the stage and the ones behind it. -/
def Fresh (words : List Text) (stages : List PipelineStage) : Prop :=
  (∀ word ∈ words ++ stages.map PipelineStage.id, IsStageId word) ∧ (words ++ stages.map PipelineStage.id).Nodup

theorem Siblings.fresh {stages : List PipelineStage} (h : Siblings stages) : Fresh [] stages :=
  ⟨List.forall_mem_map.mpr h.isStageId, h.nodup⟩

theorem Fresh.tail {words : List Text} {stage : PipelineStage} {stages : List PipelineStage}
    (h : Fresh words (stage :: stages)) : Fresh (words ++ [stage.id]) stages := by
  rw [Fresh, List.append_assoc]
  exact h

theorem Fresh.head {words : List Text} {stage : PipelineStage} {stages : List PipelineStage}
    (h : Fresh words (stage :: stages)) :
    IsStageId stage.id ∧ stage.id ∉ words ∧ ∀ word ∈ words ++ [stage.id], '/' ∉ word := by
  obtain ⟨hids, hnodup⟩ := h
  refine ⟨hids _ (List.mem_append_right _ List.mem_cons_self), ?_, ?_⟩
  · intro hmem
    exact (List.nodup_append.mp hnodup).2.2 _ hmem _ List.mem_cons_self rfl
  · refine List.forall_mem_append.mpr ⟨fun word hword => ?_, List.forall_mem_singleton.mpr ?_⟩
    · exact (hids word (List.mem_append_left _ hword)).slash_notMem
    · exact (hids _ (List.mem_append_right _ List.mem_cons_self)).slash_notMem

variable {parentId : Option Text} {path : Text}

theorem length_le_childPath (hparent : ∀ group ∈ parentId, group.length ≤ path.length) (word : Text) :
    ∀ group ∈ parentId, group.length ≤ (childPath path word).length := by
  intro group hgroup
  have hshort := hparent group hgroup
  rw [length_childPath]
  omega

mutual

theorem segment_layoutStage : ∀ (stage : PipelineStage) {parentId : Option Text} {path : Text} (x y : Int),
    stage.WellNamed → IsStageId stage.id → (∀ group ∈ parentId, group.length ≤ path.length) →
    Segment (childPath path stage.id) x y parentId
      (layoutStage collapsed stage (childPath path stage.id) x y parentId)
  | .mk detail parallelStages nestedPipeline, parentId, path, x, y, hstage, hword, hparent => by
      obtain ⟨⟨hsiblings, hall⟩, hnested⟩ := hstage
      rw [layoutStage]
      split
      · next hblock =>
        have hdeep := length_le_childPath hparent detail.id
        obtain ⟨words, i, hbranches, hwords⟩ := branchesOk_layoutBranches parallelStages
          (x + railGap + railW) y 0 hall hsiblings.fresh hdeep (branchesOk_start _)
        exact hbranches.segment_finish (mt List.length_eq_zero_iff.mp hblock.2) hdeep hwords
      · split
        · exact segment_layoutNestedPipeline detail nestedPipeline x y hnested hword hparent
        · exact segment_layoutLeaf detail x y hword hparent

theorem branchesOk_layoutBranches : ∀ (stages : List PipelineStage) {parentId : Option Text} {path : Text}
    {words : List Text} {s : Branches} (childX y : Int) (i : Nat), AllWellNamed stages → Fresh words stages →
    (∀ group ∈ parentId, group.length ≤ path.length) → BranchesOk path words parentId childX y i s →
    ∃ words' j, BranchesOk path words' parentId childX y j
      (layoutBranches collapsed stages path childX y parentId i s) ∧ ∀ word ∈ words', IsStageId word
  | [], _, _, words, _, _, _, i, _, hfresh, _, h => by
      rw [layoutBranches]
      refine ⟨words, i, h, fun word hword => hfresh.1 word (List.mem_append_left _ hword)⟩
  | stage :: stages, _, _, _, s, childX, y, i, hall, hfresh, hparent, h => by
      obtain ⟨hstage, hall⟩ := hall
      obtain ⟨hword, hnew, hslash⟩ := hfresh.head
      rw [layoutBranches]
      exact branchesOk_layoutBranches stages childX y (i + 1) hall hfresh.tail hparent
        (h.push (segment_layoutStage stage childX s.childY hstage hword hparent) hparent hslash hnew)

theorem segment_layoutNestedPipeline (detail : StageDetail) : ∀ (nestedPipeline : Option PipelineReport)
    {parentId : Option Text} {path : Text} (x y : Int), NestedWellNamed nestedPipeline → IsStageId detail.id →
    (∀ group ∈ parentId, group.length ≤ path.length) →
    Segment (childPath path detail.id) x y parentId
      (layoutNestedPipeline collapsed detail nestedPipeline (childPath path detail.id) x y parentId)
  | none, _, _, x, y, _, hword, hparent => by
      rw [layoutNestedPipeline]
      exact segment_layoutLeaf detail x y hword hparent
  | some (.mk name status stages), _, path, x, y, hnested, hword, hparent => by
      obtain ⟨hsiblings, hall⟩ := hnested
      have hdeep : ∀ group ∈ some (childPath path detail.id),
          group.length ≤ (childPath (childPath path detail.id) "nested".toList).length := by
        intro group hgroup
        rw [length_childPath, ← Option.some.inj hgroup]
        omega
      obtain ⟨words, hrow⟩ := rowOk_layoutRow stages groupPad (headerH + groupPad) 0 hall hsiblings.fresh hdeep
        rowOk_start
      rw [layoutNestedPipeline]
      refine segment_groupSegment words detail name status _ hword hparent fun layout hlayout => ?_
      split at hlayout
      · next hopen =>
        cases hlayout
        exact hrow.finish (mt List.length_eq_zero_iff.mp hopen.2)
      · cases hlayout

theorem rowOk_layoutRow : ∀ (stages : List PipelineStage) {parentId : Option Text} {path : Text}
    {words : List Text} {s : Row} (offsetX y : Int) (i : Nat), AllWellNamed stages → Fresh words stages →
    (∀ group ∈ parentId, group.length ≤ path.length) → RowOk path words parentId offsetX y s →
    ∃ words', RowOk path words' parentId offsetX y (layoutRow collapsed stages path y parentId i s)
  | [], _, _, words, _, _, _, _, _, _, _, h => by
      rw [layoutRow]
      exact ⟨words, h⟩
  | stage :: stages, _, _, _, s, offsetX, y, i, hall, hfresh, hparent, h => by
      obtain ⟨hstage, hall⟩ := hall
      obtain ⟨hword, hnew, hslash⟩ := hfresh.head
      rw [layoutRow]
      exact rowOk_layoutRow stages offsetX y (i + 1) hall hfresh.tail hparent
        (h.push i (segment_layoutStage stage s.x y hstage hword hparent) hparent hslash hnew)

end

/-- A layout that can be drawn. -/
structure Drawable (nodes : List Node) (edges : List Edge) : Prop where
  ids_nodup : (nodes.map Node.id).Nodup
  edges_join : ∀ edge ∈ edges, ∃ source ∈ nodes, ∃ target ∈ nodes, source.id = edge.source ∧
    target.id = edge.target ∧ source.parentId = target.parentId ∧ source.x + source.width < target.x ∧
    (∀ name ∈ edge.sourceHandle, (.source, name) ∈ source.handles edges) ∧
    ∀ name ∈ edge.targetHandle, (.target, name) ∈ target.handles edges
  acyclic : ∀ id, ¬Relation.TransGen (fun source target => ∃ edge ∈ edges, edge.source = source ∧
    edge.target = target) id id
  parent_first : ∀ before node after, nodes = before ++ node :: after → ∀ id ∈ node.parentId,
    ∃ parent ∈ before, parent.id = id ∧ 0 ≤ node.x ∧ 0 ≤ node.y ∧ node.x + node.width ≤ parent.width ∧
      node.y + node.height ≤ parent.height
  apart : nodes.Pairwise fun node node' => node.parentId = node'.parentId →
    node.x + node.width < node'.x ∨ node'.x + node'.width < node.x ∨
      node.y + node.height < node'.y ∨ node'.y + node'.height < node.y

section Result

variable {nodes : List Node} {edges : List Edge}

theorem ids_nodup (hplaced : Placed none (nodes.map Node.item)) : (nodes.map Node.id).Nodup := by
  have hnodup := hplaced.nodup
  rwa [List.map_map] at hnodup

/-- A path of edges leads to the right. -/
theorem left_of_transGen (hplaced : Placed none (nodes.map Node.item)) (hedges : ∀ edge ∈ edges, EdgeOk nodes edge)
    {source target : Text}
    (h : Relation.TransGen (fun source target => ∃ edge ∈ edges, edge.source = source ∧ edge.target = target)
      source target) :
    ∃ node ∈ nodes, ∃ node' ∈ nodes, node.id = source ∧ node'.id = target ∧ node.x < node'.x := by
  have hstep : ∀ edge ∈ edges, ∃ node ∈ nodes, ∃ node' ∈ nodes, node.id = edge.source ∧ node'.id = edge.target ∧
      node.x < node'.x := by
    intro edge hedge
    obtain ⟨node, hnode, node', hnode', hjoins⟩ := hedges edge hedge
    have hwidth : node.x < node.x + node.width := (hplaced.proper node.item (List.mem_map_of_mem hnode)).1
    exact ⟨node, hnode, node', hnode', hjoins.source_id, hjoins.target_id, hwidth.trans hjoins.left⟩
  induction h with
  | single h =>
      obtain ⟨edge, hedge, rfl, rfl⟩ := h
      exact hstep edge hedge
  | tail _ h ih =>
      obtain ⟨edge, hedge, rfl, rfl⟩ := h
      obtain ⟨node, hnode, middle, hmiddle, hsource, hid, hx⟩ := ih
      obtain ⟨middle', hmiddle', node', hnode', hid', htarget, hx'⟩ := hstep edge hedge
      -- ids are unique: the two steps meet in one node
      have hsame : middle = middle' :=
        List.inj_on_of_nodup_map (ids_nodup hplaced) hmiddle hmiddle' (hid.trans hid'.symm)
      exact ⟨node, hnode, node', hnode', hsource, htarget, hx.trans (hsame ▸ hx')⟩

theorem parent_first_of_placed (hplaced : Placed none (nodes.map Node.item)) {before after : List Node} {node : Node}
    (hnodes : nodes = before ++ node :: after) {id : Text} (hid : id ∈ node.parentId) :
    ∃ parent ∈ before, parent.id = id ∧ 0 ≤ node.x ∧ 0 ≤ node.y ∧ node.x + node.width ≤ parent.width ∧
      node.y + node.height ≤ parent.height := by
  have hitems : nodes.map Node.item = before.map Node.item ++ node.item :: after.map Node.item := by
    rw [hnodes, List.map_append, List.map_cons]
  rcases hplaced.rooted _ _ _ hitems with hnone | ⟨above, habove, hparent, hinside⟩
  · have hsome : node.parentId = some id := hid
    exact absurd (hsome.symm.trans hnone) (Option.some_ne_none id)
  · obtain ⟨parent, hbefore, rfl⟩ := List.mem_map.mp habove
    have hsome : some parent.id = some id := hparent.symm.trans hid
    exact ⟨parent, hbefore, Option.some.inj hsome, hinside⟩

/-- What holds of the placed nodes makes a drawing. -/
theorem drawable_of_placed (hplaced : Placed none (nodes.map Node.item))
    (hedges : ∀ edge ∈ edges, EdgeOk nodes edge) : Drawable nodes edges where
  ids_nodup := ids_nodup hplaced
  edges_join := by
    intro edge hedge
    obtain ⟨source, hsource, target, htarget, hjoins⟩ := hedges edge hedge
    exact ⟨source, hsource, target, htarget, hjoins.source_id, hjoins.target_id, hjoins.parent_eq, hjoins.left,
      mem_handles_source hedge hjoins, mem_handles_target hedge hjoins⟩
  acyclic := by
    intro id hcycle
    obtain ⟨node, hnode, node', hnode', hsource, htarget, hx⟩ := left_of_transGen hplaced hedges hcycle
    have hsame : node = node' :=
      List.inj_on_of_nodup_map (ids_nodup hplaced) hnode hnode' (hsource.trans htarget.symm)
    rw [hsame] at hx
    exact Int.lt_irrefl _ hx
  parent_first := fun _ _ _ hnodes _ hid => parent_first_of_placed hplaced hnodes hid
  apart := List.pairwise_map.mp hplaced.apart

end Result

end Induction

theorem layoutPipelineReport_drawable (collapsed : Finset Text) (report : PipelineReport) (h : report.WellNamed) :
    Drawable (layoutPipelineReport collapsed report).1 (layoutPipelineReport collapsed report).2 := by
  by_cases hstages : report.stages = []
  · rw [layoutPipelineReport, if_pos hstages]
    exact drawable_of_placed placed_nil fun _ h => absurd h List.not_mem_nil
  · have hnone : ∀ group ∈ (none : Option Text), group.length ≤ "root".toList.length :=
      fun _ h => absurd h (Option.not_mem_none _)
    obtain ⟨words, hrow⟩ := rowOk_layoutRow collapsed report.stages 24 24 0 h.2 h.1.fresh hnone rowOk_start
    rw [layoutPipelineReport, if_neg hstages]
    exact drawable_of_placed hrow.laid.placed hrow.edges

def plainStage (letter : Char) : PipelineStage :=
  .mk { id := [letter], name := [letter], type := "STAGE".toList } [] none

/-- A block of a stage and of a pipeline of one stage, in front of a stage. -/
def blockReport : PipelineReport :=
  let trigger : PipelineStage := .mk { id := ['c'], name := ['c'], type := "ATLAS_PIPELINE_TRIGGER".toList } []
    (some (.mk none none [plainStage 'd']))
  let block : PipelineStage := .mk { id := ['a'], name := ['a'], type := "PARALLEL_BLOCK".toList }
    [plainStage 'b', trigger] none
  .mk none none [block, plainStage 'e']

theorem isStageId_letter {letter : Char} (h : letter ≠ '/') : IsStageId [letter] where
  ne_nil := List.cons_ne_nil _ _
  slash_notMem := fun hmem => h (List.mem_singleton.mp hmem).symm
  ne_split := by simp
  ne_merge := by simp
  ne_nested := by simp

theorem siblings_nil : Siblings [] where
  isStageId := fun _ h => absurd h List.not_mem_nil
  nodup := List.nodup_nil

theorem plainStage_wellNamed (letter : Char) : (plainStage letter).WellNamed :=
  ⟨⟨siblings_nil, trivial⟩, trivial⟩

theorem layoutPipelineReport_block :
    Drawable (layoutPipelineReport ∅ blockReport).1 (layoutPipelineReport ∅ blockReport).2 := by
  have hroot : Siblings blockReport.stages :=
    ⟨List.forall_mem_cons.mpr ⟨isStageId_letter (by decide), List.forall_mem_singleton.mpr
      (isStageId_letter (by decide))⟩, by decide⟩
  have hnested : ∀ detail, (PipelineStage.mk detail [] (some (.mk none none [plainStage 'd']))).WellNamed :=
    fun _ => ⟨⟨siblings_nil, trivial⟩, ⟨List.forall_mem_singleton.mpr (isStageId_letter (by decide)), by decide⟩,
      plainStage_wellNamed _, trivial⟩
  refine layoutPipelineReport_drawable ∅ blockReport ⟨hroot, ⟨⟨⟨?_, by decide⟩, ?_⟩, trivial⟩,
    plainStage_wellNamed _, trivial⟩
  · exact List.forall_mem_cons.mpr ⟨isStageId_letter (by decide), List.forall_mem_singleton.mpr
      (isStageId_letter (by decide))⟩
  · exact ⟨plainStage_wellNamed _, hnested _, trivial⟩

end Pipeline
end PdeOperator
