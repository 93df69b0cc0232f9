import Mathlib.Data.List.Infix
import Mathlib.Logic.Function.Basic
import PdeOperator.BaseText

/-! Trees of files. A path is the list of the names on it; a tree says of each path what is there.
Moving a directory moves everything below it. -/

namespace PdeOperator.Base

inductive FileEntry where
  | file (content : List UInt8)
  | dir
  deriving DecidableEq

/-- What is at each path; links are not there. -/
def FileTree := List Text → Option FileEntry

namespace FileTree

variable (tree : FileTree)

def content (path : List Text) : Option (List UInt8) :=
  match tree path with
  | some (.file content) => some content
  | _ => none

def isFile (path : List Text) : Bool := (tree.content path).isSome

def isDir (path : List Text) : Bool :=
  match tree path with
  | some .dir => true
  | _ => false

def write (path : List Text) (content : List UInt8) : FileTree := fun p =>
  if p = path then some (.file content) else tree p

/-- The tree below a path. -/
def below (path : List Text) : FileTree := fun p => tree (path ++ p)

/-- The tree without a path and what is below it. -/
def remove (path : List Text) : FileTree := fun p => if path <+: p then none else tree p

/-- The tree with another one in the place of what is at a path. -/
def graft (path : List Text) (part : FileTree) : FileTree := fun p =>
  if path <+: p then part (p.drop path.length) else tree p

/-- `os.rename` of a file or of a directory. -/
def rename (source target : List Text) : FileTree :=
  (tree.remove source).graft target (tree.below source)

variable {tree} {path source target p : List Text} {part : FileTree} {content : List UInt8}

section Congr

variable {tree' : FileTree} {path' : List Text}

theorem content_congr (h : tree path = tree' path') : tree.content path = tree'.content path' := by
  rw [FileTree.content, FileTree.content, h]

theorem isFile_congr (h : tree path = tree' path') : tree.isFile path = tree'.isFile path' := by
  rw [isFile, isFile, content_congr h]

theorem isDir_congr (h : tree path = tree' path') : tree.isDir path = tree'.isDir path' := by
  rw [isDir, isDir, h]

end Congr

@[simp] theorem content_write_self : (tree.write path content).content path = some content := by
  rw [FileTree.content, write, if_pos rfl]

theorem write_of_ne (h : p ≠ path) : tree.write path content p = tree p := if_neg h

theorem content_write_of_ne (h : p ≠ path) : (tree.write path content).content p = tree.content p :=
  content_congr (write_of_ne h)

theorem remove_of_not_prefix (h : ¬path <+: p) : tree.remove path p = tree p := if_neg h

theorem below_remove_append : (tree.remove (path ++ p)).below path = (tree.below path).remove p := by
  funext q
  simp only [below, remove, List.prefix_append_right_inj]

theorem below_remove_of_apart (h : ¬path <+: target) (h' : ¬target <+: path) :
    (tree.remove target).below path = tree.below path := by
  funext p
  refine remove_of_not_prefix fun hin => ?_
  rcases List.prefix_or_prefix_of_prefix hin (List.prefix_append path p) with hleft | hright
  · exact h' hleft
  · exact h hright

theorem graft_of_not_prefix (h : ¬path <+: p) : tree.graft path part p = tree p := if_neg h

@[simp] theorem below_graft : (tree.graft path part).below path = part := by
  funext p
  rw [below, graft, if_pos (List.prefix_append _ _), List.drop_left]

theorem below_graft_of_apart (h : ¬path <+: target) (h' : ¬target <+: path) :
    (tree.graft target part).below path = tree.below path := by
  funext p
  refine graft_of_not_prefix fun hin => ?_
  rcases List.prefix_or_prefix_of_prefix hin (List.prefix_append path p) with hleft | hright
  · exact h' hleft
  · exact h hright

/-- A directory that is renamed has at its new place what it had at its old one. -/
theorem below_rename : (tree.rename source target).below target = tree.below source := below_graft

theorem rename_of_not_prefix (h : ¬target <+: p) (h' : ¬source <+: p) :
    tree.rename source target p = tree p := by
  rw [rename, graft_of_not_prefix h, remove_of_not_prefix h']

/-- A directory loses what is renamed out of it. -/
theorem below_rename_out (h : ¬path <+: target) (h' : ¬target <+: path) :
    (tree.rename (path ++ p) target).below path = (tree.below path).remove p := by
  rw [rename, below_graft_of_apart h h', below_remove_append]

theorem rename_target : tree.rename source target target = tree source := by
  have hbelow := congrFun (@below_rename tree source target) []
  rwa [below, below, List.append_nil, List.append_nil] at hbelow

end FileTree
end PdeOperator.Base
