import Mathlib.Data.Option.Basic
import PdeOperator.BaseText

/-! Forms in `multipart/form-data`: files between delimiters, each behind a header that names it. A body
is read back by cutting it at its delimiters, as long as the boundary occurs in no file. -/

namespace PdeOperator.Base

section Cut

variable {α : Type} [DecidableEq α]

/-- What stands before the first occurrence of the delimiter, and what stands behind it. -/
def cut (sep : List α) : List α → Option (List α × List α)
  | [] => none
  | x :: xs =>
      if sep <+: x :: xs then some ([], (x :: xs).drop sep.length)
      else (cut sep xs).map fun parts => (x :: parts.1, parts.2)

variable {d : α} {ds text : List α} (rest : List α)

theorem cut_delimiter : cut (d :: ds) (d :: ds ++ rest) = some ([], rest) := by
  have hlead : d :: ds <+: d :: (ds ++ rest) := List.prefix_append (d :: ds) rest
  rw [List.cons_append, cut, if_pos hlead, List.length_cons, List.drop_succ_cons, List.drop_left]

theorem cut_append_of_notMem (h : d ∉ text) :
    cut (d :: ds) (text ++ (d :: ds ++ rest)) = some (text, rest) := by
  induction text with
  | nil => exact cut_delimiter rest
  | cons x xs ih =>
      rw [List.mem_cons, not_or] at h
      obtain ⟨hx, hxs⟩ := h
      have hnot : ¬(d :: ds) <+: x :: (xs ++ (d :: ds ++ rest)) := by
        rw [List.cons_prefix_cons]
        exact fun hlead => hx hlead.1
      rw [List.cons_append, cut, if_neg hnot, ih hxs, Option.map_some]

/-- Behind a text that the delimiter does not overlap with, the first occurrence is the one that has been
put there: the first symbol of the delimiter stands nowhere else in it. -/
theorem cut_append (hd : d ∉ ds) (h : ¬(d :: ds) <:+: text) :
    cut (d :: ds) (text ++ (d :: ds ++ rest)) = some (text, rest) := by
  induction text with
  | nil => exact cut_delimiter rest
  | cons x xs ih =>
      rw [List.infix_cons_iff, not_or] at h
      have hnot : ¬(d :: ds) <+: x :: (xs ++ (d :: ds ++ rest)) := by
        intro hlead
        obtain ⟨rfl, hds⟩ := List.cons_prefix_cons.mp hlead
        rcases List.prefix_or_prefix_of_prefix hds (List.prefix_append xs _) with hshort | ⟨tail, rfl⟩
        · exact h.1 (List.cons_prefix_cons.mpr ⟨rfl, hshort⟩)
        · -- the delimiter would reach into the one behind the text
          rw [List.prefix_append_right_inj] at hds
          cases tail with
          | nil => exact h.1 (List.cons_prefix_cons.mpr ⟨rfl, by simp⟩)
          | cons t ts =>
              obtain ⟨rfl, -⟩ := List.cons_prefix_cons.mp hds
              exact hd (List.mem_append_right xs List.mem_cons_self)
      rw [List.cons_append, cut, if_neg hnot, ih h.2, Option.map_some]

end Cut

/-! ### Multipart bodies -/

namespace Multipart

abbrev Octets := List UInt8

/-- `str.encode()` -/
def utf8 (text : Text) : Octets := text.flatMap String.utf8EncodeChar

def crlf : Octets := [13, 10]
def dashes : Octets := [45, 45]

section Body

variable (boundary : Octets)

def delimiter : Octets := crlf ++ (dashes ++ boundary)

/-- The parts, each behind a delimiter, and the delimiter that closes the body; the first one has no line
break before it. -/
def encapsulate (parts : List Octets) : Octets :=
  dashes ++ boundary ++ (parts.flatMap fun part => crlf ++ (part ++ delimiter boundary)) ++ dashes ++ crlf

/-- The parts behind a delimiter. The first argument bounds their number. -/
def readParts : Nat → Octets → Option (List Octets)
  | 0, _ => none
  | fuel + 1, text =>
      if dashes <+: text then some []
      else if crlf <+: text then do
        let (part, rest) ← cut (delimiter boundary) (text.drop crlf.length)
        let parts ← readParts fuel rest
        some (part :: parts)
      else none

def read (body : Octets) : Option (List Octets) :=
  if dashes ++ boundary <+: body then
    readParts boundary body.length (body.drop (dashes ++ boundary).length)
  else none

variable {boundary} {parts : List Octets}

theorem readParts_close {fuel : Nat} (rest : Octets) :
    readParts boundary (fuel + 1) (dashes ++ rest) = some [] := by
  rw [readParts, if_pos (List.prefix_append _ _)]

theorem readParts_part (hboundary : 13 ∉ boundary) {fuel : Nat} {part : Octets}
    (hpart : ¬delimiter boundary <:+: part) (rest : Octets) :
    readParts boundary (fuel + 1) (crlf ++ (part ++ delimiter boundary) ++ rest) =
      (readParts boundary fuel rest).map fun parts => part :: parts := by
  have hopen : ¬dashes <+: crlf ++ (part ++ delimiter boundary) ++ rest := by
    simp [dashes, crlf]
  have hfirst : 13 ∉ 10 :: (dashes ++ boundary) := by
    simp [dashes, hboundary]
  have hcut : cut (delimiter boundary) (part ++ (delimiter boundary ++ rest)) = some (part, rest) :=
    cut_append rest hfirst hpart
  rw [readParts, if_neg hopen, List.append_assoc, if_pos (List.prefix_append _ _), List.drop_left,
    List.append_assoc, hcut]
  simp only [Option.bind_eq_bind, Option.bind_some]
  cases readParts boundary fuel rest with
  | none => rfl
  | some parts => rfl

theorem readParts_flatMap (hboundary : 13 ∉ boundary)
    (hparts : ∀ part ∈ parts, ¬delimiter boundary <:+: part) {fuel : Nat} (hfuel : parts.length < fuel)
    (rest : Octets) :
    readParts boundary fuel
      ((parts.flatMap fun part => crlf ++ (part ++ delimiter boundary)) ++ (dashes ++ rest)) =
        some parts := by
  induction parts generalizing fuel with
  | nil =>
      obtain ⟨fuel, rfl⟩ := Nat.exists_eq_add_of_lt hfuel
      exact readParts_close rest
  | cons part parts ih =>
      obtain ⟨hpart, hrest⟩ := List.forall_mem_cons.mp hparts
      cases fuel with
      | zero => exact absurd hfuel (Nat.not_lt_zero _)
      | succ fuel =>
          rw [List.flatMap_cons, List.append_assoc, readParts_part hboundary hpart,
            ih hrest (Nat.succ_lt_succ_iff.mp hfuel), Option.map_some]

theorem length_le_flatMap :
    parts.length ≤ (parts.flatMap fun part => crlf ++ (part ++ delimiter boundary)).length := by
  induction parts with
  | nil => exact Nat.zero_le _
  | cons part parts ih =>
      have hcrlf : crlf.length = 2 := rfl
      rw [List.flatMap_cons, List.length_append, List.length_append, List.length_cons]
      omega

theorem read_encapsulate (hboundary : 13 ∉ boundary)
    (hparts : ∀ part ∈ parts, ¬delimiter boundary <:+: part) :
    read boundary (encapsulate boundary parts) = some parts := by
  have hfuel : parts.length < (encapsulate boundary parts).length := by
    have hle := @length_le_flatMap boundary parts
    simp only [encapsulate, dashes, List.length_append, List.length_cons]
    omega
  have hlead : dashes ++ boundary <+: encapsulate boundary parts := by
    simp only [encapsulate, List.append_assoc, List.prefix_append_right_inj, List.prefix_append]
  have hdrop : (encapsulate boundary parts).drop (dashes ++ boundary).length =
      (parts.flatMap fun part => crlf ++ (part ++ delimiter boundary)) ++ (dashes ++ crlf) := by
    rw [encapsulate, List.append_assoc, List.append_assoc, List.drop_left]
  rw [read, if_pos hlead, hdrop]
  exact readParts_flatMap hboundary hparts hfuel crlf

end Body

structure FormFile where
  name : Octets
  filename : Octets
  content : Octets
  deriving DecidableEq

def lead : Octets := utf8 "Content-Disposition: form-data; name=\"".toList
def middle : Octets := utf8 "; filename=\"".toList

namespace FormFile

variable (file : FormFile)

def header : Octets := lead ++ (file.name ++ 34 :: (middle ++ (file.filename ++ [34])))

/-- The header, an empty line and the content. -/
def part : Octets := file.header ++ (crlf ++ crlf ++ file.content)

/-- The names are on one line and inside their quotes. -/
structure Plain : Prop where
  name : 34 ∉ file.name ∧ 13 ∉ file.name
  filename : 34 ∉ file.filename ∧ 13 ∉ file.filename

instance : Decidable file.Plain :=
  decidable_of_iff ((34 ∉ file.name ∧ 13 ∉ file.name) ∧ (34 ∉ file.filename ∧ 13 ∉ file.filename))
    ⟨fun h => ⟨h.1, h.2⟩, fun h => ⟨h.name, h.filename⟩⟩

end FormFile

def readFile (part : Octets) : Option FormFile := do
  let (header, content) ← cut (crlf ++ crlf) part
  guard (lead <+: header)
  let (name, rest) ← cut [34] (header.drop lead.length)
  guard (middle <+: rest)
  let (filename, rest) ← cut [34] (rest.drop middle.length)
  guard (rest = [])
  some { name, filename, content }

/-- The files of a form. -/
def readForm (boundary body : Octets) : Option (List FormFile) :=
  (read boundary body).bind fun parts => parts.mapM readFile

section RoundTrip

variable {file : FormFile} {boundary : Octets}

theorem lead_plain : 13 ∉ lead := by decide
theorem middle_plain : 13 ∉ middle := by decide

theorem FormFile.Plain.header (h : file.Plain) : 13 ∉ file.header := by
  simp only [FormFile.header, List.mem_append, List.mem_cons, not_or]
  exact ⟨lead_plain, h.name.2, by decide, middle_plain, h.filename.2, by decide⟩

theorem readFile_part (h : file.Plain) : readFile file.part = some file := by
  have hblank : cut (crlf ++ crlf) file.part = some (file.header, file.content) :=
    @cut_append_of_notMem UInt8 _ 13 [10, 13, 10] _ file.content h.header
  have hname : cut [34] (file.name ++ 34 :: (middle ++ (file.filename ++ [34]))) =
      some (file.name, middle ++ (file.filename ++ [34])) :=
    @cut_append_of_notMem UInt8 _ 34 [] _ _ h.name.1
  have hfilename : cut [34] (file.filename ++ [34]) = some (file.filename, []) :=
    @cut_append_of_notMem UInt8 _ 34 [] _ [] h.filename.1
  rw [readFile, hblank]
  simp [FormFile.header, hname, hfilename]

/-- The delimiter starts with a line break, so it is in the content or the content goes on where the
empty line has started it. -/
theorem delimiter_infix_part (h : file.Plain) (hdelimiter : delimiter boundary <:+: file.part) :
    boundary <:+: file.content := by
  have hbelow : ∀ {header : Octets}, 13 ∉ header →
      delimiter boundary <:+: header ++ (crlf ++ crlf ++ file.content) → boundary <:+: file.content := by
    intro header hheader hin
    induction header with
    | nil =>
        simp only [delimiter, crlf, dashes, List.nil_append, List.cons_append, List.infix_cons_iff,
          List.cons_prefix_cons] at hin
        simp at hin
        rcases hin with ⟨tail, htail⟩ | hin
        · exact ⟨[45, 45], tail, by rw [← htail]; rfl⟩
        · exact ((List.suffix_append [13, 10, 45, 45] boundary).isInfix).trans hin
    | cons x xs ih =>
        rw [List.mem_cons, not_or] at hheader
        obtain ⟨hx, hxs⟩ := hheader
        rw [List.cons_append, List.infix_cons_iff] at hin
        rcases hin with hin | hin
        · exact absurd (List.cons_prefix_cons.mp hin).1 hx
        · exact ih hxs hin
  exact hbelow h.header hdelimiter

/-- A form is read back. -/
theorem readForm_encapsulate {files : List FormFile} (hboundary : 13 ∉ boundary)
    (hplain : ∀ file ∈ files, file.Plain) (hapart : ∀ file ∈ files, ¬boundary <:+: file.content) :
    readForm boundary (encapsulate boundary (files.map FormFile.part)) = some files := by
  have hparts : ∀ part ∈ files.map FormFile.part, ¬delimiter boundary <:+: part := by
    intro part hpart hdelimiter
    obtain ⟨file, hfile, rfl⟩ := List.mem_map.mp hpart
    exact hapart file hfile (delimiter_infix_part (hplain file hfile) hdelimiter)
  rw [readForm, read_encapsulate hboundary hparts, Option.bind_some]
  clear hparts hapart
  induction files with
  | nil => rfl
  | cons file files ih =>
      obtain ⟨hfile, hrest⟩ := List.forall_mem_cons.mp hplain
      rw [List.map_cons, List.mapM_cons, readFile_part hfile, ih hrest]
      rfl

end RoundTrip

end Multipart
end PdeOperator.Base
