import Mathlib.Data.List.Induction
import Mathlib.Data.Nat.Digits.Defs
import PdeOperator.AnsiHtml

/-! What the SGR parameters of a log mean, and where `ansiToHtml` shows it: the parameters of a sequence are read
with their operands, which `applySgr` knows of `38;5;n` only. -/

namespace PdeOperator
open Base Html

namespace Ansi

abbrev Rgb := Nat × Nat × Nat

def Rgb.css (c : Rgb) : Utf16 := rgbText c.1 c.2.1 c.2.2

def cubeLevels : List Nat := [0, 95, 135, 175, 215, 255]

/-- The 256 colours of xterm: sixteen basic ones, a cube of six levels and a ramp of greys. -/
def palette : List Rgb :=
  [(0, 0, 0), (205, 0, 0), (0, 205, 0), (205, 205, 0), (0, 0, 238), (205, 0, 205), (0, 205, 205), (229, 229, 229),
    (127, 127, 127), (255, 0, 0), (0, 255, 0), (255, 255, 0), (92, 92, 255), (255, 0, 255), (0, 255, 255),
    (255, 255, 255)] ++
  (cubeLevels.flatMap fun r => cubeLevels.flatMap fun g => cubeLevels.map fun b => (r, g, b)) ++
  (List.range 24).map fun k => (8 + 10 * k, 8 + 10 * k, 8 + 10 * k)

/-- The numbers between the semicolons; one that is left out is 0. -/
def parameters (raw : Utf16) : List Nat :=
  (raw.splitOn (unit ';')).map fun digits => Nat.ofDigits 10 (digits.reverse.map fun u => u.toNat - 48)

/-- The operands behind `38` and `48`: `5;n` or `2;r;g;b`. -/
def operandCount (code : Nat) (params : List Nat) : Nat :=
  if code = 38 ∨ code = 48 then
    match params with
    | 5 :: _ => 2
    | 2 :: _ => 4
    | _ => 0
  else 0

/-- What a parameter that is no operand says about the colour of the text; an index or a component that is too
large leaves none. -/
def setting (code : Nat) (params : List Nat) : Option (Option Rgb) :=
  if code = 0 ∨ code = 39 then some none
  else if 30 ≤ code ∧ code ≤ 37 then some palette[code - 30]?
  else if 90 ≤ code ∧ code ≤ 97 then some palette[code - 82]?
  else if code = 38 then
    match params with
    | 5 :: n :: _ => some palette[n]?
    | 2 :: r :: g :: b :: _ => some (if r ≤ 255 ∧ g ≤ 255 ∧ b ≤ 255 then some (r, g, b) else none)
    | _ => none
  else none

/-- Parameters that are read one after the other, each with those behind it that belong to it; the first argument
counts the ones that belong to a parameter before. -/
def readParams {α : Type} (meaning : Nat → List Nat → Option α) (count : Nat → List Nat → Nat) :
    Nat → List Nat → List α
  | _, [] => []
  | skip + 1, _ :: params => readParams meaning count skip params
  | 0, code :: params => (meaning code params).toList ++ readParams meaning count (count code params) params

/-- The colour that SGR sequences leave: the last setting decides. -/
def sgrColour (sequences : List Utf16) : Option Rgb :=
  (sequences.flatMap fun raw => readParams setting operandCount 0 (parameters raw)).getLast?.join

/-- The tag of a span of a colour. -/
def spanName : Option Rgb → Utf16
  | some colour => units "span style=\"color:" ++ colour.css ++ units "\""
  | none => []

/-- The output is escaped text in spans of the exact form, which are balanced and never nested. Without the spans
and the escapes it is the log without the matches, and each unit is in a span of the colour that the sequences
before it leave. -/
structure Shows (text html : Utf16) : Prop where
  spans : ∃ pieces : List Piece, html = pieces.flatMap Piece.render ∧
    (∀ piece ∈ pieces, ∀ colour ∈ piece.1, IsRgb colour) ∧
    ∀ piece ∈ pieces, unit '<' ∉ escape piece.2 ∧ unit '>' ∉ escape piece.2
  log : (tokens text).flatMap Token.text = text
  units : undoEscapes (removeTags html) = (tokens text).filterMap Token.unit?
  colours : tagged html = (located [] (tokens text)).flatMap fun entry =>
    (escapeUnit entry.2).map (spanName (sgrColour entry.1), ·)

/-! ### What `applySgr` reads -/

/-- The parameters that `applySgr` takes for a setting, wherever they stand: 0, 39 and `38;5;n`. -/
def taken (code : Nat) (params : List Nat) : Option (Option Rgb) :=
  if code = 0 ∨ code = 39 then some none
  else if code = 38 then
    match params with
    | 5 :: n :: _ => some palette[n]?
    | _ => none
  else none

/-- It passes over the operands of `38;5;n`. -/
def takenCount (code : Nat) (params : List Nat) : Nat :=
  if code = 38 then
    match params with
    | 5 :: _ :: _ => 2
    | _ => 0
  else 0

/-- A setting that both read, one that `applySgr` does not know or passes over, or an operand that it takes for a
setting. -/
inductive Mark where
  | both (colour : Option Rgb)
  | missed (colour : Option Rgb)
  | stray (colour : Option Rgb)
  deriving DecidableEq

def Mark.of : Option (Option Rgb) → Option (Option Rgb) → List Mark
  | some colour, some _ => [.both colour]
  | some colour, none => [.missed colour]
  | none, some colour => [.stray colour]
  | none, none => []

/-- The settings of a sequence. The numbers count the operands that lie ahead, and the parameters that `applySgr`
is about to pass over. -/
def marks : Nat → Nat → List Nat → List Mark
  | _, _, [] => []
  | operands, passed, code :: params =>
      Mark.of (if operands = 0 then setting code params else none) (if passed = 0 then taken code params else none) ++
        marks (if operands = 0 then operandCount code params else operands - 1)
          (if passed = 0 then takenCount code params else passed - 1) params

/-- The last setting that both read, and behind it the last one that is missed and the last stray operand. -/
structure Standing where
  common : Option Rgb := none
  missed : Option (Option Rgb) := none
  stray : Option (Option Rgb) := none

def Standing.mark (s : Standing) : Mark → Standing
  | .both colour => { common := colour }
  | .missed colour => { s with missed := some colour }
  | .stray colour => { s with stray := some colour }

def standing (sequences : List Utf16) : Standing :=
  (sequences.flatMap fun raw => marks 0 0 (parameters raw)).foldl Standing.mark {}

/-- Behind the last setting that both read, the last missed one and the last stray operand name the same colour,
where a missing one stands for the common setting. -/
def Harmless (sequences : List Utf16) : Prop :=
  (standing sequences).missed.getD (standing sequences).common =
    (standing sequences).stray.getD (standing sequences).common

instance (sequences : List Utf16) : Decidable (Harmless sequences) :=
  inferInstanceAs (Decidable (_ = _))

section Parameters

variable {colour : Option Utf16} {sequences : List Utf16}

theorem number_append (digits : Utf16) (u : UInt16) :
    number (digits ++ [u]) = 10 * number digits + (u.toNat - 48) := List.foldl_concat ..

/-- The function reads a number digit by digit. -/
theorem number_eq (digits : Utf16) : number digits = Nat.ofDigits 10 (digits.reverse.map fun u => u.toNat - 48) := by
  induction digits using List.reverseRecOn with
  | nil => rfl
  | append_singleton digits u ih =>
      rw [number_append, ih, List.reverse_append, List.reverse_singleton, List.singleton_append, List.map_cons,
        Nat.ofDigits_cons]
      exact Nat.add_comm _ _

theorem parseParams_eq (raw : Utf16) : parseParams raw = parameters raw := by
  have hnumbers : (raw.splitOn (unit ';')).map number = parameters raw :=
    List.map_congr_left fun _ _ => number_eq _
  rw [parseParams]
  split
  · exact hnumbers
  · next hnil =>
    obtain rfl := not_not.mp hnil
    rfl

theorem orNull_xterm256 (n : Nat) : orNull (xterm256 n) = palette[n]?.map Rgb.css := by
  by_cases h : n < 256
  · have hall : ∀ n : Fin 256, orNull (xterm256 n) = palette[n.val]?.map Rgb.css := by decide +kernel
    exact hall ⟨n, h⟩
  · have hlength : palette.length = 256 := by decide +kernel
    have hnone : palette[n]? = none := List.getElem?_eq_none (by omega)
    have hnil : xterm256 n = [] := if_pos (by omega)
    rw [hnil, hnone]
    rfl

/-- Apart from `38;5;n` only the resets are taken. -/
theorem taken_of_notIndexed {code : Nat} {params : List Nat}
    (h : ∀ n rest, code = 38 → params = 5 :: n :: rest → False) :
    taken code params = if code = 0 ∨ code = 39 then some none else none := by
  unfold taken
  split
  · rfl
  · split
    · next hcode =>
      split
      · next n rest => exact absurd rfl (h n rest hcode)
      · rfl
    · rfl

theorem takenCount_of_notIndexed {code : Nat} {params : List Nat}
    (h : ∀ n rest, code = 38 → params = 5 :: n :: rest → False) : takenCount code params = 0 := by
  unfold takenCount
  split
  · next hcode =>
    split
    · next n rest => exact absurd rfl (h n rest hcode)
    · rfl
  · rfl

/-- The loop of `applySgr` ends with the last parameter that it takes for a setting. -/
theorem applyParams_eq (params : List Nat) (colour : Option Utf16) :
    applyParams params colour =
      (readParams taken takenCount 0 params).getLast?.elim colour (Option.map Rgb.css) := by
  induction params, colour using applyParams.induct with
  | case1 colour => rfl
  | case2 n params colour ih =>
      have hread : readParams taken takenCount 0 (38 :: 5 :: n :: params) =
          palette[n]? :: readParams taken takenCount 0 params := rfl
      rw [applyParams, ih, orNull_xterm256, hread, List.getLast?_cons]
      cases (readParams taken takenCount 0 params).getLast? <;> rfl
  | case3 code params colour hother ih =>
      rw [applyParams.eq_3 _ _ _ hother, ih, readParams, taken_of_notIndexed hother, takenCount_of_notIndexed hother,
        List.getLast?_append]
      split <;> cases (readParams taken takenCount 0 params).getLast? <;> rfl

/-- The colour of the last setting that `applySgr` takes. -/
def takenColour (sequences : List Utf16) : Option Rgb :=
  (sequences.flatMap fun raw => readParams taken takenCount 0 (parameters raw)).getLast?.join

theorem keptColour_eq (sequences : List Utf16) : keptColour sequences = (takenColour sequences).map Rgb.css := by
  induction sequences using List.reverseRecOn with
  | nil => rfl
  | append_singleton sequences raw ih =>
      rw [keptColour_append, applySgr_parseParams, parseParams_eq, applyParams_eq, ih, takenColour, takenColour,
        List.flatMap_append, List.getLast?_append, List.flatMap_singleton]
      cases (readParams taken takenCount 0 (parameters raw)).getLast? <;> rfl

end Parameters

section Marks

variable {sequences : List Utf16}

def Mark.proper? : Mark → Option (Option Rgb)
  | .both colour | .missed colour => some colour
  | .stray _ => none

def Mark.taken? : Mark → Option (Option Rgb)
  | .both colour | .stray colour => some colour
  | .missed _ => none

/-- What `applySgr` takes for a setting is one where it is no operand. -/
theorem setting_of_taken {code : Nat} {params : List Nat} {colour : Option Rgb} (h : taken code params = some colour) :
    setting code params = some colour := by
  unfold taken at h
  split at h
  · next hreset =>
    rw [← h]
    exact if_pos hreset
  · next hreset =>
    split at h
    · next hcode =>
      subst hcode
      split at h
      · exact h
      · cases h
    · cases h

theorem filterMap_proper_of (proper taken : Option (Option Rgb)) :
    (Mark.of proper taken).filterMap Mark.proper? = proper.toList := by
  cases proper <;> cases taken <;> rfl

theorem filterMap_taken_of {proper taken : Option (Option Rgb)}
    (h : ∀ colour colour', proper = some colour → taken = some colour' → colour = colour') :
    (Mark.of proper taken).filterMap Mark.taken? = taken.toList := by
  cases proper with
  | none => cases taken <;> rfl
  | some colour =>
      cases taken with
      | none => rfl
      | some colour' =>
          rw [← h colour colour' rfl rfl]
          rfl

theorem filterMap_proper_marks (operands passed : Nat) (params : List Nat) :
    (marks operands passed params).filterMap Mark.proper? = readParams setting operandCount operands params := by
  induction params generalizing operands passed with
  | nil => cases operands <;> rfl
  | cons code params ih =>
      rw [marks, List.filterMap_append, filterMap_proper_of, ih]
      cases operands <;> rfl

theorem filterMap_taken_marks (operands passed : Nat) (params : List Nat) :
    (marks operands passed params).filterMap Mark.taken? = readParams taken takenCount passed params := by
  induction params generalizing operands passed with
  | nil => cases passed <;> rfl
  | cons code params ih =>
      rw [marks, List.filterMap_append, filterMap_taken_of, ih]
      · cases passed <;> rfl
      · intro colour colour' hproper htaken
        split at htaken
        · split at hproper
          · exact Option.some.inj (hproper.symm.trans (setting_of_taken htaken))
          · cases hproper
        · cases htaken

/-- What stands is what the last marks of each kind say. -/
theorem standing_foldl (marks : List Mark) :
    ((marks.foldl Standing.mark {}).missed.getD (marks.foldl Standing.mark {}).common =
        (marks.filterMap Mark.proper?).getLast?.join) ∧
      ((marks.foldl Standing.mark {}).stray.getD (marks.foldl Standing.mark {}).common =
        (marks.filterMap Mark.taken?).getLast?.join) := by
  induction marks using List.reverseRecOn with
  | nil => exact ⟨rfl, rfl⟩
  | append_singleton marks mark ih =>
      obtain ⟨hproper, htaken⟩ := ih
      rw [List.foldl_concat, List.filterMap_append, List.filterMap_append, List.getLast?_append,
        List.getLast?_append]
      cases mark with
      | both colour => exact ⟨rfl, rfl⟩
      | missed colour => exact ⟨rfl, htaken⟩
      | stray colour => exact ⟨hproper, rfl⟩

theorem harmless_iff : Harmless sequences ↔ sgrColour sequences = takenColour sequences := by
  obtain ⟨hproper, htaken⟩ := standing_foldl (sequences.flatMap fun raw => marks 0 0 (parameters raw))
  rw [Harmless, standing, hproper, htaken, List.filterMap_flatMap, List.filterMap_flatMap, sgrColour, takenColour]
  simp only [filterMap_proper_marks, filterMap_taken_marks]

end Marks

section Output

variable {text : Utf16}

theorem decimal_injective : Function.Injective decimal := by
  intro n m h
  have hdigit : ∀ (n : Nat) c, c ∈ Nat.toDigits 10 n → c.toNat < 58 := by
    intro n c hc
    have hdigit := Nat.isDigit_of_mem_toDigits (by decide) (by decide) hc
    rw [Char.isDigit, Bool.and_eq_true, decide_eq_true_eq, decide_eq_true_eq] at hdigit
    have hle : c.toNat ≤ 57 := hdigit.2
    omega
  have hchars : (Nat.toDigits 10 n).map Char.toNat = (Nat.toDigits 10 m).map Char.toNat := by
    have hunits := congrArg (List.map UInt16.toNat) h
    rw [decimal, decimal, List.map_map, List.map_map] at hunits
    have hsame : ∀ k, (Nat.toDigits 10 k).map (UInt16.toNat ∘ unit) = (Nat.toDigits 10 k).map Char.toNat := by
      intro k
      refine List.map_congr_left fun c hc => ?_
      have hlt := hdigit k c hc
      rw [Function.comp_apply, unit, UInt16.toNat_ofNat', Nat.mod_eq_of_lt (by omega)]
    rwa [hsame, hsame] at hunits
  have hdigits : Nat.toDigits 10 n = Nat.toDigits 10 m :=
    List.map_injective_iff.mpr (fun _ _ => Char.toNat_inj.mp) hchars
  have hvalue := congrArg (fun digits => Nat.ofDigitChars 10 digits 0) hdigits
  simpa only [Nat.ofDigitChars_ten_toDigits] using hvalue

/-- The first of two separators is found. -/
theorem append_unit_inj {a : UInt16} {s s' t t' : Utf16} (hs : a ∉ s) (hs' : a ∉ s')
    (h : s ++ a :: t = s' ++ a :: t') : s = s' ∧ t = t' := by
  induction s generalizing s' with
  | nil =>
      cases s' with
      | nil => exact ⟨rfl, List.tail_eq_of_cons_eq h⟩
      | cons b s' => exact absurd (List.head_eq_of_cons_eq h ▸ List.mem_cons_self) hs'
  | cons b s ih =>
      cases s' with
      | nil => exact absurd (List.head_eq_of_cons_eq h ▸ List.mem_cons_self) hs
      | cons c s' =>
          obtain ⟨hsame, hrest⟩ := ih (fun hin => hs (List.mem_cons_of_mem _ hin))
            (fun hin => hs' (List.mem_cons_of_mem _ hin)) (List.tail_eq_of_cons_eq h)
          exact ⟨by rw [List.head_eq_of_cons_eq h, hsame], hrest⟩

theorem css_injective : Function.Injective Rgb.css := by
  rintro ⟨r, g, b⟩ ⟨r', g', b'⟩ h
  have hcut : ∀ r g b, rgbText r g b = units "rgb(" ++
      (decimal r ++ unit ',' :: (decimal g ++ unit ',' :: (decimal b ++ unit ')' :: []))) := by
    intro r g b
    simp only [rgbText, List.append_assoc]
    rfl
  rw [Rgb.css, Rgb.css, hcut, hcut] at h
  have hcomma := unit_notMem_decimal (c := ',') (by decide)
  have hparen := unit_notMem_decimal (c := ')') (by decide)
  obtain ⟨hr, h⟩ := append_unit_inj (hcomma _) (hcomma _) (List.append_cancel_left h)
  obtain ⟨hg, h⟩ := append_unit_inj (hcomma _) (hcomma _) h
  obtain ⟨hb, -⟩ := append_unit_inj (hparen _) (hparen _) h
  exact Prod.ext (decimal_injective hr) (Prod.ext (decimal_injective hg) (decimal_injective hb))

theorem spanName_injective : Function.Injective spanName := by
  intro colour colour' h
  cases colour with
  | none =>
      cases colour' with
      | none => rfl
      | some c => cases h
  | some c =>
      cases colour' with
      | none => cases h
      | some c' => rw [css_injective (List.append_cancel_left (List.append_cancel_right h))]

/-- A span colours the text that is in it. -/
theorem taggedFrom_render {piece : Piece} (hcolour : ∀ colour ∈ piece.1, IsRgb colour) (rest : Utf16) :
    taggedFrom [] none (piece.render ++ rest) =
      (escape piece.2).map ((piece.1.elim [] fun colour => units "span style=\"color:" ++ colour ++ units "\""), ·) ++
        taggedFrom [] none rest := by
  obtain ⟨colour, text⟩ := piece
  cases colour with
  | none =>
      show taggedFrom [] none (([] ++ escape text ++ []) ++ rest) = _
      rw [List.append_nil, List.nil_append, taggedFrom_append (angle_notMem_escape text).1]
      rfl
  | some colour =>
      have hgt : unit '>' ∉ units "span style=\"color:" ++ colour ++ units "\"" := by
        rw [List.mem_append, List.mem_append, not_or, not_or]
        exact ⟨⟨by decide, gt_notMem_of_isRgb (hcolour colour rfl)⟩, by decide⟩
      have hopen := @taggedFrom_open _ [] hgt nofun (escape text ++ (units "</span>" ++ rest))
      have hsplit : Piece.render (some colour, text) ++ rest =
          unit '<' :: ((units "span style=\"color:" ++ colour ++ units "\"") ++
            unit '>' :: (escape text ++ (units "</span>" ++ rest))) := by
        simp only [Piece.render, openPart, closePart, spanTag, List.append_assoc]
        rfl
      rw [hsplit, hopen, taggedFrom_append (angle_notMem_escape text).1]
      exact congrArg (_ ++ ·) (taggedFrom_close (s := units "span") (by decide) rest)

/-- The units of the output stand in the spans of the colours that the loop has kept. -/
theorem tagged_ansiToHtml (text : Utf16) :
    tagged (ansiToHtml text) = (located [] (tokens text)).flatMap fun entry =>
      (escapeUnit entry.2).map (spanName (takenColour entry.1), ·) := by
  obtain ⟨pieces, hpieces, hrgb, hcoloured⟩ := ansiToHtml_pieces text
  have hspan : ∀ colour : Option Rgb, ((colour.map Rgb.css).elim [] fun text =>
      units "span style=\"color:" ++ text ++ units "\"") = spanName colour := by
    intro colour
    cases colour <;> rfl
  have htagged : tagged (pieces.flatMap Piece.render) = (pieces.flatMap Piece.coloured).flatMap fun entry =>
      (escapeUnit entry.2).map ((entry.1.elim [] fun colour =>
        units "span style=\"color:" ++ colour ++ units "\""), ·) := by
    clear hpieces hcoloured
    rw [tagged]
    induction pieces with
    | nil => rfl
    | cons piece pieces ih =>
        obtain ⟨hcolour, hcolours⟩ := List.forall_mem_cons.mp hrgb
        rw [List.flatMap_cons, taggedFrom_render hcolour, ih hcolours, List.flatMap_cons, List.flatMap_append,
          Piece.coloured, List.flatMap_map, escape, List.map_flatMap]
  rw [hpieces, htagged, hcoloured, coloured, List.flatMap_map]
  simp only [keptColour_eq, hspan]

/-- Two ways to mark up the same texts agree exactly if they do for each of them. -/
theorem flatMap_eq_flatMap_iff {α β : Type} {f g : α → List β} {xs : List α}
    (hlength : ∀ x ∈ xs, (f x).length = (g x).length) :
    xs.flatMap f = xs.flatMap g ↔ ∀ x ∈ xs, f x = g x := by
  refine ⟨fun h => ?_, fun h => List.flatMap_congr h⟩
  induction xs with
  | nil => exact nofun
  | cons x xs ih =>
      obtain ⟨hfirst, hrest⟩ := List.forall_mem_cons.mp hlength
      rw [List.flatMap_cons, List.flatMap_cons] at h
      obtain ⟨hx, hxs⟩ := List.append_inj h hfirst
      exact List.forall_mem_cons.mpr ⟨hx, ih hrest hxs⟩

/-- The colours of the output are those of the log exactly if no missed setting and no stray operand does harm. -/
theorem colours_iff : (tagged (ansiToHtml text) = (located [] (tokens text)).flatMap fun entry =>
      (escapeUnit entry.2).map (spanName (sgrColour entry.1), ·)) ↔
    ∀ entry ∈ located [] (tokens text), Harmless entry.1 := by
  rw [tagged_ansiToHtml, flatMap_eq_flatMap_iff fun _ _ => by rw [List.length_map, List.length_map]]
  refine forall₂_congr fun entry _ => ?_
  have hne : escapeUnit entry.2 ≠ [] := by
    rcases escapeUnit_cases entry.2 with ⟨-, h⟩ | ⟨-, h⟩ | ⟨-, h⟩ | ⟨-, -, -, h⟩
    · rw [h]; decide
    · rw [h]; decide
    · rw [h]; decide
    · rw [h]; exact List.cons_ne_nil _ _
  rw [harmless_iff]
  constructor
  · intro h
    obtain ⟨u, units, hunits⟩ := List.exists_cons_of_ne_nil hne
    rw [hunits, List.map_cons, List.map_cons] at h
    exact (spanName_injective (Prod.mk.inj (List.head_eq_of_cons_eq h)).1).symm
  · intro h
    rw [h]

end Output

end Ansi
end PdeOperator
