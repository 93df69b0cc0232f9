import PdeOperator.BaseHtml

/-! `ansiToHtml` (`lib/ansi.ts`): a log with ANSI escape sequences becomes escaped text in coloured spans,
over the UTF-16 code units of the log. -/

namespace PdeOperator
open Base Html

namespace Ansi

/-- `replaceAll` of a single character -/
def replaceAll (c : Char) (replacement : String) (text : Utf16) : Utf16 :=
  text.flatMap fun u => if u = unit c then units replacement else [u]

def escapeHtml (text : Utf16) : Utf16 :=
  replaceAll '>' "&gt;" (replaceAll '<' "&lt;" (replaceAll '&' "&amp;" text))

def decimal (n : Nat) : Utf16 := (Nat.toDigits 10 n).map unit

def rgbText (r g b : Nat) : Utf16 :=
  units "rgb(" ++ decimal r ++ units "," ++ decimal g ++ units "," ++ decimal b ++ units ")"

def basic : List (Nat × Nat × Nat) :=
  [(0, 0, 0), (205, 0, 0), (0, 205, 0), (205, 205, 0), (0, 0, 238), (205, 0, 205), (0, 205, 205), (229, 229, 229),
    (127, 127, 127), (255, 0, 0), (0, 255, 0), (255, 255, 0), (92, 92, 255), (255, 0, 255), (0, 255, 255),
    (255, 255, 255)]

def level (c : Nat) : Nat := if c = 0 then 0 else 55 + c * 40

def xterm256 (n : Nat) : Utf16 :=
  if n > 255 then []
  else if n < 16 then
    let (r, g, b) := basic.getD n (0, 0, 0)
    rgbText r g b
  else if n ≥ 232 then
    let v := 8 + (n - 232) * 10
    rgbText v v v
  else
    let idx := n - 16
    rgbText (level (idx / 36)) (level (idx % 36 / 6)) (level (idx % 6))

/-- `text || null` -/
def orNull (text : Utf16) : Option Utf16 := if text ≠ [] then some text else none

/-- The loop of `applySgr`. -/
def applyParams : List Nat → Option Utf16 → Option Utf16
  | [], colour => colour
  | 38 :: 5 :: n :: params, _ => applyParams params (orNull (xterm256 n))
  | code :: params, colour => applyParams params (if code = 0 ∨ code = 39 then none else colour)

def applySgr (params : List Nat) (colour : Option Utf16) : Option Utf16 :=
  if params = [] then none else applyParams params colour

def esc : UInt16 := 0x1B

def isParam (u : UInt16) : Bool := (unit '0' ≤ u && u ≤ unit '9') || u = unit ';'

def isLetter (u : UInt16) : Bool := (unit 'A' ≤ u && u ≤ unit 'Z') || (unit 'a' ≤ u && u ≤ unit 'z')

/-- What `.` does not match. -/
def isLineTerminator (u : UInt16) : Bool := u = 0x0A || u = 0x0D || u = 0x2028 || u = 0x2029

/-- The two alternatives of the expression. -/
inductive Match where
  | sequence (raw : Utf16) (final : UInt16)
  | pair (second : UInt16)
  deriving DecidableEq

def Match.text : Match → Utf16
  | .sequence raw final => esc :: unit '[' :: (raw ++ [final])
  | .pair second => [esc, second]

/-- `\[([0-9;]*)([A-Za-z])`, with what follows. -/
def matchSequence : Utf16 → Option (Match × Utf16)
  | [] => none
  | bracket :: text =>
      if bracket = unit '[' then
        match text.dropWhile isParam with
        | final :: rest => if isLetter final then some (.sequence (text.takeWhile isParam) final, rest) else none
        | [] => none
      else none

def matchPair : Utf16 → Option (Match × Utf16)
  | [] => none
  | second :: rest => if isLineTerminator second then none else some (.pair second, rest)

/-- A match at the beginning of a text. -/
def matchHere : Utf16 → Option (Match × Utf16)
  | [] => none
  | u :: text => if u = esc then (matchSequence text).or (matchPair text) else none

/-- The first match with the text in front of it and behind it. -/
def exec : Utf16 → Option (Utf16 × Match × Utf16)
  | [] => none
  | u :: text =>
      match matchHere (u :: text) with
      | some (found, rest) => some ([], found, rest)
      | none => (exec text).map fun (before, found, rest) => (u :: before, found, rest)

theorem matchSequence_eq {text rest : Utf16} {found : Match} (h : matchSequence text = some (found, rest)) :
    esc :: text = found.text ++ rest := by
  cases text with
  | nil => cases h
  | cons bracket text =>
      rw [matchSequence] at h
      split at h
      · next hbracket =>
        have hcut := List.takeWhile_append_dropWhile (p := isParam) (l := text)
        split at h
        · next final after hdrop =>
          split at h
          · cases h
            rw [hdrop] at hcut
            rw [Match.text, hbracket, List.cons_append, List.cons_append, List.append_assoc,
              List.singleton_append, hcut]
          · cases h
        · cases h
      · cases h

theorem matchPair_eq {text rest : Utf16} {found : Match} (h : matchPair text = some (found, rest)) :
    esc :: text = found.text ++ rest := by
  cases text with
  | nil => cases h
  | cons second text =>
      rw [matchPair] at h
      split at h
      · cases h
      · cases h
        rfl

theorem matchHere_eq {text rest : Utf16} {found : Match} (h : matchHere text = some (found, rest)) :
    text = found.text ++ rest := by
  cases text with
  | nil => cases h
  | cons u text =>
      rw [matchHere] at h
      split at h
      · next hesc =>
        rw [hesc]
        rcases Option.or_eq_some_iff.mp h with h | ⟨-, h⟩
        · exact matchSequence_eq h
        · exact matchPair_eq h
      · cases h

theorem exec_eq {text before rest : Utf16} {found : Match} (h : exec text = some (before, found, rest)) :
    text = before ++ (found.text ++ rest) := by
  induction text generalizing before with
  | nil => cases h
  | cons u text ih =>
      rw [exec] at h
      split at h
      · next hhere =>
        cases h
        exact matchHere_eq hhere
      · obtain ⟨⟨before', found', rest'⟩, hrest, heq⟩ := Option.map_eq_some_iff.mp h
        cases heq
        rw [ih hrest, List.cons_append]

theorem length_lt_of_exec {text before rest : Utf16} {found : Match} (h : exec text = some (before, found, rest)) :
    rest.length < text.length := by
  have hfound : 0 < found.text.length := by
    cases found <;> exact Nat.succ_pos _
  rw [exec_eq h, List.length_append, List.length_append]
  omega

def number (digits : Utf16) : Nat := digits.foldl (fun n u => 10 * n + (u.toNat - 48)) 0

def parseParams (raw : Utf16) : List Nat := if raw ≠ [] then (raw.splitOn (unit ';')).map number else [0]

def spanTag (colour : Utf16) : Utf16 := units "<span style=\"color:" ++ colour ++ units "\">"

/-- The variables of the loop; the text from `last` on is its argument. -/
structure Scan where
  html : Utf16 := []
  isOpen : Bool := false
  colour : Option Utf16 := none

def Scan.close (s : Scan) : Scan :=
  if s.isOpen then { s with html := s.html ++ units "</span>", isOpen := false } else s

def Scan.openColor (s : Scan) : Scan :=
  match s.colour with
  | some colour => { s.close with html := s.close.html ++ spanTag colour, isOpen := true }
  | none => s.close

/-- `html += escapeHtml(...)` -/
def Scan.write (s : Scan) (text : Utf16) : Scan := { s with html := s.html ++ escapeHtml text }

/-- The tag is written only when the colour changes. -/
def Scan.setColor (s : Scan) (colour : Option Utf16) : Scan :=
  if colour ≠ s.colour then { s with colour }.openColor else s

/-- One turn of the loop. -/
def Scan.turn (s : Scan) (before : Utf16) : Match → Scan
  | .sequence raw final =>
      if final = unit 'm' then (s.write before).setColor (applySgr (parseParams raw) s.colour) else s.write before
  | .pair _ => s.write before

def scanLoop (text : Utf16) (s : Scan) : Scan :=
  match _found : exec text with
  | none => (s.write text).close
  | some (before, found, rest) => scanLoop rest (s.turn before found)
termination_by text.length
decreasing_by exact length_lt_of_exec _found

def ansiToHtml (text : Utf16) : Utf16 := (scanLoop text {}).html

/-! ### What the log says

The units of the log that are no part of a match, each with the sequences before it. -/

inductive Token where
  | unit (u : UInt16)
  | escape (found : Match)

def Token.text : Token → Utf16
  | .unit u => [u]
  | .escape found => found.text

/-- The unit of a token that stays. -/
def Token.unit? : Token → Option UInt16
  | .unit u => some u
  | .escape _ => none

/-- The parameters of a token that is an SGR sequence, as they are written. -/
def Token.params? : Token → Option Utf16
  | .escape (.sequence raw final) => if final = Base.unit 'm' then some raw else none
  | _ => none

def tokens (text : Utf16) : List Token :=
  match _found : exec text with
  | none => text.map .unit
  | some (before, found, rest) => before.map .unit ++ .escape found :: tokens rest
termination_by text.length
decreasing_by exact length_lt_of_exec _found

/-- The units that stay, each with the SGR sequences before it. -/
def located : List Utf16 → List Token → List (List Utf16 × UInt16)
  | _, [] => []
  | before, token :: rest =>
      token.unit?.toList.map (before, ·) ++ located (before ++ token.params?.toList) rest

/-- The colour that the sequences leave in the state of the loop. -/
def keptColour (sequences : List Utf16) : Option Utf16 :=
  sequences.foldl (fun colour raw => applySgr (parseParams raw) colour) none

/-- The colours that the loop gives to the units. -/
def coloured (entries : List (List Utf16 × UInt16)) : List (Option Utf16 × UInt16) :=
  entries.map fun entry => (keptColour entry.1, entry.2)

/-- A colour of the exact form. -/
def IsRgb (colour : Utf16) : Prop := ∃ r g b, r ≤ 255 ∧ g ≤ 255 ∧ b ≤ 255 ∧ colour = rgbText r g b

/-- A stretch of text in a span of a colour, or in none. -/
abbrev Piece := Option Utf16 × Utf16

def openPart : Option Utf16 → Utf16
  | some colour => spanTag colour
  | none => []

def closePart : Option Utf16 → Utf16
  | some _ => units "</span>"
  | none => []

def Piece.render (piece : Piece) : Utf16 := openPart piece.1 ++ escape piece.2 ++ closePart piece.1

/-- The units of a piece with its colour. -/
def Piece.coloured (piece : Piece) : List (Option Utf16 × UInt16) := piece.2.map (piece.1, ·)

section Tokens

variable {text before rest : Utf16} {found : Match} {sequences : List Utf16}

theorem tokens_of_none (h : exec text = none) : tokens text = text.map .unit := by
  rw [tokens]
  split
  · rfl
  · next hfound => cases h.symm.trans hfound

theorem tokens_of_some (h : exec text = some (before, found, rest)) :
    tokens text = before.map .unit ++ .escape found :: tokens rest := by
  rw [tokens]
  split
  · next hfound => cases h.symm.trans hfound
  · next hfound =>
    cases h.symm.trans hfound
    rfl

theorem flatMap_text_units (text : Utf16) : (text.map Token.unit).flatMap Token.text = text := by
  rw [List.flatMap_map]
  exact List.flatMap_singleton' text

/-- Nothing of the log is lost between the tokens. -/
theorem flatMap_text_tokens (text : Utf16) : (tokens text).flatMap Token.text = text := by
  induction text using tokens.induct with
  | case1 text hfound => rw [tokens_of_none hfound, flatMap_text_units]
  | case2 text before found rest hfound ih =>
      rw [tokens_of_some hfound, List.flatMap_append, flatMap_text_units, List.flatMap_cons, ih, exec_eq hfound]
      rfl

/-- Units change no colour. -/
theorem located_units_append (text : Utf16) (rest : List Token) :
    located sequences (text.map .unit ++ rest) = text.map (sequences, ·) ++ located sequences rest := by
  induction text with
  | nil => rfl
  | cons u text ih =>
      rw [List.map_cons, List.cons_append, located]
      show (sequences, u) :: located (sequences ++ []) (text.map .unit ++ rest) = _
      rw [List.append_nil, ih]
      rfl

theorem located_units (text : Utf16) : located sequences (text.map .unit) = text.map (sequences, ·) := by
  have h : located sequences (text.map .unit ++ []) = _ := located_units_append text []
  rwa [List.append_nil, located, List.append_nil] at h

theorem coloured_append (entries entries' : List (List Utf16 × UInt16)) :
    coloured (entries ++ entries') = coloured entries ++ coloured entries' := List.map_append

theorem coloured_units (text : Utf16) :
    coloured (text.map (sequences, ·)) = Piece.coloured (keptColour sequences, text) := List.map_map

theorem map_snd_located (sequences : List Utf16) (tokens : List Token) :
    (located sequences tokens).map Prod.snd = tokens.filterMap Token.unit? := by
  induction tokens generalizing sequences with
  | nil => rfl
  | cons token tokens ih =>
      rw [located, List.map_append, ih]
      cases token <;> rfl

end Tokens

section Colours

variable {colour : Utf16} {keeps : Option Utf16} {n : Nat}

theorem isRgb_xterm256 (h : n ≤ 255) : IsRgb (xterm256 n) := by
  have hlevel : ∀ c, c ≤ 5 → level c ≤ 255 := by
    intro c hc
    rw [level]
    split <;> omega
  rw [xterm256, if_neg (by omega)]
  split
  · next hlow =>
    have hbasic : ∀ entry ∈ basic, entry.1 ≤ 255 ∧ entry.2.1 ≤ 255 ∧ entry.2.2 ≤ 255 := by decide
    have hmem : basic.getD n (0, 0, 0) ∈ basic := by
      rw [List.getD_eq_getElem?_getD, List.getElem?_eq_getElem (l := basic) hlow, Option.getD_some]
      exact List.getElem_mem _
    obtain ⟨hr, hg, hb⟩ := hbasic _ hmem
    exact ⟨_, _, _, hr, hg, hb, rfl⟩
  · split
    · have hv : 8 + (n - 232) * 10 ≤ 255 := by omega
      exact ⟨_, _, _, hv, hv, hv, rfl⟩
    · refine ⟨_, _, _, hlevel _ ?_, hlevel _ ?_, hlevel _ ?_, rfl⟩ <;> omega

theorem unit_notMem_decimal {c : Char} (hc : c.toNat < 48 ∨ 57 < c.toNat ∧ c.toNat < 128) (n : Nat) :
    unit c ∉ decimal n := by
  intro h
  obtain ⟨d, hd, heq⟩ := List.mem_map.mp h
  have hdigit := Nat.isDigit_of_mem_toDigits (by decide) (by decide) hd
  rw [Char.isDigit, Bool.and_eq_true, decide_eq_true_eq, decide_eq_true_eq] at hdigit
  have hrange : 48 ≤ d.toNat ∧ d.toNat ≤ 57 := hdigit
  have hsame := congrArg UInt16.toNat heq
  rw [unit, unit, UInt16.toNat_ofNat', UInt16.toNat_ofNat'] at hsame
  omega

theorem gt_notMem_of_isRgb (h : IsRgb colour) : unit '>' ∉ colour := by
  obtain ⟨r, g, b, -, -, -, rfl⟩ := h
  have hdecimal := unit_notMem_decimal (c := '>') (by decide)
  simp only [rgbText, List.mem_append, not_or]
  exact ⟨⟨⟨⟨⟨⟨by decide, hdecimal r⟩, by decide⟩, hdecimal g⟩, by decide⟩, hdecimal b⟩, by decide⟩

theorem isRgb_orNull_xterm256 (n : Nat) : ∀ c ∈ orNull (xterm256 n), IsRgb c := by
  intro c hc
  rw [orNull] at hc
  split at hc
  · next hne =>
    cases hc
    refine isRgb_xterm256 (Nat.not_lt.mp fun h => hne ?_)
    exact if_pos h
  · cases hc

theorem isRgb_applyParams (params : List Nat) (hcolour : ∀ c ∈ keeps, IsRgb c) :
    ∀ c ∈ applyParams params keeps, IsRgb c := by
  induction params, keeps using applyParams.induct with
  | case1 keeps => exact hcolour
  | case2 n params keeps ih => exact ih (isRgb_orNull_xterm256 n)
  | case3 code params keeps hother ih =>
      rw [applyParams.eq_3 _ _ _ hother]
      refine ih ?_
      split
      · exact nofun
      · exact hcolour

end Colours

section Loop

variable {sequences : List Utf16}

theorem replaceAll_append (c : Char) (replacement : String) (text text' : Utf16) :
    replaceAll c replacement (text ++ text') = replaceAll c replacement text ++ replaceAll c replacement text' :=
  List.flatMap_append

theorem replaceAll_singleton {c : Char} {u : UInt16} (h : u ≠ unit c) (replacement : String) :
    replaceAll c replacement [u] = [u] := by
  rw [replaceAll, List.flatMap_singleton, if_neg h]

/-- One replacement after the other escapes each unit by itself. -/
theorem escapeHtml_eq_escape (text : Utf16) : escapeHtml text = escape text := by
  have hunit : ∀ u : UInt16, escapeHtml [u] = escapeUnit u := by
    intro u
    rcases escapeUnit_cases u with ⟨rfl, h⟩ | ⟨rfl, h⟩ | ⟨rfl, h⟩ | ⟨hamp, hlt, hgt, h⟩
    · rw [h]
      decide
    · rw [h]
      decide
    · rw [h]
      decide
    · rw [h, escapeHtml, replaceAll_singleton hamp, replaceAll_singleton hlt, replaceAll_singleton hgt]
  induction text with
  | nil => rfl
  | cons u text ih =>
      rw [escape_cons, ← hunit, ← ih, escapeHtml, escapeHtml, escapeHtml, ← replaceAll_append, ← replaceAll_append,
        ← replaceAll_append, List.singleton_append]

theorem applySgr_parseParams (raw : Utf16) (colour : Option Utf16) :
    applySgr (parseParams raw) colour = applyParams (parseParams raw) colour := by
  refine if_neg ?_
  rw [parseParams]
  split
  · exact fun h => List.splitOn_ne_nil _ _ (List.map_eq_nil_iff.mp h)
  · nofun

theorem keptColour_append (sequences : List Utf16) (raw : Utf16) :
    keptColour (sequences ++ [raw]) = applySgr (parseParams raw) (keptColour sequences) := List.foldl_concat ..

/-- What the loop has written: whole pieces, and the text since the colour last changed. -/
structure Written (s : Scan) (pieces : List Piece) (current : Utf16) : Prop where
  html_eq : s.html = pieces.flatMap Piece.render ++ (openPart s.colour ++ escape current)
  isOpen_eq : s.isOpen = s.colour.isSome
  isRgb : ∀ colour ∈ s.colour, IsRgb colour
  pieces_isRgb : ∀ piece ∈ pieces, ∀ colour ∈ piece.1, IsRgb colour

variable {s : Scan} {pieces : List Piece} {current before : Utf16} {colour : Option Utf16}

theorem Written.write (h : Written s pieces current) (before : Utf16) :
    Written (s.write before) pieces (current ++ before) where
  html_eq := by
    show s.html ++ escapeHtml before = _
    rw [h.html_eq, escapeHtml_eq_escape, escape_append]
    simp only [List.append_assoc]
    rfl
  isOpen_eq := h.isOpen_eq
  isRgb := h.isRgb
  pieces_isRgb := h.pieces_isRgb

/-- Closing makes a piece of the current text. -/
theorem Written.html_close (h : Written s pieces current) :
    s.close.html = (pieces ++ [(s.colour, current)]).flatMap Piece.render := by
  rw [List.flatMap_append, List.flatMap_singleton, Piece.render, Scan.close, h.isOpen_eq]
  cases hcolour : s.colour with
  | none =>
      show s.html = _
      rw [h.html_eq, hcolour, closePart, List.append_nil]
  | some colour =>
      show s.html ++ units "</span>" = _
      rw [h.html_eq, hcolour, closePart]
      simp only [List.append_assoc]

theorem forall_mem_concat_isRgb (h : Written s pieces current) :
    ∀ piece ∈ pieces ++ [(s.colour, current)], ∀ colour ∈ piece.1, IsRgb colour :=
  List.forall_mem_append.mpr ⟨h.pieces_isRgb, List.forall_mem_singleton.mpr h.isRgb⟩

theorem close_with_colour (s : Scan) (colour : Option Utf16) :
    { s with colour }.close = { s.close with colour } := by
  rw [Scan.close, Scan.close]
  split <;> rfl

theorem isOpen_close (s : Scan) : s.close.isOpen = false := by
  rw [Scan.close]
  split
  · rfl
  · next h => exact Bool.eq_false_iff.mpr h

/-- A change of the colour begins a new piece. -/
theorem Written.openColor (h : Written s pieces current) (hcolour : ∀ c ∈ colour, IsRgb c) :
    Written { s with colour }.openColor (pieces ++ [(s.colour, current)]) [] := by
  cases colour with
  | none =>
      have heq : { s with colour := none }.openColor = { s.close with colour := none } := close_with_colour s none
      rw [heq]
      exact
        { html_eq := by
            show s.close.html = _ ++ ([] ++ [])
            rw [h.html_close, List.append_nil, List.append_nil]
          isOpen_eq := isOpen_close s
          isRgb := hcolour
          pieces_isRgb := forall_mem_concat_isRgb h }
  | some c =>
      have heq : { s with colour := some c }.openColor =
          { s.close with html := s.close.html ++ spanTag c, isOpen := true, colour := some c } := by
        rw [Scan.openColor, close_with_colour]
      rw [heq]
      exact
        { html_eq := by
            show s.close.html ++ spanTag c = _ ++ (spanTag c ++ [])
            rw [h.html_close, List.append_nil]
          isOpen_eq := rfl
          isRgb := hcolour
          pieces_isRgb := forall_mem_concat_isRgb h }

theorem coloured_piece_append (colour : Option Utf16) (text text' : Utf16) :
    Piece.coloured (colour, text ++ text') = Piece.coloured (colour, text) ++ Piece.coloured (colour, text') :=
  List.map_append

theorem colour_openColor (s : Scan) : s.openColor.colour = s.colour := by
  have hclose : s.close.colour = s.colour := by
    rw [Scan.close]
    split <;> rfl
  rw [Scan.openColor]
  split <;> exact hclose

theorem colour_setColor (s : Scan) (colour : Option Utf16) : (s.setColor colour).colour = colour := by
  rw [Scan.setColor]
  split
  · exact colour_openColor _
  · next hsame => exact (not_not.mp hsame).symm

/-- What is written keeps its colour when another one is set. -/
theorem Written.setColor (h : Written s pieces current) (hcolour : ∀ c ∈ colour, IsRgb c) :
    ∃ pieces' current', Written (s.setColor colour) pieces' current' ∧
      pieces'.flatMap Piece.coloured ++ Piece.coloured ((s.setColor colour).colour, current') =
        pieces.flatMap Piece.coloured ++ Piece.coloured (s.colour, current) := by
  rw [Scan.setColor]
  split
  · refine ⟨pieces ++ [(s.colour, current)], [], h.openColor hcolour, ?_⟩
    rw [List.flatMap_append, List.flatMap_singleton]
    exact List.append_nil _
  · exact ⟨pieces, current, h, rfl⟩

/-- A turn writes the text in front of the match in the colour it has found. -/
theorem Written.turn (h : Written s pieces current) (before : Utf16) (found : Match) :
    ∃ pieces' current', Written (s.turn before found) pieces' current' ∧
      pieces'.flatMap Piece.coloured ++ Piece.coloured ((s.turn before found).colour, current') =
        pieces.flatMap Piece.coloured ++ Piece.coloured (s.colour, current ++ before) := by
  cases found with
  | pair second => exact ⟨pieces, current ++ before, h.write before, rfl⟩
  | sequence raw final =>
      rw [Scan.turn]
      split
      · refine (h.write before).setColor ?_
        rw [applySgr_parseParams]
        exact isRgb_applyParams (parseParams raw) h.isRgb
      · exact ⟨pieces, current ++ before, h.write before, rfl⟩

/-- A turn changes the colour by the parameters of its match. -/
theorem colour_turn (hcolour : s.colour = keptColour sequences) (before : Utf16) (found : Match) :
    (s.turn before found).colour = keptColour (sequences ++ (Token.escape found).params?.toList) := by
  cases found with
  | pair second =>
      show s.colour = keptColour (sequences ++ [])
      rw [List.append_nil, hcolour]
  | sequence raw final =>
      rw [Scan.turn, Token.params?]
      split
      · rw [colour_setColor, Option.toList_some, keptColour_append, ← hcolour]
      · rw [Option.toList_none, List.append_nil]
        exact hcolour

theorem scanLoop_of_none {text : Utf16} (h : exec text = none) :
    scanLoop text s = (s.write text).close := by
  rw [scanLoop]
  split
  · rfl
  · next hfound => cases h.symm.trans hfound

theorem scanLoop_of_some {text rest : Utf16} {found : Match} (h : exec text = some (before, found, rest)) :
    scanLoop text s = scanLoop rest (s.turn before found) := by
  rw [scanLoop]
  split
  · next hfound => cases h.symm.trans hfound
  · next hfound =>
    cases h.symm.trans hfound
    rfl

/-- What the loop writes from any state on. -/
theorem scanLoop_spec (sequences : List Utf16) (text : Utf16) (h : Written s pieces current)
    (hcolour : s.colour = keptColour sequences) :
    ∃ pieces' : List Piece, (scanLoop text s).html = pieces'.flatMap Piece.render ∧
      (∀ piece ∈ pieces', ∀ colour ∈ piece.1, IsRgb colour) ∧
      pieces'.flatMap Piece.coloured = pieces.flatMap Piece.coloured ++ Piece.coloured (s.colour, current) ++
        coloured (located sequences (tokens text)) := by
  induction text using tokens.induct generalizing s pieces current sequences with
  | case1 text hfound =>
      have hwritten := h.write text
      refine ⟨_, ?_, forall_mem_concat_isRgb hwritten, ?_⟩
      · rw [scanLoop_of_none hfound]
        exact hwritten.html_close
      · rw [tokens_of_none hfound, located_units, coloured_units, List.flatMap_append, List.flatMap_singleton,
          ← hcolour, List.append_assoc, ← coloured_piece_append]
        rfl
  | case2 text before found rest hfound ih =>
      obtain ⟨pieces', current', hwritten, hpieces⟩ := h.turn before found
      obtain ⟨all, hall, hrgb, hcoloured⟩ := ih _ hwritten (colour_turn hcolour before found)
      refine ⟨all, by rw [scanLoop_of_some hfound, hall], hrgb, ?_⟩
      rw [hcoloured, hpieces, tokens_of_some hfound, located_units_append, coloured_append, coloured_units,
        coloured_piece_append, ← hcolour]
      simp only [List.append_assoc]
      rfl

end Loop

/-- A span is a tag around an escaped text. -/
theorem removeTags_render {piece : Piece} (hcolour : ∀ colour ∈ piece.1, IsRgb colour) (rest : Utf16) :
    removeTags (piece.render ++ rest) = escape piece.2 ++ removeTags rest := by
  obtain ⟨colour, text⟩ := piece
  cases colour with
  | none =>
      show removeTags (([] ++ escape text ++ []) ++ rest) = _
      rw [List.append_nil, List.nil_append, removeTags_append (angle_notMem_escape text).1]
  | some colour =>
      have hgt : unit '>' ∉ units "span style=\"color:" ++ colour ++ units "\"" := by
        rw [List.mem_append, List.mem_append, not_or, not_or]
        exact ⟨⟨by decide, gt_notMem_of_isRgb (hcolour colour rfl)⟩, by decide⟩
      have hopen := removeTags_tag hgt (escape text ++ (units "</span>" ++ rest))
      have hclose := removeTags_tag (s := units "/span") (by decide) rest
      have hsplit : Piece.render (some colour, text) ++ rest =
          unit '<' :: ((units "span style=\"color:" ++ colour ++ units "\"") ++
            unit '>' :: (escape text ++ (units "</span>" ++ rest))) := by
        simp only [Piece.render, openPart, closePart, spanTag, List.append_assoc]
        rfl
      rw [hsplit, hopen, removeTags_append (angle_notMem_escape text).1]
      exact congrArg (escape text ++ ·) hclose

theorem removeTags_flatMap_render {pieces : List Piece}
    (hcolours : ∀ piece ∈ pieces, ∀ colour ∈ piece.1, IsRgb colour) :
    removeTags (pieces.flatMap Piece.render) = escape (pieces.flatMap Prod.snd) := by
  induction pieces with
  | nil => rfl
  | cons piece pieces ih =>
      obtain ⟨hcolour, hcolours⟩ := List.forall_mem_cons.mp hcolours
      rw [List.flatMap_cons, removeTags_render hcolour, ih hcolours, List.flatMap_cons, escape_append]

theorem map_snd_flatMap_coloured (pieces : List Piece) :
    (pieces.flatMap Piece.coloured).map Prod.snd = pieces.flatMap Prod.snd := by
  induction pieces with
  | nil => rfl
  | cons piece pieces ih =>
      have hpiece : (Piece.coloured piece).map Prod.snd = piece.2 := by
        rw [Piece.coloured, List.map_map]
        exact List.map_id _
      rw [List.flatMap_cons, List.map_append, ih, hpiece, List.flatMap_cons]

/-- The output is escaped text in spans of the exact form, which are balanced and never nested, and each unit is in
a span of the colour that the loop keeps for it. -/
theorem ansiToHtml_pieces (text : Utf16) :
    ∃ pieces : List Piece, ansiToHtml text = pieces.flatMap Piece.render ∧
      (∀ piece ∈ pieces, ∀ colour ∈ piece.1, IsRgb colour) ∧
      pieces.flatMap Piece.coloured = coloured (located [] (tokens text)) := by
  have hstart : Written {} [] [] := ⟨rfl, rfl, nofun, nofun⟩
  exact scanLoop_spec [] text hstart rfl

/-- Without the spans and the escapes the output is the log without the matches. -/
theorem undoEscapes_ansiToHtml (text : Utf16) :
    undoEscapes (removeTags (ansiToHtml text)) = (tokens text).filterMap Token.unit? := by
  obtain ⟨pieces, hpieces, hrgb, hcoloured⟩ := ansiToHtml_pieces text
  have hunits : pieces.flatMap Prod.snd = (located [] (tokens text)).map Prod.snd := by
    rw [← map_snd_flatMap_coloured, hcoloured, coloured, List.map_map]
    rfl
  rw [hpieces, removeTags_flatMap_render hrgb, undoEscapes_escape, hunits, map_snd_located]

example : ansiToHtml (units "a<\x1b[38;5;1mb\x1b[31mc\x1b[0md\x1b[3") =
    units "a&lt;<span style=\"color:rgb(205,0,0)\">bc</span>d3" := by
  decide +kernel

end Ansi
end PdeOperator
