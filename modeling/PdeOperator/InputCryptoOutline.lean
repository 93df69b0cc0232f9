import PdeOperator.InputCryptoRoundTrip

/-! How much of a secure text its mask shows: of each line whether it is blank, and the key before its
first `=`. -/

namespace PdeOperator.InputCrypto
open Base Text

/-- What masking leaves of a line. -/
inductive Shown where
  | blank (line : Text)
  | key (name : Text)
  | hidden
  deriving DecidableEq

def shown (line : Text) : Shown :=
  if isBlank line then .blank line
  else if '=' ∈ line then .key (partition '=' line).1
  else .hidden

def Shown.line : Shown → Text
  | .blank line => line
  | .key name => keyValueLine name maskedValue
  | .hidden => maskedValue

theorem maskLine_eq_line (line : Text) : maskLine line = (shown line).line := by
  unfold maskLine shown
  split
  · rfl
  · split <;> rfl

/-- The mask of a line shows what the line shows. -/
theorem shown_maskLine (line : Text) : shown (maskLine line) = shown line := by
  unfold maskLine
  split
  · rfl
  · next hblank =>
    rw [shown.eq_1 line, if_neg hblank]
    split
    · next hequals =>
      have hkey := partition_keyValueLine (partition_fst_notMem '=' line) maskedValue
      rw [shown, if_neg (by rw [not_isBlank_keyValueLine]; exact Bool.false_ne_true),
        if_pos (mem_keyValueLine _ _), hkey]
    · decide

/-- What is shown of a line with one more character in front. -/
def Shown.cons (c : Char) : Shown → Shown
  | .blank line => shown (c :: line)
  | .key name => if c = '=' then .key [] else .key (c :: name)
  | .hidden => if c = '=' then .key [] else .hidden

theorem shown_cons (c : Char) (line : Text) : shown (c :: line) = (shown line).cons c := by
  by_cases hblank : isBlank line = true
  · rw [shown.eq_1 line, if_pos hblank]
    rfl
  · have hcons : ¬isBlank (c :: line) = true := by
      rw [isBlank, List.all_cons, Bool.and_eq_true, not_and]
      exact fun _ => hblank
    rw [shown.eq_1 line, if_neg hblank, shown.eq_1 (c :: line), if_neg hcons]
    by_cases hc : c = '='
    · subst hc
      rw [if_pos List.mem_cons_self]
      split <;> rfl
    · have hmem : '=' ∈ c :: line ↔ '=' ∈ line := by
        rw [List.mem_cons]
        exact or_iff_right fun heq => hc heq.symm
      simp only [hmem]
      split
      · have htake : (partition '=' (c :: line)).1 = c :: (partition '=' line).1 := by
          rw [partition, List.takeWhile_cons, if_pos (bne_iff_ne.mpr hc)]
          rfl
        rw [htake, Shown.cons, if_neg hc]
      · rw [Shown.cons, if_neg hc]

def shownLines (text : Text) : List Shown := (splitlines text).map shown

theorem shownLines_ne_nil {text : Text} (h : text ≠ []) : shownLines text ≠ [] := by
  have hcrlf : joinCrLf text ≠ [] := by
    cases text with
    | nil => exact absurd rfl h
    | cons c rest =>
        rw [joinCrLf_cons]
        split
        · next hpair =>
          cases rest with
          | nil => exact absurd hpair.2 nofun
          | cons d rest =>
              obtain rfl := Option.some.inj hpair.2
              rw [joinCrLf_cons, if_neg fun heq => absurd heq.1 (by decide)]
              exact List.cons_ne_nil _ _
        · exact List.cons_ne_nil _ _
  intro hnil
  exact breakLines_ne_nil hcrlf (List.map_eq_nil_iff.mp hnil)

/-- Two texts have the same mask exactly if their lines show the same. -/
theorem maskSecureVars_eq_iff {text text' : Text} (h : text ≠ []) (h' : text' ≠ []) :
    maskSecureVars (some text) = maskSecureVars (some text') ↔ shownLines text = shownLines text' := by
  have hmask : ∀ {t : Text}, t ≠ [] →
      maskSecureVars (some t) = some (joinLines ((splitlines t).map maskLine)) := fun ht =>
    if_neg fun hempty => ht (List.isEmpty_iff.mp hempty)
  have hlines : ∀ {t : Text}, t ≠ [] →
      List.splitOn '\n' (joinLines ((splitlines t).map maskLine)) = (splitlines t).map maskLine := by
    intro t ht
    refine List.splitOn_intercalate '\n' ?_ ?_
    · intro line hline
      obtain ⟨source, hsource, rfl⟩ := List.mem_map.mp hline
      exact fun hnewline => absurd
        (isLine_maskLine (isLine_of_mem_splitlines hsource) _ hnewline) (by decide)
    · intro hnil
      exact shownLines_ne_nil ht (congrArg (List.map shown) (List.map_eq_nil_iff.mp hnil))
  have hshown : ∀ lines : List Text, (lines.map maskLine).map shown = lines.map shown := by
    intro lines
    rw [List.map_map]
    exact List.map_congr_left fun line _ => shown_maskLine line
  rw [hmask h, hmask h', Option.some.injEq]
  constructor
  · intro heq
    have hcut := congrArg (List.splitOn '\n') heq
    rw [hlines h, hlines h'] at hcut
    have hmapped := congrArg (List.map shown) hcut
    rwa [hshown, hshown] at hmapped
  · intro heq
    have hmapped : ∀ t : Text, (splitlines t).map maskLine = (shownLines t).map Shown.line := by
      intro t
      rw [shownLines, List.map_map]
      exact List.map_congr_left fun line _ => maskLine_eq_line line
    rw [hmapped, hmapped, heq]

theorem shown_equals (line : Text) : shown ('=' :: line) = .key [] := by
  rw [shown, isBlank, List.all_cons, show isSpace '=' = false by decide, Bool.false_and,
    if_neg Bool.false_ne_true, if_pos List.mem_cons_self]
  rfl

/-- By induction on the text before the `=`, which decides what is shown of its line. -/
theorem shown_breakLines_equals (before rest : Text) :
    (breakLines (before ++ '=' :: rest)).map shown =
      (breakLines (before ++ ['='])).map shown ++ ((breakLines rest).map shown).tail := by
  induction before with
  | nil =>
      rw [List.nil_append, List.nil_append, breakLines, breakLines,
        if_neg (by rw [equals_not_lineBreak]; exact Bool.false_ne_true)]
      cases breakLines rest with
      | nil => rfl
      | cons line lines =>
          show shown ('=' :: line) :: lines.map shown = shown ['='] :: lines.map shown
          rw [shown_equals, shown_equals]
  | cons c before ih =>
      rw [List.cons_append, List.cons_append, breakLines, breakLines]
      split
      · rw [List.map_cons, List.map_cons, ih, List.cons_append]
      · cases hone : breakLines (before ++ ['=']) with
        | nil => exact absurd hone (breakLines_ne_nil (by simp))
        | cons line lines =>
            cases hall : breakLines (before ++ '=' :: rest) with
            | nil => exact absurd hall (breakLines_ne_nil (by simp))
            | cons first others =>
                rw [hone, hall, List.map_cons, List.map_cons, List.cons_append,
                  List.cons.injEq] at ih
                show shown (c :: first) :: others.map shown =
                  shown (c :: line) :: (lines.map shown ++ ((breakLines rest).map shown).tail)
                rw [shown_cons, shown_cons, ih.1, ih.2]

/-- An `=` hides the rest of its line. -/
theorem shownLines_append_equals (name value : Text) :
    shownLines (name ++ '=' :: value) = shownLines (name ++ ['=']) ++ (shownLines value).tail := by
  obtain ⟨before, hbefore⟩ := exists_joinCrLf_append (by decide : '=' ≠ '\r') name
  rw [shownLines, shownLines, shownLines, splitlines, splitlines, splitlines, hbefore, hbefore]
  exact shown_breakLines_equals before _

/-- What the mask of a text of `NAME=value` lines shows: the names, and what stands in a value after
its first line. Every value but the last is followed by a newline. -/
def outline : List (Text × Text) → List Shown
  | [] => []
  | [(name, value)] => shownLines (name ++ ['=']) ++ (shownLines value).tail
  | (name, value) :: next :: rest =>
      shownLines (name ++ ['=']) ++ (shownLines (value ++ ['\n'])).tail ++ outline (next :: rest)

theorem shownLines_joinLines (vars : List (Text × Text)) :
    shownLines (joinLines (vars.map fun entry => keyValueLine entry.1 entry.2)) = outline vars := by
  induction vars with
  | nil => rfl
  | cons entry rest ih =>
      cases rest with
      | nil =>
          rw [List.map_singleton, joinLines_singleton]
          exact shownLines_append_equals entry.1 entry.2
      | cons next rest =>
          have hline : keyValueLine entry.1 entry.2 ++ ['\n'] =
              entry.1 ++ '=' :: (entry.2 ++ ['\n']) := by simp [keyValueLine]
          rw [List.map_cons, List.map_cons, joinLines_cons_cons, shownLines,
            splitlines_append_newline, List.map_append, hline]
          rw [List.map_cons] at ih
          show shownLines (entry.1 ++ '=' :: (entry.2 ++ ['\n'])) ++ shownLines _ = _
          rw [shownLines_append_equals, ih]
          rfl

theorem outline_ne_nil {vars : List (Text × Text)} (h : vars ≠ []) : outline vars ≠ [] := by
  have hname : ∀ name : Text, shownLines (name ++ ['=']) ≠ [] := fun name =>
    shownLines_ne_nil (by simp)
  rcases vars with _ | ⟨entry, _ | ⟨next, rest⟩⟩
  · exact absurd rfl h
  · exact List.append_ne_nil_of_left_ne_nil (hname _) _
  · exact List.append_ne_nil_of_left_ne_nil (List.append_ne_nil_of_left_ne_nil (hname _) _) _

/-- A value of one line adds nothing to what is shown. -/
theorem shownLines_tail_of_isLine {value : Text} (h : IsLine value) :
    (shownLines value).tail = [] ∧ (shownLines (value ++ ['\n'])).tail = [] := by
  have hcrlf := h.joinCrLf_append []
  rw [List.append_nil, joinCrLf, List.append_nil] at hcrlf
  have hnewline := h.joinCrLf_append ['\n']
  constructor
  · rw [shownLines, splitlines, hcrlf]
    by_cases hne : value = []
    · rw [hne]
      rfl
    · rw [breakLines_line h hne]
      rfl
  · rw [shownLines, splitlines, hnewline, show joinCrLf ['\n'] = ['\n'] by decide,
      breakLines_line_append_newline h]
    rfl

/-- Values of one line each show their names only. -/
theorem outline_eq_of_isLine {vars vars' : List (Text × Text)}
    (hnames : vars.map Prod.fst = vars'.map Prod.fst) (h : ∀ entry ∈ vars, IsLine entry.2)
    (h' : ∀ entry ∈ vars', IsLine entry.2) : outline vars = outline vars' := by
  have hnamesOnly : ∀ {all : List (Text × Text)}, (∀ entry ∈ all, IsLine entry.2) →
      outline all = (all.map Prod.fst).flatMap fun name => shownLines (name ++ ['=']) := by
    intro all hall
    induction all with
    | nil => rfl
    | cons entry rest ih =>
        have hrest := ih fun e he => hall e (List.mem_cons_of_mem _ he)
        obtain ⟨hlast, hmiddle⟩ := shownLines_tail_of_isLine (hall entry List.mem_cons_self)
        rw [List.map_cons, List.flatMap_cons, ← hrest]
        cases rest with
        | nil => rw [outline, outline, hlast]
        | cons next rest => rw [outline, hmiddle, List.append_nil]
  rw [hnamesOnly h, hnamesOnly h', hnames]

end PdeOperator.InputCrypto
