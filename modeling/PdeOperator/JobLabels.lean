import PdeOperator.ConfigImport
import PdeOperator.JobTokens

/-! The labels of `JobService._build_job`, and the profile ids under which Kubernetes accepts them. -/

namespace PdeOperator
open Base

/-- Letters, digits, `-`, `_` and `.` -/
def isLabelChar (c : Char) : Bool := c.isAlphanum || c == '-' || c == '_' || c == '.'

/-- A label value that is not empty. -/
structure IsLabelValue (value : Text) : Prop where
  length_le : value.length ≤ 63
  chars : ∀ c ∈ value, isLabelChar c = true
  first : ∃ c ∈ value.head?, c.isAlphanum = true
  last : ∃ c ∈ value.getLast?, c.isAlphanum = true

theorem isLabelValue_iff {value : Text} : IsLabelValue value ↔ value.length ≤ 63 ∧
    (∀ c ∈ value, isLabelChar c = true) ∧ (∃ c ∈ value.head?, c.isAlphanum = true) ∧
    ∃ c ∈ value.getLast?, c.isAlphanum = true :=
  ⟨fun h => ⟨h.length_le, h.chars, h.first, h.last⟩, fun h => ⟨h.1, h.2.1, h.2.2.1, h.2.2.2⟩⟩

/-- The character of an option, and not all characters, decides. -/
instance (priority := 2000) decidableExistsChar (found : Option Char) (p : Char → Prop) [DecidablePred p] :
    Decidable (∃ c ∈ found, p c) := Option.decidableExistsMem found

instance (value : Text) : Decidable (IsLabelValue value) := decidable_of_iff _ isLabelValue_iff.symm

namespace JobService

def scheduleTriggerPrefix : Text := "schedule:".toList

/-- `schedule_id_from_trigger` -/
def scheduleIdFromTrigger (lib : JobLibrary) : Option Text → Option Uuid
  | none => none
  | some triggeredBy =>
      if scheduleTriggerPrefix.isPrefixOf triggeredBy then
        lib.uuid (triggeredBy.drop scheduleTriggerPrefix.length)
      else none

section Labels

variable (lib : JobLibrary) (id : Uuid) (run : Run)

/-- The labels of the Job. -/
def jobLabels : List (Text × Text) :=
  [("app.kubernetes.io/part-of".toList, "pde-operator".toList),
    ("app.kubernetes.io/name".toList, "pde-run".toList),
    ("pde.run/id".toList, Uuid.str id),
    ("pde.run/profile".toList, run.profileId)] ++
  match scheduleIdFromTrigger lib run.triggeredBy with
  | none => []
  | some scheduleId => [("pde.schedule/id".toList, Uuid.str scheduleId)]

/-- The labels of its pod template. -/
def podLabels : List (Text × Text) :=
  [("app.kubernetes.io/part-of".toList, "pde-operator".toList),
    ("pde.run/id".toList, Uuid.str id)]

/-- Kubernetes accepts all labels of the Job. -/
def LabelsValid : Prop :=
  ∀ label ∈ jobLabels lib id run ++ podLabels id, IsLabelValue label.2

end Labels

theorem isAlphanum_hexDigit : ∀ i : Fin 16, (Uuid.hexDigit i.val).isAlphanum = true := by decide

/-- A text between two pieces that have letters and digits only. -/
theorem isLabelValue_append {s t u : Text} (hlength : (s ++ (t ++ u)).length ≤ 63)
    (hchars : ∀ c ∈ s ++ (t ++ u), isLabelChar c = true) (hs : s ≠ []) (hu : u ≠ [])
    (hfirst : ∀ c ∈ s, c.isAlphanum = true) (hlast : ∀ c ∈ u, c.isAlphanum = true) :
    IsLabelValue (s ++ (t ++ u)) := by
  refine ⟨hlength, hchars, ⟨s.head hs, ?_, hfirst _ (List.head_mem hs)⟩,
    ⟨u.getLast hu, ?_, hlast _ (List.getLast_mem hu)⟩⟩
  · rw [List.head?_append_of_ne_nil _ hs, List.head?_eq_some_head hs]
    exact Option.mem_some_self _
  · rw [← List.append_assoc, List.getLast?_append_of_ne_nil _ hu, List.getLast?_eq_some_getLast hu]
    exact Option.mem_some_self _

/-- The text of a UUID is a label value. -/
theorem isLabelValue_str (id : Uuid) : IsLabelValue (Uuid.str id) := by
  have hne : ∀ {width n}, 0 < width → Uuid.hex width n ≠ [] := by
    intro width n hwidth hnil
    have hlength := Uuid.length_hex width n
    rw [hnil, List.length_nil] at hlength
    omega
  have hchars : ∀ c ∈ Uuid.str id, isLabelChar c = true := Uuid.all_str (by decide) (by decide) id
  have hlength : (Uuid.str id).length ≤ 63 := by
    rw [Uuid.length_str]
    decide
  have hcut : Uuid.str id = Uuid.hex 8 (id.toNat / 16 ^ 24) ++
      (('-' :: (Uuid.hex 4 (id.toNat / 16 ^ 20) ++ '-' :: (Uuid.hex 4 (id.toNat / 16 ^ 16) ++
        '-' :: (Uuid.hex 4 (id.toNat / 16 ^ 12) ++ ['-'])))) ++ Uuid.hex 12 id.toNat) := by
    simp [Uuid.str]
  rw [hcut] at hchars hlength ⊢
  exact isLabelValue_append hlength hchars (hne (by decide)) (hne (by decide))
    (Uuid.all_hex isAlphanum_hexDigit _ _) (Uuid.all_hex isAlphanum_hexDigit _ _)

/-- The id of a profile that the pattern admits, as a label value: the pattern has no rule for the last
character, and one more character than a label. -/
theorem isLabelValue_profileId_iff {profileId : Text}
    (h : ConfigImport.validProfileId profileId = true) :
    IsLabelValue profileId ↔
      profileId.length ≤ 63 ∧ ∃ c ∈ profileId.getLast?, c.isAlphanum = true := by
  cases profileId with
  | nil => cases h
  | cons c rest =>
      simp only [ConfigImport.validProfileId, Bool.and_eq_true, decide_eq_true_eq] at h
      obtain ⟨⟨hstart, hrest⟩, -⟩ := h
      constructor
      · exact fun hlabel => ⟨hlabel.length_le, hlabel.last⟩
      · rintro ⟨hlength, hlast⟩
        refine ⟨hlength, fun d hd => ?_, ⟨c, rfl, hstart⟩, hlast⟩
        rcases List.mem_cons.mp hd with rfl | hd
        · rw [isLabelChar, show d.isAlphanum = true from hstart]
          rfl
        · have hchar := List.all_eq_true.mp hrest d hd
          simp only [ConfigImport.isProfileIdChar, Bool.or_eq_true] at hchar
          simp only [isLabelChar, Bool.or_eq_true]
          tauto

/-- Of the labels of a Job only the profile id can be refused. -/
theorem labelsValid_iff_profileId {lib : JobLibrary} {id : Uuid} {run : Run} :
    LabelsValid lib id run ↔ IsLabelValue run.profileId := by
  have hconst : IsLabelValue "pde-operator".toList ∧ IsLabelValue "pde-run".toList := by decide
  unfold LabelsValid jobLabels podLabels
  constructor
  · exact fun h => h ("pde.run/profile".toList, run.profileId) (by simp)
  · intro hprofile
    have hids : ∀ id, IsLabelValue (Uuid.str id) := isLabelValue_str
    have hnil : ∀ label ∈ ([] : List (Text × Text)), IsLabelValue label.2 :=
      fun _ hlabel => absurd hlabel List.not_mem_nil
    cases scheduleIdFromTrigger lib run.triggeredBy with
    | none =>
        simp only [List.append_nil, List.cons_append, List.nil_append, List.forall_mem_cons,
          hconst.1, hconst.2, hids, hprofile, true_and]
        exact hnil
    | some scheduleId =>
        simp only [List.cons_append, List.nil_append, List.forall_mem_cons, hconst.1, hconst.2,
          hids, hprofile, true_and]
        exact hnil

/-- Every label of a Job is valid if and only if the admitted id of the profile has at most 63 characters
and ends with a letter or a digit. -/
theorem labelsValid_iff {lib : JobLibrary} {id : Uuid} {run : Run}
    (h : ConfigImport.validProfileId run.profileId = true) :
    LabelsValid lib id run ↔
      run.profileId.length ≤ 63 ∧ ∃ c ∈ run.profileId.getLast?, c.isAlphanum = true := by
  rw [labelsValid_iff_profileId, isLabelValue_profileId_iff h]

/-- A run of a profile, started by schedule 5. -/
def scheduledRunOf (profileId : Text) : Run :=
  RunService.createRun {} 1 { profileId, pipelineData := "stages: []".toList } Api.sampleProfile
    (some (scheduleTriggerRef 5)) 0

theorem labelsValid_iff_team : LabelsValid Api.sampleJobLibrary 1 (scheduledRunOf "team-a".toList) :=
  (labelsValid_iff (by decide)).mpr ⟨by decide, by decide⟩

/-- An id that ends with a hyphen and one of 64 letters are admitted; the Jobs of their runs have a label
that Kubernetes refuses. -/
theorem admitted_profile_label_refused :
    (ConfigImport.validProfileId "team-".toList = true ∧
      ¬LabelsValid Api.sampleJobLibrary 1 (scheduledRunOf "team-".toList)) ∧
    ConfigImport.validProfileId (List.replicate 64 'a') = true ∧
      ¬LabelsValid Api.sampleJobLibrary 1 (scheduledRunOf (List.replicate 64 'a')) := by
  refine ⟨⟨by decide, fun h => ?_⟩, by decide, fun h => ?_⟩
  · have hlabel := labelsValid_iff_profileId.mp h
    exact absurd hlabel.last (by decide)
  · have hlabel := labelsValid_iff_profileId.mp h
    exact absurd hlabel.length_le (by decide)

end JobService
end PdeOperator
