import PdeOperator.BaseJson
import PdeOperator.BaseLayers
import Mathlib.Data.Rat.Defs
import Mathlib.Algebra.Order.Ring.Unbundled.Rat

/-! Requests and limits of the container of a Job (`schemas/job_resources.py`, `utils/resource_utils.py`):
the defaults of the lab, the settings of the operator and a profile are laid over each other. -/

namespace PdeOperator
open Base

namespace Resources

structure ResourceDict where
  cpu : Option Text := none
  memory : Option Text := none
  deriving DecidableEq

structure JobResources where
  requests : ResourceDict := {}
  limits : ResourceDict := {}
  deriving DecidableEq

def JobResources.labDefaults : JobResources where
  requests := { cpu := some "100m".toList, memory := some "128Mi".toList }
  limits := { cpu := some "500m".toList, memory := some "512Mi".toList }

/-- A field `str | None` with the default `None`. -/
def optionalStr : Option Json → Option (Option Text)
  | none | some .null => some none
  | some (.str value) => some (some value)
  | some _ => none

/-- `extra="forbid"` -/
def forbidsExtra (names : List Text) (fields : JsonObject) : Bool := fields.all fun field => field.1 ∈ names

def ResourceDict.modelValidate : Json → Option ResourceDict
  | .obj fields => do
      guard (forbidsExtra ["cpu".toList, "memory".toList] fields)
      let cpu ← optionalStr (Json.get fields "cpu".toList)
      let memory ← optionalStr (Json.get fields "memory".toList)
      some { cpu, memory }
  | _ => none

/-- A nested model with its default factory. -/
def nestedDict : Option Json → Option ResourceDict
  | none => some {}
  | some value => ResourceDict.modelValidate value

def JobResources.modelValidate (fields : JsonObject) : Option JobResources := do
  guard (forbidsExtra ["requests".toList, "limits".toList] fields)
  let requests ← nestedDict (Json.get fields "requests".toList)
  let limits ← nestedDict (Json.get fields "limits".toList)
  some { requests, limits }

/-! ### `ResourceUtils` -/

/-- `JobResources | dict[str, Any] | None` -/
inductive Override where
  | none
  | model (resources : JobResources)
  | dict (fields : JsonObject)

def mergeDict (base overlay : ResourceDict) : ResourceDict where
  cpu := if overlay.cpu ≠ none then overlay.cpu else base.cpu
  memory := if overlay.memory ≠ none then overlay.memory else base.memory

def mergeOverlay (base overlay : JobResources) : JobResources where
  requests := mergeDict base.requests overlay.requests
  limits := mergeDict base.limits overlay.limits

/-- `none` is a validation error. -/
def merge (base : JobResources) : Override → Option JobResources
  | .none => some base
  | .model overlay => some (mergeOverlay base overlay)
  | .dict [] => some base
  | .dict fields => (JobResources.modelValidate fields).map (mergeOverlay base)

structure V1ResourceRequirements where
  requests : Option (List (Text × Text))
  limits : Option (List (Text × Text))

/-- An entry for a value that is not falsy. -/
def quantityEntry (name : Text) : Option Text → List (Text × Text)
  | some value => if value ≠ [] then [(name, value)] else []
  | none => []

def quantityMap (values : ResourceDict) : List (Text × Text) :=
  quantityEntry "cpu".toList values.cpu ++ quantityEntry "memory".toList values.memory

/-- `mapping or None` -/
def orNone (mapping : List (Text × Text)) : Option (List (Text × Text)) :=
  if mapping ≠ [] then some mapping else none

def toV1 (resources : JobResources) : Option V1ResourceRequirements :=
  if quantityMap resources.requests = [] ∧ quantityMap resources.limits = [] then none
  else some {
    requests := orNone (quantityMap resources.requests)
    limits := orNone (quantityMap resources.limits) }

/-- `Settings._fill_job_resources_from_lab_defaults` -/
def fillJobResources (setting : JobResources) : Option JobResources := merge .labDefaults (.model setting)

/-- `resources` of the container in `JobService._build_job`, with the operator's setting and the resources
of the profile. -/
def containerResources (setting : JobResources) (profile : JsonObject) :
    Option (Option V1ResourceRequirements) := do
  let base ← fillJobResources setting
  let merged ← merge base (.dict profile)
  some (toV1 merged)

def digitsValue (digits : Text) : Nat := digits.foldl (fun value c => 10 * value + (c.toNat - 48)) 0

def splitSign : Text → Int × Text
  | '-' :: rest => (-1, rest)
  | '+' :: rest => (1, rest)
  | rest => (1, rest)

/-- The suffixes of a Kubernetes quantity but the exponents. -/
def suffixFactors : List (Text × ℚ) :=
  [("n".toList, 1 / 1000 ^ 3), ("u".toList, 1 / 1000 ^ 2), ("m".toList, 1 / 1000), ([], 1), ("k".toList, 1000),
    ("M".toList, 1000 ^ 2), ("G".toList, 1000 ^ 3), ("T".toList, 1000 ^ 4), ("P".toList, 1000 ^ 5),
    ("E".toList, 1000 ^ 6), ("Ki".toList, 1024), ("Mi".toList, 1024 ^ 2), ("Gi".toList, 1024 ^ 3),
    ("Ti".toList, 1024 ^ 4), ("Pi".toList, 1024 ^ 5), ("Ei".toList, 1024 ^ 6)]

/-- `e` or `E` with a signed number behind it. -/
def exponentFactor : Text → Option ℚ
  | c :: exponent =>
      let (sign, digits) := splitSign exponent
      if (c = 'e' ∨ c = 'E') ∧ digits ≠ [] ∧ digits.all Char.isDigit then
        some (if sign < 0 then 1 / 10 ^ digitsValue digits else 10 ^ digitsValue digits)
      else none
  | [] => none

def suffixFactor (suffix : Text) : Option ℚ := (suffixFactors.lookup suffix).or (exponentFactor suffix)

/-- The value of a Kubernetes quantity: a signed decimal number and a suffix. -/
def quantity (text : Text) : Option ℚ :=
  let (sign, unsigned) := splitSign text
  let whole := unsigned.takeWhile Char.isDigit
  let (fraction, suffix) := match unsigned.dropWhile Char.isDigit with
    | '.' :: rest => (rest.takeWhile Char.isDigit, rest.dropWhile Char.isDigit)
    | rest => ([], rest)
  if whole = [] ∧ fraction = [] then none
  else (suffixFactor suffix).map fun factor =>
    sign * (digitsValue (whole ++ fraction) / 10 ^ fraction.length) * factor

example : (quantity "1.5Gi".toList, quantity "-2e-3".toList, quantity "1x".toList) =
    (some (3 * 1024 ^ 3 / 2), some (-2 / 1000), none) := by decide +kernel

inductive Kind where
  | cpu | memory
  deriving DecidableEq

inductive Side where
  | requests | limits
  deriving DecidableEq

def Kind.text : Kind → Text
  | .cpu => "cpu".toList
  | .memory => "memory".toList

def ResourceDict.value (values : ResourceDict) : Kind → Option Text
  | .cpu => values.cpu
  | .memory => values.memory

def JobResources.field (resources : JobResources) : Side × Kind → Option Text
  | (.requests, kind) => resources.requests.value kind
  | (.limits, kind) => resources.limits.value kind

/-- What the container has; no resources at all is `none`. -/
def onContainer (resources : Option V1ResourceRequirements) : Side × Kind → Option Text
  | (.requests, kind) => do (← (← resources).requests).lookup kind.text
  | (.limits, kind) => do (← (← resources).limits).lookup kind.text

/-- The order of two quantities by value. An empty text is no quantity: it does not reach the container. -/
def AtMost (request limit : Text) : Prop :=
  request ≠ [] → limit ≠ [] → ∃ a b, quantity request = some a ∧ quantity limit = some b ∧ a ≤ b

/-- The request is at most the limit wherever both are given. -/
def Consistent (field : Side × Kind → Option Text) : Prop :=
  ∀ kind, BothGiven AtMost (field (.requests, kind)) (field (.limits, kind))

section Merge

variable {setting overlay base : JobResources} {profile : JsonObject}

theorem value_mergeDict (base overlay : ResourceDict) (kind : Kind) :
    (mergeDict base overlay).value kind = (overlay.value kind).or (base.value kind) := by
  have hor : ∀ first second : Option Text, (if first ≠ none then first else second) = first.or second := by
    intro first second
    cases first <;> rfl
  cases kind
  · exact hor overlay.cpu base.cpu
  · exact hor overlay.memory base.memory

/-- The merge takes each field by itself. -/
theorem field_mergeOverlay (base overlay : JobResources) (key : Side × Kind) :
    (mergeOverlay base overlay).field key = (overlay.field key).or (base.field key) := by
  obtain ⟨side, kind⟩ := key
  cases side
  · exact value_mergeDict base.requests overlay.requests kind
  · exact value_mergeDict base.limits overlay.limits kind

/-- An empty override changes nothing, as its model does. -/
theorem merge_dict (base : JobResources) (fields : JsonObject) :
    merge base (.dict fields) = (JobResources.modelValidate fields).map (mergeOverlay base) := by
  cases fields with
  | nil =>
      have hempty : mergeOverlay base {} = base := rfl
      show some base = some (mergeOverlay base {})
      rw [hempty]
  | cons field fields => rfl

/-- The texts that reach the container. -/
def given (value : Option Text) : Option Text := value.filter fun text => text ≠ []

theorem lookup_quantityEntry (name : Text) (value : Option Text) (rest : List (Text × Text)) :
    (quantityEntry name value ++ rest).lookup name = (given value).or (rest.lookup name) := by
  cases value with
  | none => rfl
  | some text =>
      by_cases htext : text = []
      · subst htext
        rfl
      · have hentry : quantityEntry name (some text) = [(name, text)] := if_pos htext
        have hgiven : given (some text) = some text := by simp [given, htext]
        rw [hentry, hgiven, List.singleton_append, List.lookup_cons_self]
        rfl

theorem lookup_quantityEntry_of_ne {name other : Text} (hne : other ≠ name) (value : Option Text)
    (rest : List (Text × Text)) : (quantityEntry name value ++ rest).lookup other = rest.lookup other := by
  cases value with
  | none => rfl
  | some text =>
      by_cases htext : text = []
      · subst htext
        rfl
      · have hentry : quantityEntry name (some text) = [(name, text)] := if_pos htext
        rw [hentry, List.singleton_append, List.lookup_cons, beq_eq_false_iff_ne.mpr hne]

theorem lookup_quantityMap (values : ResourceDict) (kind : Kind) :
    (quantityMap values).lookup kind.text = given (values.value kind) := by
  have hmemory := lookup_quantityEntry "memory".toList values.memory []
  rw [List.append_nil, List.lookup_nil, Option.or_none] at hmemory
  cases kind with
  | cpu =>
      have hnone : (quantityEntry "memory".toList values.memory).lookup "cpu".toList = none := by
        have h : (quantityEntry "memory".toList values.memory ++ []).lookup "cpu".toList = _ :=
          lookup_quantityEntry_of_ne (by decide) values.memory []
        rwa [List.append_nil] at h
      show (quantityEntry "cpu".toList values.cpu ++ _).lookup "cpu".toList = given values.cpu
      rw [lookup_quantityEntry, hnone, Option.or_none]
  | memory =>
      show (quantityEntry "cpu".toList values.cpu ++ _).lookup "memory".toList = given values.memory
      rw [lookup_quantityEntry_of_ne (by decide), hmemory]

theorem lookup_orNone (mapping : List (Text × Text)) (name : Text) :
    (orNone mapping).bind (·.lookup name) = mapping.lookup name := by
  cases mapping with
  | nil => rfl
  | cons entry mapping => rfl

/-- The container has each field that is given. -/
theorem onContainer_toV1 (resources : JobResources) (key : Side × Kind) :
    onContainer (toV1 resources) key = given (resources.field key) := by
  obtain ⟨side, kind⟩ := key
  by_cases hempty : quantityMap resources.requests = [] ∧ quantityMap resources.limits = []
  · have hnone : toV1 resources = none := if_pos hempty
    cases side with
    | requests =>
        show _ = given (resources.requests.value kind)
        rw [hnone, ← lookup_quantityMap, hempty.1]
        rfl
    | limits =>
        show _ = given (resources.limits.value kind)
        rw [hnone, ← lookup_quantityMap, hempty.2]
        rfl
  · have hsome : toV1 resources = some {
        requests := orNone (quantityMap resources.requests)
        limits := orNone (quantityMap resources.limits) } := if_neg hempty
    cases side with
    | requests =>
        show _ = given (resources.requests.value kind)
        rw [hsome, ← lookup_quantityMap]
        exact lookup_orNone _ _
    | limits =>
        show _ = given (resources.limits.value kind)
        rw [hsome, ← lookup_quantityMap]
        exact lookup_orNone _ _

theorem bothGiven_given_iff {request limit : Option Text} :
    BothGiven AtMost (given request) (given limit) ↔ BothGiven AtMost request limit := by
  simp only [BothGiven, given, Option.filter_eq_some_iff, decide_eq_true_eq]
  constructor
  · intro h a b ha hb ha' hb'
    exact h a b ⟨ha, ha'⟩ ⟨hb, hb'⟩ ha' hb'
  · intro h a b ha hb
    exact h a b ha.1 hb.1

theorem consistent_onContainer_toV1_iff (resources : JobResources) :
    Consistent (onContainer (toV1 resources)) ↔ Consistent resources.field := by
  refine forall_congr' fun kind => ?_
  rw [onContainer_toV1, onContainer_toV1]
  exact bothGiven_given_iff

theorem consistent_labDefaults : Consistent JobResources.labDefaults.field := by
  have hcpu : AtMost "100m".toList "500m".toList := fun _ _ => ⟨1 / 10, 1 / 2, by decide +kernel⟩
  have hmemory : AtMost "128Mi".toList "512Mi".toList := fun _ _ =>
    ⟨128 * 1024 ^ 2, 512 * 1024 ^ 2, by decide +kernel⟩
  intro kind a b ha hb
  cases kind with
  | cpu =>
      cases ha
      cases hb
      exact hcpu
  | memory =>
      cases ha
      cases hb
      exact hmemory

/-- The layers of the resources of a container, the strongest first. -/
def layers (setting overlay : JobResources) : List (Side × Kind → Option Text) :=
  [overlay.field, setting.field, JobResources.labDefaults.field]

theorem field_eq_resolve (setting overlay : JobResources) :
    (mergeOverlay (mergeOverlay .labDefaults setting) overlay).field = resolve (layers setting overlay) := by
  funext key
  rw [field_mergeOverlay, field_mergeOverlay, layers, resolve_cons, resolve_cons, resolve_cons, resolve_nil,
    Option.or_none]

theorem containerResources_eq (hprofile : JobResources.modelValidate profile = some overlay) :
    containerResources setting profile =
      some (toV1 (mergeOverlay (mergeOverlay .labDefaults setting) overlay)) := by
  have hbase : fillJobResources setting = some (mergeOverlay .labDefaults setting) := rfl
  rw [containerResources, hbase, Option.bind_eq_bind, Option.bind_some, merge_dict, hprofile]
  rfl

/-- Resources from consistent layers: each field is that of the strongest layer that gives it, where an empty text
is given too and only then left out. A request and a limit of one layer stay in order, and the container is
consistent exactly if each request and limit of two different layers are in order. -/
theorem consistent_containerResources_iff (hsetting : Consistent setting.field)
    (hprofile : JobResources.modelValidate profile = some overlay) (hoverlay : Consistent overlay.field) :
    ∃ resources, containerResources setting profile = some resources ∧
      (∀ key, onContainer resources key = given (resolve (layers setting overlay) key)) ∧
      (Consistent (onContainer resources) ↔
        ∀ kind i j, i ≠ j → ∀ request limit,
          DecidedBy (layers setting overlay) i (.requests, kind) request →
          DecidedBy (layers setting overlay) j (.limits, kind) limit → AtMost request limit) := by
  refine ⟨_, containerResources_eq hprofile, fun key => ?_, ?_⟩
  · rw [onContainer_toV1, field_eq_resolve]
  have hlayers : ∀ kind, ∀ layer ∈ layers setting overlay,
      BothGiven AtMost (layer (.requests, kind)) (layer (.limits, kind)) := by
    intro kind
    simp only [layers, List.forall_mem_cons]
    exact ⟨hoverlay kind, hsetting kind, consistent_labDefaults kind, nofun⟩
  rw [consistent_onContainer_toV1_iff, field_eq_resolve]
  exact forall_congr' fun kind => bothGiven_resolve_iff (hlayers kind)

/-- A profile that only raises the limit of the memory. -/
theorem consistent_containerResources_memory :
    ∃ resources, containerResources .labDefaults
        [("limits".toList, .obj [("memory".toList, .str "1Gi".toList)])] = some resources ∧
      (∀ key, onContainer resources key =
        given (resolve (layers .labDefaults { limits := { memory := some "1Gi".toList } }) key)) ∧
      (Consistent (onContainer resources) ↔
        ∀ kind i j, i ≠ j → ∀ request limit,
          DecidedBy (layers .labDefaults { limits := { memory := some "1Gi".toList } }) i
            (.requests, kind) request →
          DecidedBy (layers .labDefaults { limits := { memory := some "1Gi".toList } }) j
            (.limits, kind) limit → AtMost request limit) := by
  refine consistent_containerResources_iff consistent_labDefaults rfl fun kind a b ha hb => ?_
  cases kind <;> cases ha

/-- The defaults and the profile are each consistent, and the container requests more than its limit. -/
theorem request_above_limit :
    ∃ base overlay resources, fillJobResources .labDefaults = some base ∧ Consistent base.field ∧
      JobResources.modelValidate [("requests".toList, .obj [("cpu".toList, .str "1".toList)])] = some overlay ∧
      Consistent overlay.field ∧
      containerResources .labDefaults [("requests".toList, .obj [("cpu".toList, .str "1".toList)])] =
        some resources ∧ ¬Consistent (onContainer resources) := by
  have hoverlay : Consistent { requests := { cpu := some "1".toList } : JobResources }.field := by
    intro kind a b ha hb
    cases kind <;> cases hb
  refine ⟨.labDefaults, _, _, rfl, consistent_labDefaults, rfl, hoverlay, rfl, fun h => ?_⟩
  obtain ⟨a, b, ha, hb, hle⟩ := h .cpu "1".toList "500m".toList rfl rfl (by decide) (by decide)
  have ha' : quantity "1".toList = some 1 := by decide +kernel
  have hb' : quantity "500m".toList = some (1 / 2) := by decide +kernel
  cases ha.symm.trans ha'
  cases hb.symm.trans hb'
  exact absurd hle (by decide +kernel)

end Merge

end Resources
end PdeOperator
