import PdeOperator.BaseDict
import PdeOperator.BaseJson
import PdeOperator.BaseSystem

/-! The contract of a declarative run template, and the conditions in which its fields are hidden or
required: `RsqlUtils` and `DeclarativeFormStateUtils`. -/

namespace PdeOperator
open Base

namespace Declarative

inductive FieldType where
  | string | checkbox | select
  deriving DecidableEq

inductive SelectType where
  | single | multi
  deriving DecidableEq

inductive BindTo where
  | pipelineVar | envVar | pipelineData | isDryRun | logLevel | profile
  deriving DecidableEq

def BindTo.value : BindTo → Text
  | .pipelineVar => "pipeline_var".toList
  | .envVar => "env_var".toList
  | .pipelineData => "pipeline_data".toList
  | .isDryRun => "is_dry_run".toList
  | .logLevel => "log_level".toList
  | .profile => "profile".toList

/-- A validator of the only type that there is. -/
structure ValidatorPattern where
  value : Text
  message : Text

structure FieldSpec where
  name : Text
  value : Json := .null
  options : Option (List Text) := none
  fieldType : FieldType := .string
  selectType : SelectType := .single
  required : Bool := false
  requiredCondition : Option Text := none
  hideCondition : Option Text := none
  hidden : Bool := false
  secure : Bool := false
  bindTo : BindTo := .pipelineVar
  validators : List ValidatorPattern := []

structure DeclarativeRunTemplate where
  fields : List FieldSpec := []

/-- What the engine needs of Python: `repr` of numbers with a point, lists and dictionaries, and
`re.match` (`none` is a `re.error`). -/
structure EngineLibrary where
  repr : Json → Text
  reMatch : (pattern value : Text) → Option Bool

/-- A `DeclarativeContractError`, or the `re.error` of a pattern. -/
inductive ContractError where
  | missingRequired (name : Text)
  | missingBindTo (bindTo : BindTo)
  | notString (name : Text)
  | notBoolean (name : Text)
  | failedValidation (name message : Text)
  | notAllowed (name : Text)
  | unsupportedRsql (expression : Text)
  | invalidPattern (pattern : Text)
  deriving DecidableEq

def ContractError.message (lib : EngineLibrary) : ContractError → Text
  | .missingRequired name => "Missing required declarative field '".toList ++ name ++ "'".toList
  | .missingBindTo bindTo => "Missing required bind_to '".toList ++ bindTo.value ++ "'".toList
  | .notString name => "Field '".toList ++ name ++ "' must be a string".toList
  | .notBoolean name => "Field '".toList ++ name ++ "' must be boolean".toList
  | .failedValidation name message =>
      "Field '".toList ++ name ++ "' failed validation: ".toList ++ message
  | .notAllowed name =>
      "Field '".toList ++ name ++ "' value is not one of the allowed options".toList
  | .unsupportedRsql expression =>
      "Unsupported RSQL expression: ".toList ++ lib.repr (.str expression) ++
        " (only == and != are supported)".toList
  | .invalidPattern pattern => pattern

/-- `str(value)` -/
def pyStr (lib : EngineLibrary) : Json → Text
  | .null => "None".toList
  | .bool true => "True".toList
  | .bool false => "False".toList
  | .int value => (toString value).toList
  | .str text => text
  | value => lib.repr value

/-! ### `RsqlUtils` -/

namespace Rsql

inductive Operator where
  | eq | ne
  deriving DecidableEq

inductive Operand where
  | literal (text : Text)
  | field (name : Text)
  deriving DecidableEq

/-- A match of the expression `FIELD==OPERAND` or `FIELD!=OPERAND`. -/
structure Condition where
  left : Text
  operator : Operator
  right : Operand
  deriving DecidableEq

/-- The fields that a condition reads. -/
def Condition.names (condition : Condition) : List Text :=
  match condition.right with
  | .literal _ => [condition.left]
  | .field name => [condition.left, name]

def quote : Char := Char.ofNat 39

def isNameStart (c : Char) : Bool := c.isAlpha || c == '_'

def isNameChar (c : Char) : Bool := c.isAlphanum || c == '_'

def readName : Text → Option (Text × Text)
  | [] => none
  | c :: rest =>
      if isNameStart c then some (c :: rest.takeWhile isNameChar, rest.dropWhile isNameChar) else none

def readOperator : Text → Option (Operator × Text)
  | '=' :: '=' :: rest => some (.eq, rest)
  | '!' :: '=' :: rest => some (.ne, rest)
  | _ => none

def readOperand : Text → Option (Operand × Text)
  | [] => none
  | c :: rest =>
      if c = quote then
        match rest.dropWhile (· != quote) with
        | [] => none
        | _ :: after => some (.literal (rest.takeWhile (· != quote)), after)
      else (readName (c :: rest)).map fun read => (.field read.1, read.2)

/-- `_RSQL_RE.match(expression)`. What follows a name, an operator or a literal can neither continue
it nor be white space, so the regular expression matches in one way only. -/
def parse (isSpace : Char → Bool) (expression : Text) : Option Condition := do
  let (left, rest) ← readName (expression.dropWhile isSpace)
  let (operator, rest) ← readOperator (rest.dropWhile isSpace)
  let (right, rest) ← readOperand (rest.dropWhile isSpace)
  guard (rest.all isSpace)
  some { left, operator, right }

def normalize (lib : EngineLibrary) : Json → Text
  | .null => []
  | .bool true => "true".toList
  | .bool false => "false".toList
  | value => pyStr lib value

/-- `values.get(name)` -/
def getValue (values : JsonObject) (name : Text) : Json := (Json.get values name).getD .null

def Condition.holds (condition : Condition) (text : Text → Text) : Bool :=
  let right :=
    match condition.right with
    | .literal literal => literal
    | .field name => text name
  match condition.operator with
  | .eq => text condition.left == right
  | .ne => text condition.left != right

def evaluate (lib : EngineLibrary) (expression : Option Text) (values : JsonObject) :
    Except ContractError Bool :=
  match expression with
  | none => .ok false
  | some expression =>
      if Text.isBlank expression then .ok false
      else match parse Text.isSpace expression with
        | none => .error (.unsupportedRsql expression)
        | some condition => .ok (condition.holds fun name => normalize lib (getValue values name))

/-! The regular expression depends on the notion of white space only through the characters of the
expression. -/

theorem dropWhile_congr {p q : Char → Bool} {text : Text} (h : ∀ c ∈ text, p c = q c) :
    text.dropWhile p = text.dropWhile q := by
  induction text with
  | nil => rfl
  | cons c rest ih =>
      rw [List.dropWhile_cons, List.dropWhile_cons, h c List.mem_cons_self,
        ih fun d hd => h d (List.mem_cons_of_mem _ hd)]

theorem readName_suffix {text name rest : Text} (h : readName text = some (name, rest)) :
    rest <:+ text := by
  cases text with
  | nil => cases h
  | cons c tail =>
      rw [readName] at h
      split at h
      · obtain ⟨-, rfl⟩ := Prod.mk.inj (Option.some.inj h)
        exact (List.dropWhile_suffix _).trans (List.suffix_cons c tail)
      · cases h

theorem readOperator_suffix {text rest : Text} {operator : Operator}
    (h : readOperator text = some (operator, rest)) : rest <:+ text := by
  unfold readOperator at h
  split at h
  · obtain ⟨-, rfl⟩ := Prod.mk.inj (Option.some.inj h)
    exact ⟨['=', '='], rfl⟩
  · obtain ⟨-, rfl⟩ := Prod.mk.inj (Option.some.inj h)
    exact ⟨['!', '='], rfl⟩
  · cases h

theorem readOperand_suffix {text rest : Text} {operand : Operand}
    (h : readOperand text = some (operand, rest)) : rest <:+ text := by
  cases text with
  | nil => cases h
  | cons c tail =>
      rw [readOperand] at h
      split at h
      · split at h
        · cases h
        · next after hdrop =>
          obtain ⟨-, rfl⟩ := Prod.mk.inj (Option.some.inj h)
          have hsuffix := List.dropWhile_suffix (l := tail) (· != quote)
          rw [hdrop] at hsuffix
          exact (List.suffix_cons _ _).trans (hsuffix.trans (List.suffix_cons c tail))
      · obtain ⟨⟨name, left⟩, hread, heq⟩ := Option.map_eq_some_iff.mp h
        obtain ⟨-, rfl⟩ := Prod.mk.inj heq
        exact readName_suffix hread

theorem parse_congr {p q : Char → Bool} {expression : Text} (h : ∀ c ∈ expression, p c = q c) :
    parse p expression = parse q expression := by
  have hrest : ∀ {rest : Text}, rest <:+ expression → ∀ c ∈ rest, p c = q c :=
    fun hsuffix c hc => h c (hsuffix.mem hc)
  have hdrop : ∀ {rest : Text}, rest <:+ expression → rest.dropWhile p = rest.dropWhile q :=
    fun hsuffix => dropWhile_congr (hrest hsuffix)
  have hafter : ∀ {rest : Text}, rest <:+ expression → rest.dropWhile q <:+ expression :=
    fun hsuffix => (List.dropWhile_suffix _).trans hsuffix
  rw [parse, parse, hdrop (List.suffix_refl _)]
  cases hleft : readName (expression.dropWhile q) with
  | none => rfl
  | some left =>
      have hleft' := (readName_suffix hleft).trans (hafter (List.suffix_refl _))
      simp only [Option.bind_eq_bind, Option.bind_some]
      rw [hdrop hleft']
      cases hoperator : readOperator (left.2.dropWhile q) with
      | none => rfl
      | some operator =>
          have hoperator' := (readOperator_suffix hoperator).trans (hafter hleft')
          simp only [Option.bind_some]
          rw [hdrop hoperator']
          cases hright : readOperand (operator.2.dropWhile q) with
          | none => rfl
          | some right =>
              have hright' := (readOperand_suffix hright).trans (hafter hoperator')
              have hall : right.2.all p = right.2.all q := by
                rw [Bool.eq_iff_iff, List.all_eq_true, List.all_eq_true]
                exact forall₂_congr fun c hc => by rw [hrest hright' c hc]
              simp only [Option.bind_some, hall]

/-- A condition reads nothing but its fields. -/
theorem Condition.holds_congr {condition : Condition} {text text' : Text → Text}
    (h : ∀ name ∈ condition.names, text name = text' name) :
    condition.holds text = condition.holds text' := by
  obtain ⟨left, operator, right⟩ := condition
  cases right with
  | literal literal =>
      have hleft : text left = text' left := h left List.mem_cons_self
      simp only [Condition.holds, hleft]
  | field name =>
      have hleft : text left = text' left := h left List.mem_cons_self
      have hright : text name = text' name := h name (List.mem_cons_of_mem _ List.mem_cons_self)
      simp only [Condition.holds, hleft, hright]

/-- The fields that an expression mentions. -/
def mentions (expression : Option Text) : List Text :=
  ((expression.bind (parse Text.isSpace)).map Condition.names).getD []

end Rsql

/-! ### `DeclarativeFormStateUtils.evaluate` -/

structure Flags where
  visible : Bool
  required : Bool
  deriving DecidableEq

structure EffectiveFormState where
  fields : List (Text × FieldSpec)
  flags : List (Text × Flags)
  resolvedValues : JsonObject

namespace EffectiveFormState

variable (effective : EffectiveFormState) (name : Text)

/-- `effective.visible.get(name, True)` -/
def visible : Bool := ((effective.flags.lookup name).map Flags.visible).getD true

/-- `effective.required.get(name, False)` -/
def required : Bool := ((effective.flags.lookup name).map Flags.required).getD false

end EffectiveFormState

/-- `{f.name: f for f in contract.fields}` -/
def DeclarativeRunTemplate.fieldsByName (contract : DeclarativeRunTemplate) :
    List (Text × FieldSpec) :=
  Dict.ofPairs (contract.fields.map fun field => (field.name, field))

def resolveField (userValues : JsonObject) (name : Text) (field : FieldSpec) : Json :=
  (Json.get userValues name).getD field.value

def resolveValues (fields : List (Text × FieldSpec)) (userValues : JsonObject) : JsonObject :=
  fields.map fun entry => (entry.1, resolveField userValues entry.1 entry.2)

/-- `visible[name]` and `required[name]` of one field. -/
def fieldFlags (lib : EngineLibrary) (resolved : JsonObject) (field : FieldSpec) :
    Except ContractError Flags := do
  let isHidden ← if field.hidden then .ok true else Rsql.evaluate lib field.hideCondition resolved
  if isHidden then .ok { visible := false, required := false }
  else do
    let isRequired ←
      if field.required then .ok true else Rsql.evaluate lib field.requiredCondition resolved
    .ok { visible := true, required := isRequired }

def evaluate (lib : EngineLibrary) (contract : DeclarativeRunTemplate) (userValues : JsonObject) :
    Except ContractError EffectiveFormState := do
  let fields := contract.fieldsByName
  let resolved := resolveValues fields userValues
  let flags ← fields.mapM fun entry => (fieldFlags lib resolved entry.2).map (Prod.mk entry.1)
  .ok { fields, flags, resolvedValues := resolved }

section FormState

variable {lib : EngineLibrary} {contract : DeclarativeRunTemplate} {userValues : JsonObject}
  {effective : EffectiveFormState}

theorem nodup_fieldsByName : (contract.fieldsByName.map Prod.fst).Nodup := Dict.nodup_ofPairs _

theorem mem_fieldsByName_iff (hnodup : (contract.fields.map FieldSpec.name).Nodup) {name : Text}
    {field : FieldSpec} :
    (name, field) ∈ contract.fieldsByName ↔ field ∈ contract.fields ∧ field.name = name := by
  have hkeys : ((contract.fields.map fun field => (field.name, field)).map Prod.fst).Nodup := by
    rw [List.map_map]
    exact hnodup
  rw [DeclarativeRunTemplate.fieldsByName, Dict.ofPairs_of_nodup hkeys, List.mem_map]
  constructor
  · rintro ⟨source, hsource, heq⟩
    obtain ⟨rfl, rfl⟩ := Prod.mk.inj heq
    exact ⟨hsource, rfl⟩
  · rintro ⟨hfield, rfl⟩
    exact ⟨field, hfield, rfl⟩

theorem evaluate_fields (h : evaluate lib contract userValues = .ok effective) :
    effective.fields = contract.fieldsByName := by
  obtain ⟨flags, -, heq⟩ := bind_eq_ok.mp h
  exact (congrArg EffectiveFormState.fields (Except.ok.inj heq)).symm

theorem evaluate_resolvedValues (h : evaluate lib contract userValues = .ok effective) :
    effective.resolvedValues = resolveValues contract.fieldsByName userValues := by
  obtain ⟨flags, -, heq⟩ := bind_eq_ok.mp h
  exact (congrArg EffectiveFormState.resolvedValues (Except.ok.inj heq)).symm

/-- The resolved value of a field is the submitted one, or the default. -/
theorem getValue_resolveValues {fields : List (Text × FieldSpec)}
    (hnodup : (fields.map Prod.fst).Nodup) {name : Text} {field : FieldSpec}
    (h : (name, field) ∈ fields) :
    Rsql.getValue (resolveValues fields userValues) name = resolveField userValues name field := by
  have hkeys : ((resolveValues fields userValues).map Prod.fst).Nodup := by
    rw [resolveValues, List.map_map]
    exact hnodup
  have hmem : (name, resolveField userValues name field) ∈ resolveValues fields userValues :=
    List.mem_map.mpr ⟨(name, field), h, rfl⟩
  rw [Rsql.getValue, Json.get, (Dict.lookup_eq_some_iff hkeys).mpr hmem]
  rfl

/-- A name that is no field has no resolved value. -/
theorem getValue_resolveValues_of_notMem {fields : List (Text × FieldSpec)} {name : Text}
    (h : name ∉ fields.map Prod.fst) :
    Rsql.getValue (resolveValues fields userValues) name = .null := by
  have hnone : (resolveValues fields userValues).lookup name = none := by
    rw [List.lookup_eq_none_iff]
    intro pair hpair
    obtain ⟨field, hfield, rfl⟩ := List.mem_map.mp hpair
    rw [bne_iff_ne]
    rintro rfl
    exact h (List.mem_map_of_mem hfield)
  rw [Rsql.getValue, Json.get, hnone]
  rfl

/-- The flags of a field are those of its own specification. -/
theorem lookup_flags (h : evaluate lib contract userValues = .ok effective) {name : Text}
    {field : FieldSpec} (hfield : (name, field) ∈ contract.fieldsByName) :
    ∃ flags, fieldFlags lib effective.resolvedValues field = .ok flags ∧
      effective.flags.lookup name = some flags := by
  rw [evaluate_resolvedValues h]
  obtain ⟨all, hall, heq⟩ := bind_eq_ok.mp h
  obtain rfl : effective.flags = all :=
    (congrArg EffectiveFormState.flags (Except.ok.inj heq)).symm
  have hkeys := Dict.keys_of_mapM_ok hall
  obtain ⟨pair, hpair, hturn⟩ := exists_of_mapM_ok hall hfield
  obtain ⟨flags, hflags, rfl⟩ := map_eq_ok.mp hturn
  exact ⟨flags, hflags, (Dict.lookup_eq_some_iff (hkeys ▸ nodup_fieldsByName)).mpr hpair⟩

end FormState

end Declarative
end PdeOperator
