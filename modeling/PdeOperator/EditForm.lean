import PdeOperator.BaseJsonText
import PdeOperator.InputCrypto
import PdeOperator.ScheduleStore

/-! The edit forms of the UI (`lib/runs.ts`, `lib/templates.ts`, `lib/schedules.ts`): how a stored
template or schedule becomes a form, and a form the body of a request. -/

namespace PdeOperator
open Base Js

namespace EditForm

/-- `text || fallback` -/
def orElse (text fallback : Text) : Text := if text.isEmpty then fallback else text

/-- `text || null` -/
def orNull (text : Text) : Option Text := if text.isEmpty then none else some text

/-! ### `lib/runs.ts` -/

structure KeyValuePair where
  key : Text
  value : Text
  deriving DecidableEq

structure CreateForm where
  profileId : Text
  pipelineData : Text
  pipelineVars : List KeyValuePair
  pipelineVarsSecure : List KeyValuePair
  isDryRun : Bool
  logLevel : Text
  envVars : List KeyValuePair
  pdeImage : Text

/-- `/[\n\r;]/` -/
def isEntryEnd (c : Char) : Bool := c = '\n' || (c = '\r' || c = ';')

def splitMultilineEntries (text : Text) : List Text :=
  ((text.splitOnP isEntryEnd).map trim).filter fun line => !line.isEmpty

def normalizePipelineData (text : Text) : Text := Text.joinLines (splitMultilineEntries text)

/-- One turn of the loop of `parseKvPairs`. -/
def parseKvLine (line : Text) : Option KeyValuePair :=
  if line.head? = some '#' ∨ '=' ∉ line then none
  else
    let key := trim (Text.partition '=' line).1
    if key.isEmpty then none else some { key, value := (Text.partition '=' line).2 }

def parseKvPairs : Option Text → List KeyValuePair
  | none => []
  | some text =>
      if text.isEmpty || (trim text).isEmpty then []
      else (splitMultilineEntries text).filterMap parseKvLine

def kvPairsToText (pairs : List KeyValuePair) : Option Text :=
  let lines := pairs.filterMap fun p =>
    if (trim p.key).isEmpty then none else some (InputCrypto.keyValueLine (trim p.key) p.value)
  if lines.isEmpty then none else some (Text.joinLines lines)

def kvPairsToRecord (pairs : List KeyValuePair) : Option Object :=
  let result := pairs.foldl (fun (result : Object) p =>
    if (trim p.key).isEmpty then result else result.set (trim p.key) (.str p.value)) {}
  if result.own.isEmpty then none else some result

/-- What `JSON.stringify` makes of a record of strings. -/
def recordBody (record : Object) : JsonObject :=
  record.own.filterMap fun field =>
    match field.2 with
    | .str value => some (field.1, .str value)
    | _ => none

def emptyKvPair : KeyValuePair where
  key := []
  value := []

def ensureKvPairs (pairs : List KeyValuePair) : List KeyValuePair :=
  if pairs.isEmpty then [emptyKvPair] else pairs

def createFormToPayload (form : CreateForm) : CreateRunRequest where
  profileId := orElse form.profileId "default".toList
  pipelineData := normalizePipelineData form.pipelineData
  pipelineVars := kvPairsToText form.pipelineVars
  pipelineVarsSecure := kvPairsToText form.pipelineVarsSecure
  isDryRun := form.isDryRun
  logLevel := form.logLevel
  envVars := (kvPairsToRecord form.envVars).map recordBody
  pdeImage := orNull (trim form.pdeImage)

section Load

-- `String` of a number
variable (number : Json → Text)

def recordToKvPairs (env : Option JsonObject) : List KeyValuePair :=
  (entries (env.getD [])).map fun field => { key := field.1, value := itemText number field.2 }

/-! ### `lib/templates.ts` -/

/-- `/[,\n]/` -/
def isTagEnd (c : Char) : Bool := c = ',' || c = '\n'

def parseTagsText (text : Text) : List Text :=
  distinct (((text.splitOnP isTagEnd).map trim).filter fun tag => !tag.isEmpty)

def tagsToText (tags : List Text) : Text := ", ".toList.intercalate tags

structure TemplateForm extends CreateForm where
  id : Text
  name : Text
  description : Text
  tagsText : Text

def templateToForm (id : Uuid) (template : RunTemplate) : TemplateForm where
  id := Uuid.str id
  name := template.name
  description := template.description.getD []
  tagsText := tagsToText template.tags
  profileId := orElse template.profileId "default".toList
  pipelineData := template.pipelineData
  pipelineVars := ensureKvPairs (parseKvPairs template.pipelineVars)
  pipelineVarsSecure := ensureKvPairs (parseKvPairs template.pipelineVarsSecure)
  isDryRun := template.isDryRun
  logLevel := orElse template.logLevel "INFO".toList
  envVars := ensureKvPairs (recordToKvPairs number template.envVars)
  pdeImage := template.pdeImage.getD []

structure TemplatePayload where
  name : Text
  description : Option Text
  tags : List Text
  run : CreateRunRequest

def templatePayload (form : TemplateForm) : TemplatePayload where
  name := trim form.name
  description := orNull (trim form.description)
  tags := parseTagsText form.tagsText
  run := createFormToPayload form.toCreateForm

/-! ### `lib/schedules.ts` -/

structure ScheduleForm where
  id : Text
  name : Text
  description : Text
  cronExpression : Text
  timezone : Text
  enabled : Bool
  overlapPolicy : Text
  templateId : Text
  run : CreateForm

def scheduleToForm (id : Uuid) (schedule : ScheduledRun) : ScheduleForm where
  id := Uuid.str id
  name := schedule.name
  description := schedule.description.getD []
  cronExpression := schedule.cronExpression
  timezone := orElse schedule.timezone "UTC".toList
  enabled := schedule.enabled
  overlapPolicy := orElse schedule.overlapPolicy "allow".toList
  templateId := (schedule.createdFromTemplateId.map Uuid.str).getD []
  run :=
    { profileId := orElse schedule.profileId "default".toList
      pipelineData := normalizePipelineData schedule.pipelineData
      pipelineVars := ensureKvPairs (parseKvPairs schedule.pipelineVars)
      pipelineVarsSecure := ensureKvPairs (parseKvPairs schedule.pipelineVarsSecure)
      isDryRun := schedule.isDryRun
      logLevel := orElse schedule.logLevel "INFO".toList
      envVars := ensureKvPairs (recordToKvPairs number schedule.envVars)
      pdeImage := schedule.pdeImage.getD [] }

/-- What a schedule runs: the values of a declarative template, or a run as the form has it. -/
inductive SchedulePayload.Content where
  | declarativeValues (values : JsonObject)
  | run (request : CreateRunRequest)

structure SchedulePayload where
  name : Text
  description : Option Text
  cronExpression : Text
  timezone : Text
  enabled : Bool
  overlapPolicy : Text
  createdFromTemplateId : Option Text
  content : SchedulePayload.Content

def schedulePayload (form : ScheduleForm) (declarativeValues : Option JsonObject) :
    SchedulePayload where
  name := trim form.name
  description := orNull (trim form.description)
  cronExpression := trim form.cronExpression
  timezone := form.timezone
  enabled := form.enabled
  overlapPolicy := form.overlapPolicy
  createdFromTemplateId := orNull form.templateId
  content :=
    match declarativeValues with
    | some values => .declarativeValues values
    | none => .run (createFormToPayload form.run)

end Load

end EditForm
end PdeOperator
