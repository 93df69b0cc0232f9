import PdeOperator.BaseTable
import PdeOperator.BaseText

/-! The `KEY=VALUE` codecs of `InputCryptoUtils`: masking for the database and the API, and the merge
of a submitted text with the stored secrets. Both work line by line. -/

namespace PdeOperator
open Base Text

namespace InputCrypto

/-- `MASKED_VALUE` -/
def maskedValue : Text := "[MASKED]".toList

/-- `f"{key}={value}"` -/
def keyValueLine (key value : Text) : Text := key ++ '=' :: value

/-- What `mask_secure_vars` makes of one line. -/
def maskLine (line : Text) : Text :=
  if isBlank line then line
  else if '=' ∈ line then keyValueLine (partition '=' line).1 maskedValue
  else maskedValue

def maskSecureVars (value : Option Text) : Option Text :=
  match value with
  | none => none
  | some text => if text.isEmpty then some text else some (joinLines ((splitlines text).map maskLine))

/-- One turn of the loop that collects the stored secrets; a repeated key keeps its last value. -/
def addSecret (existing : Table Text Text) (line : Text) : Table Text Text :=
  if '=' ∈ line then existing.insert (partition '=' line).1 (partition '=' line).2 else existing

/-- The dictionary of stored secrets. -/
def existingSecrets (existingReal : Option Text) : Table Text Text :=
  (splitlines (existingReal.getD [])).foldl addSecret ∅

inductive Error where
  /-- `Cannot keep masked value for unknown secure key '{key}'` -/
  | unknownSecureKey (key : Text)
  deriving DecidableEq

def Error.message : Error → Text
  | .unknownSecureKey key =>
      "Cannot keep masked value for unknown secure key '".toList ++ key ++ "'".toList

/-- What `merge_masked_secure` makes of one line that is not blank. -/
def mergeLine (existing : Table Text Text) (line : Text) : Except Error Text :=
  if '=' ∈ line then
    if (partition '=' line).2 = maskedValue then
      match existing.lookup (partition '=' line).1 with
      | none => .error (.unknownSecureKey (partition '=' line).1)
      | some value => .ok (keyValueLine (partition '=' line).1 value)
    else .ok (keyValueLine (partition '=' line).1 (partition '=' line).2)
  else .ok line

def mergeMaskedSecure (submitted existingReal : Option Text) : Except Error (Option Text) :=
  match submitted with
  | none => .ok none
  | some text =>
      if isBlank text then .ok none
      else do
        let merged ← ((splitlines text).filter fun line => !isBlank line).mapM
          (mergeLine (existingSecrets existingReal))
        return if merged.isEmpty then none else some (joinLines merged)

/-- The lines of a stored secure text. -/
def secureLines (value : Option Text) : List Text := splitlines (value.getD [])

end InputCrypto
end PdeOperator
