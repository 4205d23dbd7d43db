import WikiTypeset.Json.Value

/-!
# Settings

Options are given as named settings. Reading them checks the names and the values; what is not given keeps its
default.
-/

namespace WikiTypeset.Options

/-- Settings by name. -/
abbrev Settings := List (String × Json)

/-- Why settings are refused. -/
inductive OptionsError
  /-- There is no option of this name. -/
  | unknownName (name : String)
  /-- The value is of a kind that the option does not take. -/
  | badKind (name : String)
  /-- The value is no direction. -/
  | badDirection (value : Json)
  /-- The value is no paper size. -/
  | badPaperSize (value : Json)
  /-- The number of workers is not positive. -/
  | badWorkers (value : Json)
  /-- The language code is empty. -/
  | noLanguage
  deriving Repr

/-- The wording of a refusal, for those that are worded. -/
def OptionsError.message : OptionsError → String
  | unknownName name => "unknown option " ++ name
  | badKind name => "bad value for option " ++ name
  | badDirection value => "dir must be 'ltr' or 'rtl', got " ++ value.quoted
  | badPaperSize value => "size must be 'letter' or 'a4', got " ++ value.quoted
  | badWorkers value => "max_workers must be positive, got " ++ value.display
  | noLanguage => "lang must be a non-empty language code"

/-- A setting that is a text. -/
def textSetting (name : String) : Json → Except OptionsError String
  | .text s => .ok s
  | _ => .error (.badKind name)

/-- A setting that is true or false; other values count by whether they say something. -/
def flagSetting (v : Json) : Bool := v.isTruthy

/-- A setting that is a list of texts. -/
def textsSetting (name : String) : Json → Except OptionsError (List String)
  | .list items => items.mapM (textSetting name)
  | _ => .error (.badKind name)

/-- A setting that assigns texts to names. -/
def mapSetting (name : String) : Json → Except OptionsError (List (String × String))
  | .object fields => fields.mapM fun (k, v) => do return (k, ← textSetting name v)
  | _ => .error (.badKind name)

end WikiTypeset.Options
