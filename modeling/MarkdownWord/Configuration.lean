import MarkdownWord.Json
import MarkdownWord.Text.CaseFold

/-! # Configuration

What can be set for the whole program. A value comes from an argument, else from an environment
variable of the same name in any case, else it is the default. -/

namespace MarkdownWord
open Number

/-- The configuration of the program. -/
structure Configuration where
  appName : String := "Markdown to DOCX Converter"
  apiHost : String := "0.0.0.0"
  apiPort : Int := 8000
  rateLimit : String := "60/minute"
  /-- How long a Markdown text may be, in units of 1024 octets. -/
  maxKilobytes : Int := 2048
  origins : List String := ["http://localhost:3000"]
  /-- The size of running text in points; none keeps that of the template. -/
  fontSize : Option Number := none
  /-- The name of the policy for lists nested too deep. -/
  listOverflow : String := "clamp"
  logLevel : String := "INFO"
  deriving Inhabited

/-- Why a configuration cannot be loaded. -/
inductive ConfigurationError where
  /-- The list in an environment variable is no JSON. -/
  | unreadable (name : String)
  /-- A value is not of the kind that its name asks for. -/
  | invalid (name : String)
  deriving DecidableEq, Repr

namespace Value

def text? : Value → Option String
  | .string s => some s
  | .broken t => some t.standIn
  | _ => none

/-- A whole number: also a number without fraction, a truth value, and a text that denotes a whole
number. -/
def wholeNumber? : Value → Option Int
  | .number (.int n) => some n
  | .number (.real x) => x.toInt?
  | .bool b => some (if b then 1 else 0)
  | .string s => readPlainInt? s
  | _ => none

/-- A binary64 number: also an integer in its range, a truth value, and a text that denotes a
number. -/
def realNumber? : Value → Option Binary64
  | .number (.int n) => match Binary64.ofInt n with
    | .infinite _ => none
    | x => some x
  | .number (.real x) => some x
  | .bool b => some (.ofInt (if b then 1 else 0))
  | .string s => readPlainBinary64? s
  | _ => none

def optionalNumber? : Value → Option (Option Number)
  | .null => some none
  | v => v.realNumber?.map fun x => some (.real x)

def texts? : Value → Option (List String)
  | .array items => items.mapM text?
  | _ => none

end Value

namespace Configuration

/-- The name under which the list of origins is set. -/
def originsName : String := "cors_origins"

/-- The value of an environment variable, its name being given in lower case. -/
def environmentText? (environment : List (String × String)) (name : String) : Option String :=
  (environment.reverse.find? fun v =>
    String.ofList (v.1.toList.map Text.lowerAscii) == name).map (·.2)

/-- The value that an environment variable gives: JSON for the list of origins, else its text. -/
def environmentValue? (environment : List (String × String)) (name : String) :
    Except ConfigurationError (Option Value) :=
  match environmentText? environment name with
  | none => pure none
  | some s =>
    if name == originsName then
      match Json.read? s with
      | some v => pure (some v)
      | none => throw (.unreadable name)
    else pure (some (.string s))

/-- The value given for a name, the arguments coming first. -/
def given? (arguments : List (String × Value)) (environment : List (String × String))
    (name : String) : Except ConfigurationError (Option Value) := do
  let inherited ← environmentValue? environment name
  return ((arguments.reverse.find? (·.1 == name)).map (·.2)).or inherited

/-- The value of a name, read by `read`, or its default. -/
def setting {α : Type} (arguments : List (String × Value)) (environment : List (String × String))
    (name : String) (read : Value → Option α) (default : α) : Except ConfigurationError α := do
  match ← given? arguments environment name with
  | none => return default
  | some v => match read v with
    | some a => return a
    | none => throw (.invalid name)

/-- The configuration from arguments and an environment. The list of origins is looked at first. -/
def load (arguments : List (String × Value)) (environment : List (String × String)) :
    Except ConfigurationError Configuration := do
  let get {α : Type} (name : String) (read : Value → Option α) (default : α) :=
    setting arguments environment name read default
  let standard : Configuration := {}
  return {
    origins := ← get originsName Value.texts? standard.origins
    appName := ← get "app_name" Value.text? standard.appName
    apiHost := ← get "api_host" Value.text? standard.apiHost
    apiPort := ← get "api_port" Value.wholeNumber? standard.apiPort
    rateLimit := ← get "rate_limit" Value.text? standard.rateLimit
    maxKilobytes := ← get "max_markdown_size_kb" Value.wholeNumber? standard.maxKilobytes
    fontSize := ← get "default_font_size" Value.optionalNumber? standard.fontSize
    listOverflow := ← get "list_level_overflow" Value.text? standard.listOverflow
    logLevel := ← get "log_level" Value.text? standard.logLevel }

/-- The size of running text as shown to a reader. A size of zero is none. -/
def fontSizeText (c : Configuration) : String :=
  match c.fontSize.filter (!·.isZero) with
  | some n => n.text
  | none => "template default"

def ruler : String := String.ofList (List.replicate 70 '=')

def summary (c : Configuration) : String :=
  String.intercalate "\n" ["", ruler, "⚙️  CONFIGURATION", ruler,
    "App:             " ++ c.appName,
    "API:             " ++ c.apiHost ++ ":" ++ toString c.apiPort,
    "Rate Limit:      " ++ c.rateLimit,
    "Max Markdown:    " ++ toString c.maxKilobytes ++ " KB",
    "Font Size:       " ++ c.fontSizeText,
    "List Overflow:   " ++ c.listOverflow, ruler, "", ""]

end Configuration
end MarkdownWord
