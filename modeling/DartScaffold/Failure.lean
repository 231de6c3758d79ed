import DartScaffold.Disk.Error
import DartScaffold.Json.Basic
import DartScaffold.Schema.Problem
import DartScaffold.Text.Surrogate

/-!
Everything that can go wrong, by its cause. A failure of the configuration or of a sample fails
the API that needs it; one that the disk reports does the same; the others abort the feature.
-/

namespace DartScaffold

/-- What makes a configuration unusable. -/
inductive ConfigFault where
  | fileNotFound
  | unreadableYaml (detail : String)
  | unreadableFile (detail : String)
  | topNotMapping (type : String)
  | notMapping (what type : String)
  | badSettings (record : String) (problems : List Schema.Problem)
  | noAppsFile (apps : String)
  | noFiles
  | noPageDirectory
  | clashingFiles (messages : List String)
  | badRun (messages : List String)
  | badEntry (api : String) (messages : List String)
  | paramsNeedObject
  deriving DecidableEq, Repr

/-- What makes a sample unusable. -/
inductive SampleFault where
  | fileNotFound
  | invalidJson
  | unreadable (detail : String)
  | emptyArray
  | elementsNotObjects (type : String)
  | notObjectOrArray (type : String)
  | shapeNotObject
  | headersNotObject
  deriving DecidableEq, Repr

inductive Failure where
  /-- The context says where in the configuration the fault is. -/
  | config (fault : ConfigFault) (context : Entries)
  | sample (place : String) (fault : SampleFault)
  | noAnchor (place part : String)
  /-- The first line of a block does not read as a begin marker. -/
  | brokenMarker
  | disk (error : Disk.Error)
  | notUtf8
  /-- A list or an object stands where one of a set of names is expected. -/
  | unhashable (type : String)
  /-- An integer in a sample has this many digits. -/
  | hugeInteger (digits : Nat)
  /-- A container in a sample lies inside too many others. -/
  | tooDeep (container : Json.Container)
  /-- More calls would be open at once than there may be, since a value is nested so deeply. -/
  | tooManyCalls
  /-- A place is below the home of a user that nobody knows. -/
  | unknownHome
  /-- A text with lone surrogates was to be written. -/
  | loneSurrogates (run : Text.SurrogateRun)
  | fields (problems : List Schema.Problem)
  /-- A value that is computed from the fields of a record was assigned to. -/
  | computed (record field : String)
  /-- The name for the kind of a record was assigned a value of this type. -/
  | notRecordKind (type : String)
  /-- The name for all fields of a record was assigned a value of this type. -/
  | notFields (type : String)
  /-- A name that is the record's own to keep was assigned to. -/
  | fixed (record field : String)
  /-- The flag that names the root was given no text. -/
  | noLocation
  /-- A failure that is known by its name and its text alone. -/
  | other (kind text : String)
  deriving DecidableEq, Repr

def badSettingsMessage (detail : String) : String :=
  "Invalid 'json2dart' section: " ++ detail

def ConfigFault.message : ConfigFault → String
  | fileNotFound => "Configuration file not found"
  | unreadableYaml detail => "Invalid YAML: " ++ detail
  | unreadableFile detail => "Cannot read file: " ++ detail
  | topNotMapping type => "Expected a YAML mapping at top level, got " ++ type
  | notMapping what type => what ++ " must be a mapping, got " ++ type
  | badSettings _ problems => badSettingsMessage (Schema.report problems)
  | noAppsFile apps => "No configuration for apps '" ++ apps ++ "'"
  | noFiles => "No 'json2dart.yaml' found; run 'json2dart init' first"
  | noPageDirectory => "Page directory not found"
  | clashingFiles messages => "; ".intercalate messages
  | badRun messages => "Invalid run configuration: " ++ "; ".intercalate messages
  | badEntry api messages => "Invalid API '" ++ api ++ "': " ++ "; ".intercalate messages
  | paramsNeedObject => "Path parameters need an object body, not a list sample"

def SampleFault.message : SampleFault → String
  | fileNotFound => "file not found"
  | invalidJson => "invalid JSON"
  | unreadable detail => "unreadable (" ++ detail ++ ")"
  | emptyArray => "empty array has no shape to infer"
  | elementsNotObjects type => "array elements must be objects, got " ++ type
  | notObjectOrArray type => "expected an object or an array of objects, got " ++ type
  | shapeNotObject => "sample shape must be a JSON object"
  | headersNotObject => "header sample must be a JSON object"

/-- A message with the place that it is about. -/
def withContext (message : String) (context : Entries) : String :=
  if context.isEmpty then message
  else
    let places := context.map fun (key, value) => key ++ "=" ++ value.plainText
    message ++ " (" ++ ", ".intercalate places ++ ")"

def notUtf8Message : String := "the text is not valid UTF-8"

def sampleMessage (place reason : String) : String :=
  "Invalid sample " ++ place ++ ": " ++ reason

def anchorMessage (place part : String) : String :=
  "Anchor for section '" ++ part ++ "' not found in " ++ place

def Json.Container.name : Json.Container → String
  | .array => "array"
  | .object => "object"

def surrogateMessage (run : Text.SurrogateRun) : String :=
  let place :=
    if run.length = 1 then
      "character '\\u" ++ String.ofList (Text.hexDigits 4 run.first) ++
        "' in position " ++ toString run.start
    else
      "characters in position " ++ toString run.start ++ "-" ++
        toString (run.start + run.length - 1)
  "'utf-8' codec can't encode " ++ place ++ ": surrogates not allowed"

namespace Failure

def message : Failure → String
  | config fault context => withContext fault.message context
  | sample place fault => sampleMessage place fault.message
  | noAnchor place part => anchorMessage place part
  | brokenMarker => "'NoneType' object has no attribute 'group'"
  | disk error => error.message
  | notUtf8 => notUtf8Message
  | unhashable type => "unhashable type: '" ++ type ++ "'"
  | hugeInteger digits =>
    s!"Exceeds the limit (4300 digits) for integer string conversion: value has {digits} digits; " ++
      "use sys.set_int_max_str_digits() to increase the limit"
  | tooDeep container =>
    "maximum recursion depth exceeded while decoding a JSON " ++ container.name ++
      " from a unicode string"
  | tooManyCalls => "maximum recursion depth exceeded in comparison"
  | unknownHome => "Could not determine home directory."
  | loneSurrogates run => surrogateMessage run
  | fields problems => Schema.report problems
  | notRecordKind type => "__class__ must be set to a class, not '" ++ type ++ "' object"
  | notFields type => "__dict__ must be set to a dictionary, not a '" ++ type ++ "'"
  | fixed record field =>
    "attribute '" ++ field ++ "' of '" ++ record ++ "' objects is not writable"
  | computed record field => s!"property '{field}' of '{record}' object has no setter"
  | noLocation => "expected str, bytes or os.PathLike object, not list"
  | other _ text => text

/-- The message for a terminal, where the problems of a record need not share a line. -/
def terminalText : Failure → String
  | config (.badSettings record problems) context =>
    withContext (badSettingsMessage (Schema.outline record problems)) context
  | failure => failure.message

/-- The name of the kind of failure in reports. -/
def kind : Failure → String
  | config _ _ => "ConfigurationError"
  | sample _ _ => "SampleFormatError"
  | noAnchor _ _ => "PatchAnchorNotFound"
  | disk error => error.cause.kind
  | notUtf8 => "UnicodeDecodeError"
  | loneSurrogates _ => "UnicodeEncodeError"
  | tooDeep _ | tooManyCalls => "RecursionError"
  | unknownHome => "RuntimeError"
  | unhashable _ | notRecordKind _ | notFields _ => "TypeError"
  | hugeInteger _ => "ValueError"
  | fields _ => "ValidationError"
  | computed _ _ | fixed _ _ | brokenMarker => "AttributeError"
  | noLocation => "TypeError"
  | other kind _ => kind

/-- The failures that concern one API alone. -/
def isLocal : Failure → Bool
  | config _ _ | sample _ _ | noAnchor _ _ | disk _ => true
  | _ => false

end Failure

end DartScaffold
