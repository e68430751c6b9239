import Scaffold.Value.Shown

/-!
What can go wrong, by cause. The wording of every cause stands in one function, `Error.message`; how
the callers of an operation treat a cause is said by its class.
-/

namespace Scaffold

/-- A breach of the pairing of sentinels, with the offsets where it shows. -/
inductive Breach
  | nestedStart (offset opened : Nat)
  | strayEnd (offset : Nat)
  | unclosedStart (offset : Nat)
  | anonymousStart (offset : Nat)
  deriving DecidableEq, Repr

/-- The cause of a failure. -/
inductive Error
  | unclosedLoop (collection : String)
  /-- A construct of a template cannot be read back. -/
  | unsupportedPattern (name reason : String)
  | notABlock (kind : String)
  | invalidPattern (name : String)
  /-- A pattern has no capture of the name that is asked for. -/
  | missingCapture
  /-- A template breaks the grammar of the template language on a line. -/
  | templateSyntax (line : Nat)
  | undefinedName (name : String)
  | undefinedAttribute (owner name : String)
  /-- A template takes an attribute of an item that a value lacks. -/
  | undefinedItem (owner : String) (index : Int)
  /-- A template applies a filter that does not exist, where only rendering can tell. -/
  | unknownFilter (name : String)
  /-- A value is used in a way that its kind does not allow. -/
  | wrongKind (detail : String)
  | noOperation (detail : String)
  /-- A value of the right kind lies out of range. -/
  | badValue (detail : String)
  /-- The declaration of a parameter is neither a type nor a mapping. -/
  | paramNotMapping (name kind : String)
  | fieldsNotMapping (name : String)
  /-- A generator's function gave something other than a text. -/
  | notText (generator kind : String)
  | notAGenerator (kind : String)
  | invalidName (name : String)
  | invalidParams (generator summary : String)
  /-- A generator has no template to read values back with. -/
  | noTemplate (generator : String)
  | generatorNotFound (name : String)
  | unreadableHead (format detail : String)
  | headNotMapping (format : String)
  | missingField (path field : String)
  | entryNotObject (kind : String)
  | entryIncomplete (id : String) (missing : List String)
  | paramsNotObject (id : String)
  | dependsNotList (id : String)
  | manifestNotJson (path : String)
  /-- A manifest file lacks the members of a manifest. -/
  | manifestMalformed (path : String)
  | duplicateCall (id : String)
  | selfDependency (id : String)
  /-- Fields that a call does not have, or that are not to be changed. -/
  | unknownFields (names : List String)
  | dependentsExist (id : String) (dependents : List String)
  | dependencyNotFound (dependency call : String)
  | dependencyNotId (dependency : Scalar) (call : String)
  | callNotFound (id : String)
  | cycle (id : String) (circle : List String)
  /-- Something of this name exists already. -/
  | alreadyExists (subject detail : String)
  | noMarker (path : String)
  | structural (breach : Breach) (path : Option String)
  /-- A start sentinel has the old form, with an id and no generator. -/
  | legacyMarker (unitId : String) (path : Option String)
  | configUnreadable (path : String)
  | configNotMapping (path : String)
  /-- No home directory is known for the beginning of a path. -/
  | unknownHome (name : String)
  | paramsUnreadable
  | paramsNotMapping
  /-- A parameter on the command line is not of the form `key=value`. -/
  | badParam (item : String)
  | fileNotFound (path : String)
  | isADirectory (path : String)
  /-- A file stands where a directory is to be made. -/
  | fileExists (path : String)
  /-- A path goes on below a file. -/
  | notADirectory (path : String)
  | undecodable
  deriving DecidableEq, Repr

/-- How the callers of an operation treat a failure. -/
inductive ErrorClass
  /-- Something is declared or written wrongly. -/
  | validation
  /-- A look-up found nothing. -/
  | notFound
  /-- A name or a file is taken. -/
  | collision
  | circular
  | malformed
  | system
  | decoding
  /-- A value of the wrong kind was used; no caller expects this. -/
  | misuse
  deriving DecidableEq, Repr

namespace Breach

/-- The wording of a breach. -/
def message : Breach → String
  | nestedStart offset opened =>
    s!"start marker at offset {offset} opens inside the unit started at offset {opened}"
  | strayEnd offset => s!"end marker at offset {offset} has no start marker"
  | unclosedStart offset => s!"start marker at offset {offset} has no end marker"
  | anonymousStart offset =>
    s!"start marker at offset {offset} has no factory=\"...\" attribute"

end Breach

namespace Error

/-- The class of a cause. -/
def errorClass : Error → ErrorClass
  | missingCapture | undefinedName _ | undefinedAttribute .. | undefinedItem .. | unknownFilter _
  | wrongKind _ | noOperation _ | badValue _ | unknownHome _ => .misuse
  | generatorNotFound _ | dependencyNotFound .. | dependencyNotId .. | callNotFound _
  | noMarker _ => .notFound
  | alreadyExists .. => .collision
  | cycle .. => .circular
  | structural .. | legacyMarker .. => .malformed
  | fileNotFound _ | isADirectory _ | fileExists _ | notADirectory _ => .system
  | undecodable => .decoding
  | _ => .validation

/-- Names with a comma and a space between any two. -/
def listed (names : List String) : String :=
  ", ".intercalate names

/-- A text behind the path that it concerns, when there is one. -/
def atPath (path : Option String) (text : String) : String :=
  match path with
  | some path => if path = "" then text else path ++ ": " ++ text
  | none => text

def quote (text : String) : String :=
  String.ofList (Text.quoted text.toList)

/-- The wording of a cause. -/
def message : Error → String
  | unclosedLoop collection =>
    "Loop over '" ++ collection ++ "' is never closed with \x7b% endfor %\x7d"
  | unsupportedPattern name reason => s!"Unsupported pattern for '{name}': {reason}"
  | notABlock kind => s!"Cannot compile block of type {kind}"
  | invalidPattern name => s!"Invalid pattern for '{name}': <re>"
  | missingCapture => "no such group"
  | templateSyntax line => s!"Template syntax error (line {line}): <jinja>"
  | undefinedName name => s!"'{name}' is undefined"
  | undefinedAttribute owner name => s!"'{owner}' has no attribute '{name}'"
  | undefinedItem owner index => s!"{owner} has no element {index}"
  | unknownFilter name => s!"No filter named '{name}' found."
  | wrongKind detail => detail
  | noOperation detail => detail
  | badValue detail => detail
  | paramNotMapping name kind => s!"Parameter '{name}' must be a mapping, got {kind}"
  | fieldsNotMapping name => s!"Parameter '{name}': 'fields' must be a mapping"
  | notText generator kind => s!"Generator '{generator}' returned {kind}, expected str"
  | notAGenerator kind =>
    s!"Cannot register {kind}: expected TemplateGenerator or FunctionGenerator"
  | invalidName name => s!"Invalid generator name {quote name}"
  | invalidParams generator summary =>
    s!"Generator '{generator}' has invalid parameters:\n{summary}"
  | noTemplate generator =>
    s!"Generator '{generator}' has no template. Cannot extract parameters for sync."
  | generatorNotFound name => s!"Generator '{name}' not found in registry"
  | unreadableHead format detail => s!"Failed to parse {format} frontmatter: {detail}"
  | headNotMapping format => s!"{format} frontmatter is not a mapping"
  | missingField path field => s!"Template at {path} missing required field: {field}"
  | entryNotObject kind => s!"Call entry must be an object, got {kind}"
  | entryIncomplete id missing => s!"Call entry {id} missing: {listed missing}"
  | paramsNotObject id => s!"Call '{id}': params must be an object"
  | dependsNotList id => s!"Call '{id}': dependsOn must be a list"
  | manifestNotJson path => s!"{path}: invalid JSON (<json>)"
  | manifestMalformed path => s!"{path}: invalid manifest format"
  | duplicateCall id => s!"Duplicate call id '{id}'"
  | selfDependency id => s!"Call '{id}' cannot depend on itself"
  | unknownFields names => s!"Cannot update call field(s): {listed names}"
  | dependentsExist id dependents =>
    s!"Cannot remove '{id}': other calls depend on it: {listed dependents}"
  | dependencyNotFound dependency call =>
    s!"Dependency '{dependency}' not found" ++ (if call = "" then "" else s!" for '{call}'")
  | dependencyNotId dependency call =>
    s!"Dependency '{String.ofList dependency.shown}' not found" ++
      (if call = "" then "" else s!" for '{call}'")
  | callNotFound id => s!"Call '{id}' not found in manifest"
  | cycle id circle =>
    s!"Circular dependency detected involving '{id}': " ++ " -> ".intercalate circle
  | alreadyExists subject detail =>
    s!"Already exists: {subject}" ++ (if detail = "" then "" else ". " ++ detail)
  | noMarker path => s!"No @codefactory marker found in {path}"
  | structural breach path => atPath path breach.message
  | legacyMarker unitId path =>
    atPath path (s!"Legacy marker format detected (id=\"{unitId}\"). " ++
      "Update the start marker to the form factory=\"<generator_name>\", " ++
      "or delete the file and recreate it with 'codefactory create'.")
  | configUnreadable path => s!"{path}: invalid YAML (<yaml>)"
  | configNotMapping path => s!"{path}: expected a mapping"
  | unknownHome _ => "Could not determine home directory."
  | paramsUnreadable => "--params: invalid YAML/JSON (<yaml>)"
  | paramsNotMapping => "--params must be a mapping of parameter names to values"
  | badParam item => s!"--param expects key=value, got {quote item}"
  | fileNotFound path => s!"[Errno 2] No such file or directory: {quote path}"
  | isADirectory path => s!"[Errno 21] Is a directory: {quote path}"
  | fileExists path => s!"[Errno 17] File exists: {quote path}"
  | notADirectory path => s!"[Errno 20] Not a directory: {quote path}"
  | undecodable => "<utf8>"

end Error

/-- What is worth a warning and stops nothing. -/
inductive Warning
  /-- A loop of a template is left out of its analysis. -/
  | skippedLoop (collection reason : String)
  /-- A parameter of a generator looks doubtful. -/
  | doubtfulParam (generator text : String)
  | templateNotLoaded (path text : String)
  | generatorRefused (path text : String)
  /-- A file is not brought up to date. -/
  | syncFailed (path text : String)
  /-- A call of a manifest is not produced. -/
  | buildFailed (call text : String)
  deriving DecidableEq, Repr

/-- The wording of a warning. -/
def Warning.message : Warning → String
  | skippedLoop collection reason => s!"Skipping '{collection}': {reason}"
  | doubtfulParam generator text => s!"{generator}: {text}"
  | templateNotLoaded path text => s!"Failed to load template {path}: {text}"
  | generatorRefused path text => s!"Skipping {path}: {text}"
  | syncFailed path text => s!"Sync failed for {path}: {text}"
  | buildFailed call text => s!"Build failed for call {call}: {text}"

end Scaffold
