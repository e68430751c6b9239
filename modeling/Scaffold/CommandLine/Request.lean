import Scaffold.CommandLine.Reading

/-!
Requests: what a command line of this program asks for. Options that concern the whole project stand
before the command, and all others after it.
-/

namespace Scaffold.CommandLine

/-- How the parameters of a generator are given: a mapping as a text or in a file, and single
parameters as `key=value`. -/
structure ParamSource where
  mapping : Option String
  items : List String
  deriving Repr

/-- What is to be done. Where `preview` is set, no file changes. -/
inductive Command
  | listGenerators
  | showGenerator (name : String)
  | create (generator : String) (path : Option String) (params : ParamSource)
      (unitId : Option String) (preview : Bool)
  | sync (file : String) (preview : Bool)
  | syncAll (directory : Option String) (preview : Bool)
  | inspect (file : String) (asJson : Bool)
  | addCall (id generator outputPath : String) (params : ParamSource) (dependsOn : List String)
  | removeCall (id : String)
  | listCalls
  | orderCalls
  | validateCalls
  | build (preview : Bool)
  deriving Repr

/-- What is to be done, and where. Places that are not given are looked up in the environment and in
the settings of the project. -/
structure Request where
  project : Option String
  generators : Option String
  manifest : Option String
  command : Command
  deriving Repr

/-- A command with its name, what its line may hold, and what a line means. -/
structure Form where
  name : String
  usage : Usage
  command : Reading → Command

/-- The option that asks for help; every line may hold it. -/
def helpSwitch : Switch :=
  ⟨["-h", "--help"], .help⟩

/-- A usage with operands and, besides the one for help, options. -/
def usageOf (operands : List Operand) (switches : List (String × Intake)) : Usage :=
  ⟨helpSwitch :: switches.map fun switch => ⟨[switch.1], switch.2⟩, operands⟩

/-- The options that give parameters. -/
def paramSwitches : List (String × Intake) :=
  [("--param", .oneWord), ("--params", .oneWord)]

/-- The parameters of a line. -/
def paramsOf (reading : Reading) : ParamSource :=
  ⟨reading.lastWord? "--params", (reading.uses "--param").flatten⟩

def previewName : String := "--dry-run"

/-- A line asks for a preview. -/
def previewOf (reading : Reading) : Bool :=
  reading.has previewName

/-- The commands on generators. -/
def generatorForms : List Form :=
  [⟨"list", usageOf [] [], fun _ => .listGenerators⟩,
   ⟨"show", usageOf [.required] [], fun reading => .showGenerator (reading.word 0)⟩]

/-- The commands on the manifest. -/
def manifestForms : List Form :=
  [⟨"add", usageOf [.required, .required, .required] (paramSwitches ++ [("--depends-on", .words)]),
      fun reading =>
        .addCall (reading.word 0) (reading.word 1) (reading.word 2) (paramsOf reading)
          (reading.lastWords "--depends-on")⟩,
   ⟨"remove", usageOf [.required] [], fun reading => .removeCall (reading.word 0)⟩,
   ⟨"list", usageOf [] [], fun _ => .listCalls⟩,
   ⟨"order", usageOf [] [], fun _ => .orderCalls⟩,
   ⟨"validate", usageOf [] [], fun _ => .validateCalls⟩,
   ⟨"build", usageOf [] [(previewName, .nothing)], fun reading => .build (previewOf reading)⟩]

/-- The commands on files. -/
def fileForms : List Form :=
  [⟨"create",
      usageOf [.required, .optional]
        (paramSwitches ++ [("--id", .oneWord), (previewName, .nothing)]),
      fun reading =>
        .create (reading.word 0) (reading.word? 1) (paramsOf reading) (reading.lastWord? "--id")
          (previewOf reading)⟩,
   ⟨"sync", usageOf [.required] [(previewName, .nothing)],
      fun reading => .sync (reading.word 0) (previewOf reading)⟩,
   ⟨"sync-all", usageOf [.optional] [(previewName, .nothing)],
      fun reading => .syncAll (reading.word? 0) (previewOf reading)⟩,
   ⟨"inspect", usageOf [.required] [("--json", .nothing)],
      fun reading => .inspect (reading.word 0) (reading.has "--json")⟩]

/-- The commands that are grouped under another word. -/
def groups : List (String × List Form) :=
  [("generators", generatorForms), ("manifest", manifestForms)]

/-- What a whole line may hold. That the program be verbose changes nothing that it prints. -/
def topUsage : Usage :=
  ⟨[helpSwitch, ⟨["--project"], .oneWord⟩, ⟨["--generators"], .oneWord⟩, ⟨["--manifest"], .oneWord⟩,
    ⟨["-v", "--verbose"], .nothing⟩], [.command]⟩

/-- What words ask for: the command, if they name one, and whether some word has no place. -/
structure Asked where
  command : Option Command
  surplus : Bool

namespace Asked

/-- What the words after a command's name ask for. -/
def ofForm (form : Form) (words : List String) : Except Stop Asked := do
  let reading ← form.usage.read words
  return ⟨some (form.command reading), reading.surplus⟩

def ofForms (forms : List Form) : List String → Except Stop Asked
  | [] => .error .misuse
  | name :: words =>
    match forms.find? fun form => form.name == name with
    | some form => ofForm form words
    | none => .error .misuse

def ofGroup (forms : List Form) (words : List String) : Except Stop Asked := do
  let reading ← (usageOf [.command] []).read words
  match reading.operands with
  | [] => return ⟨none, reading.surplus⟩
  | named :: _ =>
    let asked ← ofForms forms named
    return { asked with surplus := reading.surplus || asked.surplus }

def ofCommand : List String → Except Stop Asked
  | [] => .error .misuse
  | name :: words =>
    match groups.lookup name with
    | some forms => ofGroup forms words
    | none => ofForms fileForms (name :: words)

end Asked

namespace Request

/-- What the words of a command line ask for. A line without a command asks for help. -/
def ofWords (words : List String) : Except Stop Request := do
  let reading ← topUsage.read words
  let asked ← match reading.operands with
    | [] => pure ⟨none, false⟩
    | named :: _ => Asked.ofCommand named
  if reading.surplus || asked.surplus then throw .misuse
  else
    match asked.command with
    | none => throw .help
    | some command =>
      return { project := reading.lastWord? "--project", generators := reading.lastWord? "--generators"
               manifest := reading.lastWord? "--manifest", command }

end Request

end Scaffold.CommandLine
