import Scaffold.Error
import Scaffold.Extract.Matcher

/-!
Declared parameters of generators. A declaration is a type alone or a mapping; what it leaves out has
a usual value.
-/

namespace Scaffold

/-- The declaration of a parameter. A pattern and a largest length are kept as they were given. -/
structure Param where
  type : String := "string"
  description : String := ""
  required : Bool := true
  default : Value := .null
  /-- The kinds of the fields of the parameter's items. -/
  fields : Keyed String := []
  pattern : Value := .null
  maxLength : Value := .null

namespace Param

/-- The fields that a declaration gives. Anything that counts as false gives none. -/
def fieldsOf (name : Scalar) (given : Value) : Except Error (Keyed String) :=
  if !given.truthy then .ok []
  else
    match given with
    | .map entries =>
      .ok (Keyed.ofEntries (entries.map fun entry =>
        (.text (String.ofList entry.1.shown), entry.2.string)))
    | _ => .error (.fieldsNotMapping (String.ofList name.shown))

/-- The parameter of a name as a value declares it. -/
def ofValue (name : Scalar) (value : Value) : Except Error Param :=
  match value with
  | .scalar (.text type) => .ok { type }
  | .map entries => do
    let given (key : String) : Option Value := Keyed.field? entries key
    return { type := (given "type").elim "string" Value.string
             description := (given "description").elim "" Value.string
             required := (given "required").elim true Value.truthy
             default := (given "default").getD .null
             fields := ← fieldsOf name ((given "fields").getD .null)
             pattern := (given "pattern").getD .null
             maxLength := ((given "maxLength").or (given "max_length")).getD .null }
  | _ => .error (.paramNotMapping (String.ofList name.shown) value.kindName)

/-- The parameters as a record declares them, in its order. -/
def ofRecord : Record → Except Error (Keyed Param)
  | [] => .ok []
  | (name, value) :: rest => do
    let param ← ofValue name value
    return (name, param) :: (← ofRecord rest)

def fieldsValue (param : Param) : Value :=
  .map (param.fields.map fun field => (field.1, .text field.2))

/-- The declaration of a parameter as a value; what is empty is left out. -/
def toValue (param : Param) : Value :=
  .object <|
    [("type", .text param.type), ("description", .text param.description),
      ("required", .bool param.required)] ++
    (if param.default.isNull then [] else [("default", param.default)]) ++
    (if param.fields.isEmpty then [] else [("fields", param.fieldsValue)]) ++
    (if param.pattern.truthy then [("pattern", param.pattern)] else []) ++
    (if param.maxLength.isNull then [] else [("maxLength", param.maxLength)])

/-- What a declaration says of the kinds of values: of the parameter itself when it is a number or a
truth value, and else of the fields of its items. -/
def hint? (param : Param) : Option Value :=
  if param.type = "number" || param.type = "boolean" then some (.text param.type)
  else if param.fields.isEmpty then none
  else some param.fieldsValue

/-- The hints that declarations give, as a value. -/
def hints (params : Keyed Param) : Value :=
  .map (params.filterMap fun entry => entry.2.hint?.map (entry.1, ·))

/-- Values for parameters, with the defaults of those that are not given. -/
def withDefaults (params : Keyed Param) (values : Record) : Record :=
  let defaults := params.filter fun entry => !entry.2.default.isNull
  Keyed.merge (defaults.map fun entry => (entry.1, entry.2.default)) values

end Param

end Scaffold
