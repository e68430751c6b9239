/-!
The grammar of command lines. The words of a line are options, which begin with a dash, and operands.
Options stand anywhere among the operands.
-/

namespace Scaffold.CommandLine

/-- What an option takes. -/
inductive Intake
  /-- Nothing; the option asks for help, and nothing else is done. -/
  | help
  | nothing
  | oneWord
  /-- All operands that follow. -/
  | words
  deriving DecidableEq, Repr

/-- An option: the names that it goes by, and what it takes. -/
structure Switch where
  names : List String
  intake : Intake
  deriving DecidableEq, Repr

/-- The option takes words that follow it. -/
def Switch.takesWords (switch : Switch) : Bool :=
  switch.intake == .oneWord || switch.intake == .words

/-- A name of an option of more than one letter. -/
def isLongName (name : String) : Bool :=
  "--".toList.isPrefixOf name.toList

inductive Operand
  | required
  | optional
  /-- A word that names a command, and all words after it, options too. -/
  | command
  deriving DecidableEq, Repr

/-- What a line may hold. Operands that may be left out come last. -/
structure Usage where
  switches : List Switch
  operands : List Operand
  deriving Repr

/-- Why a line is not carried out. -/
inductive Stop
  | help
  | misuse
  deriving DecidableEq, Repr

/-- The names of options, each with its option. -/
def namesOf (switches : List Switch) : List (String × Switch) :=
  switches.flatMap fun switch => switch.names.map fun name => (name, switch)

def named? (switches : List Switch) (name : String) : Option Switch :=
  (namesOf switches).lookup name

end Scaffold.CommandLine
