import Scaffold.CommandLine.Mark

/-!
Readings of command lines: which option takes which words, and which words are the operands. Words are
taken from the left; operands are taken as soon as they stand there, as many as the usage has places
for.
-/

namespace Scaffold.CommandLine

/-- What a line holds. -/
structure Reading where
  /-- The options in order, with the words that they take. -/
  given : List (Switch × List String) := []
  /-- The operands in order. One that is left out has no words. -/
  operands : List (List String) := []
  /-- Some word has no place. -/
  surplus : Bool := false
  deriving Repr

namespace Reading

def isDivider (word : Marked) : Bool :=
  word.2 == .divider

/-- The words of an operand that has one word at most, and what follows them. Dividers around the word
go with it, and the first of them counts for nothing. -/
def takeWord (words : List Marked) : List String × List Marked :=
  let before := words.takeWhile isDivider
  match words.dropWhile isDivider with
  | (word, .operand) :: rest =>
    let taken := before.map Prod.fst ++ word :: (rest.takeWhile isDivider).map Prod.fst
    (taken.erase "--", rest.dropWhile isDivider)
  | rest => ((before.map Prod.fst).erase "--", rest)

/-- An operand stands at the beginning of words. -/
def startsWithOperand (words : List Marked) : Bool :=
  match words.dropWhile isDivider with
  | (_, .operand) :: _ => true
  | _ => false

/-- The words of an operand, and what follows them, if the operand can be there. -/
def takeOperand (operand : Operand) (words : List Marked) : Option (List String × List Marked) :=
  match operand with
  | .optional => some (takeWord words)
  | .required => if startsWithOperand words then some (takeWord words) else none
  | .command => if startsWithOperand words then some (words.map Prod.fst, []) else none

/-- As many operands as there are; then those that are still to come, and what follows. -/
def takeOperands : List Operand → List Marked →
    List (List String) × List Operand × List Marked
  | [], words => ([], [], words)
  | operand :: later, words =>
    match takeOperand operand words with
    | none => ([], operand :: later, words)
    | some (taken, rest) =>
      let (more, missing, final) := takeOperands later rest
      (taken :: more, missing, final)

/-- The options in one word. -/
structure Cluster where
  /-- Options with all that they take. -/
  complete : List (Switch × List String) := []
  /-- The last option, when it may take words that follow. -/
  last : Option Switch := none
  /-- A letter means no option. -/
  surplus : Bool := false

/-- The cluster with one more option at its start. -/
def Cluster.cons (cluster : Cluster) (switch : Switch) : Cluster :=
  { cluster with complete := (switch, []) :: cluster.complete }

/-- The options in one word: an option of one letter that takes nothing may have more letters glued
to it, and an option that takes words may have one glued to it. -/
def clusterOf (switches : List Switch) :
    (switch : Switch) → (name : String) → (equals : Bool) → List Char → Except Stop Cluster
  | switch, _, _, [] => if switch.takesWords then .ok { complete := [(switch, [""])] } else .error .misuse
  | switch, name, equals, letter :: rest =>
    if switch.takesWords then .ok { complete := [(switch, [String.ofList (letter :: rest)])] }
    else if isLongName name || equals || letter == '-' then .error .misuse
    else
      let next := String.ofList ['-', letter]
      match named? switches next with
      | none => .ok { complete := [(switch, [])], surplus := true }
      | some inner =>
        match rest with
        | [] => .ok { complete := [(switch, [])], last := some inner }
        | c :: more =>
          let tail :=
            if c = '=' then clusterOf switches inner next true more
            else clusterOf switches inner next false (c :: more)
          tail.map fun cluster => cluster.cons switch

/-- The options in a word that is marked as one. -/
def cluster (switches : List Switch) (switch : Switch) (name : String) (glued : Option Glued) :
    Except Stop Cluster :=
  match glued with
  | none => .ok { last := some switch }
  | some glued => clusterOf switches switch name glued.equals glued.text

/-- The words that an option takes of those that follow it. -/
def intakeOf (switch : Switch) (words : List Marked) : Except Stop (List String) :=
  match switch.intake, words with
  | .help, _ | .nothing, _ => .ok []
  | .oneWord, (word, .operand) :: _ => .ok [word]
  | .oneWord, _ => .error .misuse
  | .words, words => .ok ((words.takeWhile fun word => word.2 == .operand).map Prod.fst)

/-- The options in a word with all that they take, and how many of the words that follow are taken. -/
def takeOptions (cluster : Cluster) (words : List Marked) :
    Except Stop (List (Switch × List String) × Nat) := do
  let (given, count) ← match cluster.last with
    | none => pure (cluster.complete, 0)
    | some switch => do
      let taken ← intakeOf switch words
      pure (cluster.complete ++ [(switch, taken)], taken.length)
  if given.any fun entry => entry.1.intake == .help then throw .help
  else return (given, count)

/-- The end of a reading: the words that are left hold no options. -/
def finish (operands : List Operand) (reading : Reading) (words : List Marked) :
    Except Stop Reading :=
  let (taken, missing, rest) := takeOperands operands words
  if missing.contains .required then .error .misuse
  else
    .ok { reading with
      operands := reading.operands ++ taken
      surplus := reading.surplus || !rest.isEmpty }

/-- Reads what is left of a line. -/
def readFrom (switches : List Switch) (operands : List Operand) (reading : Reading) :
    List Marked → Except Stop Reading
  | [] => finish operands reading []
  | (word, mark) :: rest =>
    -- After the last option all the operands are taken at once, and what is missing is an error.
    if !((word, mark) :: rest).any fun word => word.2.isOption then
      finish operands reading ((word, mark) :: rest)
    else
      match mark with
      | .unknown => readFrom switches operands { reading with surplus := true } rest
      | .option switch name glued => do
        let cluster ← cluster switches switch name glued
        let (given, count) ← takeOptions cluster rest
        readFrom switches operands
          { reading with
            given := reading.given ++ given
            surplus := reading.surplus || cluster.surplus } (rest.drop count)
      | .operand | .divider =>
        let (taken, missing, after) := takeOperands operands ((word, mark) :: rest)
        -- Operands may be taken without words; a word that none takes has no place.
        if after.length < rest.length + 1 then
          readFrom switches missing { reading with operands := reading.operands ++ taken } after
        else readFrom switches operands { reading with surplus := true } rest
  termination_by words => words.length

end Reading

/-- What a line holds by a usage. -/
def Usage.read (usage : Usage) (words : List String) : Except Stop Reading := do
  Reading.readFrom usage.switches usage.operands {} (← Mark.ofWords usage.switches words)

namespace Reading

/-- The words of each use of an option, in order. -/
def uses (reading : Reading) (name : String) : List (List String) :=
  (reading.given.filter fun entry => entry.1.names.contains name).map Prod.snd

/-- An option is used. -/
def has (reading : Reading) (name : String) : Bool :=
  !(reading.uses name).isEmpty

/-- The words of the last use of an option; none without a use. -/
def lastWords (reading : Reading) (name : String) : List String :=
  (reading.uses name).getLast?.getD []

def lastWord? (reading : Reading) (name : String) : Option String :=
  (reading.lastWords name).head?

/-- The first word of an operand. -/
def word? (reading : Reading) (index : Nat) : Option String :=
  reading.operands[index]?.bind List.head?

/-- The first word of an operand that is there. -/
def word (reading : Reading) (index : Nat) : String :=
  (reading.word? index).getD ""

end Reading

end Scaffold.CommandLine
