import TicketDesk.Drafts
import TicketDesk.Service
import TicketDesk.Text.Integer

/-! # Reading arguments

A command has options, which may stand anywhere and are found by their names, and places, which are
filled in order. A value is checked when the next argument begins or the command ends, so the first
complaint is about the argument that is complete first. After `--` every argument fills a place. -/

namespace TicketDesk.CommandLine

/-- Why arguments are refused, or answered by a text about them. -/
inductive Rejection where
  | displayHelp
  | displayVersion
  /-- A command that needs another one after it stands alone. -/
  | displayHelpOnMissingArgumentOrSubcommand
  | missingSubcommand
  | invalidSubcommand
  | unknownArgument
  | argumentConflict
  /-- A value is absent or empty. -/
  | invalidValue
  /-- A value does not read as what it is for. -/
  | valueValidation
  | missingRequiredArgument
  /-- An option that takes no value has one. -/
  | tooManyValues
  deriving DecidableEq, Repr

/-- The exit code of a program whose arguments are refused. -/
def Rejection.exitCode : Rejection → Nat
  | .displayHelp => 0
  | .displayVersion => 0
  | _ => 2

/-- What an argument is for. -/
inductive Kind where
  | help
  | version
  | switch
  | text
  | path
  | integer
  | count
  | service
  | method
  | field
  deriving DecidableEq, Repr

namespace Kind

def takesValue : Kind → Bool
  | .help => false
  | .version => false
  | .switch => false
  | _ => true

def complaint? (k : Kind) (value : String) : Option Rejection :=
  let fails (ok : Bool) : Option Rejection := if ok then none else some .valueValidation
  match k with
  | .path => if value = "" then some .invalidValue else none
  | .integer => fails (Text.int64? value.toList).isSome
  | .count => fails (Text.natBelow? UInt64.size value.toList).isSome
  | .service => fails (Service.ofName? value).isSome
  | .method => fails (Method.ofUserText? value).isSome
  | .field => fails (Field.ofName? value).isSome
  | _ => none

end Kind

/-- An option or a place of a command. -/
structure Parameter where
  /-- The name of its value, and of an option in full. -/
  name : String
  kind : Kind
  /-- The letter of an option. -/
  letter : Option Char := none
  isRequired : Bool := false

/-- What may stand after the name of a command. -/
structure Level where
  options : List Parameter
  places : List Parameter := []
  /-- The names of the commands that may follow. -/
  commands : List String := []
  /-- Whether one of them must follow. -/
  needsCommand : Bool := false
  /-- Two options that exclude each other. -/
  rivals : Option (String × String) := none

abbrev Values := List (String × String)

/-- A command read in part. -/
structure Reading where
  values : Values := []
  /-- The last parameter, whose value is not checked yet; an option may still wait for it. -/
  current : Option (Parameter × Option String) := none
  /-- The places that are not filled. -/
  places : List Parameter
  /-- Whether `--` was read. -/
  onlyPlaces : Bool := false

namespace Reading

def isWaiting (r : Reading) : Bool :=
  match r.current with
  | some (_, none) => true
  | _ => false

def add (r : Reading) (p : Parameter) (value : Option String) : Except Rejection Reading :=
  match p.kind, value with
  | .help, _ => .error .displayHelp
  | .version, _ => .error .displayVersion
  | .switch, _ => keep ""
  | _, none => .error .invalidValue
  | kind, some value =>
    if r.values.any (·.1 == p.name) then .error .argumentConflict
    else
      match kind.complaint? value with
      | some complaint => .error complaint
      | none => keep value
where
  /-- Keeps a value that is given for the first time. -/
  keep (value : String) : Except Rejection Reading :=
    if r.values.any (·.1 == p.name) then .error .argumentConflict
    else .ok { r with values := r.values ++ [(p.name, value)], current := none }

/-- Adds the value of the last parameter. -/
def settle (r : Reading) : Except Rejection Reading :=
  match r.current with
  | none => .ok r
  | some (p, value) => { r with current := none }.add p value

def begin (r : Reading) (p : Parameter) (value : Option String) : Except Rejection Reading :=
  r.settle.map fun r => { r with current := some (p, value) }

/-- Reads an option with the value that is written in one with it, if there is one. -/
def takeOption (r : Reading) (p : Parameter) (value : Option String) : Except Rejection Reading :=
  match p.kind.takesValue, value with
  | true, none => r.begin p none
  | false, some _ => .error .tooManyValues
  | _, value => r.settle.bind (·.add p value)

def takePlace (r : Reading) (level : Level) (argument : String) : Except Rejection Reading :=
  match r.places with
  | p :: rest => { r with places := rest }.begin p (some argument)
  | [] =>
    if level.commands.isEmpty ∨ (r.onlyPlaces ∧ level.commands.contains argument) then .error .unknownArgument
    else .error .invalidSubcommand

/-- Reads the letters of one argument. The first that takes a value has the rest of the argument, which
    may begin with an equals sign, or else the next argument. -/
def takeLetters (level : Level) (r : Reading) : List Char → Except Rejection Reading
  | [] => .ok r
  | c :: cs =>
    match level.options.find? fun p => p.letter == some c with
    | none => .error .unknownArgument
    | some p =>
      if p.kind.takesValue then
        match cs with
        | [] => r.takeOption p none
        | '=' :: value => r.takeOption p (some (String.ofList value))
        | value => r.takeOption p (some (String.ofList value))
      else
        match r.takeOption p none with
        | .ok r => takeLetters level r cs
        | .error e => .error e

/-- Reads the name of an option, with a value after an equals sign. -/
def takeName (level : Level) (r : Reading) (cs : List Char) : Except Rejection Reading :=
  let name := String.ofList (cs.takeWhile (· ≠ '='))
  let value := match cs.dropWhile (· ≠ '=') with
    | _ :: value => some (String.ofList value)
    | [] => none
  match level.options.find? fun p => p.name == name with
  | none => .error .unknownArgument
  | some p => r.takeOption p value

def take (level : Level) (r : Reading) (argument : String) : Except Rejection Reading :=
  if r.onlyPlaces then r.takePlace level argument
  else
    match argument.toList with
    | ['-', '-'] => .ok { r with onlyPlaces := true }
    | '-' :: '-' :: cs => takeName level r cs
    | '-' :: c :: cs => takeLetters level r (c :: cs)
    | _ =>
      match r.current with
      | some (p, none) => .ok { r with current := some (p, some argument) }
      | _ => r.takePlace level argument

/-- Reads arguments up to the name of a command that follows, and says what is after it. -/
def takeAll (level : Level) (r : Reading) : List String → Except Rejection (Reading × Option (String × List String))
  | [] => .ok (r, none)
  | argument :: rest =>
    if !r.onlyPlaces && !r.isWaiting && level.commands.contains argument then .ok (r, some (argument, rest))
    else
      match r.take level argument with
      | .ok r => takeAll level r rest
      | .error e => .error e

def finish (level : Level) (hasCommand : Bool) (r : Reading) : Except Rejection Values := do
  let r ← r.settle
  let has (name : String) : Bool := r.values.any (·.1 == name)
  if level.needsCommand && !hasCommand then
    throw (if r.values.isEmpty then .displayHelpOnMissingArgumentOrSubcommand else .missingSubcommand)
  if level.rivals.any fun (a, b) => has a && has b then throw .argumentConflict
  if (level.options ++ level.places).any fun p => p.isRequired && !has p.name then throw .missingRequiredArgument
  return r.values

end Reading

end TicketDesk.CommandLine
