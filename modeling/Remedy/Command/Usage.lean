/-!
# Reading a command line

A command has options, written `--name value`, `--name=value`, `-n value`
or `-nvalue`, flags, which take no value, and at most one argument by
position. After `--` every word is an argument by position. A word that
names a subcommand ends the reading; the rest belongs to the subcommand.

The value of an option is looked at only when the next option comes or the
line ends, so an unknown option is told before a bad value ahead of it.
-/

namespace Remedy

namespace Command

/-- Why a command line is not carried out. -/
inductive UsageFault where
  /-- Help was asked for. -/
  | help
  /-- The version was asked for. -/
  | version
  /-- Nothing at all was said. -/
  | nothing
  /-- No subcommand was named. -/
  | missingCommand
  | unknownCommand (word : String)
  | unknownArgument (word : String)
  /-- An option has no value, or an empty one where that says nothing. -/
  | missingValue (option : String)
  /-- A value is not among the possible ones. -/
  | impossibleValue (option value : String)
  /-- A value cannot be read. -/
  | unreadableValue (option value : String)
  /-- A flag has a value. -/
  | excessValue (option value : String)
  /-- What can be said once was said again. -/
  | repeated (option : String)
deriving DecidableEq, Repr

/-- How a value changes what is being collected. -/
abbrev ValueReader (α : Type) := (option value : String) → Except UsageFault (α → α)

/-- What an option or argument does. -/
inductive ParameterKind (α : Type) where
  | help
  | version
  | flag (set : α → α)
  | single (read : ValueReader α)
  /-- It may be said again; a value may hold several with a separator. -/
  | several (separator : Option Char) (read : ValueReader α)

/-- An option or argument, with the names it goes by. -/
structure Parameter (α : Type) where
  name : String
  longs : List String
  short : Option Char
  kind : ParameterKind α

/-- What may stand in a command line. -/
structure Grammar (α : Type) where
  options : List (Parameter α)
  argument : Option (Parameter α)
  subcommands : List String

namespace Parameter

/-- The option takes a value. -/
def takesValue (p : Parameter α) : Bool :=
  match p.kind with
  | .single _ | .several .. => true
  | .help | .version | .flag _ => false

/-- An option that can be said once. -/
def isSingle (p : Parameter α) : Bool :=
  match p.kind with
  | .several .. => false
  | .help | .version | .flag _ | .single _ => true

end Parameter

/-- What was collected so far: the value, the names of what was said, what
still waits for its value or for being looked at, whether `--` was passed,
and whether the argument by position was given. -/
structure Reading (α : Type) where
  value : α
  said : List String
  pending : Option (Parameter α × Option String)
  dashed : Bool
  placed : Bool

namespace Reading

/-- Nothing was read yet. -/
def ofDefaults (value : α) : Reading α := ⟨value, [], none, false, false⟩

/-- Takes in the value of an option. -/
def accept (r : Reading α) (p : Parameter α) (text : String) : Except UsageFault (Reading α) := do
  if p.isSingle ∧ r.said.contains p.name then throw (.repeated p.name)
  let value ← match p.kind with
    | .help | .version | .flag _ => pure r.value
    | .single read => (read p.name text).map (· r.value)
    | .several separator read =>
      let parts := match separator with
        | some mark => text.splitOn (String.singleton mark)
        | none => [text]
      parts.foldlM (fun value part => (read p.name part).map (· value)) r.value
  return { r with value := value, said := p.name :: r.said }

/-- Looks at what is pending. -/
def settle (r : Reading α) : Except UsageFault (Reading α) :=
  match r.pending with
  | none => .ok r
  | some (p, none) => .error (.missingValue p.name)
  | some (p, some text) => { r with pending := none }.accept p text

/-- An option without its value waits for it. -/
def isWaiting (r : Reading α) : Bool :=
  match r.pending with
  | some (_, none) => true
  | _ => false

/-- Takes in an option without a value. -/
def flag (r : Reading α) (p : Parameter α) : Except UsageFault (Reading α) := do
  let r ← r.settle
  match p.kind with
  | .help => throw .help
  | .version => throw .version
  | .flag set =>
    let r ← r.accept p ""
    return { r with value := set r.value }
  | .single _ | .several .. => return { r with pending := some (p, none) }

/-- Takes in an option with the value written to it. -/
def attached (r : Reading α) (p : Parameter α) (text : String) :
    Except UsageFault (Reading α) := do
  if p.takesValue then
    let r ← r.settle
    r.accept p text
  else throw (.excessValue p.name text)

/-- Takes in a word with two dashes before it. -/
def long (r : Reading α) (g : Grammar α) (word : List Char) : Except UsageFault (Reading α) :=
  let name := word.takeWhile (· ≠ '=')
  match g.options.find? (·.longs.contains (String.ofList name)) with
  | none => .error (.unknownArgument (String.ofList ('-' :: '-' :: name)))
  | some p =>
    if name.length = word.length then r.flag p
    else r.attached p (String.ofList (word.drop (name.length + 1)))

/-- Takes in letters with one dash before them. An option that takes a
value has the rest of the word for it. -/
def shorts (r : Reading α) (g : Grammar α) : List Char → Except UsageFault (Reading α)
  | [] => .ok r
  | c :: rest =>
    match g.options.find? (·.short = some c) with
    | none => .error (.unknownArgument (String.ofList ['-', c]))
    | some p =>
      if !p.takesValue then do (← r.flag p).shorts g rest
      else
        match rest with
        | [] => r.flag p
        | '=' :: text => r.attached p (String.ofList text)
        | text => r.attached p (String.ofList text)

/-- Takes in an argument by position. -/
def place (r : Reading α) (g : Grammar α) (word : String) : Except UsageFault (Reading α) :=
  match g.argument with
  | some p =>
    if r.placed then .error (.unknownArgument word)
    else do
      let r ← r.settle
      return { r with pending := some (p, some word), placed := true }
  | none =>
    if g.subcommands.isEmpty ∨ (r.dashed ∧ g.subcommands.contains word) then
      .error (.unknownArgument word)
    else .error (.unknownCommand word)

/-- Takes in a word that names no subcommand. -/
def word (r : Reading α) (g : Grammar α) (text : String) : Except UsageFault (Reading α) :=
  match r.dashed, text.toList with
  | false, ['-', '-'] => .ok { r with dashed := true }
  | false, '-' :: '-' :: rest => r.long g rest
  | false, '-' :: c :: rest => r.shorts g (c :: rest)
  | _, _ =>
    match r.dashed, r.pending with
    | false, some (p, none) => .ok { r with pending := some (p, some text) }
    | _, _ => r.place g text

end Reading

/-- **Reads a command line**, up to the end or to the name of a subcommand,
which is answered with the words after it. -/
def readWords (g : Grammar α) (r : Reading α) :
    List String → Except UsageFault (Reading α × Option (String × List String))
  | [] => do return (← r.settle, none)
  | text :: rest => do
    if !r.dashed ∧ !r.isWaiting ∧ g.subcommands.contains text then
      return (← r.settle, some (text, rest))
    readWords g (← r.word g text) rest

end Command

end Remedy
