import Remedy.Command.Usage
import Remedy.Path.Basic
import Remedy.Run.Reporter
/-!
# What a command line asks for

There are three commands: one that fixes a project, one that lists the
codemods, and one that writes a configuration.
-/

namespace Remedy

namespace Command

/-- What is asked of a fix. -/
structure FixRequest where
  project : Path
  reports : List Path
  output : Path
  format : Reporter
  /-- Changed files are written. -/
  write : Bool
  /-- Codemods take part by default, if said. -/
  byDefault : Option Bool
  exceptions : List String
  includes : List String
  excludes : List String
  threads : Option Nat

/-- A fix of the working directory, with nothing said. -/
def FixRequest.default : FixRequest :=
  { project := ⟨"."⟩, reports := [], output := ⟨"codefixer.json"⟩, format := .document
    write := false, byDefault := none, exceptions := [], includes := [], excludes := []
    threads := none }

/-- What is asked of the making of a configuration. -/
structure InitRequest where
  project : Path
  /-- A configuration that is there is overwritten. -/
  force : Bool

/-- A command. -/
inductive Request where
  | fix (request : FixRequest)
  | codemods (asDocument : Bool)
  | init (request : InitRequest)

/-- A command, and whether more is to be told. -/
structure Invocation where
  verbose : Bool
  request : Request

/-! ## Values -/

/-- A path, which may not be empty. -/
def pathValue (put : Path → α → α) : ValueReader α := fun option text =>
  if text.isEmpty then .error (.missingValue option) else .ok (put ⟨text⟩)

/-- Any text. -/
def textValue (put : String → α → α) : ValueReader α := fun _ text => .ok (put text)

/-- One of the texts that stand for something. -/
def choice (meaning : String → Option β) (put : β → α → α) : ValueReader α := fun option text =>
  match meaning text with
  | some b => .ok (put b)
  | none => .error (.impossibleValue option text)

/-- The natural number of 64 bits that a text stands for, with a plus sign
before it or not. -/
def natural? (text : String) : Option Nat :=
  let digits := match text.toList with
    | '+' :: rest => rest
    | rest => rest
  let n : Nat := digits.foldl (fun n c => n * 10 + (c.toNat - 48)) 0
  if digits.isEmpty || !digits.all Char.isDigit || Power.two 64 ≤ n then none else some n

/-- A natural number of 64 bits. -/
def naturalValue (put : Nat → α → α) : ValueReader α := fun option text =>
  match natural? text with
  | some n => .ok (put n)
  | none => .error (.unreadableValue option text)

/-! ## Parameters -/

/-- The flag that asks for help. -/
def helpFlag : Parameter α := ⟨"help", ["help"], some 'h', .help⟩

/-- The flag that asks for more to be told. -/
def verboseFlag : Parameter (α × Bool) :=
  ⟨"verbose", ["verbose"], some 'v', .flag fun (request, _) => (request, true)⟩

/-- An option with a value that can be said once. -/
def once (name : String) (short : Option Char) (read : ValueReader α) : Parameter α :=
  ⟨name, [name], short, .single read⟩

/-- An option that can be said again, with commas between values. -/
def listed (name : String) (put : String → α → α) : Parameter α :=
  ⟨name, [name], none, .several (some ',') (textValue put)⟩

/-- Changes the request and leaves the rest. -/
def onRequest (put : β → α → α) : β → α × Bool → α × Bool :=
  fun value (request, verbose) => (put value request, verbose)

/-- What may follow `fix`. -/
def fixGrammar : Grammar (FixRequest × Bool) :=
  { options :=
      [ ⟨"report", ["report", "sarif"], none, .several none
          (pathValue (onRequest fun p r => { r with reports := r.reports ++ [p] }))⟩,
        once "output" (some 'o') (pathValue (onRequest fun p r => { r with output := p })),
        once "format" none (choice Reporter.ofName? (onRequest fun f r => { r with format := f })),
        ⟨"write", ["write"], none, .flag fun (r, verbose) => ({ r with write := true }, verbose)⟩,
        once "default-rules" none
          (choice (fun text =>
              if text = "enabled" then some true else if text = "disabled" then some false
              else none)
            (onRequest fun b r => { r with byDefault := some b })),
        listed "rule-exception"
          (onRequest fun id r => { r with exceptions := r.exceptions ++ [id] }),
        listed "include" (onRequest fun p r => { r with includes := r.includes ++ [p] }),
        listed "exclude" (onRequest fun p r => { r with excludes := r.excludes ++ [p] }),
        once "threads" none (naturalValue (onRequest fun n r => { r with threads := some n })),
        verboseFlag, helpFlag ]
    argument :=
      some (once "path" none (pathValue (onRequest fun p r => { r with project := p })))
    subcommands := [] }

/-- What may follow `codemods`. -/
def codemodsGrammar : Grammar (Bool × Bool) :=
  { options :=
      [ ⟨"json", ["json"], none, .flag fun (_, verbose) => (true, verbose)⟩,
        verboseFlag, helpFlag ]
    argument := none
    subcommands := [] }

/-- What may follow `init`. -/
def initGrammar : Grammar (InitRequest × Bool) :=
  { options :=
      [ ⟨"force", ["force"], none, .flag fun (r, verbose) => ({ r with force := true }, verbose)⟩,
        verboseFlag, helpFlag ]
    argument :=
      some (once "path" none (pathValue (onRequest fun p r => { r with project := p })))
    subcommands := [] }

/-- The names of the commands. -/
def commandNames : List String := ["fix", "codemods", "init"]

/-- What may come before a command. -/
def topGrammar : Grammar (Unit × Bool) :=
  { options := [verboseFlag, helpFlag, ⟨"version", ["version"], some 'V', .version⟩]
    argument := none
    subcommands := commandNames ++ ["help"] }

/-! ## The whole line -/

/-- Reads the words after the name of a command. -/
def requested (g : Grammar (α × Bool)) (default : α) (make : α → Request) (words : List String) :
    Except UsageFault Invocation := do
  let (r, _) ← readWords g (.ofDefaults (default, false)) words
  return ⟨r.value.2, make r.value.1⟩

/-- What asking for help comes to: help on a command, or the first word
that names none. -/
def helpOn : List String → UsageFault
  | [] => .help
  | [name] => if (topGrammar.subcommands).contains name then .help else .unknownCommand name
  | name :: other :: _ =>
    if (topGrammar.subcommands).contains name then .unknownCommand other
    else .unknownCommand name

/-- **What a command line asks for.** -/
def Invocation.ofWords (words : List String) : Except UsageFault Invocation := do
  let (top, found) ← readWords topGrammar (.ofDefaults ((), false)) words
  let more (i : Invocation) : Invocation := { i with verbose := i.verbose || top.value.2 }
  match found with
  | none => throw (if top.said.isEmpty then .nothing else .missingCommand)
  | some ("fix", rest) => (requested fixGrammar .default .fix rest).map more
  | some ("codemods", rest) => (requested codemodsGrammar false .codemods rest).map more
  | some ("init", rest) => (requested initGrammar ⟨⟨"."⟩, false⟩ .init rest).map more
  | some (_, rest) => throw (helpOn rest)

end Command

end Remedy
