import BoardSupport.Loader.Format

/-! The command line of the loader: its commands, its options, and what is refused. -/
namespace BoardSupport.Loader.CommandLine

inductive Command
  /-- Wait for the bootloader and send it an image. -/
  | upload (port : String) (address : UInt32) (file : String) (format : Option Format)
      (timeout : Nat) (thenEcho : Bool)
  /-- See whether the bootloader runs. -/
  | wait (port : String) (timeout : Nat)
  /-- Pass on everything the device sends. -/
  | listen (port : String)
  /-- Reverse the bytes of every word of a text image. -/
  | swap (input output : String)
  deriving DecidableEq, Repr

/-- A command and the settings that all commands share. -/
structure Invocation where
  command : Command
  baud : UInt32
  verbosity : Nat
  deriving DecidableEq, Repr

/-- Why arguments lead to no command. -/
inductive Refusal
  | helpOnMissing
  | missingCommand
  | unknownCommand
  | missingArgument
  | unknownArgument
  | givenTwice
  | invalidValue
  | tooManyValues
  | unreadableValue
  | help
  | version
  deriving DecidableEq, Repr

/-- The usual name of a refusal. -/
def Refusal.name : Refusal → String
  | helpOnMissing => "DisplayHelpOnMissingArgumentOrSubcommand"
  | missingCommand => "MissingSubcommand"
  | unknownCommand => "InvalidSubcommand"
  | missingArgument => "MissingRequiredArgument"
  | unknownArgument => "UnknownArgument"
  | givenTwice => "ArgumentConflict"
  | invalidValue => "InvalidValue"
  | tooManyValues => "TooManyValues"
  | unreadableValue => "ValueValidation"
  | help => "DisplayHelp"
  | version => "DisplayVersion"

/-- Help and the version were asked for; anything else is a mistake. -/
def Refusal.exitCode : Refusal → Nat
  | help | version => 0
  | _ => 2

inductive Verb
  | upload
  | wait
  | listen
  | swap
  deriving DecidableEq, Repr

def Verb.ofName? : String → Option Verb
  | "upload" => some .upload
  | "wait" => some .wait
  | "listen" => some .listen
  | "swap" => some .swap
  | _ => none

/-- What takes a value. -/
inductive Slot
  | baud
  | timeout
  | format
  | port
  | address
  | image
  | input
  | output
  deriving DecidableEq, Repr

/-- What stands alone. -/
inductive Flag
  | verbose
  | thenEcho
  | help
  | version
  deriving DecidableEq, Repr

/-- An option: something that is set, or something that stands alone. -/
inductive Setting
  | slot (s : Slot)
  | flag (f : Flag)
  deriving DecidableEq, Repr

/-- What is understood before the command, or after each command. -/
structure Level where
  long : List (String × Setting)
  short : List (Char × Setting)
  positions : List Slot

namespace Level

def sharedLong : List (String × Setting) :=
  [("baud-rate", .slot .baud), ("verbose", .flag .verbose), ("help", .flag .help)]

def sharedShort : List (Char × Setting) :=
  [('b', .slot .baud), ('v', .flag .verbose), ('h', .flag .help)]

def outer : Level where
  long := ("version", .flag .version) :: sharedLong
  short := ('V', .flag .version) :: sharedShort
  positions := []

def ofVerb : Verb → Level
  | .upload => ⟨("format", .slot .format) :: ("timeout", .slot .timeout) ::
      ("then-echo", .flag .thenEcho) :: sharedLong, sharedShort, [.port, .address, .image]⟩
  | .wait => ⟨("timeout", .slot .timeout) :: sharedLong, sharedShort, [.port]⟩
  | .listen => ⟨sharedLong, sharedShort, [.port]⟩
  | .swap => ⟨sharedLong, sharedShort, [.input, .output]⟩

end Level

/-- What one level has been given so far. -/
structure Given where
  baud : Option UInt32 := none
  verbosity : Option Nat := none
  timeout : Option Nat := none
  format : Option Format := none
  thenEcho : Bool := false
  port : Option String := none
  address : Option UInt32 := none
  /-- The image, or the file to read words from. -/
  source : Option String := none
  output : Option String := none

namespace Given

def fresh {α : Type} (old : Option α) (new : Except Refusal α) : Except Refusal (Option α) :=
  match old with
  | some _ => .error .givenTwice
  | none => some <$> new

/-- A baud rate: a number that fits a word. A minus sign is read too, so it may stand before
zero. -/
def readBaud (value : List Char) : Except Refusal UInt32 :=
  let (negative, digits) : Bool × List Char := match value with
    | '-' :: '+' :: _ => (true, [])
    | '-' :: digits => (true, digits)
    | _ => (false, value)
  match Text.readNumeral 10 UInt32.size digits with
  | .ok n => if negative && n != 0 then .error .unreadableValue else .ok (UInt32.ofNat n)
  | .error _ => .error .unreadableValue

/-- A path, which has to have a name. -/
def readPath (value : String) : Except Refusal String :=
  if value.isEmpty then .error .invalidValue else .ok value

/-- Sets a slot, unless it is set already or the value does not suit it. -/
def set (g : Given) (slot : Slot) (value : String) : Except Refusal Given :=
  match slot with
  | .baud => do return { g with baud := ← fresh g.baud (readBaud value.toList) }
  | .timeout => do
    let number := (Text.readNumeral 10 UInt64.size value.toList).mapError fun _ => Refusal.unreadableValue
    return { g with timeout := ← fresh g.timeout number }
  | .format => do
    let format := match Format.ofName? value with
      | some f => .ok f
      | none => .error .invalidValue
    return { g with format := ← fresh g.format format }
  | .port => do return { g with port := ← fresh g.port (.ok value) }
  | .address => do
    let number := (Text.readMarked UInt32.size value.toList).mapError fun _ => Refusal.unreadableValue
    return { g with address := ← fresh g.address (number.map UInt32.ofNat) }
  | .image | .input => do return { g with source := ← fresh g.source (readPath value) }
  | .output => do return { g with output := ← fresh g.output (readPath value) }

/-- Acts on a flag. Verbosity stops counting at 255. -/
def mark (g : Given) : Flag → Except Refusal Given
  | .verbose => .ok { g with verbosity := some (min (g.verbosity.getD 0 + 1) 255) }
  | .thenEcho => if g.thenEcho then .error .givenTwice else .ok { g with thenEcho := true }
  | .help => .error .help
  | .version => .error .version

end Given

/-- How far the arguments of one level have been read. A value is judged only when the next
argument is understood, so `pending` holds the latest slot, with its value once that has come. -/
structure Progress where
  given : Given := {}
  pending : Option (Slot × Option String) := none
  positions : List Slot

namespace Progress

/-- Judges the value that is pending. -/
def settle (p : Progress) : Except Refusal Progress :=
  match p.pending with
  | none => .ok p
  | some (_, none) => .error .invalidValue
  | some (slot, some value) => do
    return { p with given := ← p.given.set slot value, pending := none }

/-- Whether the next argument is the value of an option. -/
def awaitsValue (p : Progress) : Bool :=
  match p.pending with
  | some (_, none) => true
  | _ => false

def take (p : Progress) (slot : Slot) (attached : Option String) : Except Refusal Progress := do
  let p ← p.settle
  match attached with
  | some value => return { p with given := ← p.given.set slot value }
  | none => return { p with pending := some (slot, none) }

def mark (p : Progress) (flag : Flag) : Except Refusal Progress := do
  let p ← p.settle
  return { p with given := ← p.given.mark flag }

/-- Takes what follows two dashes: a name, and a value after an equals sign. -/
def takeLong (level : Level) (p : Progress) (name : List Char) (attached : Option String) :
    Except Refusal Progress :=
  match level.long.lookup (String.ofList name) with
  | none => .error .unknownArgument
  | some (.slot slot) => p.take slot attached
  | some (.flag flag) => if attached.isSome then .error .tooManyValues else p.mark flag

/-- Takes what follows one dash: flags, and then perhaps an option with the rest as its value. -/
def takeShort (level : Level) : Progress → List Char → Except Refusal Progress
  | p, [] => .ok p
  | p, c :: rest =>
    match level.short.lookup c with
    | none => .error .unknownArgument
    | some (.flag flag) => do takeShort level (← p.mark flag) rest
    | some (.slot slot) =>
      match rest with
      | [] => p.take slot none
      | '=' :: value => p.take slot (some (String.ofList value))
      | value => p.take slot (some (String.ofList value))

def takePosition (p : Progress) (value : String) : Except Refusal Progress :=
  match p.positions with
  | [] => .error .unknownArgument
  | slot :: later => do
    return { ← p.settle with pending := some (slot, some value), positions := later }

/-- What an argument looks like. -/
inductive Shape
  /-- Two dashes alone, after which everything stands in a place of its own. -/
  | escape
  | long (name : List Char) (attached : Option String)
  | short (letters : List Char)
  | plain

def shape (argument : String) : Shape :=
  match argument.toList with
  | ['-', '-'] => .escape
  | '-' :: '-' :: rest =>
    match rest.dropWhile (· != '=') with
    | _ :: value => .long (rest.takeWhile (· != '=')) (some (String.ofList value))
    | [] => .long rest none
  | '-' :: c :: rest => .short (c :: rest)
  | _ => .plain

/-- Takes one argument that is not known to stand in a place of its own. -/
def takeArgument (level : Level) (p : Progress) (argument : String) : Except Refusal Progress :=
  match shape argument with
  | .long name attached => p.takeLong level name attached
  | .short letters => p.takeShort level letters
  | .escape | .plain =>
    match p.pending with
    | some (slot, none) => .ok { p with pending := some (slot, some argument) }
    | _ => p.takePosition argument

end Progress

def readLevel (level : Level) : (p : Progress) → List String → Except Refusal Given
  | p, [] => do return (← p.settle).given
  | p, argument :: rest =>
    match Progress.shape argument with
    | .escape => do
      let p ← rest.foldlM Progress.takePosition p
      return (← p.settle).given
    | _ => do readLevel level (← p.takeArgument level argument) rest

def required {α : Type} (value : Option α) : Except Refusal α :=
  match value with
  | some a => .ok a
  | none => .error .missingArgument

/-- The command that what was given after its name makes. -/
def build (verb : Verb) (g : Given) : Except Refusal Command :=
  match verb with
  | .upload => do
    return .upload (← required g.port) (← required g.address) (← required g.source) g.format
      (g.timeout.getD 30) g.thenEcho
  | .wait => do return .wait (← required g.port) (g.timeout.getD 30)
  | .listen => do return .listen (← required g.port)
  | .swap => do return .swap (← required g.source) (← required g.output)

/-- Reads a command. What the command was given outdoes what came before it. -/
def readCommand (verb : Verb) (before : Progress) (arguments : List String) :
    Except Refusal Invocation := do
  let level := Level.ofVerb verb
  let after ← readLevel level ⟨{}, none, level.positions⟩ arguments
  let command ← build verb after
  let outer := (← before.settle).given
  return ⟨command, (after.baud <|> outer.baud).getD 9600,
    (after.verbosity <|> outer.verbosity).getD 0⟩

/-- Help can be had on one command, or on help itself. -/
def readHelp : List String → Refusal
  | [] => .help
  | [name] => if (Verb.ofName? name).isSome || name == "help" then .help else .unknownCommand
  | _ => .unknownCommand

/-- What is wrong when no command came. -/
def withoutCommand (p : Progress) : Refusal :=
  match p.settle with
  | .error r => r
  | .ok p => if p.given.baud.isNone && p.given.verbosity.isNone then .helpOnMissing else .missingCommand

/-- Reads everything up to the command, and then that. -/
def readOuter : (p : Progress) → List String → Except Refusal Invocation
  | p, [] => .error (withoutCommand p)
  | p, argument :: rest =>
    match p.awaitsValue, argument, Verb.ofName? argument with
    | false, "help", _ => .error (readHelp rest)
    | false, _, some verb => readCommand verb p rest
    | _, _, _ =>
      match Progress.shape argument with
      | .escape =>
        match rest with
        | [] => .error (withoutCommand p)
        | next :: _ =>
          .error (if (Verb.ofName? next).isSome || next == "help" then .unknownArgument
            else .unknownCommand)
      | .plain =>
        match p.pending with
        | some (slot, none) => readOuter { p with pending := some (slot, some argument) } rest
        | _ => .error .unknownCommand
      | _ => do readOuter (← p.takeArgument .outer argument) rest

def parse (arguments : List String) : Except Refusal Invocation :=
  readOuter ⟨{}, none, []⟩ arguments

end BoardSupport.Loader.CommandLine
