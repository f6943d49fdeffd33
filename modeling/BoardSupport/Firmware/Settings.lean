import BoardSupport.Firmware.Bootloader
import BoardSupport.Loader.Host
import BoardSupport.Text.Numeral
import BoardSupport.Text.Utf8

/-! What firmware is built for, as the environment of the build tells it. -/
namespace BoardSupport.Firmware.Settings

open Loader (Host IoError Path)
open Bootloader (Configuration)

/-- Variables with their values, which need not be text. -/
abbrev Environment := List (String × List UInt8)

/-- A way to read numbers. -/
abbrev Reader := String → Except Text.NumeralError UInt32

/-- The clock that a rate has to be made from. It has to be that of the system. -/
def referenceClock : UInt32 := 50000000

/-- Why a build was given up. -/
inductive Failure
  /-- A variable that has to be there is not. -/
  | missing
  /-- The value of a variable is no text. -/
  | notText (value : List UInt8)
  /-- A variable came by whose value is no text. -/
  | strayValue (value : List UInt8)
  /-- The value of a variable is no number. -/
  | badNumber (name text : String) (cause : Text.NumeralError)
  /-- The reference clock cannot make the rate. -/
  | unreachableBaud (baud : UInt32)
  | emptyWindow (window : Boot.Window)
  | file (cause : IoError)
  /-- What was to be copied is no file. -/
  | copyOfNoFile
  /-- More than one board was chosen. -/
  | severalBoards (first second : String)
  | noBoard
  deriving DecidableEq, Repr

/-- The diagnostic text of a failure of the file system. -/
def ioText : IoError → String
  | .system e => "Os \x7b code: " ++ toString e.number ++ ", kind: " ++ e.kind ++
      ", message: \"" ++ e.text ++ "\" \x7d"
  | .nulInPath => "Error \x7b kind: InvalidInput, message: \"" ++ IoError.nulInPath.message ++
      "\" \x7d"
  | e => e.message

/-- What is said of a value that was not there, or not as it had to be. -/
def unexpected (text : String) : String := "called `Result::unwrap()` on an `Err` value: " ++ text

/-- The feature that a variable stands for. -/
def featureName (suffix : String) : String :=
  "target-board-" ++ suffix.map fun c => if c = '_' then '-' else c.toLower

def Failure.message : Failure → String
  | .missing => "called `Option::unwrap()` on a `None` value"
  | .notText value => "Err(NotUnicode(" ++ Text.Utf8.quoted value ++ "))"
  | .strayValue value => unexpected (Text.Utf8.quoted value)
  | .badNumber name text cause =>
    "can't parse " ++ name ++ "=" ++ Text.quoted text.toList ++ ": " ++ cause.message
  | .unreachableBaud baud =>
    "baud rate " ++ toString baud.toNat ++ " can't be reached from a " ++
      toString referenceClock.toNat ++ " Hz clock"
  | .emptyWindow window => "load window " ++ Text.hexMarked window.first.toNat ++ "..=" ++
      Text.hexMarked window.last.toNat ++ " is empty"
  | .file cause => unexpected (ioText cause)
  | .copyOfNoFile => unexpected ("Error \x7b kind: InvalidInput, message: " ++
      "\"the source path is neither a regular file nor a symlink to a regular file\" \x7d")
  | .severalBoards first second =>
    "multiple target board features defined (at least " ++ featureName first ++ " and " ++
      featureName second ++ ")"
  | .noBoard => "missing target-board-* feature"

/-- A step of a build, which may be given up. -/
abbrev Build := ExceptT Failure (Program Host)

def say (line : String) : Build Unit := ExceptT.lift (Host.say line)

def give {α : Type} (value : Except Failure α) : Build α := ExceptT.mk (pure value)

def demand (environment : Environment) (name : String) : Build (List UInt8) :=
  match environment.lookup name with
  | some value => return value
  | none => throw .missing

/-- A number from the environment, or a default with a note if there is none. -/
def number (read : Reader) (environment : Environment) (name what : String) (default : UInt32) :
    Build UInt32 := do
  say ("cargo:rerun-if-env-changed=" ++ name)
  match environment.lookup name with
  | none =>
    say ("cargo:warning=note: " ++ what ++ " not provided, defaulting to " ++
      Text.hexMarked default.toNat)
    return default
  | some value =>
    match Text.Utf8.read? value with
    | none => throw (.notText value)
    | some text =>
      match read text with
      | .ok n => return n
      | .error e => throw (.badNumber name text e)

/-- A bootloader can be built for a rate that the clock can make and a window that is not empty. -/
def check (c : Configuration) : Except Failure Configuration :=
  if c.baud = 0 ∨ referenceClock / c.baud = 0 then .error (.unreachableBaud c.baud)
  else if c.window.last < c.window.first then .error (.emptyWindow c.window)
  else .ok c

def inDirectory (directory : Path) (file : String) : Path :=
  if directory.isEmpty ∨ directory.getLast? = some 0x2F then directory ++ Text.bytes file
  else directory ++ Text.bytes ("/" ++ file)

/-- The declaration of a constant as a line of source text. -/
def declaration (name value : String) : String := "pub const " ++ name ++ ": u32 = " ++ value ++ ";\n"

/-- The source text that carries a configuration. -/
def configurationText (c : Configuration) : String :=
  declaration "UART_ADDR" (Text.hexMarked c.uart.toNat) ++
  declaration "BAUD" (toString c.baud.toNat) ++
  declaration "LOAD_START" (Text.hexMarked c.window.first.toNat) ++
  declaration "LOAD_END" (Text.hexMarked c.window.last.toNat)

def writeFile (path : Path) (bytes : List UInt8) : Build Unit := do
  match ← ExceptT.lift (Host.writeFile path bytes) with
  | .ok () => return ()
  | .error e => throw (.file e)

/-- Prepares the build of the bootloader, with numbers read in a given way. -/
def bootloaderWith (read : Reader) (environment : Environment) : Build Unit := do
  let here ← demand environment "CARGO_MANIFEST_DIR"
  say ("cargo:rustc-link-search=" ++ Text.Utf8.readLossy here)
  say "cargo:rustc-link-arg-bins=-Ttinyboot.x"
  say "cargo:rerun-if-changed=tinyboot.x"
  let uart ← number read environment "TINYBOOT_UART_ADDR" "UART address" 0x20000000
  let baud ← number read environment "TINYBOOT_BAUD" "baud rate" 9600
  let first ← number read environment "TINYBOOT_LOAD_START" "load window start" 0
  let last ← number read environment "TINYBOOT_LOAD_END" "load window end" 0xEFFF
  let configuration ← give (check ⟨uart, baud, ⟨first, last⟩⟩)
  let out ← demand environment "OUT_DIR"
  writeFile (inDirectory out "config.rs") (Text.bytes (configurationText configuration))

/-- Numbers that may say their base. -/
def readMarked : Reader := fun text => (Text.readMarked UInt32.size text.toList).map UInt32.ofNat

/-- Prepares the build of the bootloader. -/
def bootloader (environment : Environment) : Build Unit := bootloaderWith readMarked environment

/-- What comes before the name of a board in a variable that chooses it. -/
def boardMark : String := "CARGO_FEATURE_TARGET_BOARD_"

/-- The board that variables choose, after `chosen` if one has been. -/
def chooseBoard (chosen : Option String) : Environment → Except Failure String
  | [] =>
    match chosen with
    | some board => .ok board
    | none => .error .noBoard
  | (name, value) :: rest =>
    if (Text.Utf8.read? value).isNone then .error (.strayValue value)
    else if name.startsWith boardMark then
      let board := (name.drop boardMark.length).toString
      match chosen with
      | some first => .error (.severalBoards first board)
      | none => chooseBoard (some board) rest
    else chooseBoard chosen rest

/-- Copies a file. The copy is emptied first, so a file copied onto itself is lost. -/
def copyFile (source target : Path) : Build Unit := do
  match ← ExceptT.lift (Host.readFile source) with
  | .error (.system .isDirectory) => throw .copyOfNoFile
  | .error e => throw (.file e)
  | .ok _ =>
    writeFile target []
    match ← ExceptT.lift (Host.readFile source) with
    | .error e => throw (.file e)
    | .ok bytes => writeFile target bytes

/-- Prepares the build of the other programs, for the one board that is chosen. Variables are
looked through in the order of their names. -/
def programs (environment : Environment) : Build Unit := do
  let _ ← give (chooseBoard none (environment.mergeSort fun a b => a.1 ≤ b.1))
  let out ← demand environment "OUT_DIR"
  copyFile (Text.bytes "memory.x") (inDirectory out "memory.x")
  say ("cargo:rustc-link-search=" ++ Text.Utf8.readLossy out)
  say "cargo:rustc-link-arg-bins=-Tmemory.x"
  say "cargo:rustc-link-arg-bins=-Tlink.x"
  say "cargo:rerun-if-changed=memory.x"

end BoardSupport.Firmware.Settings
