import ConfigSnapshot.Command.Usage

/-!
# Reading arguments

Arguments are read from left to right, and the first wrong one is reported. A slot that has been
named is open: the next argument that does not look like an option goes into it, and its value
is judged only when another option or a directory comes, or the arguments end. An argument of
its own is the directory, and after `--` every argument is one.
-/

namespace ConfigSnapshot
namespace Command

/-- What a list of arguments asks for. -/
inductive Request
  | help
  | version
  | run (options : Options)
  deriving DecidableEq, Repr

/-- A slot whose value has not been judged, or not even come. -/
structure OpenSlot where
  slot : Slot
  value? : Option String
  deriving DecidableEq, Repr

/-- What is known after some arguments. -/
structure Reading where
  options : Options
  open? : Option OpenSlot
  /-- A directory has been given. -/
  hasDirectory : Bool
  /-- There was a `--`. -/
  onlyDirectories : Bool
  deriving DecidableEq, Repr

/-- How reading goes on after an argument. -/
inductive Progress
  | more (reading : Reading)
  | enough (request : Request)
  deriving DecidableEq, Repr

namespace Options

/-- The options with a value in a slot. A slot is filled once, and no value is empty. -/
def fill (options : Options) : OpenSlot → Except UsageError Options
  | ⟨slot, none⟩ => .error (.missingValue slot)
  | ⟨.color, some value⟩ =>
      if options.color?.isSome then .error (.repeatedSlot .color)
      else if value = "" then .error (.missingValue .color)
      else
        match ColorChoice.ofString? value with
        | some choice => .ok { options with color? := some choice }
        | none => .error (.invalidValue value .color)
  | ⟨.completion, some value⟩ =>
      if options.completion?.isSome then .error (.repeatedSlot .completion)
      else if value = "" then .error (.missingValue .completion)
      else
        match Shell.ofString? value with
        | some shell => .ok { options with completion? := some shell }
        | none => .error (.invalidValue value .completion)
  | ⟨.directory, some value⟩ =>
      if value = "" then .error (.missingValue .directory)
      else .ok { options with directory? := some value }

end Options

namespace Reading

/-- Before the first argument. -/
def start : Reading :=
  ⟨.default, none, false, false⟩

/-- Judges the value of the open slot, if there is one. -/
def settle (r : Reading) : Except UsageError Reading :=
  match r.open? with
  | none => .ok r
  | some slot =>
      match r.options.fill slot with
      | .ok options => .ok { r with options := options, open? := none }
      | .error e => .error e

/-- Turns a switch on, or stops at help and version. -/
def turnOn (r : Reading) (switch : Switch) : Except UsageError Progress :=
  match r.settle with
  | .error e => .error e
  | .ok r =>
      let o := r.options
      let set (isOn : Bool) (options : Options) : Except UsageError Progress :=
        if isOn then .error (.repeatedSwitch switch)
        else .ok (.more { r with options := options })
      match switch with
      | .verbose => set o.verbose { o with verbose := true }
      | .dryRun => set o.dryRun { o with dryRun := true }
      | .manual => set o.manual { o with manual := true }
      | .markdown => set o.markdown { o with markdown := true }
      | .help => .ok (.enough .help)
      | .version => .ok (.enough .version)

/-- Names a slot. A value that comes with the name is judged at once. -/
def name (r : Reading) (slot : Slot) (value? : Option String) : Except UsageError Progress :=
  match value? with
  | none => r.settle.map fun r ↦ .more { r with open? := some ⟨slot, none⟩ }
  | some _ =>
      match r.settle with
      | .error e => .error e
      | .ok r => { r with open? := some ⟨slot, value?⟩ }.settle.map .more

/-- Reads an option by its name, with the value that an equals sign has put behind it. -/
def readLong (r : Reading) (name : String) (value? : Option String) :
    Except UsageError Progress :=
  match Switch.ofName? name, value? with
  | some switch, none => r.turnOn switch
  | some switch, some value => .error (.unexpectedValue value switch)
  | none, _ =>
      match Slot.ofName? name with
      | some slot => r.name slot value?
      | none => .error (.unexpectedArgument ("--" ++ name))

/-- Reads a group of letters, each a switch. -/
def readLetters (r : Reading) : List Char → Except UsageError Progress
  | [] => .ok (.more r)
  | letter :: letters =>
      match Switch.ofLetter? letter with
      | none => .error (.unexpectedArgument (String.ofList ['-', letter]))
      | some switch =>
          match r.turnOn switch with
          | .ok (.more r) => r.readLetters letters
          | stop => stop

/-- Reads the directory, of which there is only one. -/
def readDirectory (r : Reading) (argument : String) : Except UsageError Progress :=
  if r.hasDirectory then .error (.unexpectedArgument argument)
  else
    r.settle.map fun r ↦
      .more { r with open? := some ⟨.directory, some argument⟩, hasDirectory := true }

/-- Reads an argument that does not look like an option. -/
def readPlain (r : Reading) (argument : String) : Except UsageError Progress :=
  match r.open? with
  | some ⟨slot, none⟩ => .ok (.more { r with open? := some ⟨slot, some argument⟩ })
  | _ => r.readDirectory argument

/-- The parts of a text before and after its first equals sign. -/
def splitValue (t : List Char) : String × Option String :=
  (String.ofList (t.takeWhile (· ≠ '=')),
    match t.dropWhile (· ≠ '=') with
    | [] => none
    | _ :: value => some (String.ofList value))

/-- Reads one argument. -/
def read (r : Reading) (argument : String) : Except UsageError Progress :=
  if r.onlyDirectories then r.readDirectory argument
  else
    match argument.toList with
    | ['-', '-'] => .ok (.more { r with onlyDirectories := true })
    | '-' :: '-' :: option => r.readLong (splitValue option).1 (splitValue option).2
    | '-' :: letter :: letters => r.readLetters (letter :: letters)
    | _ => r.readPlain argument

/-- Reads to the end, where a directory must have come unless a text is asked for. -/
def readAll (r : Reading) : List String → Except UsageError Request
  | [] =>
      match r.settle with
      | .error e => .error e
      | .ok r =>
          if r.options.directory?.isNone && !r.options.asksForText then
            .error .missingDirectory
          else .ok (.run r.options)
  | argument :: arguments =>
      match r.read argument with
      | .error e => .error e
      | .ok (.enough request) => .ok request
      | .ok (.more r) => r.readAll arguments

end Reading

/-- What a list of arguments asks for. -/
def parse (arguments : List String) : Except UsageError Request :=
  Reading.start.readAll arguments

end Command
end ConfigSnapshot
