/-!
# Options

What can be asked for on the command line. A switch is on or off; a slot holds a value, which
for the directory stands alone and for the others follows the option's name.
-/

namespace ConfigSnapshot
namespace Command

/-- Options that take no value. -/
inductive Switch
  | verbose
  | dryRun
  | manual
  | markdown
  | help
  | version
  deriving DecidableEq, Repr

def Switch.all : List Switch :=
  [.verbose, .dryRun, .manual, .markdown, .help, .version]

def Switch.name : Switch → String
  | .verbose => "verbose"
  | .dryRun => "dry-run"
  | .manual => "generate-man"
  | .markdown => "generate-markdown"
  | .help => "help"
  | .version => "version"

def Switch.letter? : Switch → Option Char
  | .verbose => some 'v'
  | .dryRun => some 'n'
  | .manual => none
  | .markdown => none
  | .help => some 'h'
  | .version => some 'V'

/-- How a message names a switch. -/
def Switch.label (switch : Switch) : String :=
  "--" ++ switch.name

def Switch.ofName? (name : String) : Option Switch :=
  Switch.all.find? (·.name = name)

def Switch.ofLetter? (letter : Char) : Option Switch :=
  Switch.all.find? (·.letter? = some letter)

/-- What takes a value: two options and the directory. -/
inductive Slot
  | color
  | completion
  | directory
  deriving DecidableEq, Repr

/-- How a message names a slot. -/
def Slot.label : Slot → String
  | .color => "--color <COLOR>"
  | .completion => "--generate-completion <SHELL>"
  | .directory => "[MODULES_DIRECTORY]"

/-- The slot of an option with this name. -/
def Slot.ofName? (name : String) : Option Slot :=
  if name = "color" then some .color
  else if name = "generate-completion" then some .completion
  else none

inductive ColorChoice
  | auto
  | always
  | never
  deriving DecidableEq, Repr

def ColorChoice.ofString? (s : String) : Option ColorChoice :=
  if s = "auto" then some .auto
  else if s = "always" then some .always
  else if s = "never" then some .never
  else none

inductive Shell
  | bash
  | elvish
  | fish
  | powershell
  | zsh
  deriving DecidableEq, Repr

def Shell.ofString? (s : String) : Option Shell :=
  if s = "bash" then some .bash
  else if s = "elvish" then some .elvish
  else if s = "fish" then some .fish
  else if s = "powershell" then some .powershell
  else if s = "zsh" then some .zsh
  else none

/-- What a run is asked to do. Help and version are no part of it: they are shown as soon as
they are asked for. -/
structure Options where
  verbose : Bool
  dryRun : Bool
  manual : Bool
  markdown : Bool
  color? : Option ColorChoice
  completion? : Option Shell
  directory? : Option String
  deriving DecidableEq, Repr

namespace Options

def default : Options :=
  ⟨false, false, false, false, none, none, none⟩

/-- Whether the log is in colour. If nothing else is asked for it is on a terminal. -/
def colored (options : Options) (isTerminal : Bool) : Bool :=
  match options.color? with
  | some .always => true
  | some .never => false
  | some .auto | none => isTerminal

/-- Whether a text is asked for, so that no directory is needed. -/
def asksForText (options : Options) : Bool :=
  options.manual || options.markdown || options.completion?.isSome

end Options
end Command
end ConfigSnapshot
