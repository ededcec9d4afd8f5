import Bhasha.Run
import Bhasha.Value.Display

/-!
# The command line

The arguments name a script file, or are themselves the script after the option for inline
source.  What the command answers is a pure function of its arguments and of the contents of
the file; only reading the file and writing the answer are left to the outside.
-/

namespace Bhasha

/-- What the arguments ask for. -/
inductive Command where
  | version
  | help
  /-- Runs a script, which is given inline or as the path of a file. -/
  | script (inline : Bool) (maxCallDepth : Nat) (contents : String)
deriving DecidableEq

/-- The arguments that have been seen. -/
structure Arguments where
  inline : Bool := false
  maxCallDepth : Option Nat := none
  contents : Option String := none

namespace Arguments

/-- Sets the option for inline source, which may be given once. -/
def setInline (seen : Arguments) : Option Arguments :=
  if seen.inline then none else some { seen with inline := true }

/-- Reads a number of sixty-four bits without sign; a plus may precede it. -/
def word64? (text : String) : Option Nat :=
  let digits := match text.toList with
    | '+' :: rest => rest
    | rest => rest
  if digits ≠ [] ∧ digits.all Char.isDigit then
    let value := Decimal.ofDigits digits
    if value < Nat.pow 2 64 then some value else none
  else none

/-- Sets the depth of calls, which may be given once. -/
def setDepth (seen : Arguments) (text : String) : Option Arguments :=
  match seen.maxCallDepth, word64? text with
  | none, some depth => some { seen with maxCallDepth := some depth }
  | _, _ => none

/-- Takes the script, of which there is one. -/
def setContents (seen : Arguments) (text : String) : Option Arguments :=
  match seen.contents with
  | none => some { seen with contents := some text }
  | some _ => none

/-- The command of all arguments.  The script is required. -/
def toCommand (seen : Arguments) : Option Command :=
  seen.contents.map fun contents =>
    .script seen.inline (seen.maxCallDepth.getD ({} : Config).maxCallDepth) contents

/-- Reads a group of one-letter options.  One that asks for the version or for help decides. -/
def readLetters (seen : Arguments) : List Char → Option (Arguments ⊕ Command)
  | [] => some (.inl seen)
  | 'e' :: rest => seen.setInline.bind fun seen => seen.readLetters rest
  | 'V' :: _ => some (.inr .version)
  | 'h' :: _ => some (.inr .help)
  | _ => none

/-- Whether an argument looks like an option.  A single dash does not. -/
def isOption (argument : String) : Bool :=
  match argument.toList with
  | '-' :: _ :: _ => true
  | _ => false

/-- The value of an option that is joined to its name by an equals sign. -/
def joinedValue? (name argument : String) : Option String :=
  let lead := name.toList ++ ['=']
  if lead.isPrefixOf argument.toList then some (String.ofList (argument.toList.drop lead.length))
  else none

/-- Takes all arguments as scripts. -/
def readContents (seen : Arguments) : List String → Option Command
  | [] => seen.toCommand
  | argument :: rest => (seen.setContents argument).bind fun seen => seen.readContents rest

/-- Reads the arguments after those that have been seen. -/
def read (seen : Arguments) : List String → Option Command
  | [] => seen.toCommand
  | "--" :: rest => seen.readContents rest
  | "--eval" :: rest => seen.setInline.bind fun seen => seen.read rest
  | "--version" :: _ => some .version
  | "--help" :: _ => some .help
  | "--max-call-depth" :: value :: rest =>
      if isOption value then none
      else (seen.setDepth value).bind fun seen => seen.read rest
  | argument :: rest =>
      match joinedValue? "--max-call-depth" argument with
      | some value => (seen.setDepth value).bind fun seen => seen.read rest
      | none =>
          match argument.toList with
          | '-' :: '-' :: _ => none
          | '-' :: letter :: letters =>
              match seen.readLetters (letter :: letters) with
              | some (.inl seen) => seen.read rest
              | some (.inr command) => some command
              | none => none
          | _ => (seen.setContents argument).bind fun seen => seen.read rest

end Arguments

inductive FileContents where
  | missing
  | bytes (bytes : ByteArray)

/-- What the command answers. -/
inductive Reply where
  | success (output : String)
  /-- The script could not be read or run. -/
  | failure (message : String)
  | misuse
  | fatal
deriving DecidableEq

namespace Reply

def status : Reply → Nat
  | success _ => 0
  | failure _ => 1
  | misuse => 2
  | fatal => 101

def output : Reply → String
  | success output => output
  | _ => ""

def usage : String :=
  "Usage: sathi [-e|--eval] [--max-call-depth N] CONTENTS\n"

def errorOutput : Reply → String
  | success _ => ""
  | failure message => message ++ "\n"
  | misuse => usage
  | fatal => "A record was written under a key that shows the record itself\n"

end Reply

namespace Command

/-- The command of some arguments, if they make sense. -/
def ofArguments? (arguments : List String) : Option Command :=
  ({} : Arguments).read arguments

/-- The path of the file that a command needs. -/
def path? : Command → Option String
  | script false _ contents => some contents
  | _ => none

/-- The text of the values that a script has printed, one on a line. -/
def outputText (output : Array Value) (store : Store) : String :=
  String.join (output.toList.map fun value => value.display store ++ "\n")

/-- The answer to a script. -/
def runScript (maxCallDepth : Nat) (random : RandomSource) (source : String) : Reply :=
  match run ampleFuel { maxCallDepth := maxCallDepth } random source with
  | .finished output store => .success (outputText output store)
  | .failed error => .failure s!"Error: {error.message}"
  | .fatal => .fatal
  | .outOfFuel => .fatal

/-- The answer of a command, given what is in the file at its path. -/
def reply (random : RandomSource) (file : FileContents) : Command → Reply
  | version => .success "sathi 0.1.0\n"
  | help => .success Reply.usage
  | script true maxCallDepth contents => runScript maxCallDepth random contents
  | script false maxCallDepth _ =>
      match file with
      | .missing => .failure "Failed to read file: No such file or directory (os error 2)"
      | .bytes bytes =>
          match String.fromUTF8? bytes with
          | some source => runScript maxCallDepth random source
          | none => .failure "Failed to read file: stream did not contain valid UTF-8"

end Command

end Bhasha
