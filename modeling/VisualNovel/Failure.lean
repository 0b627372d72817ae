import VisualNovel.Condition.Eval
import VisualNovel.Script.Compile
import VisualNovel.Traversal.Validity
import VisualNovel.Files.Tree
import VisualNovel.Schema.Basic

/-!
# Failures

Everything that can go wrong, by its cause. Failures of dialogue, of files and of data are told
apart, because saving and restoring recover from some of them only.
-/

namespace VisualNovel

/-- A cause of failure. -/
inductive Failure where
  /-- No script defines the node. -/
  | noNode (name : String)
  /-- A script is malformed; the path is that of its file. -/
  | script (path : Option Files.Path) (fault : Script.LocatedFault)
  /-- The file of a script cannot be read. -/
  | unreadableScript (path : Files.Path) (fault : Files.Fault)
  | value (fault : VariableFault)
  | condition (fault : ConditionFault)
  /-- A stored traversal is no traversal. -/
  | storedTraversal (problems : List Problem)
  /-- A stored traversal has no node to go on in. -/
  | nothingToResume
  | misfit (fault : Misfit)
  /-- The scripts of a stored traversal cannot be loaded. -/
  | unresumable (cause : Failure)
  | missingAsset (name : String)
  | file (fault : Files.Fault)
  | data (problems : List Problem)
  | notJson
  /-- An integer has more digits than can be read or written. They are counted when it is read. -/
  | oversizedNumber (digits : Option Nat)
  | notText
  /-- A string is no text, so it cannot be stored in a model. -/
  | notStorable (points : List Nat)
  | nothingToSave
  | notASave (fileName : String)
  | wrongChecksum
  /-- The option of a decision does not exist. -/
  | noOption (index : Int) (count : Nat)
  /-- A list has no element at an index. -/
  | noElement
  /-- An index is too wide to be one of a list or a text. -/
  | wideIndex
  /-- There is no element to remove. -/
  | nothingToRemove
  /-- A text has no character at an index. -/
  | noCharacter
  /-- A name given by the host stands for nothing. -/
  | unknownKey (key : String)
  /-- The session is in no node. -/
  | nowhere
  /-- There is no folder of save slots of which something could be asked. -/
  | noFolder (asked : String)
  /-- Something of a kind is asked for what such things do not have. -/
  | lacks (kind asked : String)
  /-- What a model derives from its members cannot be assigned. -/
  | readOnly (model name : String)
  /-- A message carries something under a name that the bus uses itself. -/
  | reservedName (name : String)
  /-- An integer is beyond the range of real numbers. -/
  | tooLarge
  /-- A failure that the host asked for. -/
  | raised (message : String)
  /-- A run did not end within the patience of its session. -/
  | endless
  deriving Repr

namespace Failure

/-- Where a malformed script is, in front of the message. -/
def scriptPlace (path : Option Files.Path) (line : Option Nat) : String :=
  match path, line with
  | none, _ => ""
  | some p, none => s!"{p}: "
  | some p, some n => s!"{p}:{n}: "

/-- What is said of something that things of a kind do not have. -/
def lacking (kind asked : String) : String := s!"'{kind}' object has no attribute '{asked}'"

/-- What is said of something asked of what is not there. -/
def absent (asked : String) : String := lacking "NoneType" asked

/-- What is said of an integer that is too long. -/
def tooManyDigits (digits : Option Nat) : String :=
  let count := match digits with
    | some n => s!": value has {n} digits"
    | none => ""
  s!"Exceeds the limit ({Number.maxDigits} digits) for integer string conversion" ++ count ++
    "; use sys.set_int_max_str_digits() to increase the limit"

/-- What is said of the first halves of surrogate pairs in a string. -/
def unstorable (points : List Nat) : String :=
  let start := (points.takeWhile fun n => !Json.isHalf n).length
  let halves := (points.drop start).takeWhile Json.isHalf
  let which := match halves with
    | [n] => s!"character '\\u{String.ofList (Text.hex 4 n)}' in position {start}"
    | _ => s!"characters in position {start}-{start + halves.length - 1}"
  "Error serializing to JSON: UnicodeEncodeError: 'utf-8' codec can't encode " ++ which ++
    ": surrogates not allowed"

/-- The message of a failure. -/
def message : Failure → String
  | noNode name => s!"Node not found: {name}"
  | script path f => scriptPlace path f.line ++ f.fault.message
  | unreadableScript path f => s!"Failed to read {path}: {f.message}"
  | value f => f.message
  | condition f => f.message
  | storedTraversal _ => "Invalid traversal state: <ValidationError>"
  | nothingToResume => "Traversal state has no node to resume"
  | misfit f => f.message
  | unresumable cause => "Cannot restore traversal state: " ++ cause.message
  | missingAsset name => name
  | file f => f.message
  | data _ => "<ValidationError>"
  | notJson => "<JSONDecodeError>"
  | oversizedNumber digits => tooManyDigits digits
  | notText => "<UnicodeDecodeError>"
  | notStorable points => unstorable points
  | nothingToSave => "No runtime or state to save"
  | notASave name => s!"Save file {name} does not hold a save object"
  | wrongChecksum => "Checksum validation failed"
  | noOption index count => s!"Decision index {index} out of range (0-{(count : Int) - 1})"
  | noElement => "list index out of range"
  | wideIndex => "cannot fit 'int' into an index-sized integer"
  | nothingToRemove => "pop from empty list"
  | noCharacter => "string index out of range"
  | unknownKey key => Text.quoted key
  | nowhere => absent "name"
  | noFolder asked => absent asked
  | lacks kind asked => lacking kind asked
  | readOnly model name => s!"property '{name}' of '{model}' object has no setter"
  | reservedName name => s!"EventBus.publish() got multiple values for argument '{name}'"
  | tooLarge => "int too large to convert to float"
  | raised message => message
  | endless => "the run does not end"

/-- Failures of scripts and of what they ask for. -/
def isDialogue : Failure → Bool
  | noNode _ | script _ _ | unreadableScript _ _ | value _ | condition _ | storedTraversal _
  | nothingToResume | misfit _ | unresumable _ | missingAsset _ => true
  | _ => false

/-- Failures to restore a stored traversal. -/
def isRestore : Failure → Bool
  | storedTraversal _ | nothingToResume | misfit _ | unresumable _ => true
  | _ => false

/-- Failures of data that has been read. -/
def isData : Failure → Bool
  | data _ | notJson | oversizedNumber _ | notText | notStorable _ | nothingToSave | notASave _
  | wrongChecksum => true
  | _ => false

/-- Failures of files. -/
def isFile : Failure → Bool
  | file _ => true
  | _ => false

end Failure

end VisualNovel
