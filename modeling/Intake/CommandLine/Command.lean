import Intake.CommandLine.Directory
import Intake.CommandLine.Options
import Intake.Scalar

set_option autoImplicit false

/-!
The commands that work on files of answers, and how they are written on a command line.
-/

namespace Intake

inductive Command where
  | print (file : FileName)
  | read (file : FileName) (path : Text) (type : Storage)
  | put (file : FileName) (path value : Text) (type : Storage)
  | delete (file : FileName) (path : Text)
  | entities (file : FileName) (path : Text)
  | setEntities (file : FileName) (path : Text) (names : List Text)
  | deleteEntities (file : FileName) (path : Text) (indices : List Int)
  | evaluate (file : FileName) (query : Text)
  | merge (target source : FileName) (write : Bool)
  deriving DecidableEq

/-- What is asked of a program: a command, an explanation, or nothing that makes sense. -/
inductive Request where
  | command (c : Command)
  | help
  | misuse
  deriving DecidableEq

/-- What a command does, without what it is done to. -/
inductive Verb where
  | print
  | read
  | put
  | delete
  | entities
  | setEntities
  | deleteEntities
  | evaluate
  | merge
  deriving DecidableEq

namespace Verb

def all : List Verb :=
  [print, read, put, delete, entities, setEntities, deleteEntities, evaluate, merge]

def name : Verb → Text
  | print => "show"
  | read => "read"
  | put => "put"
  | delete => "delete"
  | entities => "entities"
  | setEntities => "set-entities"
  | deleteEntities => "delete-entities"
  | evaluate => "eval"
  | merge => "merge"

def ofName? (s : Text) : Option Verb := all.find? fun v => v.name = s

end Verb

namespace Command

def verboseSpec : OptionSpec := ⟨"--verbose", some 'v', false⟩
def quietSpec : OptionSpec := ⟨"--quiet", some 'q', false⟩
def jsonSpec : OptionSpec := ⟨"--json", none, false⟩
def configSpec : OptionSpec := ⟨"--config", some 'c', true⟩
def typeSpec : OptionSpec := ⟨"--type", some 't', true⟩
def writeSpec : OptionSpec := ⟨"--write", some 'w', false⟩

def globalSpecs : List OptionSpec := [verboseSpec, quietSpec, jsonSpec, configSpec, .help]

def specsOf : Verb → List OptionSpec
  | .read | .put => [typeSpec, .help]
  | .merge => [writeSpec, .help]
  | _ => [.help]

/-- Values are texts unless another type is asked for. -/
def typeOf? (w : Words) : Option Storage :=
  match w.valueOf? typeSpec with
  | none => some .string
  | some s => Storage.ofName? s

def fileOf? (s : Text) : Option FileName :=
  if FileName.isName s then some (.parse s) else none

section Requests

variable [OptionReader]

def ofWords? (v : Verb) (w : Words) : Option Command :=
  match v, w.others with
  | .print, [file] => (fileOf? file).map .print
  | .read, [file, path] => do return .read (← fileOf? file) path (← typeOf? w)
  | .put, [file, path, value] => do return .put (← fileOf? file) path value (← typeOf? w)
  | .delete, [file, path] => do return .delete (← fileOf? file) path
  | .entities, [file, path] => do return .entities (← fileOf? file) path
  | .setEntities, file :: path :: names => do return .setEntities (← fileOf? file) path names
  | .deleteEntities, file :: path :: i :: more => do
    return .deleteEntities (← fileOf? file) path (← (i :: more).mapM OptionReader.int?)
  | .evaluate, [file, query] => do return .evaluate (← fileOf? file) query
  | .merge, [target, source] => do
    return .merge (← fileOf? target) (← fileOf? source) (w.has writeSpec)
  | _, _ => none

/-- The words behind a command's name. -/
def request (v : Verb) (args : List Text) : Request :=
  match OptionReader.words? (specsOf v) true args with
  | none => .misuse
  | some w =>
    if w.has .help then .help
    else match ofWords? v w with
      | none => .misuse
      | some c => .command c

end Requests

end Command
end Intake
