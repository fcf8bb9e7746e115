import Intake.Answers.Entities
import Intake.Answers.Write
import Intake.CommandLine.Command
import Intake.CommandLine.Host
import Intake.Json.Indented
import Intake.Merge.Shown
import Intake.Predicate
import Intake.Query.Shown
import Intake.Settings.Basic

set_option autoImplicit false

/-!
Running a command in a directory of files. What a command tells its user is marked up, and a run
breaks off at a message that cannot be shown. What it has stored by then stays.
-/

namespace Intake

variable [Host]

inductive Ending where
  | done
  /-- The condition that was asked for does not hold. -/
  | unmet
  | misuse
  /-- The command has said why it cannot be carried out. -/
  | refused
  | crashed (c : Crash)
  deriving DecidableEq

def Ending.exitCode : Ending → Nat
  | .done => 0
  | .unmet => 2
  | .misuse => 2
  | .refused => 1
  | .crashed _ => 1

/-- What a command prints: a value as it is, for a reader, or in a frame under a title, or the names
of entities in a table. -/
inductive Output where
  | json (v : Json)
  | plain (v : Json)
  | panel (title : Text) (v : Json)
  | table (title : Text) (names : List Text)

namespace Output

def texts : Output → List Text
  | json v | plain v => [v.indented 0]
  | panel title v => [title, v.indented 0]
  | table title names => title :: names

/-- Values as they are hold no markup. -/
def check : Output → Except Fault Unit
  | json _ | plain _ => .ok ()
  | panel title v => Display.panel title (v.indented 0)
  | table title names => Display.table title names

end Output

/-- What is noted beside the messages of commands. The last command that was understood has decided
it, also for the next one as long as that is being read. -/
inductive Notes where
  | nothing
  | warnings
  | all
  deriving DecidableEq

/-- What a run works on, and what it has said and printed. -/
structure Shell where
  directory : Directory
  /-- Something that cannot be encoded waits to be printed, so that nothing else can be. -/
  jammed : Bool
  notes : Notes
  messages : List Text
  outputs : List Output

/-- Before the first command. -/
def Shell.start (files : List (Text × Text)) : Shell := ⟨⟨files⟩, false, .nothing, [], []⟩

/-- A part of a run: it goes on with a value or ends the run. -/
abbrev Run (α : Type) := EStateM Ending Shell α

namespace Run

def crash {α : Type} (e : Fault) : Run α := throw (.crashed (.fault e))

def orCrash {α : Type} : Except Fault α → Run α
  | .ok a => return a
  | .error e => crash e

def tell (message : Text) : Run Unit :=
  modify fun s => { s with messages := s.messages ++ [message] }

def say (message : Text) : Run Unit := do
  orCrash (Display.message message)
  tell message

def refuse {α : Type} (message : Text) : Run α := do
  say message
  throw .refused

/-- Faults of the store are reported, all others break off the run. -/
def report {α : Type} (aim : Text) : Except Fault α → Run α
  | .ok a => return a
  | .error e => if e.isReported then refuse (aim ++ e.report) else crash e

/-- The result of a change and the answers behind it. -/
def edit {α : Type} (aim : Text) (x : Edit α) (d : Answers) : Run (α × Answers) :=
  match x.run d with
  | .ok a new => return (a, new)
  | .error e _ => report aim (.error e)

/-- A file by its plain name, and its text. Where its bytes are none, a run goes on in another
way. -/
def file (missing : Text) (undecoded : Text → Run (Text × Text)) (f : FileName) :
    Run (Text × Text) := do
  match FileSystem.entry (← get).directory f with
  | .missing => refuse (missing ++ f.text)
  | .directory => throw (.crashed .isDirectory)
  | .tooLong => throw (.crashed .nameTooLong)
  | .undecodable detail => undecoded detail
  | .file name text => return (name, text)

/-- The plain name of a file and the answers in it. -/
def load (f : FileName) : Run (Text × Answers) := do
  let (name, text) ← file "File not found: " (fun s => throw (.crashed (.undecodable s))) f
  return (name, ← report [] (Answers.ofText text))

def store (name text : Text) : Run Unit :=
  modify fun s => { s with directory := s.directory.write name text }

def print (o : Output) : Run Unit := do
  if (← get).jammed then crash .unencodable
  orCrash o.check
  if o.texts.all Text.isStorable then modify fun s => { s with outputs := s.outputs ++ [o] }
  else
    modify fun s => { s with jammed := true }
    crash .unencodable

end Run

def Value.toJson : Value → Except Fault Json
  | .text s => .ok (.text s)
  | .long n => .ok (.int n)
  | .date d => .ok (.text d.isoText)
  | .currency a => a.dollarsText.map .text
  | .longs ns => .ok (.array (ns.map .int))

def entityRows (names : List Text) : Json :=
  .array (names.zipIdx.map fun r => .object [("index", .int r.2), ("entity_name", .text r.1)])

/-- How much is said, and in which form values are printed. -/
structure Manner where
  verbose : Bool
  quiet : Bool
  asJson : Bool

namespace Manner

open Run

/-- What succeeded is not said in a quiet run. -/
def confirm (m : Manner) (message : Text) : Run Unit := if m.quiet then pure () else say message

def notes (m : Manner) : Notes := if m.verbose then .all else .warnings

/-- Notes of what is done are only for verbose runs. A style that makes no sense keeps none back. -/
def note (m : Manner) (message : Text) : Run Unit :=
  if m.verbose then do
    orCrash (Display.note message)
    tell message
  else pure ()

/-- Answers that cannot be encoded leave an empty file. -/
def save (m : Manner) (f : FileName) (name : Text) (d : Answers) : Run Unit := do
  let text ← orCrash d.persisted
  if text.isStorable then
    store name text
    m.note ("Wrote " ++ f.text)
  else
    store name []
    crash .unencodable

def give (m : Manner) (v : Json) (otherwise : Output) : Run Unit :=
  print (if m.asJson then .json v else otherwise)

/-- Operands that cannot be compared are skipped, in a verbose run with a note. -/
def skipping (m : Manner) : Query.Skipping := fun c =>
  if m.verbose then
    match Display.note c.skipNote with
    | .ok () => .ok false
    | .error e => .error (.unreported e)
  else .ok false

end Manner

namespace Command

open Run

def parsePath (path : Text) : Run Path := report [] (Path.parse path)

/-- The highest index that is asked for. -/
def highest : List Int → Int
  | [] => 0
  | i :: is => is.foldl max i

def execute (m : Manner) : Command → Run Unit
  | .print file => do
    let (_, d) ← load file
    m.give d.tree (.panel file.text d.tree)
  | .read file path type => do
    let (_, d) ← load file
    let p ← parsePath path
    match ← orCrash (d.readScalar p type) with
    | none => refuse ("No " ++ type.name ++ " value at " ++ p.text)
    | some v =>
      let shown : Json := .object [("path", .text p.text), ("value", ← orCrash v.toJson)]
      m.give shown (.plain shown)
  | .put file path value type => do
    let (name, d) ← load file
    let p ← parsePath path
    let (_, new) ← edit ("Cannot write " ++ p.text ++ ": ") (Edit.putScalar p type value) d
    m.save file name new
    m.confirm ("Wrote " ++ p.text)
  | .delete file path => do
    let (name, d) ← load file
    let p ← parsePath path
    let (_, new) ← edit ("Cannot delete " ++ p.text ++ ": ") (Edit.delete p) d
    m.save file name new
    m.confirm ((if d.hasPath p then "Deleted " else "Nothing stored at ") ++ p.text)
  | .entities file path => do
    let (_, d) ← load file
    let p ← parsePath path
    let names ← orCrash (d.entityNames p)
    if names = [] ∧ !m.asJson then say "No data"
    else m.give (entityRows names) (.table path names)
  | .setEntities file path names => do
    let (name, d) ← load file
    let p ← parsePath path
    let (_, new) ← edit ("Cannot write entities at " ++ p.text ++ ": ") (Edit.putEntities p names) d
    m.save file name new
    m.confirm ("Wrote " ++ Numeral.ofInt names.length ++ " entities at " ++ p.text)
  | .deleteEntities file path indices => do
    let (name, d) ← load file
    let p ← parsePath path
    let (deleted, new) ←
      edit ("Cannot delete entities at " ++ p.text ++ ": ") (Edit.deleteEntities p indices) d
    if deleted then
      m.save file name new
      m.confirm ("Deleted " ++ Numeral.ofInt (Edit.descending indices).length ++ " entities at " ++
        p.text)
    else refuse ("No entity at index " ++ Numeral.ofInt (highest indices) ++ " of " ++ p.text)
  | .evaluate file query => do
    let (_, d) ← load file
    let q ← report [] (RootedQuery.parse query)
    let found ← report [] (Query.findWith m.skipping q.text d.tree)
    let shown : Json := .object [("query", .text query), ("result", .atom (.bool !found.isEmpty))]
    m.give shown (.plain shown)
    if found.isEmpty then throw .unmet
  | .merge target source write => do
    let (name, d) ← load target
    let (_, other) ← load source
    for t in Answers.versionNotes [d, other] do m.note t
    let (merged, conflicts) ← orCrash (Answers.ofVersions [d, other])
    if write then
      m.save target name merged
      m.confirm ("Merged " ++ source.text ++ " into " ++ target.text)
    if conflicts.hasConflicts then
      m.confirm (Numeral.ofInt conflicts.total ++ " conflicting path(s) kept from " ++ target.text)
    m.give conflicts.toJson (.panel "Merge report" conflicts.toJson)

end Command

namespace CommandLine

open Run

/-- What is noted of settings that have been read. -/
def settingsNote (notes : Notes) (f : FileName) : Option Settings → Option Text
  | none => if notes = .nothing then none else some ("Empty store config at " ++ f.text)
  | some _ => if notes = .all then some ("Loaded store config from " ++ f.text) else none

/-- Settings in a text, and the note of them if there is one. -/
def readSettings (notes : Notes) (f : FileName) (text : Text) : Except Fault (Option Text) := do
  let note := settingsNote notes f (← Settings.ofText? text)
  if let some t := note then
    Display.note t
  return note

/-- The settings named on the command line have to be readable, though no command uses them. A file
that is no text makes no settings either. -/
def checkSettings (f : FileName) : Run Unit := do
  let (_, text) ← file "Config file not found: " refuse f
  match readSettings (← get).notes f text with
  | .ok note => note.forM tell
  | .error e =>
    if e.category = .argument then
      refuse (e.message?.elim e.report fun m => m ++ " " ++ f.text ++ e.detail)
    else crash e

def mannerOf (w : Words) : Manner :=
  ⟨w.has Command.verboseSpec, w.has Command.quietSpec, w.has Command.jsonSpec⟩

def runVerb (v : Verb) (w : Words) (args : List Text) : Run Unit := do
  match (w.valueOf? Command.configSpec).bind Command.fileOf? with
  | some f => checkSettings f
  | none => pure ()
  match Command.request v args with
  | .misuse => throw .misuse
  | .help => pure ()
  | .command c => do
    let m := mannerOf w
    modify fun s => { s with notes := m.notes }
    c.execute m

/-- Options before the command are checked first, then the command's name, then the settings, and
last what follows the name. What is no command's name may still be a wish for help. -/
def runArguments (args : List Text) : Run Unit := do
  match OptionReader.words? Command.globalSpecs false args with
  | none => throw .misuse
  | some w =>
    if w.has .help then pure ()
    else if (w.valueOf? Command.configSpec).any fun s => !FileName.isName s then throw .misuse
    else match w.others with
      | [] => throw .misuse
      | name :: rest =>
        match Verb.ofName? name with
        | some v => runVerb v w rest
        | none =>
          match OptionReader.words? Command.globalSpecs false (name :: rest) with
          | some again => if again.has .help then pure () else throw .misuse
          | none => throw .misuse

/-- How a run ends, and what it leaves behind. -/
def run (s : Shell) (args : List Text) : Ending × Shell :=
  match (runArguments args).run { s with messages := [], outputs := [] } with
  | .ok () s => (.done, s)
  | .error e s => (e, s)

end CommandLine
end Intake
