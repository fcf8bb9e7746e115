import Intake.CommandLine.Run
import Intake.Terminal

set_option autoImplicit false

/-!
The command line over the files that it names.
-/

namespace Intake.CommandLine

/-- What is said of an ending beside the messages of the run. -/
def describe : Ending → Option Text
  | .done | .unmet | .refused => none
  | .misuse => some "Usage: intake [--json] [--config FILE] COMMAND FILE ..."
  | .crashed (.fault e) => some e.report
  | .crashed .isDirectory => some "The name is of a directory"
  | .crashed .nameTooLong => some "The name is too long"
  | .crashed (.undecodable detail) => some detail

/-- The words that may be names of files. -/
def names (args : List Text) : List Text :=
  args ++ ((OptionReader.words? Command.globalSpecs false args).bind
    (·.valueOf? Command.configSpec)).toList

/-- The files that arguments name, and those of them that are no texts. -/
def namedFiles (args : List Text) : IO (List (Text × Text) × List (Text × Text)) := do
  let mut files := []
  let mut undecodable := []
  for arg in names args do
    let name := (FileName.parse arg).text
    try
      match String.fromUTF8? (← IO.FS.readBinFile name.toString) with
      | some s => files := files ++ [(name, Text.ofString s)]
      | none => undecodable := undecodable ++ [(name, Text.ofString "The file is no text in UTF-8")]
    catch _ => pure ()
  return (files, undecodable)

end Intake.CommandLine

open Intake CommandLine in
def main (args : List String) : IO UInt32 := do
  let words := args.map Text.ofString
  let (before, undecodable) ← namedFiles words
  let _host := terminal undecodable
  let (ending, shell) := run (.start before) words
  for (name, text) in shell.directory.files do
    if before.lookup name ≠ some text then IO.FS.writeFile name.toString text.toString
  for o in shell.outputs do
    for t in o.texts do IO.println t.toString
  for message in shell.messages ++ (describe ending).toList do IO.eprintln message.toString
  return UInt32.ofNat ending.exitCode
