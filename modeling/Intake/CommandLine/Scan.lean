import Intake.CommandLine.Options

set_option autoImplicit false

/-!
Telling options and other words apart. A long option takes its value behind `=` or from the next
word, a short one from the rest of its word or from the next word; several short flags may share a
word. `--` ends the options.
-/

namespace Intake

/-- The options of a word of short ones, and the words behind it. `none` is a misuse. -/
def shortOptions? (specs : List OptionSpec) : Text → List Text → Option (List Given × List Text)
  | [], rest => some ([], rest)
  | c :: cs, rest => do
    let spec ← specs.find? fun s => s.short = some c
    if spec.takesValue then
      match cs, rest with
      | [], [] => none
      | [], v :: more => some ([⟨spec.long, some v⟩], more)
      | _, _ => some ([⟨spec.long, some cs⟩], rest)
    else do
      let (others, more) ← shortOptions? specs cs rest
      return (⟨spec.long, none⟩ :: others, more)

def longOption? (spec : OptionSpec) (attached : Option Text) (rest : List Text) :
    Option (List Given × List Text) :=
  match spec.takesValue, attached, rest with
  | true, some v, _ => some ([⟨spec.long, some v⟩], rest)
  | true, none, v :: more => some ([⟨spec.long, some v⟩], more)
  | true, none, [] => none
  | false, none, _ => some ([⟨spec.long, none⟩], rest)
  | false, some _, _ => none

/-- The name of a long option and the value attached to it. -/
def splitAttached (word : Text) : Text × Option Text :=
  let name := word.takeWhile (· ≠ .char '=')
  match word.drop name.length with
  | [] => (name, none)
  | _ :: v => (name, some v)

def optionWord? (specs : List OptionSpec) (word : Text) (rest : List Text) :
    Option (List Given × List Text) :=
  let (name, attached) := splitAttached word
  match specs.find? fun s => s.long = name with
  | some spec => longOption? spec attached rest
  | none => if word.take 2 = "--" then none else shortOptions? specs (word.drop 1) rest

/-- An option starts with a hyphen and does not end there. -/
def isOption (word : Text) : Bool := word.head? = some '-' && 1 < word.length

/-- Unless options may stand behind other words, the first other word ends them. -/
def scanWords (specs : List OptionSpec) (mixed : Bool) : Nat → List Text → Option Words
  | 0, _ => none
  | _, [] => some ⟨[], []⟩
  | fuel + 1, word :: rest =>
    if word = "--" then some ⟨[], rest⟩
    else if isOption word then do
      let (given, more) ← optionWord? specs word rest
      return (← scanWords specs mixed fuel more).add given
    else if mixed then (scanWords specs mixed fuel rest).map fun w =>
      { w with others := word :: w.others }
    else some ⟨[], word :: rest⟩

def Words.scan? (specs : List OptionSpec) (mixed : Bool) (args : List Text) : Option Words :=
  scanWords specs mixed (args.length + 1) args

end Intake
