import Intake.Fault

set_option autoImplicit false

/-!
The files that commands work on, and what names lead to. This is left to the system, which knows of
other directories and of ways around.
-/

namespace Intake

/-- Files by name. -/
structure Directory where
  files : List (Text × Text)

/-- A name of a file, without empty parts and those that lead nowhere. -/
structure FileName where
  /-- Two slashes at the start count as more than one, three do not. -/
  root : Text
  parts : List Text
  deriving DecidableEq

namespace FileName

def parse (s : Text) : FileName :=
  let slashes := (s.takeWhile (· = .char '/')).length
  ⟨if slashes = 0 then "" else if slashes = 2 then "//" else "/",
    (s.splitOn (.char '/')).filter fun part => part ≠ "" ∧ part ≠ "."⟩

def text (f : FileName) : Text :=
  if f.root = "" ∧ f.parts = [] then "." else f.root ++ List.intercalate "/" f.parts

/-- Halves of surrogate pairs from U+DC80 to U+DCFF stand for single bytes. -/
def isNameable (c : CodePoint) : Bool :=
  c ≠ '\x00' && (c.isChar || (0xDC80 ≤ c.toNat && c.toNat ≤ 0xDCFF))

/-- Whether a name can be asked for at all. -/
def isName (s : Text) : Bool := s.all isNameable

end FileName

/-- What a name leads to. -/
inductive Entry where
  | missing
  | directory
  /-- A name, or a part of one, is too long. -/
  | tooLong
  /-- A file whose bytes are no text, with what is said of them. -/
  | undecodable (detail : Text)
  | file (name text : Text)
  deriving DecidableEq

/-- Why something breaks off without a report of its own. -/
inductive Crash where
  | fault (e : Fault)
  | isDirectory
  | nameTooLong
  | undecodable (detail : Text)
  deriving DecidableEq

namespace Directory

/-- A new text for a file that is there. -/
def write (d : Directory) (name text : Text) : Directory :=
  ⟨d.files.map fun f => if f.1 = name then (name, text) else f⟩

def remove (d : Directory) (name : Text) : Directory := ⟨d.files.filter (·.1 ≠ name)⟩

/-- A file of that text, in the place of the one that may be there. -/
def put (d : Directory) (name text : Text) : Directory := ⟨(name, text) :: (d.remove name).files⟩

end Directory

class FileSystem where
  entry : Directory → FileName → Entry
  /-- A file with something in it is one of the directory's. -/
  lookup_of_entry {dir : Directory} {f : FileName} {name text : Text} :
    entry dir f = .file name text → text ≠ [] → dir.files.lookup name = some text

end Intake
