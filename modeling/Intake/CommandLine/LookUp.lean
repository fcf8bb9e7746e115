import Intake.CommandLine.Directory
import Intake.Text.Bytes

set_option autoImplicit false

/-!
Looking files up by the names that are given for them. Of other directories only those are known
that every system has, and those that files are in.
-/

namespace Intake.Directory

/-- Directories that every system has. -/
def systemDirectories : List Text :=
  List.map Text.ofString
    ["bin", "boot", "dev", "etc", "home", "lib", "lib64", "media", "mnt", "opt", "proc", "root",
      "run", "sbin", "srv", "sys", "tmp", "usr", "var"]

/-- A name that is not there, unless it is too long to ask for. -/
def absent (part : Text) : Entry := if 255 < part.byteLength then .tooLong else .missing

/-- What parts lead to from the root of the system. The null device is an empty file. -/
def fromRoot : List Text → Entry
  | [] => .directory
  | part :: rest =>
    if part = ".." then fromRoot rest
    else if !systemDirectories.contains part then absent part
    else match rest with
      | [] => .directory
      | below :: _ =>
        if part = "dev" ∧ below = "null" then
          (if rest.length = 1 then .file "/dev/null" [] else .missing)
        else absent below

/-- What parts lead to from a directory of which only the way up is known. -/
def fromAbove : List Text → Entry
  | [] => .directory
  | part :: rest => if part = ".." then fromAbove rest else absent part

/-- Whether a file is somewhere below a name. -/
def isAround (d : Directory) (f : FileName) : Bool :=
  d.files.any fun file => (f.text ++ "/").isPrefixOf file.1

/-- What a name leads to, some of which may be no texts. Nothing is below a file. -/
def lookUp (undecodable : List (Text × Text)) (d : Directory) (f : FileName) : Entry :=
  if 4096 ≤ f.text.byteLength then .tooLong
  else match undecodable.lookup f.text, d.files.lookup f.text with
    | some detail, _ => .undecodable detail
    | none, some text => .file f.text text
    | none, none =>
      if d.isAround f then .directory
      else if f.root ≠ "" then fromRoot f.parts
      else match f.parts with
        | [] => .directory
        | part :: rest =>
          if part = ".." then fromAbove rest
          else if (d.files.lookup part).isSome then .missing
          else absent part

end Intake.Directory
