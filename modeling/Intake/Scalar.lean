import Intake.Fault

set_option autoImplicit false

/-!
The leaf names used inside question answers, and how what stands under them is stored.
-/

namespace Intake

inductive Storage where
  | string
  | long
  | date
  | currencyCents
  | listOfLongs
  deriving DecidableEq

namespace Storage

def name : Storage → Text
  | string => "string"
  | long => "long"
  | date => "date"
  | currencyCents => "currency_cents"
  | listOfLongs => "list_of_longs"

def all : List Storage := [string, long, date, currencyCents, listOfLongs]

def ofName? (s : Text) : Option Storage := all.find? fun t => t.name = s

def parse (s : Text) : Except Fault Storage :=
  match ofName? s with
  | some t => .ok t
  | none => .error (.unknownName s "ScalarType")

end Storage

/-- Names outside the table are of no scalar. -/
structure Scalar where
  name : Text
  storedAs : Storage
  deriving DecidableEq

namespace Scalar

def entityName : Scalar := ⟨"entity_name", .string⟩
def firstName : Scalar := ⟨"first_name", .string⟩
def middleName : Scalar := ⟨"middle_name", .string⟩
def lastName : Scalar := ⟨"last_name", .string⟩

def all : List Scalar :=
  [⟨"city", .string⟩, ⟨"currency_cents", .currencyCents⟩, ⟨"date", .date⟩, ⟨"email", .string⟩,
    entityName, ⟨"file_key", .string⟩, firstName, ⟨"id", .string⟩, lastName, ⟨"line2", .string⟩,
    middleName, ⟨"number", .long⟩, ⟨"selection", .string⟩, ⟨"selections", .listOfLongs⟩,
    ⟨"state", .string⟩, ⟨"street", .string⟩, ⟨"text", .string⟩, ⟨"zip", .string⟩]

def parse (s : Text) : Except Fault Scalar :=
  match all.find? fun x => x.name = s with
  | some x => .ok x
  | none => .error (.unknownName s "Scalar")

end Scalar
end Intake
