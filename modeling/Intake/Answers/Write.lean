import Intake.Answers.Edit
import Intake.CalendarDate
import Intake.Currency
import Intake.Long

set_option autoImplicit false

/-!
Typed writing of form input. Input that cannot be read is refused before anything is written, and
empty input removes what was there.
-/

namespace Intake.Edit

def putText (p : Path) (s : Text) : Edit Unit :=
  if s = "" then clear p else putAtom p (.text s)

/-- Numbers are stored as they are, texts after they have been read as a 64-bit integer. -/
def putLong (p : Path) : Atom → Edit Unit
  | .text s =>
    if s = "" then clear p
    else do putAtom p (.int (← ofExcept (Long.parse s)))
  | .int n => putAtom p (.int n)
  | a => throw (.notInteger a)

/-- Dates are stored as the milliseconds to their midnight. -/
def putDate (p : Path) (s : Text) : Edit Unit :=
  if s = "" then clear p
  else do putAtom p (.int (← ofExcept (CalendarDate.parseMillis s)))

def putCurrency (p : Path) (s : Text) : Edit Unit :=
  if s = "" then clear p
  else do putAtom p (.int (← ofExcept (Currency.parse s)).cents)

/-- Writes one number after the other into the array at a path, from an index on. -/
def putLongsFrom (p : Path) : Nat → List Atom → Edit Unit
  | _, [] => pure ()
  | i, a :: rest => do
    putLong (← ofExcept (p.atPosition i)) a
    putLongsFrom p (i + 1) rest

/-- Replaces what is stored at a path; no numbers leave no array. -/
def putLongs (p : Path) (values : List Atom) : Edit Unit := do
  clearArray (← ofExcept (p.atPosition 0))
  putLongsFrom p 0 values

/-- The items between commas, without the blanks around them; a blank text has none. -/
def listItems (raw : Text) : List Atom :=
  if Text.strip raw = [] then []
  else (raw.splitOn (.char ',')).map fun item => .text (Text.strip item)

def putScalar (p : Path) (type : Storage) (raw : Text) : Edit Unit :=
  match type with
  | .string => putText p raw
  | .long => putLong p (.text raw)
  | .date => putDate p raw
  | .currencyCents => putCurrency p raw
  | .listOfLongs => putLongs p (listItems raw)

end Intake.Edit
