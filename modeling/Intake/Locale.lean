import Intake.Fault

set_option autoImplicit false

/-!
Language tags such as `en`, `en-US` or `zh-Hant-TW`: two or three letters, then groups of two to
eight letters or digits, each behind a hyphen. One line feed may end the tag and belongs to it.
-/

namespace Intake

namespace Locale

def isLanguage (cs : Text) : Bool :=
  2 ≤ cs.length && cs.length ≤ 3 && cs.all CodePoint.isAlpha

def isSubtag (cs : Text) : Bool :=
  2 ≤ cs.length && cs.length ≤ 8 && cs.all CodePoint.isAlphanum

def isTag (cs : Text) : Bool :=
  match cs.splitOn (.char '-') with
  | [] => false
  | language :: subtags => isLanguage language && subtags.all isSubtag

def dropLineFeed (cs : Text) : Text :=
  if cs.getLast? = some '\n' then cs.dropLast else cs

def isAccepted (s : Text) : Bool := isTag (dropLineFeed s)

end Locale

structure Locale where
  tag : Text
  accepted : Locale.isAccepted tag = true
  deriving DecidableEq

def Locale.parse (s : Text) : Except Fault Locale :=
  if h : Locale.isAccepted s = true then .ok ⟨s, h⟩ else .error (.malformedLocale s)

end Intake
