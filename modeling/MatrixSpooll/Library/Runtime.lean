import MatrixSpooll.Library.Text

/-!
# What the runtime of the source language provides

Normalisation, the character classes and `repr` come from tables of the
runtime.  Programs rest on what is documented of them: that NFC is idempotent
and neither makes nor moves white space.
-/

namespace MatrixSpooll.Library

structure Runtime where
  /-- `unicodedata.normalize("NFC", text)`. -/
  nfc : String → String
  nfc_nfc : ∀ text, nfc (nfc text) = nfc text
  nfc_strip : ∀ text, nfc (String.ofList (strip text.toList)) =
    String.ofList (strip (nfc text).toList)
  /-- `char.isdigit()`. -/
  isDigit : Char → Bool
  /-- The value of a character that `\d` matches. -/
  decimal : Char → Option Nat
  /-- `text.casefold()`. -/
  casefold : String → String
  /-- `repr(text)`. -/
  repr : String → String

/-- The runtime, as far as ASCII texts show it. -/
def Runtime.ascii : Runtime :=
  { nfc := id
    nfc_nfc := fun _ => rfl
    nfc_strip := fun _ => rfl
    isDigit := Char.isDigit
    decimal := fun char => if char.isDigit then some (char.toNat - '0'.toNat) else none
    casefold := fun text => String.ofList (text.toList.map Char.toLower)
    repr := fun text => "'" ++ text ++ "'" }

/-- `text.replace(old, new)` for a text `old` that is not empty; `skip` runs
over what has been replaced. -/
def replaceFrom (old new : Text) : Nat → Text → Text
  | _, [] => []
  | skip + 1, _ :: rest => replaceFrom old new skip rest
  | 0, char :: rest =>
    if old.isPrefixOf (char :: rest) then
      new ++ replaceFrom old new (old.length - 1) rest
    else char :: replaceFrom old new 0 rest

def replaceText (old new text : String) : String :=
  String.ofList (replaceFrom old.toList new.toList 0 text.toList)

/-! ## Paths -/

/-- The parts of `PurePosixPath(text)` after its root. -/
def pathParts (text : String) : List String :=
  ((text.toList.splitOn '/').map String.ofList).filter (fun part => part ≠ "" ∧ part ≠ ".")

def isAbsolutePath (text : String) : Bool := text.toList.head? = some '/'

/-- `str(path)` of a relative path. -/
def pathText (parts : List String) : String := "/".intercalate parts

/-- `value.replace("\\", "/")`. -/
def slashed (text : String) : String :=
  String.ofList (text.toList.map (fun char => if char = '\\' then '/' else char))

/-- Stem and suffix of a file name. -/
def splitSuffix (name : Text) : Text × Text :=
  let extension := (name.reverse.takeWhile (· ≠ '.')).reverse
  let stem := name.take (name.length - extension.length - 1)
  if '.' ∈ name ∧ stem ≠ [] ∧ extension ≠ [] then (stem, '.' :: extension)
  else (name, [])

def fileStem (name : String) : String :=
  String.ofList (splitSuffix name.toList).1

def fileSuffix (name : String) : String :=
  String.ofList (splitSuffix name.toList).2

end MatrixSpooll.Library
