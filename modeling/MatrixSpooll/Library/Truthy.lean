/-!
# Truth values of optional texts

`first or second` and `if value` of the source language: the empty text counts
as absent.
-/

namespace MatrixSpooll.Library

def truthyOr (first : Option String) (second : String) : String :=
  match first with
  | some text => if text = "" then second else text
  | none => second

def isTruthy (value : Option String) : Bool :=
  match value with
  | some text => text ≠ ""
  | none => false

end MatrixSpooll.Library
