import Mathlib.Data.List.Basic
import Mathlib.Data.Int.Basic

/-!
# Texts

Texts are lists of characters.  White space and slices follow the source
language: a negative index counts from the end, an index past the end is
clipped.
-/

namespace MatrixSpooll.Library

open List

abbrev Text := List Char

/-- `str.isspace` of one character, which is also what `str.strip` removes. -/
def isSpace (char : Char) : Bool :=
  let code := char.toNat
  (9 ≤ code && code ≤ 13) || (28 ≤ code && code ≤ 32) || code = 0x85 ||
    code = 0xA0 || code = 0x1680 || (0x2000 ≤ code && code ≤ 0x200A) ||
    code = 0x2028 || code = 0x2029 || code = 0x202F || code = 0x205F ||
    code = 0x3000

variable (text : Text)

def isBlank : Bool := text.all isSpace

def strip : Text :=
  ((text.dropWhile isSpace).reverse.dropWhile isSpace).reverse

/-- What stands before and after the first place where `needle` is found. -/
def cutAt (needle : Text) : Text → Option (Text × Text)
  | [] => if needle.isEmpty then some ([], []) else none
  | char :: rest =>
    if needle.isPrefixOf (char :: rest) then
      some ([], (char :: rest).drop needle.length)
    else
      (cutAt needle rest).map (fun parts => (char :: parts.1, parts.2))

/-- `text.lower()`, as far as it gives ASCII letters. -/
def lower : Text :=
  text.map (fun char => if char.toNat = 0x212A then 'k' else char.toLower)

/-- `text.upper()`, as far as it gives single ASCII letters. -/
def upper : Text :=
  text.map (fun char =>
    if char.toNat = 0x17F then 'S' else if char.toNat = 0x131 then 'I'
    else char.toUpper)

def clampIndex (length : Nat) (index : Int) : Nat :=
  if index < 0 then (length + index).toNat else index.toNat

def sliceFrom (start : Int) : Text :=
  text.drop (clampIndex text.length start)

def slice (start stop : Int) : Text :=
  (text.take (clampIndex text.length stop)).drop (clampIndex text.length start)

@[simp] theorem sliceFrom_natCast (start : Nat) : sliceFrom text start = text.drop start := by
  have nonnegative : ¬ (start : Int) < 0 := by omega
  simp [sliceFrom, clampIndex, nonnegative]

/-- `text.replace("\r\n", "\n").replace("\r", "\n")`. -/
def unifyNewlines : Text :=
  (dropReturns text).map (fun char => if char = '\r' then '\n' else char)
where
  dropReturns : Text → Text
    | [] => []
    | [char] => [char]
    | first :: second :: rest =>
      if first = '\r' ∧ second = '\n' then '\n' :: dropReturns rest
      else first :: dropReturns (second :: rest)

/-! ## Separators and numbers in names -/

theorem cut_at_first {separator : Char} {first first' rest rest' : Text}
    (free : separator ∉ first) (free' : separator ∉ first')
    (same : first ++ separator :: rest = first' ++ separator :: rest') :
    first = first' ∧ rest = rest' := by
  induction first generalizing first' with
  | nil =>
    cases first' with
    | nil =>
      cases same
      exact ⟨rfl, rfl⟩
    | cons head tail =>
      cases same
      exact absurd mem_cons_self free'
  | cons head tail induction =>
    cases first' with
    | nil =>
      cases same
      exact absurd mem_cons_self free
    | cons head' tail' =>
      obtain ⟨sameHead, sameTail⟩ := cons.inj same
      obtain ⟨equal, equalRest⟩ := induction (fun member => free (mem_cons_of_mem head member))
        (fun member => free' (mem_cons_of_mem head' member)) sameTail
      exact ⟨by rw [sameHead, equal], equalRest⟩

theorem cut_at_last {separator : Char} {first first' rest rest' : Text}
    (free : separator ∉ rest) (free' : separator ∉ rest')
    (same : first ++ separator :: rest = first' ++ separator :: rest') :
    first = first' ∧ rest = rest' := by
  have reversed := congrArg reverse same
  simp only [reverse_append, reverse_cons, append_assoc, singleton_append] at reversed
  obtain ⟨sameRest, sameFirst⟩ := cut_at_first (fun member => free (mem_reverse.mp member))
    (fun member => free' (mem_reverse.mp member)) reversed
  exact ⟨reverse_injective sameFirst, reverse_injective sameRest⟩

theorem toList_toString_nat (number : Nat) : (toString number).toList = Nat.toDigits 10 number := by
  rw [Nat.toString_eq_repr, Nat.toList_repr]

theorem toString_nat_injective : Function.Injective (toString : Nat → String) := by
  intro first second same
  have sameDigits : Nat.toDigits 10 first = Nat.toDigits 10 second := by
    rw [← toList_toString_nat, ← toList_toString_nat, same]
  have readBack := congrArg (fun digits => Nat.ofDigitChars 10 digits 0) sameDigits
  simpa only [Nat.ofDigitChars_toDigits (b := 10) (by omega) (by omega)] using readBack

theorem isDigit_of_mem_toString {number : Nat} {char : Char}
    (member : char ∈ (toString number).toList) : char.isDigit = true := by
  rw [toList_toString_nat] at member
  exact Nat.isDigit_of_mem_toDigits (by omega) (by omega) member

theorem underscore_notMem_toString (number : Int) : '_' ∉ (toString number).toList := by
  have digits : ∀ natural : Nat, '_' ∉ (toString natural).toList := by
    intro natural member
    have isDigit := isDigit_of_mem_toString member
    revert isDigit
    decide
  cases number with
  | ofNat natural => exact digits natural
  | negSucc natural =>
    intro member
    have text : toString (Int.negSucc natural) = "-" ++ toString (natural + 1) := rfl
    rw [text, String.toList_append] at member
    rcases mem_append.mp member with sign | digit
    · revert sign
      decide
    · exact digits (natural + 1) digit

end MatrixSpooll.Library
