import MatrixSpooll.Asset.Names

/-!
# Mentions in written texts

`@name` and `@[name]` as `shot_parser.py` finds them, and the rewriting of the
mentions of one asset.
-/

namespace MatrixSpooll.Reference

open Library Asset

def isAsciiWordChar (char : Char) : Bool :=
  char = '_' || char.isAlphanum

def isLegacyMentionChar (char : Char) : Bool :=
  char = '_' || char.isAlphanum || (0x4e00 ≤ char.toNat && char.toNat ≤ 0x9fff)

def isLineBreak (char : Char) : Bool := char = '\r' || char = '\n'

/-- A mention, by where it starts and stops, with the name as written. -/
structure Mention where
  start : Nat
  stop : Nat
  name : Text
  deriving DecidableEq

/-- The name in `[name]` if it is not empty and is closed on its line; the
text begins after the bracket. -/
def wrappedName (text : Text) : Option Text :=
  let close := text.idxOf ']'
  if 0 < close ∧ close < text.findIdx isLineBreak then
    some (text.take close)
  else none

/-- The name after an `@` and how many characters it takes up. -/
def mentionAfter : Text → Option (Text × Nat)
  | [] => none
  | '[' :: rest => (wrappedName rest).map (fun name => (name, name.length + 2))
  | text =>
    let name := text.takeWhile isLegacyMentionChar
    if name = [] then none else some (name, name.length)

/-- The loop of `_iter_mentions` at a position; `skip` runs over a mention
that was found. -/
def mentionsFrom (position : Nat) (previous : Option Char) : Nat → Text → List Mention
  | _, [] => []
  | skip + 1, char :: rest => mentionsFrom (position + 1) (some char) skip rest
  | 0, char :: rest =>
    if char ≠ '@' ∨ previous.any isAsciiWordChar then
      mentionsFrom (position + 1) (some char) 0 rest
    else
      match mentionAfter rest with
      | none => mentionsFrom (position + 1) (some char) 0 rest
      | some (name, length) =>
        { start := position
          stop := position + 1 + length
          name := name } ::
        mentionsFrom (position + 1) (some char) length rest

def iterMentions (text : Text) : List Mention := mentionsFrom 0 none 0 text

/-- The mentions that `rewrite_mentions` replaces. -/
def mentionsToRewrite (runtime : Runtime) (text : Text)
    (oldName : String) (replacement : Text) : List Mention :=
  (iterMentions text).filter (fun mention =>
    assetNameComparisonKey runtime (String.ofList mention.name) =
        assetNameComparisonKey runtime oldName ∧
      (text.take mention.stop).drop mention.start ≠ replacement)

/-- The text from a position on with its mentions replaced. -/
def replaceMentions (text replacement : Text) (last : Nat) : List Mention → Text
  | [] => text.drop last
  | mention :: rest =>
    (text.take mention.start).drop last ++ replacement ++
      replaceMentions text replacement mention.stop rest

def rewriteMentions (runtime : Runtime) (text oldName newName : String) : String × Nat :=
  let replacement := ("@[" ++ newName ++ "]").toList
  let found := mentionsToRewrite runtime text.toList oldName replacement
  if found = [] then (text, 0)
  else (String.ofList (replaceMentions text.toList replacement 0 found), found.length)

end MatrixSpooll.Reference
