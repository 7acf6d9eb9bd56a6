import MatrixSpooll.Asset.Files
import MatrixSpooll.Reference.Mentions

/-!
# Rewriting the references to an asset

`rewrite_payload_references` walks over a script or a draft and replaces the
references to one asset.  It returns the payload with the number of
replacements.
-/

namespace MatrixSpooll.Asset

open Library Reference

section Rewriting

variable (runtime : Runtime) (rename : AssetRename)

def matchesName : Json → Bool
  | .str value =>
    assetNameComparisonKey runtime value = assetNameComparisonKey runtime rename.oldName &&
      value ≠ rename.newName
  | _ => false

/-- An item of a `references` list. -/
def rewriteReference : Json → Json × Nat
  | .dict item =>
    if (Json.get item "type").asStr? = some rename.assetType.spec.assetType ∧
        matchesName runtime rename (Json.get item "name") then
      (.dict (Json.put item "name" (.str rename.newName)), 1)
    else (.dict item, 0)
  | item => (item, 0)

/-- The text of an item of a `shots` or `units` list. -/
def rewriteText (field : String × Json) : Json × Nat :=
  match field with
  | ("text", .str text) =>
    let rewritten := rewriteMentions runtime text rename.oldName
      rename.newName
    (.str rewritten.1, rewritten.2)
  | (_, value) => (value, 0)

/-- What `_walk` does with the value of a key. -/
inductive Handling where
  | names
  | references
  | speaker
  | shots
  | walk

def handling (key : String) : Handling :=
  if key ∈ rename.assetType.spec.referenceListFields then .names
  else if key = "references" then .references
  else if key = "speaker" ∧ rename.assetType = .character then .speaker
  else if key = "shots" ∨ key = "units" then .shots
  else .walk

mutual

def walk : Json → Json × Nat
  | .dict fields =>
    let walked := walkFields false fields
    (.dict walked.1, walked.2)
  | .list items =>
    let walked := walkItems .walk items
    (.list walked.1, walked.2)
  | value => (value, 0)

/-- The fields of an object; in an item of a `shots` or `units` list the
text is rewritten as well. -/
def walkFields (inShot : Bool) : Fields → Fields × Nat
  | [] => ([], 0)
  | (key, value) :: rest =>
    let walked := walkField inShot key value
    let others := walkFields inShot rest
    ((key, walked.1) :: others.1, walked.2 + others.2)

def walkField (inShot : Bool) (key : String) : Json → Json × Nat
  | .list items =>
    let walked := walkItems (handling rename key) items
    (.list walked.1, walked.2)
  | .str text =>
    match handling rename key with
    | .speaker =>
      if matchesName runtime rename (.str text) then
        (.str rename.newName, 1)
      else (.str text, 0)
    | _ =>
      if inShot then rewriteText runtime rename (key, .str text)
      else (.str text, 0)
  | .dict fields =>
    let walked := walkFields false fields
    (.dict walked.1, walked.2)
  | value => (value, 0)

def walkItems (how : Handling) : List Json → List Json × Nat
  | [] => ([], 0)
  | item :: rest =>
    let walked := walkItem how item
    let others := walkItems how rest
    (walked.1 :: others.1, walked.2 + others.2)

def walkItem (how : Handling) : Json → Json × Nat
  | .dict fields =>
    match how with
    | .references => rewriteReference runtime rename (.dict fields)
    | .shots =>
      let walked := walkFields true fields
      (.dict walked.1, walked.2)
    | _ =>
      let walked := walkFields false fields
      (.dict walked.1, walked.2)
  | .list items =>
    match how with
    | .references => (.list items, 0)
    | _ =>
      let walked := walkItems .walk items
      (.list walked.1, walked.2)
  | .str text =>
    match how with
    | .names =>
      if matchesName runtime rename (.str text) then
        (.str rename.newName, 1)
      else (.str text, 0)
    | _ => (.str text, 0)
  | value => (value, 0)

end

/-- The mirror of the character table that older scripts hold. -/
def rewriteEmbedded (payload : Fields) : Fields × Nat :=
  match Json.get payload "characters" with
  | .dict embedded =>
    match rekeyEquivalentEntries runtime embedded rename.oldName
        rename.newName with
    | none => (payload, 0)
    | some (renamed, .null) => (Json.put payload "characters" (.dict renamed), 0)
    | some (renamed, entry) =>
      let rewritten := rewriteEntry runtime rename entry
      (Json.put payload "characters"
          (.dict (Json.put renamed rename.newName rewritten.1)),
        (if renamed.map Prod.fst = embedded.map Prod.fst then 0 else 1) +
          rewritten.2)
  | _ => (payload, 0)

def rewritePayloadReferences (payload : Json) : Except Raised (Json × Nat) :=
  match rename.assetType, payload with
  | .character, .dict fields =>
    let embedded := rewriteEmbedded runtime rename fields
    let walked := walk runtime rename (.dict embedded.1)
    .ok (walked.1, embedded.2 + walked.2)
  | .character, _ => .error (noAttributeGet payload)
  | _, _ => .ok (walk runtime rename payload)

end Rewriting

end MatrixSpooll.Asset
