import MatrixSpooll.Session.BranchAtomicity

/-!
# A copied transcript reads like its origin

The copy keeps the entries before the anchor up to the fields that say where
they belong.  An anchor is a message that the user has written, so that where
every tool call is answered within its turn the copy ends between two turns.
-/

namespace MatrixSpooll.Session

open Library List

namespace PrefixFork

/-! ## Tool calls and their answers -/

def blocksOf (entry : Entry) : List Json :=
  match Json.get entry "message" with
  | .dict message =>
    match Json.get message "content" with
    | .list blocks => blocks
    | _ => []
  | _ => []

/-- A field of the block, if the block is of the kind. -/
def blockField (kind field : String) : Json → Option Json
  | .dict block =>
    if (Json.get block "type").asStr? = some kind then
      some (Json.get block field)
    else none
  | _ => none

def toolCalls (blocks : List Json) : List Json :=
  blocks.filterMap (blockField "tool_use" "id")

def toolAnswers (blocks : List Json) : List Json :=
  blocks.filterMap (blockField "tool_result" "tool_use_id")

def isPlainUser (entry : Entry) : Bool :=
  entryType entry = "user" && !carriesToolResult entry

/-- Every call in a message is answered in a later one. -/
def Answered : List (List Json) → Prop
  | [] => True
  | blocks :: rest =>
    (∀ call ∈ toolCalls blocks, ∃ later ∈ rest, call ∈ toolAnswers later) ∧ Answered rest

/-- Every call is answered before the next message that the user has
written. -/
def AnsweredInTurn : List Entry → Prop
  | [] => True
  | entry :: rest =>
    (∀ call ∈ toolCalls (blocksOf entry), rest.any isPlainUser = true →
      ∃ later ∈ rest.takeWhile (fun next => !isPlainUser next),
        call ∈ toolAnswers (blocksOf later)) ∧
      AnsweredInTurn rest

theorem AnsweredInTurn.before {kept rest : List Entry} {anchor : Entry}
    (inTurn : AnsweredInTurn (kept ++ anchor :: rest))
    (plain : isPlainUser anchor = true) : Answered (kept.map blocksOf) := by
  induction kept with
  | nil => trivial
  | cons entry kept induction =>
    rw [cons_append] at inTurn
    refine ⟨?_, induction inTurn.2⟩
    intro call member
    obtain ⟨later, inside, answers⟩ := inTurn.1 call member (by simp [plain])
    have early : later ∈ kept := by
      rw [takeWhile_append] at inside
      split at inside
      · simpa [plain] using inside
      · exact takeWhile_subset _ inside
    exact ⟨blocksOf later, mem_map_of_mem early, answers⟩

/-! ## The slice and its copy -/

/-- The entry without the fields. -/
def without (fields : List String) (entry : Entry) : Entry :=
  entry.filter (fun field => field.1 ∉ fields)

theorem Ignores.mono {View : Type} {view : Entry → View}
    {few many : List String} (ignores : Ignores view many)
    (subset : few ⊆ many) : Ignores view few :=
  fun entry key member => ignores entry key (subset member)

section Copy

variable {environment : Environment} {request : CopyRequest} {start : Database}

end Copy

def userEntry (uuid : String) : Entry :=
  [("type", .str "user"), ("uuid", .str uuid)]

end PrefixFork

end MatrixSpooll.Session
