import MatrixSpooll.Library.Json
import MatrixSpooll.Library.Text

/-!
# The content of agent messages

Messages come with a text or a list of content blocks.  Blocks are completed
to dictionaries with a type before anything looks at them.
-/

namespace MatrixSpooll.EventLog

open Library Json

abbrev Block := List (String × Json)

section Blocks

variable (repr : Json → String)

def stringifyContent : Json → String
  | .str value => value
  | .list items => "\n".intercalate (items.map itemText)
  | .null => ""
  | value => value.text repr
where
  itemText : Json → String
    | .dict fields => (get fields "text").textOrEmpty repr
    | item => item.text repr

def inferBlockType (block : Block) : String :=
  match (get block "type").nonemptyStr? with
  | some explicit => explicit
  | none =>
    if (get block "tool_use_id").isTrue && (has block "content" || has block "is_error") then
      "tool_result"
    else if (get block "id").isTrue && (get block "name").isTrue && has block "input" then
      "tool_use"
    else if has block "thinking" then "thinking"
    else if has block "text" then "text"
    else ""

def hasType (block : Block) (name : String) : Bool :=
  (get block "type").asStr? = some name

/-- `mapping.setdefault(key, value)`. -/
def setDefault (block : Block) (key : String) (value : Json) : Block :=
  if has block key then block else put block key value

def isDict : Json → Bool
  | .dict _ => true
  | _ => false

/-- The type that a block is given if it has none. -/
def withType (block : Block) : Block :=
  let blockType := inferBlockType block
  if blockType ≠ "" then put block "type" (.str blockType)
  else setDefault block "type" (.str "text")

/-- The values that a block of its type always has. -/
def withDefaults (block : Block) : Block :=
  if hasType block "text" then setDefault block "text" (.str "")
  else if hasType block "thinking" then setDefault block "thinking" (.str "")
  else if hasType block "tool_use" then
    if isDict (get block "input") then block
    else put block "input" (.dict [])
  else if hasType block "tool_result" then
    put block "content" (.str (stringifyContent repr (getOr block "content" (.str ""))))
  else block

def normalizeBlock : Json → Block
  | .dict fields => withDefaults repr (withType fields)
  | value => [("type", .str "text"), ("text", .str (value.text repr))]

def normalizeContent : Json → List Block
  | .str value =>
    if isBlank value.toList then []
    else [[("type", .str "text"), ("text", .str value)]]
  | .list items => items.map (normalizeBlock repr)
  | _ => []

def blocksText (blocks : List Block) : String :=
  "\n".intercalate ((blocks.filter (fun block => hasType block "text")).map
    (fun block => (get block "text").textOrEmpty repr))

def isInterruptEcho : List Block → Bool
  | [block] =>
    hasType block "text" && "[Request interrupted".toList.isPrefixOf
        (strip ((get block "text").textOrEmpty repr).toList)
  | _ => false

end Blocks

/-! ## Task notifications -/

def notificationOpening : Text := "<task-notification>".toList

def notificationClosing : Text := "</task-notification>".toList

/-- The matches of `_TASK_NOTIFICATION_RE`, each from an opening to the next
closing tag.  Every match is at least as long as its tags, so the length of
the text is enough fuel. -/
def notificationTexts (fuel : Nat) (text : Text) : List Text :=
  match fuel with
  | 0 => []
  | fuel + 1 =>
    match cutAt notificationOpening text with
    | none => []
    | some (_, opened) =>
      match cutAt notificationClosing opened with
      | none => []
      | some (inside, rest) =>
        (notificationOpening ++ inside ++ notificationClosing) :: notificationTexts fuel rest

/-- `_tag`: the stripped text of the first element of this name, `none` where
the source goes on with `or None`. -/
def tag (xml : Text) (name : String) : Option String :=
  match cutAt ("<" ++ name ++ ">").toList xml with
  | none => none
  | some (_, opened) =>
    match cutAt ("</" ++ name ++ ">").toList opened with
    | none => none
    | some (inside, _) =>
      if isBlank inside then none else some (String.ofList (strip inside))

structure TaskNotification where
  taskId : Option String
  toolUseId : Option String
  status : Option String
  summary : Option String

def extractTaskNotifications (repr : Json → String) (blocks : List Block) : List TaskNotification :=
  let text := (blocksText repr blocks).toList
  (notificationTexts text.length text).map (fun xml =>
    { taskId := tag xml "task-id"
      toolUseId := tag xml "tool-use-id"
      status := tag xml "status"
      summary := tag xml "summary" })

/-! ## Skills -/

def isSkillInjectionText (text : Text) : Bool :=
  "Base directory for this skill:".toList.isPrefixOf text || "Skill content:".toList.isPrefixOf text

/-- `path.split("/")`. -/
def splitPath : Text → List Text
  | [] => [[]]
  | char :: rest =>
    match splitPath rest with
    | [] => [[char]]
    | segment :: segments =>
      if char = '/' then [] :: segment :: segments
      else (char :: segment) :: segments

def parseSkillNameFromInjection (text : Text) : Option String :=
  let firstLine := strip (text.takeWhile (fun char => char ≠ '\n'))
  let directory := "Base directory for this skill:".toList
  if directory.isPrefixOf firstLine then
    let path := (strip (firstLine.drop directory.length)).map
      (fun char => if char = '\\' then '/' else char)
    let segments := (splitPath path).filter (fun segment => !segment.isEmpty)
    let named :=
      if (segments.getLast?).any (fun last => upper last = "SKILL.MD".toList)
      then segments.dropLast else segments
    named.getLast?.map String.ofList
  else none

end MatrixSpooll.EventLog
