import MatrixSpooll.EventLog.Content

/-!
# The normalizer of agent messages

`SdkMessageNormalizer` turns each message into the entries that the event log
takes.  It keeps state across messages: the skill calls and the failed turn of
each context, and the ids of the questions asked in any context.  A context is
the main timeline or a subagent, named by the tool call that started it.
-/

namespace MatrixSpooll.EventLog

open Library Json

abbrev Message := List (String × Json)

/-- `parent_tool_use_id`; `none` is the main timeline. -/
abbrev Context := Option String

def parentKeyVariants : List String :=
  ["parent_tool_use_id", "parentToolUseID", "parentToolUseId"]

def extractParent (message : Message) : Context :=
  parentKeyVariants.findSome? (fun key =>
    match get message key with
    | .str parent => if isBlank parent.toList then none else some parent
    | _ => none)

/-- A uuid or a timestamp: taken or derived from the message, or generated
when the entry is built.  Generated ones are told apart by their mark only. -/
inductive Stamp where
  | given (value : Json)
  | generated (mark : String)

/-- `value or f"{mark}{uuid4().hex}"` and `value or utc_now_iso()`. -/
def stampOr (value : Json) (mark : String) : Stamp :=
  if value.isTrue then .given value else .generated mark

/-- The entries by their type and subtype, without what all of them have. -/
inductive Body where
  | assistant (content : List Block) (messageId : Json)
  | turnFailure (failure : Json)
  | task (subtype : String) (taskId description summary taskStatus usage
      toolUseId : Json)
  | interrupt
  | taskNotification (notification : TaskNotification)
  | questionAnswer (toolUseId : Json) (content : String) (isError : Bool)
      (answers : Option (List (String × String)))
  | toolResult (toolUseId content : Json) (isError : Bool)
  | skillInvocation (skillName skillArgs : Option String) (toolUseId : Json)
  | user (content : List Block)

structure Entry where
  body : Body
  uuid : Stamp
  timestamp : Stamp
  parentToolUseId : Context

/-- A `Skill` call that no injected text has been matched with. -/
structure PendingSkill where
  toolUseId : Json
  name : Option String
  args : Option String

/-- The state of `SdkMessageNormalizer`.  A context without a key has an empty
queue and no failed turn. -/
structure Normalizer where
  pendingSkills : Context → List PendingSkill
  questionToolUseIds : List String
  pendingTurnFailures : Context → Option Message

def Normalizer.fresh : Normalizer :=
  { pendingSkills := fun _ => []
    questionToolUseIds := []
    pendingTurnFailures := fun _ => none }

/-- `self._pending_turn_failures[context] = message`, or the key is popped. -/
def Normalizer.withTurnFailure (state : Normalizer) (context : Context)
    (message : Option Message) : Normalizer :=
  { state with
    pendingTurnFailures :=
      Function.update state.pendingTurnFailures context message }

/-- `build_turn_failure_observation` of the assistant message, the result
message, the project and the session. -/
abbrev Observe :=
  Option Message → Message → Option String → Option String → Json

section Normalize

variable (repr : Json → String)

/-! ## Assistant messages -/

/-- The id of a question that a block asks. -/
def questionId? (block : Block) : Option String :=
  if hasType block "tool_use" && lower (strip ((get block "name").textOrEmpty repr).toList) =
        "askuserquestion".toList &&
      (get block "id").isTrue then
    some ((get block "id").text repr)
  else none

/-- What `_track_skill_tool_use` notes of a block. -/
def pendingSkill? (block : Block) : Option PendingSkill :=
  if hasType block "tool_use" && (get block "name").asStr? = some "Skill" then
    let inputData := match get block "input" with
      | .dict fields => fields
      | _ => []
    some
      { toolUseId := get block "id"
        name := ((get inputData "skill").orElse (get inputData "name")).nonemptyStr?
        args := (get inputData "args").nonemptyStr? }
  else none

def assistantContent (message : Message) : List Block :=
  normalizeContent repr (get message "content")

variable (observe : Observe) (state : Normalizer)

variable (asked : List String) (block : Block) (message : Message)

def normalizeAssistant : Normalizer × List Entry :=
  ({ state with
      questionToolUseIds :=
        (assistantContent repr message).filterMap (questionId? repr) ++ state.questionToolUseIds
      pendingSkills :=
        Function.update state.pendingSkills (extractParent message)
          (state.pendingSkills (extractParent message) ++
            (assistantContent repr message).filterMap pendingSkill?) },
    [{ body := .assistant (assistantContent repr message) (get message "message_id")
       uuid := stampOr (get message "uuid") "entry-"
       timestamp := stampOr (get message "timestamp") ""
       parentToolUseId := extractParent message }])

/-! ## Results -/

def sessionStatuses : List Text :=
  ["idle".toList, "running".toList, "completed".toList, "error".toList, "interrupted".toList]

/-- `resolve_result_status(message) == "error"`. -/
def resultIndicatesError : Bool :=
  let explicit := lower (strip ((get message "session_status").textOrEmpty repr).toList)
  if sessionStatuses.contains explicit then explicit = "error".toList
  else
    (get message "is_error").isTrue || "error".toList.isPrefixOf (lower (strip
        ((get message "subtype").textOrEmpty repr).toList))

def buildTurnFailureEntry (projectName sessionId : Option String)
    (assistant : Option Message) (result : Message) : Entry :=
  let source := assistant.getD result
  { body := .turnFailure (observe assistant result projectName sessionId)
    uuid := stampOr (get source "uuid") "failure-"
    timestamp := stampOr (get source "timestamp") ""
    parentToolUseId := extractParent source }

/-- The entries of a result that ends a turn of this failed message. -/
def resultEntries (projectName sessionId : Option String)
    (assistant : Option Message) (message : Message) : List Entry :=
  if (get message "session_status").textOrEmpty repr = "interrupted" then
    []
  else if assistant.isSome || resultIndicatesError repr message then
    [buildTurnFailureEntry observe projectName sessionId assistant message]
  else []

def normalizeResult (projectName sessionId : Option String)
    (state : Normalizer) (message : Message) : Normalizer × List Entry :=
  (state.withTurnFailure (extractParent message) none,
    resultEntries repr observe projectName sessionId
      (state.pendingTurnFailures (extractParent message)) message)

/-! ## User messages -/

/-- The id of the tool call that a block answers. -/
def answeredId? : Option String :=
  if hasType block "tool_result" && (get block "tool_use_id").isTrue then
    some ((get block "tool_use_id").text repr)
  else none

/-- A tool result for a question that was asked. -/
def isAnswer : Bool :=
  (answeredId? repr block).any (fun id => asked.contains id)

def extractStructuredAnswers : Option (List (String × String)) :=
  match get message "tool_use_result" with
  | .dict result =>
    match get result "answers" with
    | .dict answers =>
      if answers.isEmpty then none
      else some (answers.map (fun answer => (answer.1, answer.2.text repr)))
    | _ => none
  | _ => none

/-- `f"{base_uuid}{suffix}{index}" if base_uuid else …`. -/
def numberedUuid (baseUuid : Json) (suffix : String) (index : Nat) : Stamp :=
  if baseUuid.isTrue then
    .given (.str (baseUuid.text repr ++ suffix ++ toString index))
  else .generated "entry-"

/-- The variables of the loop over the blocks of a user message, with the
queue of skill calls of its context. -/
structure UserLoop where
  entries : List Entry
  others : List Block
  toolResultIndex : Nat
  skillIndex : Nat
  pending : List PendingSkill

/-- The text of a block that a skill has injected. -/
def skillText? : Option Text :=
  if hasType block "text" then
    match get block "text" with
    | .str text =>
      if isSkillInjectionText (strip text.toList) then
        some (strip text.toList)
      else none
    | _ => none
  else none

/-- `_build_skill_entry` of the head of the queue, if there is one. -/
def buildSkillEntry (text : Text) (timestamp : Stamp) (baseUuid : Json)
    (index : Nat) (parent : Context) (pending : Option PendingSkill) : Entry :=
  { body := .skillInvocation
      ((pending.bind PendingSkill.name).or (parseSkillNameFromInjection text))
      (pending.bind PendingSkill.args) ((pending.map PendingSkill.toolUseId).getD .null)
    uuid := numberedUuid repr baseUuid "-skill" index
    timestamp := timestamp
    parentToolUseId := parent }

def userTimestamp : Stamp :=
  stampOr (get message "timestamp") ""

/-- The entry of a tool result, an answer if it belongs to a question. -/
def toolResultEntry (single : Bool) (message : Message) (block : Block) (index : Nat) : Entry :=
  { body :=
      if isAnswer repr asked block then
        .questionAnswer (get block "tool_use_id")
          (stringifyContent repr (getOr block "content" (.str ""))) (get block "is_error").isTrue
          (if single then extractStructuredAnswers repr message else none)
      else
        .toolResult (get block "tool_use_id") (getOr block "content" (.str ""))
          (get block "is_error").isTrue
    uuid := numberedUuid repr (get message "uuid") "-tr" index
    timestamp := userTimestamp message
    parentToolUseId := extractParent message }

/-- One turn of the loop. -/
def userStep (single : Bool) (message : Message) (loop : UserLoop) (block : Block) : UserLoop :=
  if hasType block "tool_result" then
    { loop with
      entries := loop.entries ++ [toolResultEntry repr asked single message
        block loop.toolResultIndex]
      toolResultIndex := loop.toolResultIndex + 1 }
  else
    match skillText? block with
    | some text =>
      { loop with
        entries := loop.entries ++ [buildSkillEntry repr text
          (userTimestamp message) (get message "uuid") loop.skillIndex
          (extractParent message) loop.pending.head?]
        skillIndex := loop.skillIndex + 1
        pending := loop.pending.tail }
    | none => { loop with others := loop.others ++ [block] }

def userBlocks : List Block :=
  normalizeContent repr (get message "content")

/-- The loop over the blocks of a user message. -/
def userLoop (pending : List PendingSkill) (message : Message) : UserLoop :=
  (userBlocks repr message).foldl (userStep repr asked
      (((userBlocks repr message).filter (isAnswer repr asked)).length = 1)
      message)
    { entries := []
      others := []
      toolResultIndex := 0
      skillIndex := 0
      pending := pending }

/-- The blocks that are left over, in an entry of their own. -/
def otherEntries (others : List Block) : List Entry :=
  if others.isEmpty then []
  else
    [{ body := .user others
       uuid := stampOr (get message "uuid") "entry-"
       timestamp := userTimestamp message
       parentToolUseId := extractParent message }]

/-- One entry per notification; a number keeps their uuids apart. -/
def notificationEntries (notifications : List TaskNotification) : List Entry :=
  notifications.mapIdx (fun index notification =>
    { body := .taskNotification notification
      uuid :=
        if 1 < notifications.length && (get message "uuid").isTrue then
          numberedUuid repr (get message "uuid") "-tn" index
        else stampOr (get message "uuid") "entry-"
      timestamp := userTimestamp message
      parentToolUseId := extractParent message })

/-- `build_interrupt_entry` of an echo. -/
def buildInterruptEntry : Entry :=
  { body := .interrupt
    uuid := stampOr (get message "uuid") "interrupt-"
    timestamp := userTimestamp message
    parentToolUseId := none }

/-- No block of the message is a tool result. -/
def hasNoToolResult : Bool :=
  (userBlocks repr message).all (fun block => !hasType block "tool_result")

/-- The loop over the blocks and what it leaves. -/
def normalizeBlocks : Normalizer × List Entry :=
  let loop := userLoop repr state.questionToolUseIds
    (state.pendingSkills (extractParent message)) message
  ({ state with
      pendingSkills := Function.update state.pendingSkills (extractParent message) loop.pending },
    loop.entries ++ otherEntries message loop.others)

def normalizeUser : Normalizer × List Entry :=
  if (get message "_replayed_user_echo").isTrue then (state, [])
  else if hasNoToolResult repr message && isInterruptEcho repr (userBlocks repr message) then
    (state, [buildInterruptEntry message])
  else if hasNoToolResult repr message &&
      !(extractTaskNotifications repr (userBlocks repr message)).isEmpty then
    (state, notificationEntries repr message
      (extractTaskNotifications repr (userBlocks repr message)))
  else
    normalizeBlocks repr state message

/-! ## Any message -/

def taskSubtypes : List String :=
  ["task_started", "task_progress", "task_notification"]

def normalizeTask (subtype : String) : Entry :=
  { body := .task subtype (get message "task_id") (getOr message "description" (.str ""))
      (get message "summary") (get message "status")
      (get message "usage") (get message "tool_use_id")
    uuid := stampOr (get message "uuid") "entry-"
    timestamp := stampOr (get message "timestamp") ""
    parentToolUseId := extractParent message }

/-- `normalize` of a system message.  Where the subtype is a list or a
dictionary the test against the set raises; the callers drop the message
then, as they drop one with another subtype. -/
def normalizeSystem : List Entry :=
  match get message "subtype" with
  | .str subtype =>
    if taskSubtypes.contains subtype then [normalizeTask message subtype]
    else []
  | _ => []

/-- `error is not None`. -/
def isNull : Json → Bool
  | .null => true
  | _ => false

variable (captureFailures : Bool) (observe : Observe) (projectName sessionId : Option String)

/-- `normalize` of a dictionary. -/
def normalizeMessage (state : Normalizer) (message : Message) : Normalizer × List Entry :=
  match (get message "type").asStr? with
  | some "assistant" =>
    if captureFailures && !isNull (get message "error") then
      (state.withTurnFailure (extractParent message) (some message), [])
    else normalizeAssistant repr state message
  | some "result" =>
    if captureFailures then
      normalizeResult repr observe projectName sessionId state message
    else (state, [])
  | some "user" => normalizeUser repr state message
  | some "system" => (state, normalizeSystem message)
  | _ => (state, [])

/-- `SdkMessageNormalizer.normalize`. -/
def normalize (state : Normalizer) : Json → Normalizer × List Entry
  | .dict message =>
    normalizeMessage repr captureFailures observe projectName sessionId state message
  | _ => (state, [])

end Normalize

/-- The context that a message belongs to. -/
def contextOf : Json → Context
  | .dict message => extractParent message
  | _ => none

end MatrixSpooll.EventLog
