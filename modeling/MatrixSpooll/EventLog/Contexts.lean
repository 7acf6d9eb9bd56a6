import MatrixSpooll.EventLog.Normalizer
import MatrixSpooll.Library.Fold
import MatrixSpooll.Library.Interleaving

/-!
# The contexts of the event log

The skill calls and the failed turns are kept by context.  The questions are
not, but a context only ever looks up the ids that its own tool results name.
So the state falls into one part for each context as long as no tool result of
one context answers a question of another, and what a context's messages are
turned into does not depend on the messages of the others between them.

In the log an entry belongs to the context it is marked with.  All entries
carry the mark of their message but one: the entry of an interrupt echo has
none, so that the echo in a subagent lands in the main timeline.
-/

namespace MatrixSpooll.EventLog

open Library List Function Normalizer

section Contexts

variable (repr : Json → String) (captureFailures : Bool) (observe : Observe)
  (projectName sessionId : Option String)

/-- The questions that a message asks. -/
def askedIds : Json → List String
  | .dict message =>
    if (Json.get message "type").asStr? = some "assistant" then
      (assistantContent repr message).filterMap (questionId? repr)
    else []
  | _ => []

/-- The tool calls that a message has results of. -/
def answeredIds : Json → List String
  | .dict message =>
    if (Json.get message "type").asStr? = some "user" then
      (userBlocks repr message).filterMap (answeredId? repr)
    else []
  | _ => []

/-- No tool result answers a question of another context, as when the ids of
tool calls are distinct across contexts. -/
def Apart (messages : List Json) : Prop :=
  ∀ asking ∈ messages, ∀ answering ∈ messages, contextOf asking ≠ contextOf answering →
      ∀ id ∈ askedIds repr asking, id ∉ answeredIds repr answering

/-- The part of the state that belongs to a context. -/
structure Share where
  pendingSkills : List PendingSkill
  questionToolUseIds : List String
  pendingTurnFailure : Option Message

/-- `names` tells the ids that the tool results of a context name. -/
def Normalizer.share (names : Context → String → Bool) (context : Context)
    (state : Normalizer) : Share :=
  { pendingSkills := state.pendingSkills context
    questionToolUseIds := state.questionToolUseIds.filter (names context)
    pendingTurnFailure := state.pendingTurnFailures context }

/-- The message keeps to its context. -/
structure Keeps (names : Context → String → Bool) (message : Json) : Prop where
  named : ∀ id ∈ answeredIds repr message, names (contextOf message) id = true
  unnamed : ∀ id ∈ askedIds repr message, ∀ context,
    contextOf message ≠ context → names context id = false

variable {repr} {names : Context → String → Bool} {message : Message}
  {context : Context} {state state' : Normalizer}

theorem userLoop_filter {keeps : String → Bool}
    (named : ∀ id ∈ (userBlocks repr message).filterMap (answeredId? repr),
      keeps id = true) (asked : List String) (pending : List PendingSkill) :
    userLoop repr (asked.filter keeps) pending message = userLoop repr asked pending message := by
  have sameAnswers : ∀ block ∈ userBlocks repr message,
      isAnswer repr (asked.filter keeps) block = isAnswer repr asked block := by
    intro block member
    unfold isAnswer
    cases answers : answeredId? repr block with
    | none => rfl
    | some id => simp [named id (mem_filterMap.mpr ⟨block, member, answers⟩)]
  unfold userLoop
  rw [filter_congr sameAnswers]
  apply foldl_ext
  intro loop block member
  unfold userStep toolResultEntry
  rw [sameAnswers block member]

/-! ## One message -/

/-- Both states give the same entries for the message and the same share to
its context. -/
def Agree (names : Context → String → Bool) (context : Context)
    (first second : Normalizer × List Entry) : Prop :=
  first.2 = second.2 ∧
    first.1.share names context = second.1.share names context

section

variable (sameShare : state.share names (extractParent message) = state'.share
  names (extractParent message))
include sameShare

theorem normalizeResult_own : Agree names (extractParent message)
      (normalizeResult repr observe projectName sessionId state message)
      (normalizeResult repr observe projectName sessionId state' message) := by
  obtain ⟨sameSkills, sameQuestions, sameFailure⟩ := Share.mk.inj sameShare
  unfold normalizeResult
  refine ⟨?_, ?_⟩
  · show resultEntries repr observe projectName sessionId _ message = _
    rw [sameFailure]
  · unfold withTurnFailure share
    simp only [update_self, sameSkills, sameQuestions]

theorem normalizeBlocks_own (named : ∀ id ∈ (userBlocks repr message).filterMap (answeredId? repr),
      names (extractParent message) id = true) :
    Agree names (extractParent message) (normalizeBlocks repr state message)
      (normalizeBlocks repr state' message) := by
  obtain ⟨sameSkills, sameQuestions, sameFailure⟩ := Share.mk.inj sameShare
  have sameLoop : userLoop repr state.questionToolUseIds
      (state.pendingSkills (extractParent message)) message =
      userLoop repr state'.questionToolUseIds
        (state'.pendingSkills (extractParent message)) message := by
    rw [← userLoop_filter named state.questionToolUseIds, sameQuestions,
      sameSkills, userLoop_filter named]
  unfold normalizeBlocks
  rw [sameLoop]
  refine ⟨rfl, ?_⟩
  unfold share
  simp only [update_self, sameQuestions, sameFailure]

theorem normalizeMessage_own (keeps : Keeps repr names (.dict message)) :
    Agree names (extractParent message)
      (normalizeMessage repr captureFailures observe projectName sessionId state message)
      (normalizeMessage repr captureFailures observe projectName sessionId state' message) := by
  obtain ⟨sameSkills, sameQuestions, sameFailure⟩ := Share.mk.inj sameShare
  unfold normalizeMessage
  split
  · split
    · refine ⟨rfl, ?_⟩
      unfold withTurnFailure share
      simp only [update_self, sameSkills, sameQuestions]
    · refine ⟨rfl, ?_⟩
      unfold normalizeAssistant share
      simp only [update_self, filter_append, sameSkills, sameQuestions, sameFailure]
  · split
    · exact normalizeResult_own observe projectName sessionId sameShare
    · exact ⟨rfl, sameShare⟩
  · next isUser =>
      have own : answeredIds repr (.dict message) = _ := if_pos isUser
      unfold normalizeUser
      split
      · exact ⟨rfl, sameShare⟩
      split
      · exact ⟨rfl, sameShare⟩
      split
      · exact ⟨rfl, sameShare⟩
      · exact normalizeBlocks_own sameShare (own ▸ keeps.named)
  all_goals exact ⟨rfl, sameShare⟩

end

/-! ## The other contexts -/

/-- A message changes the slots of its own context and adds the questions it
asks. -/
theorem normalizeMessage_other (keeps : Keeps repr names (.dict message))
    (different : extractParent message ≠ context) :
    (normalizeMessage repr captureFailures observe projectName sessionId
      state message).1.share names context = state.share names context := by
  unfold normalizeMessage
  split
  · next isAssistant =>
      split
      · unfold withTurnFailure share
        simp only [update_of_ne different.symm]
      · have none : ((assistantContent repr message).filterMap
            (questionId? repr)).filter (names context) = [] := by
          apply filter_eq_nil_iff.mpr
          intro id asked
          have own : askedIds repr (.dict message) = _ := if_pos isAssistant
          rw [← own] at asked
          rw [keeps.unnamed id asked context different]
          decide
        unfold normalizeAssistant share
        simp only [update_of_ne different.symm, filter_append, none, nil_append]
  · split
    · unfold normalizeResult withTurnFailure share
      simp only [update_of_ne different.symm]
    · rfl
  · unfold normalizeUser
    split
    · rfl
    split
    · rfl
    split
    · rfl
    · unfold normalizeBlocks share
      simp only [update_of_ne different.symm]
  all_goals rfl

theorem normalize_sharded : Sharded (normalize repr captureFailures observe projectName sessionId)
      contextOf (share names) (Keeps repr names) := by
  constructor
  · intro state state' message keeps sameShare
    cases message with
    | dict fields =>
      exact normalizeMessage_own captureFailures observe projectName sessionId sameShare keeps
    | _ => exact ⟨rfl, sameShare⟩
  · intro state message context keeps different
    cases message with
    | dict fields =>
      exact normalizeMessage_other captureFailures observe projectName sessionId keeps different
    | _ => rfl

/-! ## The marks of the entries -/

/-- `_is_interrupt_echo` of a user message that is not a replayed copy. -/
def isInterruptMessage (repr : Json → String) : Json → Bool
  | .dict message =>
    (Json.get message "type").asStr? = some "user" &&
      !(Json.get message "_replayed_user_echo").isTrue &&
      hasNoToolResult repr message &&
      isInterruptEcho repr (userBlocks repr message)
  | _ => false

/-- A failed turn is kept under the context of its message. -/
def Filed (state : Normalizer) : Prop :=
  ∀ context failed, state.pendingTurnFailures context = some failed → extractParent failed = context

theorem Filed.fresh : Filed .fresh := by
  intro context failed isSome
  cases isSome

theorem Filed.withTurnFailure (filed : Filed state) {failed : Option Message}
    (belongs : ∀ message, failed = some message → extractParent message = context) :
    Filed (state.withTurnFailure context failed) := by
  intro other message isSome
  unfold Normalizer.withTurnFailure at isSome
  by_cases same : other = context
  · subst same
    simp only [update_self] at isSome
    exact belongs message isSome
  · simp only [update_of_ne same] at isSome
    exact filed other message isSome

theorem normalize_filed (filed : Filed state) (message : Json) :
    Filed (normalize repr captureFailures observe projectName sessionId state message).1 := by
  cases message with
  | dict fields =>
    show Filed (normalizeMessage repr captureFailures observe projectName sessionId state fields).1
    unfold normalizeMessage
    split
    · split
      · apply filed.withTurnFailure
        intro message isSome
        cases isSome
        rfl
      · exact filed
    · split
      · apply filed.withTurnFailure
        intro message isSome
        cases isSome
      · exact filed
    · unfold normalizeUser
      split
      · exact filed
      split
      · exact filed
      split <;> exact filed
    all_goals exact filed
  | _ => exact filed

theorem userLoop_marked (asked : List String) (pending : List PendingSkill) :
    ∀ entry ∈ (userLoop repr asked pending message).entries,
      entry.parentToolUseId = extractParent message := by
  apply foldl_loop (fun (_ : List Block) (loop : UserLoop) =>
    ∀ entry ∈ loop.entries, entry.parentToolUseId = extractParent message)
  · intro block rest loop marked entry member
    unfold userStep at member
    split at member
    · rcases mem_append.mp member with earlier | isNew
      · exact marked entry earlier
      · rw [mem_singleton.mp isNew]
        rfl
    · split at member
      · rcases mem_append.mp member with earlier | isNew
        · exact marked entry earlier
        · rw [mem_singleton.mp isNew]
          rfl
      · exact marked entry member
  · intro entry member
    cases member

theorem normalizeUser_marked (isUser : (Json.get message "type").asStr? = some "user")
    (noEcho : isInterruptMessage repr (.dict message) = true → extractParent message = none) :
    ∀ entry ∈ (normalizeUser repr state message).2,
      entry.parentToolUseId = extractParent message := by
  intro entry member
  unfold normalizeUser at member
  split at member
  · cases member
  next notReplayed =>
  split at member
  · next isEcho =>
      have inMain : extractParent message = none := by
        obtain ⟨noResult, echo⟩ := Bool.and_eq_true_iff.mp isEcho
        apply noEcho
        simp [isInterruptMessage, isUser, notReplayed, noResult, echo]
      rw [mem_singleton.mp member, inMain]
      rfl
  split at member
  · obtain ⟨index, bound, isEntry⟩ := mem_mapIdx.mp member
    rw [← isEntry]
  · rcases mem_append.mp member with ofLoop | ofOthers
    · exact userLoop_marked _ _ entry ofLoop
    · unfold otherEntries at ofOthers
      split at ofOthers
      · cases ofOthers
      · rw [mem_singleton.mp ofOthers]

theorem normalizeResult_marked (filed : Filed state) :
    ∀ entry ∈ (normalizeResult repr observe projectName sessionId state
      message).2, entry.parentToolUseId = extractParent message := by
  intro entry member
  unfold normalizeResult resultEntries at member
  dsimp only at member
  split at member
  · cases member
  split at member
  · rw [mem_singleton.mp member]
    unfold buildTurnFailureEntry
    cases failed : state.pendingTurnFailures (extractParent message) with
    | none => rfl
    | some assistant => exact filed _ _ failed
  · cases member

/-- Every entry but that of an echo carries the context of its message. -/
theorem normalize_marked (filed : Filed state) (message : Json)
    (noEcho : isInterruptMessage repr message = true → contextOf message = none) :
    ∀ entry ∈ (normalize repr captureFailures observe projectName sessionId
      state message).2, entry.parentToolUseId = contextOf message := by
  intro entry member
  cases message with
  | dict fields =>
    change entry ∈ (normalizeMessage repr captureFailures observe
      projectName sessionId state fields).2 at member
    show entry.parentToolUseId = extractParent fields
    unfold normalizeMessage at member
    split at member
    · split at member
      · cases member
      · rw [mem_singleton.mp member]
    · split at member
      · exact normalizeResult_marked observe projectName sessionId filed entry member
      · cases member
    · next isUser =>
        exact normalizeUser_marked isUser noEcho entry member
    · unfold normalizeSystem at member
      split at member
      · split at member
        · rw [mem_singleton.mp member]
          rfl
        · cases member
      · cases member
    · cases member
  | _ => cases member

/-! ## Whole logs -/

/-- The entries that a fresh normalizer makes of the messages. -/
def logOf (repr : Json → String) (captureFailures : Bool) (observe : Observe)
    (projectName sessionId : Option String) (messages : List Json) :
    List Entry :=
  outputs (normalize repr captureFailures observe projectName sessionId) .fresh messages

/-- The entries of a log for a context. -/
def entriesOf (context : Context) (log : List Entry) : List Entry :=
  log.filter (fun entry => entry.parentToolUseId = context)

/-- No subagent message is an interrupt echo. -/
def EchoesInMain (repr : Json → String) (messages : List Json) : Prop :=
  ∀ message ∈ messages, isInterruptMessage repr message = true → contextOf message = none

/-- The ids that the tool results of a context name in these messages. -/
def namedIn (repr : Json → String) (messages : List Json) (context : Context)
    (id : String) : Bool :=
  messages.any (fun message => contextOf message = context &&
    (answeredIds repr message).contains id)

theorem Apart.keeps {messages : List Json} (apart : Apart repr messages) :
    ∀ message ∈ messages, Keeps repr (namedIn repr messages) message := by
  intro message member
  constructor
  · intro id answered
    apply any_eq_true.mpr
    exact ⟨message, member, by simp [answered]⟩
  · intro id asked context different
    apply any_eq_false.mpr
    intro other isOther
    by_cases same : contextOf other = context
    · have unanswered := apart message member other isOther
        (fun isSame => different (isSame.trans same)) id asked
      simp [unanswered]
    · simp [same]

theorem entriesOf_logOf {messages : List Json}
    (echoes : EchoesInMain repr messages) (context : Context) :
    entriesOf context (logOf repr captureFailures observe projectName sessionId messages) =
      ((transcript (normalize repr captureFailures observe projectName
        sessionId) .fresh messages).filter
          (fun entry => contextOf entry.1 = context)).flatMap Prod.snd := by
  apply filter_flatMap_of_tag
  intro pair member
  obtain ⟨isMessage, ofMessage⟩ := mem_transcript Filed (fun message entries =>
      (isInterruptMessage repr message = true → contextOf message = none) →
      ∀ entry ∈ entries, entry.parentToolUseId = contextOf message)
    (fun _ message filed => normalize_filed captureFailures observe
      projectName sessionId filed message)
    (fun _ message filed => normalize_marked captureFailures observe
      projectName sessionId filed message) Filed.fresh member
  exact ofMessage (echoes pair.1 isMessage)

end Contexts

/-- What the log holds for a context does not depend on how the messages of
the contexts were interleaved, when no subagent message is an interrupt
echo. -/
theorem entries_interleaving_independent (repr : Json → String)
    (captureFailures : Bool) (observe : Observe)
    (projectName sessionId : Option String) (first second : List Json)
    (same : SameStreams contextOf first second) (apart : Apart repr first)
    (echoes : EchoesInMain repr first) (context : Context) :
    entriesOf context (logOf repr captureFailures observe projectName sessionId first) =
      entriesOf context (logOf repr captureFailures observe projectName sessionId second) := by
  have echoesThere : EchoesInMain repr second := by
    intro message member
    exact echoes message ((same.mem_iff message).mpr member)
  rw [entriesOf_logOf captureFailures observe projectName sessionId echoes,
    entriesOf_logOf captureFailures observe projectName sessionId echoesThere]
  -- What the messages of a context are turned into does not depend on it.
  rw [(normalize_sharded captureFailures observe projectName
    sessionId).transcript_agree same apart.keeps .fresh context]

/-! ## Two interleavings -/

def mainText : Json :=
  .dict [("type", .str "assistant"), ("uuid", .str "a-1"), ("content", .str "Working on it.")]

def mainEcho : Json :=
  .dict [("type", .str "user"), ("uuid", .str "i-0"),
    ("content", .str "[Request interrupted by user]")]

def subagentText : Json :=
  .dict [("type", .str "assistant"), ("uuid", .str "s-1"),
    ("content", .str "Looking."), ("parent_tool_use_id", .str "toolu_1")]

def subagentEcho : Json :=
  .dict [("type", .str "user"), ("uuid", .str "i-1"),
    ("content", .str "[Request interrupted by user]"), ("parent_tool_use_id", .str "toolu_1")]

/-- Two messages of different contexts may come in either order. -/
theorem sameStreams_pair {first second : Json} (different : contextOf first ≠ contextOf second) :
    SameStreams contextOf [first, second] [second, first] := by
  intro context
  by_cases isFirst : contextOf first = context
  · have notSecond : contextOf second ≠ context :=
      fun isSecond => different (isFirst.trans isSecond.symm)
    simp [isFirst, notSecond]
  · by_cases isSecond : contextOf second = context
    all_goals simp [isFirst, isSecond]

theorem apart_of_no_question {repr : Json → String} {first second : Json}
    (ofFirst : askedIds repr first = []) (ofSecond : askedIds repr second = []) :
    Apart repr [first, second] := by
  intro asking member answering _ _ id asked
  rcases mem_cons.mp member with isFirst | rest
  · rw [isFirst, ofFirst] at asked
    cases asked
  · rw [mem_singleton.mp rest, ofSecond] at asked
    cases asked

theorem subagent_text_interleaving_independent : isInterruptMessage (fun _ => "") mainEcho = true ∧
    entriesOf none (logOf (fun _ => "") true (fun _ _ _ _ => .null) none none
        [mainEcho, subagentText]) =
      entriesOf none (logOf (fun _ => "") true (fun _ _ _ _ => .null) none
        none [subagentText, mainEcho]) := by
  refine ⟨rfl, ?_⟩
  apply entries_interleaving_independent
  · exact sameStreams_pair (by decide)
  · exact apart_of_no_question rfl rfl
  · intro message member isEcho
    rcases mem_cons.mp member with isMain | rest
    · rw [isMain]
      rfl
    · rw [mem_singleton.mp rest] at isEcho
      exact absurd isEcho (by decide)

/-- The echo of a subagent stands in the main timeline, before or after the
main message as the two happen to arrive. -/
theorem subagent_echo_order_shows :
    SameStreams contextOf [mainText, subagentEcho] [subagentEcho, mainText] ∧
      Apart (fun _ => "") [mainText, subagentEcho] ∧
      entriesOf none (logOf (fun _ => "") true (fun _ _ _ _ => .null) none
          none [mainText, subagentEcho]) ≠
        entriesOf none (logOf (fun _ => "") true (fun _ _ _ _ => .null) none
          none [subagentEcho, mainText]) := by
  refine ⟨sameStreams_pair (by decide), apart_of_no_question rfl rfl, ?_⟩
  intro same
  have firstUuid : some (Stamp.given (.str "a-1")) = some (.given (.str "i-1")) :=
      congrArg (fun entries => entries.head?.map Entry.uuid) same
  injection firstUuid with sameStamp
  injection sameStamp with sameValue
  injection sameValue with sameText
  exact absurd sameText (by decide)

end MatrixSpooll.EventLog
