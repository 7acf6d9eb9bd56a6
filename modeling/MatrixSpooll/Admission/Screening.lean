import MatrixSpooll.Asset.Names

/-!
# Screening the entries of a script

`screen_script_entries` separates the entries that can be generated from those
that cannot, and files a ticket for each of the others.  A ticket is recorded
under a name made of the place of its entry, with stars until it is no id of
the script; other tickets are not looked at.
-/

namespace MatrixSpooll.Admission

open Library List

abbrev Fields := List (String × Json)

/-- A refused ticket; each has the code `unit_request_invalid` and the action
`fix_input`. -/
structure Ticket where
  unitId : Text
  detail : String

def diagnosticUnitId (base : Text) (taken : List Text) : Text :=
  if base ∈ taken then diagnosticUnitId (base ++ ['*']) taken else base
termination_by taken.flatten.length + 1 - base.length
decreasing_by
  have shorter := (sublist_flatten_of_mem ‹base ∈ taken›).length_le
  rw [length_append, length_singleton]
  omega

def digits (index : Nat) : Text := (toString index).toList

/-- The stripped id of an entry, or why it has none. -/
def readUnitId : Json → Except String (Fields × Text)
  | .dict fields =>
    match Json.get fields "unit_id" with
    | .null => .error "该 unit 没有可用的 unit_id"
    | .str raw =>
      if strip raw.toList = [] then .error "该 unit 没有可用的 unit_id"
      else .ok (fields, strip raw.toList)
    | other => .error ("该 unit 的 ID 不是字符串，当前为 " ++ other.typeName)
  | entry => .error ("该条目不是对象，当前为 " ++ entry.typeName)

inductive Verdict where
  | clean (fields : Fields)
  | refused (ticket : Ticket)
  | passedOver

def Verdict.clean? : Verdict → Option Fields
  | .clean fields => some fields
  | _ => none

def Verdict.ticket? : Verdict → Option Ticket
  | .refused ticket => some ticket
  | _ => none

/-- One turn of the loop, with the ids it has seen; `named` are the requested
ids. -/
def screenEntry (named : Option (List Text)) (taken seen : List Text)
    (index : Nat) (entry : Json) : Verdict × List Text :=
  match readUnitId entry with
  | .error detail =>
    if named.isSome then (.passedOver, seen)
    else (.refused ⟨diagnosticUnitId ("video_units".toList ++ '[' :: (digits index ++ [']'])) taken,
      detail⟩, seen)
  | .ok (fields, unitId) =>
    if named.any (fun ids => unitId ∉ ids) then (.clean fields, seen)
    else if unitId ∈ seen then
      (.refused ⟨diagnosticUnitId (unitId ++ '#' :: digits index) taken,
        "unit " ++ String.ofList unitId ++ " 在剧本中重复出现"⟩, seen)
    else (.clean fields, unitId :: seen)

def screenFrom (named : Option (List Text)) (taken : List Text) :
    List Text → Nat → List Json → List Verdict
  | _, _, [] => []
  | seen, index, entry :: rest =>
    let (verdict, seen) := screenEntry named taken seen index entry
    verdict :: screenFrom named taken seen (index + 1) rest

def strippedId (fields : Fields) : Option Text :=
  (Json.get fields "unit_id").asStr?.map (fun raw => strip raw.toList)

def takenIds (entries : List Json) : List Text :=
  entries.filterMap (fun entry => match entry with
    | .dict fields => strippedId fields
    | _ => none)

def screenScriptEntries (requestedIds : Option (List Text)) : Json → List Fields × List Ticket
  | .list entries =>
    let verdicts := screenFrom requestedIds (takenIds entries ++ requestedIds.getD []) [] 0 entries
    (verdicts.filterMap Verdict.clean?, verdicts.filterMap Verdict.ticket?)
  | entries => ([], [⟨"video_units".toList,
      "video_units 必须是数组，当前为 " ++ entries.typeName⟩])

/-! ## Names -/

theorem diagnosticUnitId_spec (base : Text) (taken : List Text) :
    diagnosticUnitId base taken ∉ taken ∧ ∃ stars, diagnosticUnitId base taken =
        base ++ replicate stars '*' := by
  fun_induction diagnosticUnitId base taken with
  | case1 base here induction =>
    obtain ⟨free, stars, shape⟩ := induction
    refine ⟨free, stars + 1, ?_⟩
    rw [shape, append_assoc, replicate_succ, singleton_append]
  | case2 base free => exact ⟨free, 0, by simp⟩

/-- What is read back from a name: the digits that stand before the bracket
and the stars at its end, last digit first. -/
def position (name : Text) : Text :=
  ((name.reverse.dropWhile (· == '*')).dropWhile (· == ']')).takeWhile Char.isDigit

/-- A name of this place: it is taken by no id, and stripping keeps it. -/
structure Names (taken : List Text) (index : Nat) (name : Text) : Prop where
  free : name ∉ taken
  place : position name = (digits index).reverse
  trimmed : strip name = name

theorem names_place {taken : List Text} {index : Nat} {first separator : Char}
    {before ends : Text} (starts : isSpace first = false) (between : separator.isDigit = false)
    (numbered : ends = digits index ∨ ends = digits index ++ [']']) :
    Names taken index (diagnosticUnitId (first :: before ++ separator :: ends) taken) := by
  obtain ⟨free, stars, shape⟩ := diagnosticUnitId_spec (first :: before ++ separator :: ends) taken
  obtain ⟨last, others, reversed⟩ := exists_cons_of_ne_nil
    (show (digits index).reverse ≠ [] by simp [digits])
  have isDigit : ∀ char ∈ last :: others, char.isDigit = true := by
    intro char member
    rw [← reversed] at member
    exact isDigit_of_mem_toString (mem_reverse.mp member)
  have noSpace : isSpace last = false := by
    have digit := isDigit last mem_cons_self
    simp only [Char.isDigit, Bool.and_eq_true, decide_eq_true_eq,
      UInt32.le_iff_toNat_le, ge_iff_le] at digit
    have low : 48 ≤ last.toNat := digit.1
    have high : last.toNat ≤ 57 := digit.2
    simp only [isSpace, Bool.or_eq_false_iff, Bool.and_eq_false_iff, decide_eq_false_iff_not]
    omega
  have differs {char : Char} (other : char.isDigit = false) : (last == char) = false := by
    apply beq_false_of_ne
    rintro rfl
    rw [isDigit last mem_cons_self] at other
    cases other
  have noStar := differs (show '*'.isDigit = false from rfl)
  have noBracket := differs (show ']'.isDigit = false from rfl)
  have read (rest : Text) : (last :: others ++ separator :: rest).takeWhile
      Char.isDigit = last :: others := by
    rw [takeWhile_append_of_pos isDigit]
    simp [between]
  rw [shape]
  refine ⟨shape ▸ free, ?_, ?_⟩
  · rw [position, reverse_append, reverse_replicate, dropWhile_append_of_pos (by simp)]
    rcases numbered with same | same <;> subst same
    · simpa [reversed, noStar, noBracket] using read _
    · simpa [reversed, noBracket] using read _
  · obtain ⟨middle, final, same, noSpace⟩ : ∃ middle final,
        before ++ separator :: ends ++ replicate stars '*' =
          middle ++ [final] ∧ isSpace final = false := by
      cases stars with
      | zero =>
        rcases numbered with same | same <;> subst same
        · have backwards := congrArg reverse reversed
          rw [reverse_reverse] at backwards
          exact ⟨before ++ separator :: others.reverse, last, by simp [backwards], noSpace⟩
        · exact ⟨before ++ separator :: digits index, ']', by simp, by decide⟩
      | succ stars =>
        rw [replicate_succ', ← append_assoc]
        exact ⟨_, '*', rfl, by decide⟩
    rw [cons_append, cons_append, same]
    simp [strip, starts, noSpace]

theorem screenEntry_cases (taken seen : List Text) (index : Nat) (entry : Json) :
    (∃ ticket, screenEntry none taken seen index entry =
      (.refused ticket, seen) ∧ Names taken index ticket.unitId) ∨
    ∃ fields unitId, entry = .dict fields ∧ strippedId fields = some unitId ∧
      unitId ≠ [] ∧ unitId ∉ seen ∧
      screenEntry none taken seen index entry = (.clean fields, unitId :: seen) := by
  unfold screenEntry
  cases read : readUnitId entry with
  | error detail =>
    left
    exact ⟨_, rfl, names_place (by decide) (by decide) (.inr rfl)⟩
  | ok found =>
    obtain ⟨fields, unitId⟩ := found
    obtain ⟨raw, isDict, hasId, same, nonblank⟩ : ∃ raw : String,
        entry = .dict fields ∧ Json.get fields "unit_id" = .str raw ∧
        strip raw.toList = unitId ∧ unitId ≠ [] := by
      unfold readUnitId at read
      repeat' split at read
      all_goals cases read
      next raw nonblank hasId => exact ⟨raw, rfl, hasId, rfl, nonblank⟩
    by_cases copied : unitId ∈ seen
    · left
      obtain ⟨first, before, rfl⟩ := exists_cons_of_ne_nil nonblank
      refine ⟨_, if_pos copied, names_place ?_ (by decide) (.inl rfl)⟩
      obtain ⟨rest, kept⟩ : strip raw.toList <+: raw.toList.dropWhile isSpace :=
        rdropWhile_prefix isSpace _
      have head := head?_dropWhile_not isSpace raw.toList
      rw [← kept, same] at head
      exact head
    · right
      refine ⟨fields, unitId, isDict, ?_, nonblank, copied, if_neg copied⟩
      rw [strippedId, hasId, ← same]
      rfl

/-- An entry is kept as it is or filed under a ticket. -/
def Verdict.Places (entry : Json) : Verdict → Prop
  | .clean fields => entry = .dict fields
  | .refused _ => True
  | .passedOver => False

theorem screenFrom_spec (taken : List Text) (entries : List Json) (seen : List Text) (index : Nat) :
    let verdicts := screenFrom none taken seen index entries
    let clean := verdicts.filterMap Verdict.clean?
    let tickets := verdicts.filterMap Verdict.ticket?
    Forall₂ Verdict.Places entries verdicts ∧
    (∀ fields ∈ clean, ∃ unitId, strippedId fields = some unitId ∧ unitId ≠ [] ∧ unitId ∉ seen) ∧
    (clean.map strippedId).Nodup ∧ (∀ ticket ∈ tickets, ∃ later, index ≤ later ∧
      Names taken later ticket.unitId) ∧
    (tickets.map Ticket.unitId).Nodup := by
  induction entries generalizing seen index with
  | nil => simp [screenFrom]
  | cons entry entries induction =>
    rcases screenEntry_cases taken seen index entry with
      ⟨ticket, screened, named⟩ |
      ⟨fields, unitId, isDict, hasId, nonblank, unseen, screened⟩
    · obtain ⟨placed, ids, distinct, names, apart⟩ := induction seen (index + 1)
      simp only [screenFrom, screened, filterMap_cons, Verdict.clean?,
        Verdict.ticket?, map_cons, nodup_cons, mem_cons]
      refine ⟨.cons trivial placed, ids, distinct, ?_, ?_, apart⟩
      · rintro other (rfl | member)
        · exact ⟨index, Nat.le_refl index, named⟩
        · obtain ⟨later, after, named⟩ := names other member
          exact ⟨later, Nat.le_of_lt after, named⟩
      · intro member
        obtain ⟨other, member, same⟩ := mem_map.mp member
        obtain ⟨later, after, place⟩ := names other member
        have places := place.place
        rw [same, named.place] at places
        have sameIndex := toString_nat_injective (String.toList_inj.mp (reverse_injective places))
        omega
    · obtain ⟨placed, ids, distinct, names, apart⟩ :=
        induction (unitId :: seen) (index + 1)
      simp only [screenFrom, screened, filterMap_cons, Verdict.clean?,
        Verdict.ticket?, map_cons, nodup_cons, mem_cons]
      refine ⟨.cons isDict placed, ?_, ⟨?_, distinct⟩, ?_, apart⟩
      · rintro other (rfl | member)
        · exact ⟨unitId, hasId, nonblank, unseen⟩
        · obtain ⟨id, hasId, nonblank, unseen⟩ := ids other member
          exact ⟨id, hasId, nonblank, fun old => unseen (.tail _ old)⟩
      · intro member
        obtain ⟨other, member, same⟩ := mem_map.mp member
        obtain ⟨id, otherId, _, unseen⟩ := ids other member
        rw [hasId, otherId] at same
        cases same
        exact unseen mem_cons_self
      · intro ticket member
        obtain ⟨later, after, named⟩ := names ticket member
        exact ⟨later, Nat.le_of_lt after, named⟩

/-- In missing-only mode every entry is kept or filed under a ticket; the ids
of those kept are not blank and distinct, and so are the names of the tickets,
which differ from every id of the list, stripped or not. -/
theorem script_entries_screened (entries : List Json) : ∃ verdicts clean tickets,
      screenScriptEntries none (.list entries) = (clean, tickets) ∧
      clean = verdicts.filterMap Verdict.clean? ∧
      tickets = verdicts.filterMap Verdict.ticket? ∧
      Forall₂ Verdict.Places entries verdicts ∧
      (∀ fields ∈ clean, ∃ unitId, strippedId fields = some unitId ∧ unitId ≠ []) ∧
      (clean.map strippedId).Nodup ∧ (tickets.map Ticket.unitId).Nodup ∧
      ∀ ticket ∈ tickets, ∀ fields raw, .dict fields ∈ entries →
        Json.get fields "unit_id" = .str raw →
        ticket.unitId ≠ raw.toList ∧ ticket.unitId ≠ strip raw.toList := by
  obtain ⟨placed, ids, distinct, names, apart⟩ :=
    screenFrom_spec (takenIds entries ++ []) entries [] 0
  refine ⟨_, _, _, rfl, rfl, rfl, placed, ?_, distinct, apart, ?_⟩
  · intro fields member
    obtain ⟨unitId, hasId, nonblank, _⟩ := ids fields member
    exact ⟨unitId, hasId, nonblank⟩
  · intro ticket member fields raw occurs hasId
    obtain ⟨_, _, free, _, trimmed⟩ := names ticket member
    have isTaken : strip raw.toList ∈ takenIds entries ++ [] := by
      rw [append_nil]
      refine mem_filterMap.mpr ⟨_, occurs, ?_⟩
      simp [strippedId, hasId, Json.asStr?]
    refine ⟨?_, fun same => free (same ▸ isTaken)⟩
    intro same
    rw [← same, trimmed] at isTaken
    exact free isTaken

end MatrixSpooll.Admission
