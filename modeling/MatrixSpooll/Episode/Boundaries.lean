import MatrixSpooll.Episode.Planner

/-!
# What accepted boundaries are

An accepted answer cuts the window at strictly rising places inside it, one
for each draft: where the only occurrence of the draft's anchor ends.
-/

namespace MatrixSpooll.Episode

open Library List

/-- Strictly rising from zero and never past `limit`. -/
structure Rising (limit : Nat) (ends : List Nat) : Prop where
  rises : (0 :: ends).Pairwise (fun first second => first < second)
  within : ∀ stop ∈ ends, stop ≤ limit

namespace Rising

theorem append_one {limit stop : Nat} {ends : List Nat}
    (rising : Rising limit ends) (above : ∀ other ∈ 0 :: ends, other < stop)
    (inside : stop ≤ limit) : Rising limit (ends ++ [stop]) := by
  constructor
  · rw [← cons_append]
    apply pairwise_append.mpr
    refine ⟨rising.rises, pairwise_singleton _ _, ?_⟩
    intro other member last isLast
    rw [mem_singleton.mp isLast]
    exact above other member
  · intro other member
    rcases mem_append.mp member with old | new
    · exact rising.within other old
    · rw [mem_singleton.mp new]
      exact inside

end Rising

/-! ## Occurrences of an anchor -/

def OccursAt (haystack needle : Text) (position : Nat) : Prop :=
  needle ≠ [] ∧ needle <+: haystack.drop position

/-- The only occurrence, counting overlapping ones, ends at `stop`. -/
def EndsOnly (haystack needle : Text) (stop : Nat) : Prop :=
  ∃ position, stop = position + needle.length ∧
    ∀ other, OccursAt haystack needle other ↔ other = position

/-- Where an anchor ends: as it is or, where it does not occur so, folded. -/
inductive Anchored (host : Host) (window anchor : Text) (stop : Nat) : Prop
  | verbatim (only : EndsOnly window anchor stop)
  | folded (missing : ∀ position, ¬ OccursAt window anchor position)
      (only : EndsOnly (foldForMatch window) (foldForMatch (normalizeSourceText host anchor)) stop)

variable {needle haystack : Text} {position : Nat}

theorem mem_search (nonempty : needle ≠ []) {offset : Nat} :
    position ∈ findAllOverlapping.search needle haystack offset ↔
      ∃ index, position = offset + index ∧ needle <+: haystack.drop index := by
  induction haystack generalizing offset with
  | nil => simp [findAllOverlapping.search, nonempty]
  | cons char rest induction =>
    have split : (∃ index, position = offset + index ∧ needle <+: (char :: rest).drop index) ↔
        (position = offset ∧ needle <+: char :: rest) ∨ ∃ index, position = offset + 1 + index ∧
            needle <+: rest.drop index := by
      constructor
      · intro occurs
        obtain ⟨index, same, stands⟩ := occurs
        cases index with
        | zero => exact .inl ⟨same, stands⟩
        | succ index => exact .inr ⟨index, by omega, stands⟩
      · intro cases
        rcases cases with here | later
        · exact ⟨0, here⟩
        · obtain ⟨index, same, stands⟩ := later
          exact ⟨index + 1, by omega, stands⟩
    rw [split, findAllOverlapping.search]
    split
    · next matched =>
        rw [mem_cons, induction]
        simp [ isPrefixOf_iff_prefix.mp matched]
    · next unmatched =>
        rw [induction]
        simp [mt isPrefixOf_iff_prefix.mpr unmatched]

theorem nodup_search (nonempty : needle ≠ []) {offset : Nat} :
    (findAllOverlapping.search needle haystack offset).Nodup := by
  induction haystack generalizing offset with
  | nil => exact nodup_nil
  | cons char rest induction =>
    rw [findAllOverlapping.search]
    split
    · apply nodup_cons.mpr
      refine ⟨?_, induction⟩
      rw [mem_search nonempty]
      intro later
      obtain ⟨index, same, _⟩ := later
      omega
    · exact induction

theorem mem_findAllOverlapping : position ∈ findAllOverlapping haystack needle ↔
      OccursAt haystack needle position := by
  cases needle with
  | nil => simp [findAllOverlapping, OccursAt]
  | cons char rest =>
    have nonempty : char :: rest ≠ [] := cons_ne_nil char rest
    rw [findAllOverlapping, if_neg (by simp), mem_search nonempty]
    simp [OccursAt]

theorem findAllOverlapping_eq_singleton : findAllOverlapping haystack needle = [position] ↔
      ∀ other, OccursAt haystack needle other ↔ other = position := by
  have distinct : (findAllOverlapping haystack needle).Nodup := by
    rw [findAllOverlapping]
    split
    · exact nodup_nil
    · next nonempty =>
        exact nodup_search (fun empty => nonempty (by simp [empty]))
  rw [← perm_singleton, perm_ext_iff_of_nodup distinct (nodup_singleton position)]
  simp only [mem_findAllOverlapping, mem_singleton]

@[simp] theorem length_foldForMatch (text : Text) : (foldForMatch text).length = text.length :=
  length_map foldChar

theorem EndsOnly.within {stop : Nat} (only : EndsOnly haystack needle stop) :
    stop ≤ haystack.length := by
  obtain ⟨position, ends, occurs⟩ := only
  obtain ⟨nonempty, stands⟩ := (occurs position).mpr rfl
  have fits := stands.length_le
  have long := length_pos_iff.mpr nonempty
  rw [length_drop] at fits
  omega

variable {host : Host} {window anchor : Text} {stop : Nat}

theorem Anchored.within (anchored : Anchored host window anchor stop) : stop ≤ window.length := by
  cases anchored with
  | verbatim only => exact only.within
  | folded missing only => simpa using only.within

/-- The places that `locateAnchor` finds decide where an anchor ends. -/
theorem anchored_iff : Anchored host window anchor stop ↔
      ∃ position, (locateAnchor host window anchor).starts = [position] ∧
        stop = position + (locateAnchor host window anchor).matchLen := by
  have found : findAllOverlapping window anchor = [] ↔
      ∀ position, ¬ OccursAt window anchor position := by
    simp only [eq_nil_iff_forall_not_mem, mem_findAllOverlapping]
  by_cases missing : findAllOverlapping window anchor = []
  · simp only [locateAnchor, missing, ne_eq, not_true_eq_false, if_false,
      findAllOverlapping_eq_singleton]
    constructor
    · intro anchored
      cases anchored with
      | verbatim only =>
        obtain ⟨position, _, occurs⟩ := only
        exact absurd ((occurs position).mpr rfl) (found.mp missing position)
      | folded _ only =>
        obtain ⟨position, ends, occurs⟩ := only
        exact ⟨position, occurs, by simpa using ends⟩
    · intro located
      obtain ⟨position, occurs, ends⟩ := located
      exact .folded (found.mp missing) ⟨position, by simpa using ends, occurs⟩
  · simp only [locateAnchor, missing, ne_eq, not_false_eq_true, if_true,
      findAllOverlapping_eq_singleton]
    constructor
    · intro anchored
      cases anchored with
      | verbatim only =>
        obtain ⟨position, ends, occurs⟩ := only
        exact ⟨position, occurs, ends⟩
      | folded absent _ => exact absurd (found.mpr absent) missing
    · intro located
      obtain ⟨position, occurs, ends⟩ := located
      exact .verbatim ⟨position, ends, occurs⟩

/-! ## The loop over the drafts -/

/-- The anchors of the drafts end at `stops`. -/
def Cut (host : Host) (window : Text) (drafts : List EpisodeDraft) (stops : List Nat) : Prop :=
  Forall₂ (fun draft stop => Anchored host window draft.endAnchor stop) drafts stops

theorem Cut.within {drafts : List EpisodeDraft} {stops : List Nat}
    (cut : Cut host window drafts stops) :
    ∀ stop ∈ stops, stop ≤ window.length := by
  unfold Cut at cut
  induction cut with
  | nil =>
    intro stop member
    cases member
  | cons anchored _ induction => exact forall_mem_cons.mpr ⟨anchored.within, induction⟩

namespace Resolution

/-- A turn takes the end of an anchor that lies behind the last one, or adds a
reason because there is none. -/
theorem turn_cases (host : Host) (window : Text) (state : Resolution)
    (indexed : EpisodeDraft × Nat) :
    (∃ stop, (∀ other, Anchored host window indexed.1.endAnchor other ↔ other = stop) ∧
      (state.orderingValid = true → state.pos < stop) ∧
      turn host window state indexed = state.accept stop) ∨
    (∀ stop, Anchored host window indexed.1.endAnchor stop →
      state.orderingValid = true ∧ stop ≤ state.pos) ∧
      (turn host window state indexed).reasons ≠ [] := by
  simp only [turn, judge, anchored_iff]
  match (locateAnchor host window indexed.1.endAnchor).starts with
  | [] | _ :: _ :: _ =>
    right
    simp [reject]
  | [position] =>
    simp only
    split
    · next behind =>
        right
        simp [reject, behind]
    · next notBehind =>
        left
        refine ⟨_, by simp, ?_, rfl⟩
        intro valid
        by_contra behind
        exact notBehind ⟨valid, not_lt.mp behind⟩

theorem loop_iff (host : Host) (window : Text) (state : Resolution)
    (drafts : List EpisodeDraft) (index : Nat) (ends : List Nat) :
    ((drafts.zipIdx index).foldl (turn host window) state).reasons = [] ∧
      ((drafts.zipIdx index).foldl (turn host window) state).ends = ends ↔
    state.reasons = [] ∧ ∃ stops, ends = state.ends ++ stops ∧
      Cut host window drafts stops ∧ (state.orderingValid = true →
        (state.pos :: stops).IsChain (· < ·)) := by
  induction drafts generalizing state index with
  | nil =>
    simp only [zipIdx_nil, foldl_nil, Cut, forall₂_nil_left_iff]
    constructor
    · intro ended
      exact ⟨ended.1, [], by simp [ended.2], rfl, fun _ => isChain_singleton _⟩
    · intro ended
      obtain ⟨noReason, stops, same, empty, _⟩ := ended
      exact ⟨noReason, by rw [same, empty, append_nil]⟩
  | cons draft drafts induction =>
    rw [zipIdx_cons, foldl_cons, induction]
    simp only [Cut, forall₂_cons_left_iff]
    rcases turn_cases host window state (draft, index) with
      taken | refused
    · obtain ⟨stop, only, behind, taken⟩ := taken
      rw [taken]
      constructor
      · intro goesOn
        obtain ⟨noReason, stops, same, placed, chain⟩ := goesOn
        refine ⟨noReason, stop :: stops, ?_, ⟨stop, stops, (only stop).mpr rfl, placed, rfl⟩, ?_⟩
        · rw [same]
          simp [accept]
        · intro valid
          exact isChain_cons_cons.mpr ⟨behind valid, chain valid⟩
      · intro goesOn
        obtain ⟨noReason, _, same, ⟨first, stops, anchored, placed, rfl⟩, chain⟩ := goesOn
        obtain rfl := (only first).mp anchored
        refine ⟨noReason, stops, ?_, placed, ?_⟩
        · rw [same]
          simp [accept]
        · intro valid
          exact (isChain_cons_cons.mp (chain valid)).2
    · obtain ⟨noneBehind, reasons⟩ := refused
      constructor
      · intro goesOn
        exact absurd goesOn.1 reasons
      · intro goesOn
        obtain ⟨_, _, _, ⟨first, stops, anchored, _, rfl⟩, chain⟩ := goesOn
        obtain ⟨valid, before⟩ := noneBehind first anchored
        have behind := (isChain_cons_cons.mp (chain valid)).1
        omega

end Resolution

variable {ends : List Nat}

theorem snapTail_rising (rising : Rising window.length ends) (nonempty : ends ≠ []) :
    Rising window.length (snapTail window ends) ∧ (snapTail window ends).length = ends.length ∧
      ∃ front last, snapTail window ends = front ++ [last] ∧
        (isBlank (window.drop last) = true → last = window.length) := by
  obtain ⟨last, found⟩ := Option.ne_none_iff_exists'.mp (mt getLast?_eq_none_iff.mp nonempty)
  obtain ⟨front, split⟩ := getLast?_eq_some_iff.mp found
  subst split
  simp only [snapTail, found, dropLast_concat]
  split
  · next tail =>
      have whole := rising.rises
      rw [← cons_append] at whole
      obtain ⟨frontRises, _, below⟩ := pairwise_append.mp whole
      have frontRising : Rising window.length front :=
        { rises := frontRises
          within := fun stop member => rising.within stop (mem_append_left _ member) }
      refine ⟨frontRising.append_one ?_ (le_refl window.length), by simp,
        front, window.length, rfl, fun _ => rfl⟩
      intro other member
      exact (below other member last (mem_singleton_self last)).trans tail.1
  · next noTail =>
      refine ⟨rising, rfl, front, last, rfl, ?_⟩
      intro blank
      have inside := rising.within last (by simp)
      by_contra short
      exact noTail ⟨by omega, blank⟩

variable {drafts : List EpisodeDraft} {snapWhitespaceTail : Bool}

theorem resolveBoundaries_iff : resolveBoundaries host window drafts snapWhitespaceTail = .ok ends ↔
      ∃ stops, Cut host window drafts stops ∧
        (0 :: stops).Pairwise (fun first second => first < second) ∧
        ends = if snapWhitespaceTail then snapTail window stops
          else stops := by
  have looped := Resolution.loop_iff host window .start drafts 1
  unfold resolveBoundaries
  constructor
  · intro resolved
    simp only at resolved
    split at resolved
    · cases resolved
    · next noReason =>
        obtain ⟨_, stops, same, cut, chain⟩ := (looped _).mp ⟨not_not.mp noReason, rfl⟩
        refine ⟨stops, cut, (chain rfl).pairwise, ?_⟩
        rw [same] at resolved
        split at resolved <;> cases resolved <;> simp [*, Resolution.start]
  · intro cuts
    obtain ⟨stops, cut, rises, same⟩ := cuts
    obtain ⟨noReason, ended⟩ := (looped stops).mpr ⟨rfl, stops, rfl, cut, fun _ => rises.isChain⟩
    simp only [noReason, ended, same, ne_eq, not_true_eq_false, if_false]
    split <;> rfl

theorem resolveBoundaries_rising (nonempty : drafts ≠ [])
    (resolved : resolveBoundaries host window drafts snapWhitespaceTail = .ok ends) :
    Rising window.length ends ∧ ends.length = drafts.length ∧
      (snapWhitespaceTail = true → ∃ front last, ends = front ++ [last] ∧
        (isBlank (window.drop last) = true → last = window.length)) := by
  obtain ⟨stops, cut, rises, same⟩ := resolveBoundaries_iff.mp resolved
  subst same
  have counted := cut.length_eq.symm
  have rising : Rising window.length stops := ⟨rises, cut.within⟩
  split
  · have someStop : stops ≠ [] := by
      intro empty
      rw [empty] at counted
      exact nonempty (length_eq_zero_iff.mp counted.symm)
    obtain ⟨snapped, sameLength, ended⟩ := snapTail_rising rising someStop
    exact ⟨snapped, sameLength.trans counted, fun _ => ended⟩
  · next noSnap => exact ⟨rising, counted, fun snaps => absurd snaps noSnap⟩

/-- Boundaries are returned just if each anchor has one occurrence and these
end one behind the other. -/
theorem boundaries_sound (host : Host) (window : Text)
    (drafts : List EpisodeDraft) (nonempty : drafts ≠ [])
    (snapWhitespaceTail : Bool) (ends : List Nat) :
    (resolveBoundaries host window drafts snapWhitespaceTail = .ok ends ↔
      ∃ stops, Cut host window drafts stops ∧
        (0 :: stops).Pairwise (fun first second => first < second) ∧
        ends = if snapWhitespaceTail then snapTail window stops
          else stops) ∧
    (resolveBoundaries host window drafts snapWhitespaceTail = .ok ends →
      Rising window.length ends ∧ ends.length = drafts.length ∧
      (snapWhitespaceTail = true → ∃ front last, ends = front ++ [last] ∧
        (isBlank (window.drop last) = true → last = window.length))) :=
  ⟨resolveBoundaries_iff, resolveBoundaries_rising nonempty⟩

def plainHost : Host :=
  { nfc := id
    isDigit := fun _ => false
    parseInt := fun _ => none
    sha256 := String.ofList
    repr := String.ofList
    withinElastic := fun remaining window => 10 * remaining ≤ 12 * window }

def draftEnding (anchor : String) (long : 2 ≤ anchor.toList.length) : EpisodeDraft :=
  { title := "title"
    hook := "hook"
    endAnchor := anchor.toList
    outline := none
    titleNonempty := by decide
    hookNonempty := by decide
    anchorLong := long }

/-- The blanks behind the last anchor go to its episode. -/
theorem blank_tail_snapped : resolveBoundaries plainHost "The end. And more. \n".toList
      [draftEnding "end." (by decide), draftEnding "more." (by decide)] true = .ok [8, 20] ∧
    Rising "The end. And more. \n".toList.length [8, 20] := by
  have resolved : resolveBoundaries plainHost "The end. And more. \n".toList
      [draftEnding "end." (by decide), draftEnding "more." (by decide)] true = .ok [8, 20] := by
    decide +kernel
  exact ⟨resolved, ((boundaries_sound plainHost _ _ (cons_ne_nil _ _) true _).2 resolved).1⟩

theorem requestValidatedDrafts_rising {maxAttempts : Nat}
    {responses : Nat → Response} {snapWhitespaceTail : Bool}
    {maxEpisodes remaining attempt : Nat} {failure : List String}
    {drafts : List EpisodeDraft} (positive : 0 < maxEpisodes)
    (accepted : requestValidatedDrafts host maxAttempts responses window
      snapWhitespaceTail maxEpisodes remaining attempt failure = .ok (drafts, ends)) :
    Rising window.length ends ∧ ends.length = drafts.length ∧ ends ≠ [] := by
  induction remaining generalizing attempt failure with
  | zero => cases accepted
  | succ remaining induction =>
    unfold requestValidatedDrafts at accepted
    simp only at accepted
    split at accepted
    · cases accepted
    · cases accepted
    · exact induction accepted
    · rename_i plan _
      split at accepted
      · rename_i resolved
        cases accepted
        have nonempty : plan.episodes.take maxEpisodes ≠ [] := by
          intro empty
          rcases take_eq_nil_iff.mp empty with none | noDraft
          · omega
          · exact plan.nonempty noDraft
        obtain ⟨rising, counted, _⟩ := resolveBoundaries_rising nonempty resolved
        refine ⟨rising, counted, ?_⟩
        intro empty
        rw [empty] at counted
        exact nonempty (length_eq_zero_iff.mp counted.symm)
      · exact induction accepted

theorem settingInt_positive (project : Project) (key : String)
    {default : Int} (positive : 1 ≤ default) :
    1 ≤ settingInt project key default := by
  unfold settingInt
  split
  · split
    · assumption
    · exact positive
  · exact positive

theorem length_slice_le (text : Text) (start : Nat) (stop : Int) :
    (slice text start stop).length ≤ text.length - start := by
  have nonnegative : ¬ (start : Int) < 0 := by omega
  simp only [slice, clampIndex, nonnegative, if_false, length_drop, length_take, Int.toNat_natCast]
  omega

/-- A drafted batch keeps the place it was drafted for, and its ends rise
inside the rest of the file. -/
theorem draftBatch_rising {maxAttempts : Nat} {project : Project}
    {responses : Nat → Response} {startRef : String × Int} {place : PlanStart}
    {call : PlanCall} {start : Nat} (startEq : place.start = start)
    (drafted : draftBatch host maxAttempts project responses startRef place = .ok call) :
    call.startRef = startRef ∧ call.place = place ∧ Rising (place.text.length - start) call.ends ∧
      call.ends.length = call.drafts.length ∧ call.ends ≠ [] := by
  unfold draftBatch at drafted
  obtain ⟨⟨drafts, ends⟩, accepted, built⟩ := bind_eq_ok.mp drafted
  cases built
  have positive : 0 < (settingInt project "planning_max_episodes" 20).toNat := by
    have atLeast : 1 ≤ settingInt project "planning_max_episodes" 20 :=
      settingInt_positive project "planning_max_episodes" (by omega)
    omega
  obtain ⟨rising, counted, nonempty⟩ := requestValidatedDrafts_rising positive accepted
  refine ⟨rfl, rfl, ⟨rising.rises, ?_⟩, counted, nonempty⟩
  intro stop member
  have inWindow := rising.within stop member
  rw [startEq] at inWindow
  exact inWindow.trans (length_slice_le place.text start _)

end MatrixSpooll.Episode
