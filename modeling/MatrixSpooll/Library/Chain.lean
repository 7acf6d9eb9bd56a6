import Mathlib.Data.Prod.Lex

/-!
# Chains of segments

Half-open segments laid one behind the other.  `link` says where the next
segment may begin once everything before a place has been dealt with; a chain
whose links pass over nothing of interest covers all that is of interest
between its ends.

The second part is the link used for a text in several parts: reading goes on
where it stopped, or at the beginning of a later part when only blanks are
left before it.
-/

namespace MatrixSpooll.Library

open List

structure Segment (Place : Type u) where
  start : Place
  stop : Place

inductive Chained {Place : Type u} [LT Place] (link : Place → Place → Prop) :
    Place → List (Segment Place) → Place → Prop where
  | nil (place : Place) : Chained link place [] place
  | cons {place final : Place} {segment : Segment Place}
      {segments : List (Segment Place)} :
      link place segment.start →
      segment.start < segment.stop →
      Chained link segment.stop segments final →
      Chained link place (segment :: segments) final

namespace Chained

section Composition

variable {Place : Type u} [LT Place] {link : Place → Place → Prop} {origin final : Place}

theorem append {middle : Place} {front back : List (Segment Place)}
    (first : Chained link origin front middle) (second : Chained link middle back final) :
    Chained link origin (front ++ back) final := by
  induction first with
  | nil => exact second
  | cons linked nonempty _ induction => exact .cons linked nonempty (induction second)

theorem split {front back : List (Segment Place)}
    (chain : Chained link origin (front ++ back) final) :
    ∃ middle, Chained link origin front middle ∧ Chained link middle back final := by
  induction front generalizing origin with
  | nil => exact ⟨origin, .nil origin, chain⟩
  | cons segment segments induction =>
    rw [cons_append] at chain
    cases chain with
    | cons linked nonempty rest =>
      obtain ⟨middle, first, second⟩ := induction rest
      exact ⟨middle, .cons linked nonempty first, second⟩

theorem final_eq {segments : List (Segment Place)} (chain : Chained link origin segments final) :
    final = (segments.getLast?.map Segment.stop).getD origin := by
  induction chain with
  | nil => rfl
  | cons _ _ rest induction =>
    rw [induction]
    cases rest with
    | nil => rfl
    | cons =>
      rw [getLast?_cons_cons, getLast?_cons]
      rfl

end Composition

section Coverage

variable {Place : Type u} [LinearOrder Place] {link : Place → Place → Prop}
  {interesting : Place → Prop}
  {origin final : Place} {segments : List (Segment Place)}

section

variable (forward : ∀ first second, link first second → first ≤ second)
  (chain : Chained link origin segments final)
include forward chain

theorem bounds : origin ≤ final ∧ ∀ segment ∈ segments, origin ≤ segment.start := by
  induction chain with
  | nil place => exact ⟨le_refl place, by simp⟩
  | @cons place final segment segments linked nonempty _ induction =>
    obtain ⟨finalAfter, later⟩ := induction
    have reached : place ≤ segment.start := forward place _ linked
    refine ⟨reached.trans (nonempty.le.trans finalAfter), ?_⟩
    intro other member
    rcases mem_cons.mp member with isHead | inTail
    · exact isHead ▸ reached
    · exact reached.trans (nonempty.le.trans (later other inTail))

theorem ordered : segments.Pairwise (fun first second => first.stop ≤ second.start) := by
  induction chain with
  | nil => exact Pairwise.nil
  | cons _ _ rest induction =>
    apply pairwise_cons.mpr
    exact ⟨(bounds forward rest).2, induction⟩

end

theorem covers (passes : ∀ first second, link first second →
      ∀ place, first ≤ place → place < second → ¬ interesting place)
    (chain : Chained link origin segments final) {place : Place}
    (matters : interesting place) (begun : origin ≤ place) (done : place < final) :
    ∃ segment ∈ segments, segment.start ≤ place ∧ place < segment.stop := by
  induction chain with
  | nil => exact absurd done (not_lt.mpr begun)
  | @cons origin final segment segments linked _ _ induction =>
    have started : segment.start ≤ place := by
      by_contra early
      exact passes origin _ linked place begun (not_le.mp early) matters
    by_cases inside : place < segment.stop
    · exact ⟨segment, mem_cons_self, started, inside⟩
    · obtain ⟨other, member, covered⟩ := induction (not_lt.mp inside) done
      exact ⟨other, mem_cons_of_mem segment member, covered⟩

end Coverage

end Chained

/-- Reading on from a place: staying there, or going to the next part when
what is left of this one is blank. -/
inductive ReadsOn {Item : Type u} (blank : Item → Bool)
    (parts : List (List Item)) : Nat × Nat → Nat × Nat → Prop where
  | stay (place : Nat × Nat) : ReadsOn blank parts place place
  | turn {index offset : Nat} {part : List Item} {place : Nat × Nat} :
      parts[index]? = some part →
      (part.drop offset).all blank = true →
      ReadsOn blank parts (index + 1, 0) place →
      ReadsOn blank parts (index, offset) place

namespace ReadsOn

variable {Item : Type u} {blank : Item → Bool} {parts : List (List Item)} {first second : Nat × Nat}

variable (reads : ReadsOn blank parts first second)
include reads

theorem same_or_later :
    first = second ∨
      first.1 < second.1 ∧ second.2 = 0 ∧ (∀ part, parts[first.1]? = some part →
          (part.drop first.2).all blank = true) ∧
        ∀ index part, first.1 < index → index < second.1 →
          parts[index]? = some part → part.all blank = true := by
  induction reads with
  | stay => exact Or.inl rfl
  | @turn index offset part place found rest _ induction =>
    right
    have here : ∀ other, parts[index]? = some other →
        (other.drop offset).all blank = true := by
      intro other otherFound
      rw [found] at otherFound
      cases otherFound
      exact rest
    rcases induction with arrived | ⟨below, atStart, nextRest, between⟩
    · subst arrived
      refine ⟨Nat.lt_succ_self index, rfl, here, ?_⟩
      intro other _ above below
      exact absurd above (by omega)
    · refine ⟨Nat.lt_of_succ_lt below, atStart, here, ?_⟩
      intro other otherPart above otherBelow otherFound
      by_cases isNext : other = index + 1
      · subst isNext
        exact nextRest otherPart otherFound
      · exact between other otherPart (by simp only; omega) otherBelow otherFound

theorem forward : toLex first ≤ toLex second := by
  rcases reads.same_or_later with same | ⟨below, _⟩
  · rw [same]
  · exact Prod.Lex.toLex_le_toLex.mpr (Or.inl below)

/-- Only blanks are passed over. -/
theorem passes {place : Nat × Nat} (begun : toLex first ≤ toLex place)
    (early : toLex place < toLex second) {part : List Item} {item : Item}
    (found : parts[place.1]? = some part)
    (present : part[place.2]? = some item) : blank item = true := by
  rcases reads.same_or_later with same | ⟨_, atStart, rest, between⟩
  · subst same
    exact absurd begun (not_le.mpr early)
  · have notLast : place.1 < second.1 := by
      rcases Prod.Lex.toLex_lt_toLex.mp early with below | ⟨_, inside⟩
      · exact below
      · omega
    rcases Prod.Lex.toLex_le_toLex.mp begun with above | ⟨same, behind⟩
    · exact all_eq_true.mp (between place.1 part above notLast found) item (mem_of_getElem? present)
    · have blankRest := rest part (by rw [same]; exact found)
      apply all_eq_true.mp blankRest
      apply mem_iff_getElem?.mpr
      refine ⟨place.2 - first.2, ?_⟩
      rw [getElem?_drop, Nat.add_sub_cancel' behind]
      exact present

end ReadsOn

end MatrixSpooll.Library
