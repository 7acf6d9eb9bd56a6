import Mathlib.Order.WellFounded

/-!
# Successor pointers

Every key may point to one other key.  `Terminates` says that following the
pointers stops from every key, `Leads` that it comes by a key.  The pointers
are edited in three ways: they are taken back, a key is taken out with what
pointed to it pointing to where it pointed, and a key without a pointer gets
one to a key without one.
-/

namespace MatrixSpooll.Library

variable {Key : Type u}

/-- `later` is what `earlier` points to. -/
def Follows (next : Key → Option Key) (later earlier : Key) : Prop :=
  next earlier = some later

def Terminates (next : Key → Option Key) : Prop :=
  WellFounded (Follows next)

/-- Following the pointers from `start` comes by `last`. -/
def Leads (next : Key → Option Key) : Key → Key → Prop :=
  Relation.ReflTransGen (fun earlier later => next earlier = some later)

namespace Terminates

variable {next edited : Key → Option Key}

section

variable (terminates : Terminates next)
include terminates

/-- Pointers that are taken back or drawn along old ones. -/
theorem along (steps : ∀ key target, edited key = some target →
      Relation.TransGen (Follows next) target key) : Terminates edited := by
  apply Subrelation.wf _ (WellFounded.transGen terminates)
  intro later earlier points
  exact steps earlier later points

theorem attach {source target : Key} (attached : edited source = some target)
    (last : edited target = none) (others : ∀ key, key ≠ source → edited key = next key) :
    Terminates edited := by
  have stops : Acc (Follows edited) target := by
    constructor
    intro later points
    rw [Follows, last] at points
    cases points
  constructor
  intro key
  induction key using terminates.induction with
  | _ key induction =>
    constructor
    intro later points
    by_cases isSource : key = source
    · subst isSource
      rw [Follows, attached] at points
      cases points
      exact stops
    · rw [Follows, others key isSource] at points
      exact induction later points

theorem not_self (key : Key) : next key ≠ some key := by
  intro points
  exact terminates.irrefl.irrefl key points

/-- From a key of a closed set one comes to a key of the set that points to
none. -/
theorem leads_to_end {present : Key → Prop}
    (closed : ∀ key target, present key → next key = some target →
      present target) {key : Key} (member : present key) :
    ∃ last, Leads next key last ∧ present last ∧ next last = none := by
  induction key using terminates.induction with
  | _ key induction =>
    cases points : next key with
    | none => exact ⟨key, .refl, member, points⟩
    | some target =>
      obtain ⟨last, leads, memberLast, ends⟩ := induction target points
        (closed key target member points)
      exact ⟨last, .head points leads, memberLast, ends⟩

/-- A key is taken out: what led past it leads past it still. -/
theorem leads_spliced [DecidableEq Key] {gone last : Key} (spliced : ∀ key, key ≠ gone →
      edited key = if next key = some gone then next gone else next key)
    (stays : last ≠ gone) {key : Key} (leads : Leads next key last)
    (different : key ≠ gone) : Leads edited key last := by
  -- Along the path, from its end: a key on it leads to the end after the
  -- edit, and the key that is taken out points to one that does.
  have along_path : (key ≠ gone → Leads edited key last) ∧
      (key = gone → ∃ target, next gone = some target ∧ Leads edited target last) := by
    clear different
    induction leads using Relation.ReflTransGen.head_induction_on with
    | refl =>
      refine ⟨fun _ => .refl, ?_⟩
      intro isGone
      exact absurd isGone stays
    | @head key target points _ induction =>
      obtain ⟨kept, replaced⟩ := induction
      constructor
      · intro different
        have editedKey := spliced key different
        by_cases isGone : target = gone
        · obtain ⟨beyond, goneNext, leads⟩ := replaced isGone
          subst isGone
          rw [if_pos points, goneNext] at editedKey
          exact .head editedKey leads
        · have other : next key ≠ some gone := by
            rw [points]
            intro same
            exact isGone (Option.some.inj same)
          rw [if_neg other, points] at editedKey
          exact .head editedKey (kept isGone)
      · intro isGone
        subst isGone
        refine ⟨target, points, kept ?_⟩
        intro same
        subst same
        exact terminates.not_self _ points
  exact along_path.1 different

end

end Terminates

end MatrixSpooll.Library
