import MatrixSpooll.Library.Entries

/-!
# Holdings that stay with their key

A collection of items is edited.  An item may have a key, and it holds
something that belongs to the key: revising an item must not touch it, and an
item that is taken out leaves its holding in a stash, from which it is given
back when the key returns.  Whatever the order of the edits, each item holds
what the original item of its key held, and nothing if there was none.
-/

namespace MatrixSpooll.Library

open List Function

variable {Item : Type u} {Key : Type v} {Holding : Type w} [DecidableEq Key]

section

variable (key : Item → Option Key) (held : Item → Holding) (nothing : Holding)

def holding (original : List Item) (wanted : Key) : Holding :=
  ((original.find? (fun item => key item = some wanted)).map held).getD nothing

/-- What is stashed for a key while the collection has the keys `present`. -/
structure Stashed (original : List Item) (present : List Key) (wanted : Key)
    (stashed : Option Holding) : Prop where
  holds : ∀ kept, stashed = some kept → kept = holding key held nothing original wanted
  away : stashed.isSome = true → wanted ∉ present
  known : wanted ∈ original.filterMap key → wanted ∈ present ∨ stashed.isSome = true

structure Custody (original items : List Item) (stash : Key → Option Holding) : Prop where
  distinct : (items.filterMap key).Nodup
  owned : ∀ item ∈ items, ∀ wanted, key item = some wanted →
    held item = holding key held nothing original wanted
  stashed : ∀ wanted,
    Stashed key held nothing original (items.filterMap key) wanted (stash wanted)

end

variable {key : Item → Option Key} {held : Item → Holding}
  {nothing : Holding} {original items : List Item}
  {stash : Key → Option Holding}

theorem holding_of_mem (distinct : (original.filterMap key).Nodup) {item : Item}
    (member : item ∈ original) {wanted : Key} (isKey : key item = some wanted) :
    holding key held nothing original wanted = held item := by
  induction original with
  | nil => cases member
  | cons head rest induction =>
    unfold holding
    rcases mem_cons.mp member with isHead | later
    · rw [← isHead, find?_cons_of_pos (by simpa using isKey)]
      rfl
    · by_cases here : key head = some wanted
      · rw [filterMap_cons_some here] at distinct
        have repeated : wanted ∈ rest.filterMap key := mem_filterMap.mpr ⟨item, later, isKey⟩
        exact absurd repeated (nodup_cons.mp distinct).1
      · rw [find?_cons_of_neg (by simpa using here)]
        apply induction _ later
        exact distinct.sublist (Sublist.filterMap key (sublist_cons_self head rest))

theorem holding_of_unknown {wanted : Key} (unknown : wanted ∉ original.filterMap key) :
    holding key held nothing original wanted = nothing := by
  have missing : original.find? (fun item => key item = some wanted) = none := by
    apply find?_eq_none.mpr
    intro item member isKey
    exact unknown (mem_filterMap.mpr ⟨item, member, of_decide_eq_true isKey⟩)
  unfold holding
  rw [missing]
  rfl

namespace Custody

theorem start (distinct : (original.filterMap key).Nodup) :
    Custody key held nothing original original (fun _ => none) :=
  { distinct := distinct
    owned := fun _ member _ isKey => (holding_of_mem distinct member isKey).symm
    stashed := fun _ => ⟨nofun, nofun, Or.inl⟩ }

section

variable (custody : Custody key held nothing original items stash)
include custody

theorem perm {moved : List Item} (same : items.Perm moved) :
    Custody key held nothing original moved stash := by
  have sameKeys := same.filterMap key
  exact
    { distinct := sameKeys.nodup_iff.mp custody.distinct
      owned := fun item member => custody.owned item (same.mem_iff.mpr member)
      stashed := fun wanted =>
        { custody.stashed wanted with
          away := fun isStashed present =>
            (custody.stashed wanted).away isStashed (sameKeys.mem_iff.mpr present)
          known := fun member =>
            ((custody.stashed wanted).known member).imp_left sameKeys.mem_iff.mp } }

/-- An item may be revised in place as long as key and holding stay. -/
theorem revise {index : Nat} {old new : Item} (found : items[index]? = some old)
    (sameKey : key new = key old) (sameHeld : held new = held old) :
    Custody key held nothing original (items.set index new) stash := by
  have sameKeys := filterMap_set found sameKey
  constructor
  · rw [sameKeys]
    exact custody.distinct
  · intro item member wanted isKey
    rcases mem_or_eq_of_mem_set member with kept | isNew
    · exact custody.owned item kept wanted isKey
    · subst isNew
      rw [sameHeld]
      exact custody.owned old (mem_of_getElem? found) wanted (sameKey ▸ isKey)
  · rw [sameKeys]
    exact custody.stashed

/-- Nothing is lost with the stash of a key the original did not have. -/
theorem release {gone : Key} (unknown : gone ∉ original.filterMap key) :
    Custody key held nothing original items (update stash gone none) :=
  { custody with
    stashed := (forall_update_iff stash (Stashed key held nothing original _)).mpr
      ⟨⟨nofun, nofun, fun member => absurd member unknown⟩, fun other _ => custody.stashed other⟩ }

theorem cons {item : Item} {fresh : Key} (isKey : key item = some fresh)
    (new : fresh ∉ items.filterMap key) (given : held item = (stash fresh).getD nothing) :
    Custody key held nothing original (item :: items) (update stash fresh none) := by
  have itsHolding : held item = holding key held nothing original fresh := by
    rw [given]
    cases isStashed : stash fresh with
    | some kept => exact (custody.stashed fresh).holds kept isStashed
    | none =>
      refine (holding_of_unknown ?_).symm
      intro member
      rcases (custody.stashed fresh).known member with present | waiting
      · exact new present
      · rw [isStashed] at waiting
        cases waiting
  have keys := filterMap_cons_some (l := items) isKey
  constructor
  · rw [keys]
    exact nodup_cons.mpr ⟨new, custody.distinct⟩
  · intro other member wanted isOther
    rcases mem_cons.mp member with isItem | kept
    · subst isItem
      rw [isKey] at isOther
      cases isOther
      exact itsHolding
    · exact custody.owned other kept wanted isOther
  · rw [keys]
    apply (forall_update_iff stash (Stashed key held nothing original _)).mpr
    refine ⟨⟨nofun, nofun, fun _ => .inl mem_cons_self⟩, ?_⟩
    intro wanted different
    have stashed := custody.stashed wanted
    refine ⟨stashed.holds, ?_, fun member => (stashed.known member).imp_left (mem_cons_of_mem _)⟩
    intro isStashed member
    exact stashed.away isStashed (mem_of_ne_of_mem different member)

/-- A key that is new to the collection gets what the stash has for it. -/
theorem insert {item : Item} {fresh : Key} {position : Nat}
    (inside : position ≤ items.length) (isKey : key item = some fresh)
    (new : fresh ∉ items.filterMap key) (given : held item = (stash fresh).getD nothing) :
    Custody key held nothing original (items.insertIdx position item) (update stash fresh none) :=
  (custody.cons isKey new given).perm (perm_insertIdx item items inside).symm

end

theorem uncons {item : Item} {gone : Key}
    (custody : Custody key held nothing original (item :: items) stash)
    (isKey : key item = some gone) :
    Custody key held nothing original items (update stash gone (some (held item))) := by
  have keys := filterMap_cons_some (l := items) isKey
  have distinct := custody.distinct
  rw [keys] at distinct
  obtain ⟨absent, rest⟩ := nodup_cons.mp distinct
  constructor
  · exact rest
  · intro other member
    exact custody.owned other (mem_cons_of_mem item member)
  · apply (forall_update_iff stash (Stashed key held nothing original _)).mpr
    refine ⟨⟨?_, fun _ => absent, fun _ => .inr rfl⟩, ?_⟩
    · intro kept isKept
      cases isKept
      exact custody.owned item mem_cons_self gone isKey
    · intro wanted different
      have stashed := custody.stashed wanted
      rw [keys] at stashed
      refine ⟨stashed.holds, fun isStashed present => stashed.away isStashed
        (mem_cons_of_mem gone present), fun member => ?_⟩
      exact (stashed.known member).imp_left (mem_of_ne_of_mem different)

/-- An item taken out leaves its holding in the stash. -/
theorem remove {item : Item} {gone : Key} {index : Nat}
    (custody : Custody key held nothing original items stash)
    (found : items[index]? = some item) (isKey : key item = some gone) :
    Custody key held nothing original (items.eraseIdx index)
      (update stash gone (some (held item))) := by
  obtain ⟨inside, isItem⟩ := List.getElem?_eq_some_iff.mp found
  have front : items.Perm (item :: items.eraseIdx index) := by
    rw [← isItem]
    exact (getElem_cons_eraseIdx_perm inside).symm
  exact (custody.perm front).uncons isKey

end Custody

end MatrixSpooll.Library
