import MatrixSpooll.Library.Entries

/-!
# JSON values as the source language reads them

`json.load` gives `None`, booleans, integers, floats, strings, lists and
dictionaries.  A missing key reads as `null`, which is what `mapping.get(key)`
returns.  A float is kept as the bits of its double.
-/

namespace MatrixSpooll.Library

inductive Json where
  | null
  | bool (value : Bool)
  | int (value : Int)
  | float (bits : UInt64)
  | str (value : String)
  | list (items : List Json)
  | dict (fields : List (String × Json))

namespace Json

variable (fields : List (String × Json)) (key : String)

def get : Json :=
  (fields.lookup key).getD .null

/-- An `int` that is not a `bool`. -/
def asInt? : Json → Option Int
  | .int value => some value
  | _ => none

def asStr? : Json → Option String
  | .str value => some value
  | _ => none

def isTrue : Json → Bool
  | .null => false
  | .bool value => value
  | .int value => value ≠ 0
  | .float bits => bits ≠ 0 && bits ≠ 0x8000000000000000
  | .str value => value ≠ ""
  | .list items => !items.isEmpty
  | .dict fields => !fields.isEmpty

/-- What a `for` loop runs over; `none` is the `TypeError` of a value that
cannot be iterated. -/
def iterate : Json → Option (List Json)
  | .list items => some items
  | .dict fields => some (fields.map (fun field => .str field.1))
  | .str value => some (value.toList.map (fun char => .str char.toString))
  | _ => none

/-- The items of `value or []`. -/
def itemsOrEmpty (value : Json) : Option (List Json) :=
  if value.isTrue then value.iterate else some []

def has : Bool :=
  (fields.lookup key).isSome

def put : List (String × Json) → String → Json → List (String × Json)
  | [], key, value => [(key, value)]
  | (other, old) :: rest, key, value =>
    if other = key then (other, value) :: rest
    else (other, old) :: put rest key value

def pop : List (String × Json) :=
  fields.filter (fun field => field.1 ≠ key)

def getOr (default : Json) : Json :=
  (fields.lookup key).getD default

/-- `first or second`. -/
def orElse (first second : Json) : Json :=
  if first.isTrue then first else second

/-- `str(value)`.  The parameter gives the text of what is written by its
structure: floats, lists and dictionaries. -/
def text (repr : Json → String) : Json → String
  | .null => "None"
  | .bool true => "True"
  | .bool false => "False"
  | .int value => toString value
  | .str value => value
  | value => repr value

/-- `str(value or "")`. -/
def textOrEmpty (repr : Json → String) (value : Json) : String :=
  if value.isTrue then value.text repr else ""

/-- `value if isinstance(value, str) and value else None`. -/
def nonemptyStr? : Json → Option String
  | .str value => if value = "" then none else some value
  | _ => none

/-- `type(value).__name__`. -/
def typeName : Json → String
  | .null => "NoneType"
  | .bool _ => "bool"
  | .int _ => "int"
  | .float _ => "float"
  | .str _ => "str"
  | .list _ => "list"
  | .dict _ => "dict"

variable (fields : List (String × Json)) (key other : String) (value : Json)

theorem lookup_put : (put fields key value).lookup other =
      if other = key then some value else fields.lookup other := by
  induction fields with
  | nil => exact lookup_cons_ite other (key, value) []
  | cons field rest induction =>
    rw [put]
    by_cases here : field.1 = key
    · rw [if_pos here, lookup_cons_ite, lookup_cons_ite, here]
      split <;> rfl
    · rw [if_neg here, lookup_cons_ite, lookup_cons_ite, induction]
      by_cases same : other = field.1
      · simp [same, here]
      · simp [same]

theorem get_put : get (put fields key value) other =
      if other = key then value else get fields other := by
  unfold get
  rw [lookup_put]
  split <;> rfl

theorem get_pop : get (pop fields key) other = if other = key then .null else get fields other := by
  unfold get pop
  rw [lookup_filter_ne]
  split <;> rfl

theorem mem_keys_iff {fields : List (String × Json)} {key : String} :
    key ∈ fields.map Prod.fst ↔ (fields.lookup key).isSome = true := by
  simp

theorem mem_keys_put {fields : List (String × Json)} {key other : String} {value : Json} :
    other ∈ (put fields key value).map Prod.fst ↔ other = key ∨ other ∈ fields.map Prod.fst := by
  rw [mem_keys_iff, mem_keys_iff, lookup_put]
  by_cases same : other = key <;> simp [same]

theorem has_put : has (put fields key value) other = (other == key || has fields other) := by
  unfold has
  rw [lookup_put]
  by_cases same : other = key <;> simp [same]

theorem put_put (first second : Json) :
    put (put fields key first) key second = put fields key second := by
  induction fields with
  | nil => simp [put]
  | cons field fields induction =>
    by_cases same : field.1 = key <;> simp [put, same, induction]

theorem pop_put_self : pop (put fields key value) key = pop fields key := by
  unfold pop
  induction fields with
  | nil => simp [put]
  | cons field fields induction =>
    by_cases same : field.1 = key
    · simp [put, same]
    · simpa [put, same] using induction

theorem pop_put_of_ne {fields : List (String × Json)} {key other : String}
    {value : Json} (different : key ≠ other) :
    pop (put fields key value) other = put (pop fields other) key value := by
  unfold pop
  induction fields with
  | nil => simp [put, different]
  | cons field fields induction =>
    by_cases same : field.1 = key
    · simp [put, same, different]
    · by_cases popped : field.1 = other
      · simpa [put, same, popped, Ne.symm different] using induction
      · simpa [put, same, popped] using induction

@[simp] theorem itemsOrEmpty_list (items : List Json) :
    (Json.list items).itemsOrEmpty = some items := by
  cases items <;> rfl

end Json

end MatrixSpooll.Library
