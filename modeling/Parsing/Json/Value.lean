/-!
# JSON values

The values of JSON documents.  Integers are exact; a number written with a point or an exponent
is a floating-point number.  An object keeps its entries in the order in which its keys first
came, each with the value that came last.
-/

namespace Parsing

/-- The value of a JSON document. -/
inductive Json where
  | null
  | bool (value : Bool)
  | int (value : Int)
  | float (value : Float)
  | string (value : String)
  | array (items : List Json)
  | object (entries : List (String × Json))

namespace Json

/-- Puts a value under a key: in the place of the key if it is there, or else at the end. -/
def put {α : Type} (key : String) (value : α) : List (String × α) → List (String × α)
  | [] => [(key, value)]
  | (k, v) :: rest => if k = key then (k, value) :: rest else (k, v) :: put key value rest

/-- The entries that remain when each overrides the earlier ones of its key. -/
def mergeEntries {α : Type} (entries : List (String × α)) : List (String × α) :=
  entries.foldl (fun merged (key, value) => put key value merged) []

/-- Writing under a key that is present moves nothing, and a new key goes to the end. -/
theorem map_fst_put {α : Type} (key : String) (value : α) (entries : List (String × α)) :
    (put key value entries).map Prod.fst =
      if key ∈ entries.map Prod.fst then entries.map Prod.fst
      else entries.map Prod.fst ++ [key] := by
  induction entries with
  | nil => simp [put]
  | cons entry rest ih =>
    obtain ⟨k, v⟩ := entry
    by_cases h : k = key
    · simp [put, h]
    · simp only [put, h, if_false, List.map_cons, ih, List.mem_cons, Ne.symm h, false_or]
      split <;> rfl

/-- The value under a key after it was put there. -/
theorem lookup_put_self {α : Type} (key : String) (value : α) (entries : List (String × α)) :
    (put key value entries).lookup key = some value := by
  induction entries with
  | nil => simp [put]
  | cons entry rest ih =>
    obtain ⟨k, v⟩ := entry
    by_cases h : k = key
    · simp [put, h]
    · have : (key == k) = false := by simpa using Ne.symm h
      simp [put, h, List.lookup_cons, this, ih]

end Json

end Parsing
