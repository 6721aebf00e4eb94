/-!
# Keyed lists

Lists of pairs of a key and a value, in the order of insertion (`put`) or sorted by key
(`insertSorted`).
-/

namespace ServiceScaffold.Keyed

variable {α : Type}

/-- Puts `value` under `key`: in the place of an earlier value of that key, else at the end. -/
def put (key : String) (value : α) : List (String × α) → List (String × α)
  | [] => [(key, value)]
  | (k, v) :: rest => if k = key then (key, value) :: rest else (k, v) :: put key value rest

/-- What stands under `key`. -/
def lookup (key : String) : List (String × α) → Option α
  | [] => none
  | (k, v) :: rest => if k = key then some v else lookup key rest

/-- The fields with each key once, where it first stood and with its last value. -/
def dropRepeated (fields : List (String × α)) : List (String × α) :=
  fields.foldl (fun kept (k, v) => put k v kept) []

/-- Places `entry` before the first entry with a greater key. -/
def insertSorted (entry : String × α) : List (String × α) → List (String × α)
  | [] => [entry]
  | other :: rest =>
    if entry.1 < other.1 then entry :: other :: rest
    else if entry.1 = other.1 then entry :: rest
    else other :: insertSorted entry rest

/-- The fields sorted by key, each key once with its last value. -/
def sortedFields (fields : List (String × α)) : List (String × α) :=
  fields.foldl (fun kept entry => insertSorted entry kept) []

/-- The keys, in order. -/
def keys (entries : List (String × α)) : List String := entries.map Prod.fst

/-- The key is present. -/
def has (key : String) (entries : List (String × α)) : Bool := (lookup key entries).isSome

end ServiceScaffold.Keyed
