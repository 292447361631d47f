import Verdict.Number.Decimal

/-!
# JSON values

`Json` is a parsed value. The members of an object are kept in ascending order of their keys,
each key once: `Members.insert` puts a member in its place and replaces the one that had the
key. `Json.nesting` counts how deeply arrays and objects stand in one another.
-/

namespace Verdict

/-- A JSON number: a whole number in the range of 64 bits, or a floating point number. -/
inductive Json.Num where
  | int (value : Int)
  | float (value : Number)
deriving DecidableEq, Repr, Inhabited

mutual

/-- A JSON value. -/
inductive Json where
  | null
  | bool (value : Bool)
  | number (value : Json.Num)
  | string (text : String)
  | array (items : Json.Items)
  | object (members : Json.Members)
deriving DecidableEq, Repr, Inhabited

/-- The items of an array. -/
inductive Json.Items where
  | nil
  | cons (item : Json) (rest : Json.Items)
deriving DecidableEq, Repr, Inhabited

/-- The members of an object. -/
inductive Json.Members where
  | nil
  | cons (key : String) (value : Json) (rest : Json.Members)
deriving DecidableEq, Repr, Inhabited

end

namespace Json

/-- A number as the floating point number nearest to it. -/
def Num.toNumber : Num → Number
  | .int value => .ofInt value
  | .float value => value

/-! ## Items and members -/

namespace Items

/-- The array items of a list of values. -/
def ofList : List Json → Items
  | [] => .nil
  | item :: rest => .cons item (ofList rest)

/-- The items as a list. -/
def toList : Items → List Json
  | .nil => []
  | .cons item rest => item :: rest.toList

end Items

namespace Members

/-- Puts a member in the place of its key, over the member that had the key before. -/
def insert (key : String) (value : Json) : Members → Members
  | .nil => .cons key value .nil
  | .cons key' value' rest =>
    if key < key' then .cons key value (.cons key' value' rest)
    else if key = key' then .cons key value rest
    else .cons key' value' (insert key value rest)

/-- The members of a list of pairs, where a later pair wins over an earlier one. -/
def ofList (pairs : List (String × Json)) : Members :=
  pairs.foldl (fun members pair => members.insert pair.1 pair.2) .nil

/-- The members as a list of pairs. -/
def toList : Members → List (String × Json)
  | .nil => []
  | .cons key value rest => (key, value) :: rest.toList

/-- The value of a key. -/
def get? (key : String) : Members → Option Json
  | .nil => none
  | .cons key' value rest => if key = key' then some value else rest.get? key

end Members

/-- An array of values. -/
def ofItems (items : List Json) : Json :=
  .array (.ofList items)

/-- An object of members. -/
def ofMembers (members : List (String × Json)) : Json :=
  .object (.ofList members)

/-- A whole number. -/
def ofNat (n : Nat) : Json :=
  .number (.int n)

/-! ## Nesting -/

mutual

/-- How many arrays and objects stand in one another, the value itself included. -/
def nesting : Json → Nat
  | .array items => items.nesting + 1
  | .object members => members.nesting + 1
  | _ => 0

/-- The deepest nesting among the items. -/
def Items.nesting : Items → Nat
  | .nil => 0
  | .cons item rest => max item.nesting rest.nesting

/-- The deepest nesting among the values of the members. -/
def Members.nesting : Members → Nat
  | .nil => 0
  | .cons _ value rest => max value.nesting rest.nesting

end

mutual

/-- The nesting of a value, counted no further than a limit: nothing below the limit is
visited. -/
def nestingUpTo : Nat → Json → Nat
  | 0, _ => 0
  | limit + 1, .array items => items.nestingUpTo limit + 1
  | limit + 1, .object members => members.nestingUpTo limit + 1
  | _ + 1, _ => 0

/-- The deepest nesting among the items, counted no further than a limit. -/
def Items.nestingUpTo : Nat → Items → Nat
  | _, .nil => 0
  | limit, .cons item rest => max (item.nestingUpTo limit) (rest.nestingUpTo limit)

/-- The deepest nesting among the values of the members, counted no further than a limit. -/
def Members.nestingUpTo : Nat → Members → Nat
  | _, .nil => 0
  | limit, .cons _ value rest => max (value.nestingUpTo limit) (rest.nestingUpTo limit)

end

end Json

end Verdict
