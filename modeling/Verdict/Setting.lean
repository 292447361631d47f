import Verdict.Number.Decimal

/-!
# Settings

A `Setting` is a scalar, a list or a table of settings under names. `Setting.lay` lays one over
another: tables are merged name by name, and everything else replaces what was there.
`Setting.layAt` does so at a path of names and places.
-/

namespace Verdict

mutual

/-- A scalar, a list of settings or a table of settings under names; `nothing` stands at the places
of a list that were never set. -/
inductive Setting where
  | nothing
  | text (content : String)
  | integer (value : Int)
  | float (value : Number)
  | bool (value : Bool)
  | list (items : Setting.Elements)
  | table (entries : Setting.Entries)
deriving DecidableEq, Repr, Inhabited

/-- The settings of a list. -/
inductive Setting.Elements where
  | nil
  | cons (item : Setting) (rest : Setting.Elements)
deriving DecidableEq, Repr, Inhabited

/-- The entries of a table. -/
inductive Setting.Entries where
  | nil
  | cons (name : String) (value : Setting) (rest : Setting.Entries)
deriving DecidableEq, Repr, Inhabited

end

namespace Setting

/-- The settings of a list. -/
def Elements.ofList : List Setting → Elements
  | [] => .nil
  | item :: rest => .cons item (ofList rest)

/-- The setting at a place of a list. -/
def Elements.get? : Elements → Nat → Option Setting
  | .nil, _ => none
  | .cons item _, 0 => some item
  | .cons _ rest, place + 1 => rest.get? place

/-- The setting of a name. -/
def Entries.get? (name : String) : Entries → Option Setting
  | .nil => none
  | .cons name' value rest => if name = name' then some value else rest.get? name

/-- Gives a name its setting, over the one that it had. -/
def Entries.set (name : String) (value : Setting) : Entries → Entries
  | .nil => .cons name value .nil
  | .cons name' value' rest =>
    if name = name' then .cons name value rest else .cons name' value' (rest.set name value)

/-- The number of settings in a list. -/
def Elements.length : Elements → Nat
  | .nil => 0
  | .cons _ rest => rest.length + 1

/-- Changes the setting at a place of a list; places before it that are not there are filled with
nothing. -/
def Elements.change (change : Option Setting → Setting) : Nat → Elements → Elements
  | 0, .nil => .cons (change none) .nil
  | 0, .cons item rest => .cons (change (some item)) rest
  | place + 1, .nil => .cons .nothing (Elements.change change place .nil)
  | place + 1, .cons item rest => .cons item (rest.change change place)

/-- So many places with nothing in front of a list. -/
def Elements.shift : Nat → Elements → Elements
  | 0, items => items
  | count + 1, items => .cons .nothing (items.shift count)

/-- Changes the setting at a place that counts from the end if it is below zero; a place before
the first one moves the list. -/
def Elements.changeAt (change : Option Setting → Setting) (place : Int) (items : Elements) :
    Elements :=
  if 0 ≤ place then items.change change place.natAbs
  else if place.natAbs ≤ items.length then items.change change (items.length - place.natAbs)
  else (items.shift (place.natAbs - items.length)).change change 0

/-- The entries of a table; anything else has none. -/
def entriesOf : Option Setting → Entries
  | some (.table entries) => entries
  | _ => .nil

/-- The settings of a list; anything else has none. -/
def elementsOf : Option Setting → Elements
  | some (.list items) => items
  | _ => .nil

/-- What an empty table leaves behind: what was there, or a table if nothing was. -/
def orEmpty : Option Setting → Setting
  | none => .table .nil
  | some .nothing => .table .nil
  | some value => value

mutual

/-- Lays a setting over the one that is there, if any. A table takes the place of what is no table
as soon as it has an entry. -/
def lay : Setting → Option Setting → Setting
  | .table .nil, below => orEmpty below
  | .table entries, below => .table (entries.lay (entriesOf below))
  | value, _ => value

/-- Lays the entries of a table over those that are there. -/
def Entries.lay : Entries → Entries → Entries
  | .nil, below => below
  | .cons name value rest, below => rest.lay (below.set name (value.lay (below.get? name)))

end

/-- A step of a path: to a name of a table or to a place of a list. -/
inductive Step where
  | name (key : String)
  | place (index : Int)
deriving DecidableEq, Repr, Inhabited

/-- Lays a setting over the one at a path. Whatever stands in the way of the path gives way to a
table or to a list. -/
def layAt : List Step → Setting → Option Setting → Setting
  | [], value, below => value.lay below
  | .name key :: path, value, below =>
    let entries := entriesOf below
    .table (entries.set key (layAt path value (entries.get? key)))
  | .place index :: path, value, below =>
    .list ((elementsOf below).changeAt (layAt path value) index)

/-! ## Reading scalars -/

/-- A finite or infinite number by position, without a point unless it has places. -/
def floatText : Number → String
  | .nan => "NaN"
  | .real negative m =>
    let unsigned := if m.isFinite then m.shortest.text else "inf"
    if negative then "-" ++ unsigned else unsigned

/-- A setting as a text; lists and tables are none. -/
def toText? : Setting → Option String
  | .text content => some content
  | .integer value => some (Text.decimalInt value)
  | .float value => some (floatText value)
  | .bool true => some "true"
  | .bool false => some "false"
  | _ => none

/-- A setting as a truth value: numbers other than zero are true, and some words stand for
either. -/
def toBool? : Setting → Option Bool
  | .bool value => some value
  | .integer value => some (value != 0)
  | .float value => some (!value.same .zero)
  | .text content =>
    match content.toLower with
    | "1" | "true" | "on" | "yes" => some true
    | "0" | "false" | "off" | "no" => some false
    | _ => none
  | _ => none

end Setting

end Verdict
