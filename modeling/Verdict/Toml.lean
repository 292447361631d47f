import Verdict.Setting

/-!
# TOML documents under construction

While a TOML document is read, every table remembers how it came about, because that decides what
may still be added to it: a table of a header may not be opened by another header, a table that
only a longer header implies may, and a table of dotted keys takes dotted keys only. Values are
closed. `Document.entries` are the settings of a finished document.
-/

namespace Verdict

namespace Toml

/-- How a table came about: by its own header, by a longer header, or by dotted keys. -/
inductive Origin where
  | header
  | implied
  | dotted
deriving DecidableEq, Repr, Inhabited

mutual

/-- What a name stands for in a document: a value, a table, or a list of tables that grows. -/
inductive Node where
  | value (setting : Setting)
  | table (origin : Origin) (nodes : Nodes)
  | tables (list : Tables)
deriving DecidableEq, Repr, Inhabited

/-- The names of a table. -/
inductive Nodes where
  | nil
  | cons (name : String) (node : Node) (rest : Nodes)
deriving DecidableEq, Repr, Inhabited

/-- The tables of a list. -/
inductive Tables where
  | nil
  | cons (nodes : Nodes) (rest : Tables)
deriving DecidableEq, Repr, Inhabited

end

/-- What a name stands for. -/
def Nodes.get? (name : String) : Nodes → Option Node
  | .nil => none
  | .cons name' node rest => if name = name' then some node else rest.get? name

/-- Lets a name stand for something else. -/
def Nodes.set (name : String) (node : Node) : Nodes → Nodes
  | .nil => .cons name node .nil
  | .cons name' node' rest =>
    if name = name' then .cons name node rest else .cons name' node' (rest.set name node)

/-- Adds a table at the end of a list. -/
def Tables.push (nodes : Nodes) : Tables → Tables
  | .nil => .cons nodes .nil
  | .cons first rest => .cons first (rest.push nodes)

/-- Changes the last table of a list. -/
def Tables.changeLast (change : Nodes → Option Nodes) : Tables → Option Tables
  | .nil => none
  | .cons nodes .nil => (change nodes).map (.cons · .nil)
  | .cons nodes rest => (rest.changeLast change).map (.cons nodes)

/-- Changes the table at a path from another one. Tables that are not there are made, and the last
table of a list stands for the list. A value has nothing below it, and dotted keys do not lead
into a table that has a header. -/
def changeAt (dotted : Bool) (change : Origin → Nodes → Option Nodes) :
    List String → Origin → Nodes → Option Nodes
  | [], origin, nodes => change origin nodes
  | name :: path, _, nodes =>
    match nodes.get? name with
    | none =>
      let origin := if dotted then .dotted else .implied
      (changeAt dotted change path origin .nil).map fun below =>
        nodes.set name (.table origin below)
    | some (.value _) => none
    | some (.table origin below) =>
      if dotted && origin = .header then none
      else (changeAt dotted change path origin below).map fun below' =>
        nodes.set name (.table origin below')
    | some (.tables list) =>
      (list.changeLast (changeAt dotted change path .header)).map fun list' =>
        nodes.set name (.tables list')

/-- Splits a path into the way to its last name and that name. -/
def splitPath : List String → Option (List String × String)
  | [] => none
  | [name] => some ([], name)
  | name :: path => (splitPath path).map fun (way, last) => (name :: way, last)

/-- Opens the table of a header. -/
def openTable (path : List String) (document : Nodes) : Option Nodes := do
  let (way, name) ← splitPath path
  changeAt false (fun _ nodes =>
    match nodes.get? name with
    | none => some (nodes.set name (.table .header .nil))
    | some (.table .implied below) => some (nodes.set name (.table .header below))
    | _ => none) way .header document

/-- Begins another table of the list of a header. -/
def pushTable (path : List String) (document : Nodes) : Option Nodes := do
  let (way, name) ← splitPath path
  changeAt false (fun _ nodes =>
    match nodes.get? name with
    | none => some (nodes.set name (.tables (.cons .nil .nil)))
    | some (.tables list) => some (nodes.set name (.tables (list.push .nil)))
    | _ => none) way .header document

/-- Gives a key its value in a table. A key has one value only, and a dotted key does not add to
a table that came about in another way. -/
def putValue (key : List String) (value : Setting) (table : Nodes) : Option Nodes := do
  let (way, name) ← splitPath key
  changeAt true (fun origin nodes =>
    if !way.isEmpty && origin ≠ .dotted then none
    else
      match nodes.get? name with
      | none => some (nodes.set name (.value value))
      | some _ => none) way .header table

/-- Gives a key its value in the table of the last header. -/
def putAt (header key : List String) (value : Setting) (document : Nodes) : Option Nodes :=
  changeAt false (fun _ nodes => putValue key value nodes) header .header document

mutual

/-- The setting that a name stands for. -/
def Node.setting : Node → Setting
  | .value setting => setting
  | .table _ nodes => .table nodes.entries
  | .tables list => .list list.items

/-- The settings of a table. -/
def Nodes.entries : Nodes → Setting.Entries
  | .nil => .nil
  | .cons name node rest => .cons name node.setting rest.entries

/-- The settings of a list of tables. -/
def Tables.items : Tables → Setting.Elements
  | .nil => .nil
  | .cons nodes rest => .cons (.table nodes.entries) rest.items

end

end Toml

end Verdict
