import Verdict.Value

/-!
# Records

A record gives values to names. Its fields are kept in ascending order of their names, each name
once, and this order is part of the type.
-/

namespace Verdict

/-- A field: a name and its value. -/
abbrev Field := String × Value

/-- Values under names, in ascending order of the names. -/
structure Record where
  fields : List Field
  ascending : fields.Pairwise (fun a b => a.1 < b.1)
deriving DecidableEq, Repr

namespace Record

/-- Sets a field at its place in the order, over the field that had its name. -/
def setField (name : String) (value : Value) : List Field → List Field
  | [] => [(name, value)]
  | field :: rest =>
    if name < field.1 then (name, value) :: field :: rest
    else if name = field.1 then (name, value) :: rest
    else field :: setField name value rest

/-- Every field was there before, unless it is the one that was set. -/
theorem eq_or_mem_of_mem_setField {name : String} {value : Value} {fields : List Field}
    {f : Field} (h : f ∈ setField name value fields) : f = (name, value) ∨ f ∈ fields := by
  fun_induction setField name value fields with
  | case1 => exact .inl (List.mem_singleton.mp h)
  | case2 field rest below => exact List.mem_cons.mp h
  | case3 field rest _ equal => exact (List.mem_cons.mp h).imp_right (List.mem_cons_of_mem _)
  | case4 field rest _ _ ih =>
    obtain rfl | later := List.mem_cons.mp h
    · exact .inr (List.mem_cons_self ..)
    · exact (ih later).imp_right (List.mem_cons_of_mem _)

/-- Setting a field keeps the order. -/
theorem ascending_setField (name : String) (value : Value) {fields : List Field}
    (h : fields.Pairwise (fun a b => a.1 < b.1)) :
    (setField name value fields).Pairwise (fun a b => a.1 < b.1) := by
  fun_induction setField name value fields with
  | case1 => simp
  | case2 field rest below =>
    have tail := (List.pairwise_cons.mp h).1
    simp only [List.pairwise_cons, List.forall_mem_cons]
    exact ⟨⟨below, fun f hf => String.lt_trans below (tail f hf)⟩, List.pairwise_cons.mp h⟩
  | case3 field rest _ equal =>
    simpa only [List.pairwise_cons, equal] using h
  | case4 field rest not_below differs ih =>
    have above : field.1 < name := by
      by_cases lt : field.1 < name
      · exact lt
      · exact absurd (String.le_antisymm (String.not_lt.mp lt) (String.not_lt.mp not_below)) differs
    obtain ⟨head, tail⟩ := List.pairwise_cons.mp h
    refine List.pairwise_cons.mpr ⟨fun f hf => ?_, ih tail⟩
    obtain rfl | old := eq_or_mem_of_mem_setField hf
    · exact above
    · exact head f old

/-- The record without fields. -/
def empty : Record := ⟨[], List.Pairwise.nil⟩

instance : Inhabited Record := ⟨empty⟩

/-- The record with one field set. -/
def insert (name : String) (value : Value) (record : Record) : Record :=
  ⟨setField name value record.fields, ascending_setField name value record.ascending⟩

/-- The record of a list of fields, where a later field wins over an earlier one. -/
def ofList (fields : List Field) : Record :=
  fields.foldl (fun record field => record.insert field.1 field.2) empty

/-- The value of a name. -/
def get? (name : String) (record : Record) : Option Value :=
  (record.fields.find? fun field => field.1 == name).map (·.2)

/-- The number of fields. -/
def size (record : Record) : Nat :=
  record.fields.length

/-- Whether there are no fields. -/
def isEmpty (record : Record) : Bool :=
  record.fields.isEmpty

/-- Equality of names and values, field by field. -/
def same (a b : Record) : Bool :=
  a.size == b.size && (a.fields.zip b.fields).all fun (f, g) => f.1 == g.1 && f.2.same g.2

end Record

end Verdict
