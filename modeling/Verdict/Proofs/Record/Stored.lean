import Verdict.Proofs.Json.Numbers
import Verdict.Proofs.Json.Ordered
import Verdict.Record.Json

/-!
# Members that store fields

`Record.Stores` says that members hold the scalars of a list of fields, one member for each field
and in the same order. Putting a member in its place and setting a field go hand in hand
(`Stores.insert`), and what members with ascending keys decode to is exactly the record whose
fields they store (`ofJson_eq_ok_iff_stores`). A property that all scalars of the members have is one
of all decoded values (`forall_of_decodeMembers`), so values with all numbers in range store finite
numbers only (`finite_of_ofJson`).
-/

namespace Verdict

namespace Record

theorem eq_of_fields_eq {a b : Record} (h : a.fields = b.fields) : a = b := by
  cases a
  cases b
  cases h
  rfl

/-- A field with the greatest name comes last. -/
theorem setField_of_lt {name : String} {value : Value} {fields : List Field}
    (h : ∀ field ∈ fields, field.1 < name) :
    setField name value fields = fields ++ [(name, value)] := by
  induction fields with
  | nil => rfl
  | cons field rest ih =>
      have hlt := h field List.mem_cons_self
      have hne : name ≠ field.1 := by
        rintro rfl
        exact String.lt_irrefl _ hlt
      rw [setField, if_neg (String.lt_asymm hlt), if_neg hne,
        ih fun later hlater => h later (List.mem_cons_of_mem _ hlater)]
      rfl

/-- The members hold the scalars of the fields, one for each and in the same order. -/
inductive Stores : Json.Members → List Field → Prop where
  | nil : Stores .nil []
  | cons {name : String} {value : Json} {scalar : Value} {rest : Json.Members}
      {fields : List Field} (hvalue : Value.ofJson? value = some scalar)
      (hrest : Stores rest fields) : Stores (.cons name value rest) ((name, scalar) :: fields)

namespace Stores

variable {members : Json.Members} {fields fields' : List Field}

theorem unique (h : Stores members fields) (h' : Stores members fields') : fields = fields' := by
  induction h generalizing fields' with
  | nil =>
      cases h'
      rfl
  | cons hvalue _ ih =>
      cases h' with
      | cons hvalue' hrest' =>
          rw [hvalue, Option.some.injEq] at hvalue'
          rw [hvalue', ih hrest']

theorem keys_eq (h : Stores members fields) : members.keys = fields.map (·.1) := by
  induction h with
  | nil => rfl
  | cons _ _ ih => rw [Json.Members.keys, ih, List.map_cons]

/-- A member that is put in its place stores the field that is set. -/
theorem insert (h : Stores members fields) {name : String} {value : Json} {scalar : Value}
    (hvalue : Value.ofJson? value = some scalar) :
    Stores (members.insert name value) (setField name scalar fields) := by
  induction h with
  | nil => exact .cons hvalue .nil
  | @cons name' value' scalar' rest fields hvalue' hrest ih =>
      rw [Json.Members.insert, setField]
      split
      · exact .cons hvalue (.cons hvalue' hrest)
      split
      · exact .cons hvalue hrest
      · exact .cons hvalue' ih

/-- Every member holds a scalar. -/
theorem exists_of_get? (h : Stores members fields) {name : String} {value : Json}
    (hget : members.get? name = some value) : ∃ scalar, Value.ofJson? value = some scalar := by
  induction h with
  | nil => cases hget
  | @cons name' value' scalar rest fields hvalue _ ih =>
      rw [Json.Members.get?] at hget
      split at hget
      · cases hget
        exact ⟨scalar, hvalue⟩
      · exact ih hget

/-- A name has the value that the member under this key stores. -/
theorem find?_eq (h : Stores members fields) (name : String) :
    (fields.find? fun field => field.1 == name).map (·.2) =
      (members.get? name).bind Value.ofJson? := by
  induction h with
  | nil => rfl
  | @cons name' value scalar rest fields hvalue hrest ih =>
      rw [Json.Members.get?, List.find?_cons]
      by_cases heq : name = name'
      · subst heq
        rw [if_pos rfl, Option.bind_some, hvalue, beq_self_eq_true]
        rfl
      · rw [if_neg heq, beq_eq_false_iff_ne.mpr (Ne.symm heq), ih]

end Stores

theorem get?_of_stores {members : Json.Members} {record : Record}
    (h : Stores members record.fields) (name : String) :
    record.get? name = (members.get? name).bind Value.ofJson? :=
  h.find?_eq name

/-! ## Properties of all values -/

section AllValues

variable {P : Value → Prop}

/-- Setting a field to a value with a property keeps the property of all values. -/
theorem forall_insert {record : Record} (h : ∀ field ∈ record.fields, P field.2) (name : String)
    {value : Value} (hvalue : P value) : ∀ field ∈ (record.insert name value).fields, P field.2 := by
  intro field hfield
  obtain rfl | old := eq_or_mem_of_mem_setField hfield
  · exact hvalue
  · exact h field old

/-- If the scalars that members hold have a property, decoding keeps the property of all values. -/
theorem forall_of_decodeMembers {J : Json.Members → Prop}
    (hmember : ∀ {name : String} {value : Json} {rest : Json.Members}, J (.cons name value rest) →
      (∀ scalar, Value.ofJson? value = some scalar → P scalar) ∧ J rest) :
    ∀ {members : Json.Members} {record result : Record}, J members →
    (∀ field ∈ record.fields, P field.2) → decodeMembers record members = .ok result →
    ∀ field ∈ result.fields, P field.2
  | .nil, record, result, _, hrecord, h => by
      cases h
      exact hrecord
  | .cons name value rest, record, result, hmembers, hrecord, h => by
      obtain ⟨hvalue, hrest⟩ := hmember hmembers
      rw [decodeMembers] at h
      split at h
      · cases h
      · next scalar hscalar =>
          exact forall_of_decodeMembers hmember hrest
            (forall_insert hrecord name (hvalue scalar hscalar)) h

end AllValues

/-! ## Decoding -/

/-- Members decode to the fields that they store, behind the fields that were there. -/
theorem decodeMembers_of_stores {members : Json.Members} {fields : List Field}
    (h : Stores members fields) (record : Record)
    (hascending : (record.fields ++ fields).Pairwise (fun a b => a.1 < b.1)) :
    decodeMembers record members = .ok ⟨record.fields ++ fields, hascending⟩ := by
  induction h generalizing record with
  | nil =>
      rw [decodeMembers]
      exact congrArg _ (eq_of_fields_eq (List.append_nil _).symm)
  | @cons name value scalar rest fields hvalue hrest ih =>
      have hlast : setField name scalar record.fields = record.fields ++ [(name, scalar)] :=
        setField_of_lt fun field hfield =>
          (List.pairwise_append.mp hascending).2.2 field hfield _ List.mem_cons_self
      have hfields : (record.insert name scalar).fields ++ fields =
          record.fields ++ (name, scalar) :: fields := by
        show setField name scalar record.fields ++ fields = _
        rw [hlast, List.append_assoc]
        rfl
      rw [decodeMembers, hvalue]
      simp only [ih _ (hfields ▸ hascending), hfields]

/-- Members either store fields, or one of them holds no scalar and is refused. -/
theorem exists_stores_or_decodeMembers_eq_error : ∀ (members : Json.Members),
    (∃ fields, Stores members fields) ∨
      ∀ record, decodeMembers record members = .error (.data .noScalar)
  | .nil => .inl ⟨[], .nil⟩
  | .cons name value rest => by
      cases hvalue : Value.ofJson? value with
      | none =>
          right
          intro record
          rw [decodeMembers, hvalue]
      | some scalar =>
          obtain ⟨fields, hrest⟩ | hrest := exists_stores_or_decodeMembers_eq_error rest
          · exact .inl ⟨_, .cons hvalue hrest⟩
          · right
            intro record
            rw [decodeMembers, hvalue]
            exact hrest _

/-- An object decodes to the record whose fields its members store. -/
theorem ofJson_of_stores {members : Json.Members} {record : Record}
    (h : Stores members record.fields) : ofJson (.object members) = .ok record :=
  decodeMembers_of_stores h empty record.ascending

/-- An object whose members store no fields is refused. -/
theorem ofJson_of_not_stores {members : Json.Members} (h : ∀ fields, ¬ Stores members fields) :
    ofJson (.object members) = .error (.data .noScalar) := by
  obtain ⟨fields, hstores⟩ | herror := exists_stores_or_decodeMembers_eq_error members
  · exact absurd hstores (h fields)
  · exact herror empty

theorem pairwise_keys_of_ordered : ∀ {members : Json.Members}, members.Ordered →
    members.keys.Pairwise (· < ·)
  | .nil, _ => .nil
  | .cons _ _ _, ⟨hkeys, _, hrest⟩ =>
      List.pairwise_cons.mpr ⟨hkeys, pairwise_keys_of_ordered hrest⟩

/-- Members with ascending keys decode to a record exactly if they store its fields. -/
theorem ofJson_eq_ok_iff_stores {members : Json.Members} (hordered : members.Ordered)
    {record : Record} : ofJson (.object members) = .ok record ↔ Stores members record.fields := by
  refine ⟨fun h => ?_, ofJson_of_stores⟩
  obtain ⟨fields, hstores⟩ | herror := exists_stores_or_decodeMembers_eq_error members
  · have hascending : fields.Pairwise (fun a b => a.1 < b.1) := by
      have hkeys := pairwise_keys_of_ordered hordered
      rwa [hstores.keys_eq, List.pairwise_map] at hkeys
    have hdecoded : ofJson (.object members) = .ok ⟨fields, hascending⟩ := ofJson_of_stores hstores
    rw [hdecoded] at h
    cases h
    exact hstores
  · rw [ofJson, herror] at h
    cases h

end Record

/-! ## Finite numbers -/

/-- Whether a value is no number or a finite one. -/
def Value.isFinite : Value → Bool
  | .number n => n.isFinite
  | _ => true

theorem Value.isFinite_of_ofJson? {json : Json} {value : Value}
    (hjson : json.EveryNumber Json.Num.InRange) (h : ofJson? json = some value) :
    value.isFinite := by
  cases json with
  | number n =>
      cases h
      exact Json.Num.InRange.isFinite_toNumber hjson
  | _ => cases h <;> rfl

namespace Record

/-- Every number in a field is finite. -/
def Finite (record : Record) : Prop :=
  ∀ field ∈ record.fields, field.2.isFinite

instance (record : Record) : Decidable record.Finite :=
  inferInstanceAs (Decidable (∀ field ∈ record.fields, field.2.isFinite))

theorem finite_empty : Finite empty :=
  fun _ hfield => absurd hfield List.not_mem_nil

/-- A value with all numbers in range stores finite numbers only. -/
theorem finite_of_ofJson {json : Json} {record : Record}
    (hjson : json.EveryNumber Json.Num.InRange) (h : ofJson json = .ok record) :
    record.Finite := by
  cases json with
  | object members =>
      refine forall_of_decodeMembers (P := (·.isFinite)) (fun hmembers => ?_) hjson finite_empty h
      exact ⟨fun _ => Value.isFinite_of_ofJson? hmembers.1, hmembers.2⟩
  | _ => cases h

end Record

end Verdict
