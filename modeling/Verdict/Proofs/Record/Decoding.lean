import Verdict.Proofs.Record.Stored

/-!
# Two decoders of records

A record is decoded from a text in one pass, or from the value that the text stands for. Both take
the members one by one in the order of the text, the one setting fields and the other putting
members in place, and after each member the members so far store the fields so far
(`Record.Stores`). So what the one pass returns, the other way returns too
(`Record.exists_toJson_of_decodeWritten`). The one pass also looks at members whose key comes again,
and refuses them if they hold no scalar; where no key comes again, both ways agree
(`Record.decodeWritten_of_toJson`). In either of them the last member with a key wins
(`Json.Source.Members.get?_of_toJson`).
-/

namespace Verdict

namespace Json

/-! ## Looking up members -/

theorem Members.get?_insert (key name : String) (value : Json) : ∀ (members : Members),
    (members.insert key value).get? name = if name = key then some value else members.get? name
  | .nil => rfl
  | .cons key' value' rest => by
      rw [insert]
      split
      · rfl
      split
      · next equal =>
          subst equal
          simp only [get?]
          split <;> rfl
      · next differs =>
          simp only [get?, get?_insert key name value rest]
          by_cases hname : name = key'
          · subst hname
            rw [if_pos rfl, if_neg (Ne.symm differs), if_pos rfl]
          · rw [if_neg hname, if_neg hname]

/-! ## Members of a text -/

namespace Source

/-- The value of a member; the object that the member stands in takes one level of the nesting. -/
def memberValue? (source : Source) : Option Json :=
  (source.toJson (maxNesting - 1)).toOption

namespace Members

/-- The keys as they stand in the text, each as often as it comes. -/
def keys : Members → List String
  | .cons key _ rest => key.toList ++ rest.keys
  | _ => []

/-- What stands under a key where it comes for the last time. -/
def last? (name : String) : Members → Option Source
  | .cons key value rest =>
    match rest.last? name with
    | some later => some later
    | none => if key = some name then some value else none
  | _ => none

theorem last?_eq_none_iff {name : String} : ∀ {members : Members},
    members.last? name = none ↔ name ∉ members.keys
  | .nil => by simp [last?, keys]
  | .fault _ => by simp [last?, keys]
  | .stray _ => by simp [last?, keys]
  | .brokenKey _ _ => by simp [last?, keys]
  | .cons key value rest => by
      have hlater : rest.last? name = none ↔ name ∉ rest.keys := last?_eq_none_iff
      rw [last?, keys, List.mem_append, Option.mem_toList, not_or, ← hlater]
      cases rest.last? name with
      | some later => simp
      | none => simp

/-- The last member with a key is the one that decoding keeps, and it decodes as any other. -/
theorem get?_of_toJson {room : Nat} (name : String) : ∀ {written : Members}
    {before after : Json.Members}, written.toJson room before = .ok after →
    (∀ source, written.last? name = some source →
      ∃ value, source.toJson room = .ok value ∧ after.get? name = some value) ∧
    (written.last? name = none → after.get? name = before.get? name)
  | .nil, before, after, h => by
      cases h
      refine ⟨fun source hsource => ?_, fun _ => rfl⟩
      cases hsource
  | .fault _, before, after, h => nomatch h
  | .stray _, before, after, h => nomatch h
  | .brokenKey _ _, before, after, h => nomatch h
  | .cons none _ _, before, after, h => nomatch h
  | .cons (some key) value rest, before, after, h => by
      rw [toJson] at h
      split at h
      · cases h
      · next decoded hdecoded =>
          obtain ⟨hlater, hnever⟩ := get?_of_toJson name h
          rw [last?]
          cases hrest : rest.last? name with
          | some later =>
              refine ⟨fun source hsource => hlater source (hrest.trans hsource), fun hnone => ?_⟩
              cases hnone
          | none =>
              have hget := (hnever hrest).trans (Json.Members.get?_insert key name decoded before)
              by_cases hkey : key = name
              · subst hkey
                rw [if_pos rfl] at hget
                simp only [if_true]
                refine ⟨fun source hsource => ?_, fun hnone => ?_⟩
                · cases hsource
                  exact ⟨decoded, hdecoded, hget⟩
                · cases hnone
              · rw [if_neg (Ne.symm hkey)] at hget
                simp only [Option.some.injEq, if_neg hkey]
                refine ⟨fun source hsource => ?_, fun _ => hget⟩
                cases hsource

end Members

end Source

/-! ## Whole texts -/

/-- A text stands for an object if members are written in it that decode, with nothing but blanks
behind them. -/
theorem parse_eq_object_iff {text : String} {members : Members} :
    parse text = .ok (.object members) ↔
      ∃ written, (Source.read text).1 = .object written ∧
        written.toJson (Source.maxNesting - 1) .nil = .ok members ∧
        (Source.read text).2.all isSpace = true := by
  rw [parse, Source.decodeWhole_eq_ok_iff]
  constructor
  · rintro ⟨hdecoded, hblank⟩
    generalize (Source.read text).1 = source at hdecoded
    cases source with
    | object written =>
        rw [Source.maxNesting, Source.toJson] at hdecoded
        cases hmembers : written.toJson 126 .nil with
        | error e =>
            rw [hmembers] at hdecoded
            cases hdecoded
        | ok decoded =>
            rw [hmembers] at hdecoded
            cases hdecoded
            exact ⟨written, rfl, hmembers, hblank⟩
    | number numeral =>
        rw [Source.maxNesting, Source.toJson] at hdecoded
        split at hdecoded <;> cases hdecoded
    | string text =>
        cases text <;> cases hdecoded
    | array items =>
        rw [Source.maxNesting, Source.toJson] at hdecoded
        cases hitems : items.toJson 126 <;> rw [hitems] at hdecoded <;> cases hdecoded
    | _ => cases hdecoded
  · rintro ⟨written, hread, hmembers, hblank⟩
    refine ⟨?_, hblank⟩
    rw [hread, Source.maxNesting, Source.toJson]
    exact congrArg (Except.map object) hmembers

end Json

namespace Record

/-- What the one pass takes up is decoded the other way too, and stores the fields. -/
theorem exists_toJson_of_decodeWritten {room : Nat} : ∀ {written : Json.Source.Members}
    {before : Json.Members} {record result : Record}, Stores before record.fields →
    decodeWritten room record written = .ok result →
    ∃ after, written.toJson room before = .ok after ∧ Stores after result.fields
  | .nil, before, record, result, hstores, h => by
      cases h
      exact ⟨before, rfl, hstores⟩
  | .fault _, before, record, result, hstores, h => nomatch h
  | .stray _, before, record, result, hstores, h => nomatch h
  | .brokenKey _ _, before, record, result, hstores, h => nomatch h
  | .cons none _ _, before, record, result, hstores, h => nomatch h
  | .cons (some name) value rest, before, record, result, hstores, h => by
      rw [decodeWritten] at h
      split at h
      · cases h
      · next json hjson =>
          split at h
          · cases h
          · next scalar hscalar =>
              rw [Json.Source.Members.toJson, hjson]
              exact exists_toJson_of_decodeWritten (hstores.insert hscalar) h

/-- Members with a key each are taken up in one pass if the decoded ones store fields: each of them
is still there in the end, so it holds a scalar. -/
theorem decodeWritten_of_toJson {room : Nat} : ∀ {written : Json.Source.Members}
    {before after : Json.Members} {record result : Record}, written.keys.Nodup →
    written.toJson room before = .ok after → Stores before record.fields →
    Stores after result.fields → decodeWritten room record written = .ok result
  | .nil, before, after, record, result, _, h, hbefore, hafter => by
      cases h
      exact congrArg _ (eq_of_fields_eq (hbefore.unique hafter))
  | .fault _, before, after, record, result, _, h, _, _ => nomatch h
  | .stray _, before, after, record, result, _, h, _, _ => nomatch h
  | .brokenKey _ _, before, after, record, result, _, h, _, _ => nomatch h
  | .cons none _ _, before, after, record, result, _, h, _, _ => nomatch h
  | .cons (some key) value rest, before, after, record, result, hkeys, h, hbefore, hafter => by
      obtain ⟨hnew, hrest⟩ := List.nodup_cons.mp hkeys
      rw [Json.Source.Members.toJson] at h
      split at h
      · cases h
      · next json hjson =>
          have hkept : after.get? key = some json := by
            rw [(Json.Source.Members.get?_of_toJson key h).2
              (Json.Source.Members.last?_eq_none_iff.mpr hnew), Json.Members.get?_insert, if_pos rfl]
          obtain ⟨scalar, hscalar⟩ := hafter.exists_of_get? hkept
          rw [decodeWritten, hjson]
          simp only [hscalar]
          exact decodeWritten_of_toJson hrest h (hbefore.insert hscalar) hafter

/-- A text is decoded in one pass if members are written in it that are taken up, with nothing but
blanks behind them. -/
theorem ofJsonText_eq_ok_iff {text : String} {record : Record} :
    ofJsonText text = .ok record ↔
      ∃ written, (Json.Source.read text).1 = .object written ∧
        decodeWritten (Json.Source.maxNesting - 1) empty written = .ok record ∧
        (Json.Source.read text).2.all Json.isSpace = true := by
  rw [ofJsonText, Json.Source.decodeWhole_eq_ok_iff]
  constructor
  · rintro ⟨hdecoded, hblank⟩
    generalize (Json.Source.read text).1 = source at hdecoded
    cases source with
    | object written => exact ⟨written, rfl, hdecoded, hblank⟩
    | _ => cases hdecoded
  · rintro ⟨written, hread, hdecoded, hblank⟩
    refine ⟨?_, hblank⟩
    rw [hread]
    exact hdecoded

/-- What a text is decoded to in one pass is stored by the members of the object that it stands
for. -/
theorem exists_parse_of_ofJsonText {text : String} {record : Record}
    (h : ofJsonText text = .ok record) :
    ∃ written members, (Json.Source.read text).1 = .object written ∧
      written.toJson (Json.Source.maxNesting - 1) .nil = .ok members ∧
      Json.parse text = .ok (.object members) ∧ Stores members record.fields := by
  obtain ⟨written, hread, hdecoded, hblank⟩ := ofJsonText_eq_ok_iff.mp h
  obtain ⟨members, hmembers, hstores⟩ := exists_toJson_of_decodeWritten .nil hdecoded
  have hparse := Json.parse_eq_object_iff.mpr ⟨written, hread, hmembers, hblank⟩
  exact ⟨written, members, hread, hmembers, hparse, hstores⟩

/-- Where no key comes again, the record that the value of a text stores is what the text is decoded
to in one pass. -/
theorem ofJsonText_of_ofJson {text : String} {v : Json} {record : Record}
    (hparse : Json.parse text = .ok v)
    (hkeys : ∀ written, (Json.Source.read text).1 = .object written → written.keys.Nodup)
    (h : ofJson v = .ok record) : ofJsonText text = .ok record := by
  cases v with
  | object members =>
      obtain ⟨written, hread, hmembers, hblank⟩ := Json.parse_eq_object_iff.mp hparse
      have hordered : members.Ordered := Json.ordered_of_parse hparse
      have hstores := (ofJson_eq_ok_iff_stores hordered).mp h
      have hempty : Stores .nil empty.fields := .nil
      have hdecoded := decodeWritten_of_toJson (hkeys written hread) hmembers hempty hstores
      exact ofJsonText_eq_ok_iff.mpr ⟨written, hread, hdecoded, hblank⟩
  | _ => cases h

section LastMember

variable {written : Json.Source.Members} {members : Json.Members} {record : Record}
  (hmembers : written.toJson (Json.Source.maxNesting - 1) .nil = .ok members)
  (hstores : Stores members record.fields)
include hmembers hstores

/-- A name has the value of the member that comes last under it. -/
theorem get?_eq_last? (name : String) :
    members.get? name = (written.last? name).bind Json.Source.memberValue? ∧
      record.get? name = (members.get? name).bind Value.ofJson? := by
  refine ⟨?_, get?_of_stores hstores name⟩
  obtain ⟨hlast, hnever⟩ := Json.Source.Members.get?_of_toJson name hmembers
  cases hcase : written.last? name with
  | none => exact hnever hcase
  | some source =>
      obtain ⟨value, hvalue, hget⟩ := hlast source hcase
      rw [hget, Option.bind_some, Json.Source.memberValue?, hvalue]
      rfl

/-- Where no key comes again, there is one field for each key. -/
theorem names_perm_keys (hkeys : written.keys.Nodup) :
    (record.fields.map (·.1)).Perm written.keys := by
  have hnames : (record.fields.map (·.1)).Nodup :=
    (List.pairwise_map.mpr record.ascending).imp fun hlt => String.ne_of_lt hlt
  refine (List.perm_ext_iff_of_nodup hnames hkeys).mpr fun name => not_iff_not.mp ?_
  rw [← hstores.keys_eq, ← Json.Members.get?_eq_none_iff, ← Json.Source.Members.last?_eq_none_iff]
  obtain ⟨hlast, hnever⟩ := Json.Source.Members.get?_of_toJson name hmembers
  refine ⟨fun hget => ?_, hnever⟩
  cases hcase : written.last? name with
  | none => rfl
  | some source =>
      obtain ⟨value, -, hvalue⟩ := hlast source hcase
      rw [hget] at hvalue
      cases hvalue

end LastMember

/-- The two decoders agree. A record that a text is decoded to in one pass is what the value of the
text stores, and in both the last member with a key counts. Where no key comes again, either both
ways give a record or none does; it is the same, with one field for each key and finite numbers
only. -/
theorem ofJsonText_agrees (text : String) :
    (∀ record, ofJsonText text = .ok record →
      ∃ written members, (Json.Source.read text).1 = .object written ∧
        Json.parse text = .ok (.object members) ∧ ofJson (.object members) = .ok record ∧
        ∀ name, members.get? name = (written.last? name).bind Json.Source.memberValue? ∧
          record.get? name = (members.get? name).bind Value.ofJson?) ∧
    (∀ v, Json.parse text = .ok v →
      (∀ written, (Json.Source.read text).1 = .object written → written.keys.Nodup) →
      ∀ record, (ofJsonText text = .ok record ↔ ofJson v = .ok record) ∧
        (ofJson v = .ok record → record.Finite ∧
          ∃ written, (Json.Source.read text).1 = .object written ∧
            (record.fields.map (·.1)).Perm written.keys)) := by
  refine ⟨fun record h => ?_, fun v hparse hkeys record => ⟨⟨fun h => ?_, ?_⟩, fun h => ?_⟩⟩
  · obtain ⟨written, members, hread, hmembers, hparse, hstores⟩ := exists_parse_of_ofJsonText h
    exact ⟨written, members, hread, hparse, ofJson_of_stores hstores,
      get?_eq_last? hmembers hstores⟩
  · obtain ⟨written, members, -, -, hobject, hstores⟩ := exists_parse_of_ofJsonText h
    obtain rfl : v = .object members := Except.ok.inj (hparse.symm.trans hobject)
    exact ofJson_of_stores hstores
  · exact ofJsonText_of_ofJson hparse hkeys
  · obtain ⟨written, members, hread, hmembers, hobject, hstores⟩ :=
      exists_parse_of_ofJsonText (ofJsonText_of_ofJson hparse hkeys h)
    exact ⟨finite_of_ofJson (Json.everyNumber_inRange_of_parse hparse) h, written, hread,
      names_perm_keys hmembers hstores (hkeys written hread)⟩

/-- Of two members `age` the later one is what both decoders keep, though it is no number. Members
in another order than that of their keys store the same record both ways. -/
theorem ofJsonText_agrees_repeated :
    let repeated := "\x7b\"age\":1,\"age\":\"old\"\x7d"
    let unordered := "\x7b\"b\":2.5,\"a\":true\x7d"
    let old : Record := ⟨[("age", .string "old")], by decide⟩
    let both : Record := ⟨[("a", .bool true), ("b", .number (.ofBits 0x4004000000000000))], by decide⟩
    (ofJsonText repeated = .ok old ∧
      ∃ members, Json.parse repeated = .ok (.object members) ∧
        ofJson (.object members) = .ok old ∧ members.get? "age" = some (.string "old")) ∧
    ∃ v, Json.parse unordered = .ok v ∧ ofJson v = .ok both ∧
      ofJsonText unordered = .ok both ∧ both.Finite := by
  intro repeated unordered old both
  have hrepeated : ofJsonText repeated = .ok old := by decide +kernel
  obtain ⟨written, members, hread, hparse, hdecoded, hlast⟩ :=
    (ofJsonText_agrees repeated).1 old hrepeated
  have hwritten : (Json.Source.read repeated).1 = .object
      (.cons (some "age") (.number ⟨false, ['1'], none, none⟩)
        (.cons (some "age") (.string (some "old")) .nil)) := by decide +kernel
  obtain rfl := Json.Source.object.inj (hwritten.symm.trans hread)
  refine ⟨⟨hrepeated, members, hparse, hdecoded, (hlast "age").1.trans rfl⟩, ?_⟩
  let sorted : Json.Members := .cons "a" (.bool true)
    (.cons "b" (.number (.float (.ofBits 0x4004000000000000))) .nil)
  have hsorted : Json.parse unordered = .ok (.object sorted) := by decide +kernel
  have hstored : ofJson (.object sorted) = .ok both :=
    ofJson_of_stores (.cons rfl (.cons rfl .nil))
  have hwritten' : (Json.Source.read unordered).1 = .object
      (.cons (some "b") (.number ⟨false, ['2'], some ['5'], none⟩)
        (.cons (some "a") (.bool true) .nil)) := by decide +kernel
  have hkeys : ∀ written, (Json.Source.read unordered).1 = .object written →
      written.keys.Nodup := by
    intro written hread
    obtain rfl := Json.Source.object.inj (hwritten'.symm.trans hread)
    decide
  have hboth := (ofJsonText_agrees unordered).2 _ hsorted hkeys both
  exact ⟨_, hsorted, hstored, hboth.1.mpr hstored, (hboth.2 hstored).1⟩

end Record

end Verdict
