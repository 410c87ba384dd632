import EnumInline.Proofs.Json.Objects
import EnumInline.Proofs.Text.ByteOrder
import EnumInline.Table.Basic

/-!
Tables are read back from their texts, on one line as well as with one entry a line. Members of
objects are looked up by their names, and the last of several members of one name counts, so that a
table is known from its text, and from the bytes of its text, of which it has the digest.
-/

namespace EnumInline.ReplacementTable

def entriesOfMembers (members : List (List Char × List Char)) : Entries :=
  .ofList (members.map fun (token, text) => (String.ofList token, String.ofList text))

/-- The table that the members of an object are. -/
def ofMembers (members : List (List Char × List (List Char × List Char))) : ReplacementTable :=
  .ofList (members.map fun (path, entries) => (String.ofList path, entriesOfMembers entries))

/-- The table that a JSON text says, if it is an object of objects of strings. -/
def ofJson? (text : String) : Option ReplacementTable :=
  (Json.Reader.string.object.object.whole? text.toList).map ofMembers

/-- A map is known from its pairs. -/
theorem ofList_toList {α : Type} (map : Std.ExtTreeMap String α) :
    Std.ExtTreeMap.ofList map.toList = map := by
  apply Std.ExtTreeMap.ext_getElem?
  intro key
  cases hvalue : map[key]? with
  | some value =>
    apply Std.ExtTreeMap.getElem?_ofList_of_mem Std.ReflCmp.compare_self
    · exact Std.ExtTreeMap.distinct_keys_toList
    · exact Std.ExtTreeMap.mem_toList_iff_getElem?_eq_some.2 hvalue
  | none =>
    apply Std.ExtTreeMap.getElem?_ofList_of_contains_eq_false
    rw [Bool.eq_false_iff]
    intro hcontains
    obtain ⟨⟨key, value⟩, hpair, rfl⟩ := List.mem_map.1 (List.contains_iff_mem.1 hcontains)
    have hsome : map[key]? = some value := Std.ExtTreeMap.mem_toList_iff_getElem?_eq_some.1 hpair
    exact absurd (hvalue.symm.trans hsome) (Option.some_ne_none _).symm

/-- The members of an object of entries. -/
def membersOf (entries : Entries) : List (List Char × List Char) :=
  entries.toList.map fun entry => (entry.1.toList, entry.2.toList)

theorem entriesOfMembers_membersOf (entries : Entries) :
    entriesOfMembers (membersOf entries) = entries := by
  have hpairs : (membersOf entries).map
      (fun (token, text) => (String.ofList token, String.ofList text)) = entries.toList := by
    rw [membersOf, List.map_map]
    exact List.map_id'' (fun entry => by simp) _
  rw [entriesOfMembers, hpairs, ofList_toList]

theorem ofMembers_map (table : ReplacementTable) :
    ofMembers (table.toList.map fun file => (file.1.toList, membersOf file.2)) = table := by
  have hpairs : (table.toList.map fun file => (file.1.toList, membersOf file.2)).map
      (fun (path, entries) => (String.ofList path, entriesOfMembers entries)) = table.toList := by
    rw [List.map_map]
    exact List.map_id'' (fun file => by simp [entriesOfMembers_membersOf]) _
  rw [ofMembers, hpairs, ofList_toList]

theorem ofJson?_of_reads {table : ReplacementTable} {text : List Char}
    (h : Json.Reads Json.Reader.string.object.object text
      (table.toList.map fun file => (file.1.toList, membersOf file.2))) :
    ofJson? (String.ofList text) = some table := by
  rw [ofJson?, String.toList_ofList, h.whole?_eq, Option.map_some, ofMembers_map]

theorem ofJson?_json (table : ReplacementTable) : ofJson? table.json = some table := by
  apply ofJson?_of_reads
  apply Json.Reads.compactObject
  intro file _
  apply Json.Reads.compactObject
  intro entry _
  exact Json.Reads.quote entry.2.toList

theorem ofJson?_indentedJson (table : ReplacementTable) :
    ofJson? table.indentedJson = some table := by
  apply ofJson?_of_reads
  apply Json.Reads.indentedObject
  intro file _
  apply Json.Reads.indentedObject
  intro entry _
  exact Json.Reads.quote entry.2.toList

theorem json_inj {table other : ReplacementTable} : table.json = other.json ↔ table = other := by
  constructor
  · intro h
    apply Option.some.inj
    rw [← ofJson?_json table, h, ofJson?_json other]
  · exact congrArg json

/-- A table is known from its texts: either text is read as the table, and no other table has
the bytes that are digested. -/
theorem reading_texts (table other : ReplacementTable) :
    ofJson? table.json = some table ∧
      ofJson? table.indentedJson = some table ∧
      (table.json = other.json ↔ table = other) ∧
      table.digest = Digest.sha256 table.json.toUTF8.toList ∧
      (table.json.toUTF8.toList = other.json.toUTF8.toList ↔ table = other) := by
  refine ⟨?compact, ?indented, ?text, ?digest, ?bytes⟩
  case compact => exact ofJson?_json table
  case indented => exact ofJson?_indentedJson table
  case text => exact json_inj
  case digest => rfl
  case bytes => rw [Text.toList_toUTF8, Text.toList_toUTF8, Text.bytes_inj, json_inj]

end EnumInline.ReplacementTable
