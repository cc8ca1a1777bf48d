import OpcodeTable.Proofs.Json.RoundTrip
import OpcodeTable.Table.Record

/-!
# Records are read back

The records of a table are read back from its text as they were written, whatever characters their texts
have, and so is a single record on one line.
-/

namespace OpcodeTable

namespace RowRecord

theorem toJson_isPlain (record : RowRecord) : record.toJson.IsPlain := by
  have textsPlain (texts : List String) :
      (Json.array (texts.map fun text => .text (some text))).IsPlain := by
    apply Json.IsPlain.array
    intro item itemMem
    obtain ⟨text, _, rfl⟩ := List.mem_map.mp itemMem
    exact .text text
  apply Json.IsPlain.object
  · simp
  · simp only [List.forall_mem_cons]
    exact ⟨.text _, textsPlain _, .text _, .text _, textsPlain _, .bool _, .text _, .text _, .natural _,
      by simp⟩

private theorem arrayOf?_text? (texts : List String) :
    Json.arrayOf? Json.text? (.array (texts.map fun text => .text (some text))) = some texts := by
  rw [Json.arrayOf?, List.mapM_map]
  exact List.mapM_pure.trans (congrArg some (List.map_id _))

/-- No key of a record occurs twice, so every field is found under its own key. -/
private theorem fields?_toJson (record : RowRecord) :
    record.toJson.fields? .ignore fieldNames =
      some [some (.text (some record.name)),
        some (.array (record.operands.map fun text => .text (some text))),
        some (.text (some record.scheme)), some (.text (some record.opcode)),
        some (.array (record.prefixes.map fun text => .text (some text))), some (.bool record.rexW),
        some (.text (some record.modRM)), some (.text (some record.fold)),
        some (.natural record.size.toNat)] :=
  rfl

theorem ofJson?_toJson (record : RowRecord) : ofJson? record.toJson = some record := by
  have bounded : record.size.toNat < sizeBound := record.size.toNat_lt
  rw [ofJson?, fields?_toJson]
  simp [arrayOf?_text?, Json.text?, Json.bool?, Json.natural?, bounded]

theorem arrayOf?_ofJson? (records : List RowRecord) :
    Json.arrayOf? ofJson? (.array (records.map toJson)) = some records := by
  have readEach : ofJson? ∘ toJson = fun record => pure record := funext ofJson?_toJson
  rw [Json.arrayOf?, List.mapM_map, readEach]
  exact List.mapM_pure.trans (congrArg some (List.map_id _))

theorem parseList?_recordsText (table : Table) :
    parseList? table.recordsText = some (table.variants.map ofVariant) := by
  have plain : (Json.array ((table.variants.map ofVariant).map toJson)).IsPlain := by
    apply Json.IsPlain.array
    intro item itemMem
    obtain ⟨record, _, rfl⟩ := List.mem_map.mp itemMem
    exact toJson_isPlain record
  have textEq : table.recordsText =
      (Json.array ((table.variants.map ofVariant).map toJson)).pretty 0 ++ "\n" := by
    rw [Table.recordsText, List.map_map]
    rfl
  rw [parseList?, textEq, plain.parse?_pretty 0, Option.bind_some, arrayOf?_ofJson?]

end RowRecord

end OpcodeTable
