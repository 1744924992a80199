import DocumentClient.Proofs.CalendarTexts
import DocumentClient.Proofs.JsonTexts
import DocumentClient.Proofs.WellFormedValues

/-!
# Records read back from their JSON texts

A well-formed record is written as a JSON text and read back as the same record (`decode_encode`):
identity, class, and all fields in their order, whatever values are nested in them. There must be no
double inside, which may be written as null, and no number in a free-form document that is not an
integer (`Value.IsWhole`), and leap seconds must stand at the end of a minute (`Value.IsRegular`):
`decode_encode_leaping` is a record with another one. The reader allows 127 levels of arrays and
objects.
-/

namespace DocumentClient

namespace Value

/-- The value is no double and no document with a real number in it. -/
def HasIntegers : Value → Prop
  | double _ => False
  | json document => document.IsWhole
  | _ => True

/-- No double is inside the value, and the numbers of its free-form documents are integers. -/
def IsWhole (a : Value) : Prop :=
  ∀ b, a.Holds b → b.HasIntegers

/-- The value is no time with a leap second before the end of a minute. -/
def HasRegularTime : Value → Prop
  | dateTime t => t.time.IsRegular
  | _ => True

/-- All times inside the value are regular. -/
def IsRegular (a : Value) : Prop :=
  ∀ b, a.Holds b → b.HasRegularTime

variable {a : Value} {r : Record} {items : List Value}

/-- A value that holds no others is whole exactly if its numbers are integers. -/
theorem isWhole_flat_iff (h : a.isFlat = true) : a.IsWhole ↔ a.HasIntegers :=
  forall_holds_flat_iff h

/-- A record is whole exactly if its values are. -/
theorem isWhole_embedded_iff :
    (embedded r).IsWhole ↔ ∀ field ∈ r.fields, field.2.IsWhole :=
  forall_holds_embedded_iff.trans (iff_of_eq (true_and _))

/-- An array is whole exactly if its items are. -/
theorem isWhole_array_iff : (array items).IsWhole ↔ ∀ item ∈ items, item.IsWhole :=
  forall_holds_array_iff.trans (iff_of_eq (true_and _))

/-- A value that holds no others is regular exactly if its time is. -/
theorem isRegular_flat_iff (h : a.isFlat = true) : a.IsRegular ↔ a.HasRegularTime :=
  forall_holds_flat_iff h

/-- A record is regular exactly if its values are. -/
theorem isRegular_embedded_iff :
    (embedded r).IsRegular ↔ ∀ field ∈ r.fields, field.2.IsRegular :=
  forall_holds_embedded_iff.trans (iff_of_eq (true_and _))

/-- An array is regular exactly if its items are. -/
theorem isRegular_array_iff : (array items).IsRegular ↔ ∀ item ∈ items, item.IsRegular :=
  forall_holds_array_iff.trans (iff_of_eq (true_and _))

end Value

namespace Wire

open Json (Draft)

/-! ## Written documents -/

/-- Fields are written one by one. -/
theorem writeFields_eq_map (fields : List (String × Value)) :
    writeFields fields = fields.map fun field => (field.1, writeValue field.2) := by
  induction fields with
  | nil => rfl
  | cons field fields ih =>
      obtain ⟨name, value⟩ := field
      rw [writeFields, ih, List.map_cons]

/-- Items are written one by one. -/
theorem writeItems_eq_map (items : List Value) : writeItems items = items.map writeValue := by
  induction items with
  | nil => rfl
  | cons item items ih => rw [writeItems, ih, List.map_cons]

/-- In range, an integer is a number of a document. -/
theorem ofInt_eq {n : Int} (h : -9223372036854775808 ≤ n ∧ n ≤ 18446744073709551615) :
    Json.ofInt n = .number (.integer n h) :=
  dif_pos h

/-- It is no real number there. -/
theorem isWhole_ofInt {n : Int} (h : -9223372036854775808 ≤ n ∧ n ≤ 18446744073709551615) :
    (Json.ofInt n).IsWhole := by
  rw [ofInt_eq h]
  exact (Json.isWhole_flat_iff rfl).mpr rfl

/-- A text is no real number. -/
theorem isWhole_string (text : String) : (Json.string text).IsWhole :=
  (Json.isWhole_flat_iff rfl).mpr rfl

/-- Neither is the null document. -/
theorem isWhole_null : Json.null.IsWhole :=
  (Json.isWhole_flat_iff rfl).mpr rfl

/-- Words of 32 bits are in the range of a document's integers. -/
theorem int32_inRange (n : Int32) :
    -9223372036854775808 ≤ n.toInt ∧ n.toInt ≤ 18446744073709551615 := by
  have hlow := n.le_toInt
  have hhigh := n.toInt_lt
  omega

/-- Words of 64 bits are in the range of a document's integers. -/
theorem int64_inRange (n : Int64) :
    -9223372036854775808 ≤ n.toInt ∧ n.toInt ≤ 18446744073709551615 := by
  have hlow := n.le_toInt
  have hhigh := n.toInt_lt
  omega

/-- Bytes are in the range of a document's integers. -/
theorem byte_inRange (byte : UInt8) :
    -9223372036854775808 ≤ (byte.toNat : Int) ∧ (byte.toNat : Int) ≤ 18446744073709551615 := by
  have hlt := byte.toNat_lt
  omega

/-- A tag adds no number. -/
theorem isWhole_tagged_iff {tag : String} {content : Json} :
    (tagged tag content).IsWhole ↔ content.IsWhole := by
  rw [tagged, Json.isWhole_object_iff, List.forall_mem_singleton]

/-- An identity is written in integers. -/
theorem isWhole_writeRid (rid : RecordId) : (writeRid rid).IsWhole := by
  rw [writeRid, Json.isWhole_object_iff, List.forall_mem_cons, List.forall_mem_singleton]
  exact ⟨isWhole_ofInt (int32_inRange rid.cluster), isWhole_ofInt (int64_inRange rid.position)⟩

/-- The numbers of a written record are integers if they are in its fields. -/
theorem isWhole_writeRecord {r : Record} (h : ∀ field ∈ r.fields, (writeValue field.2).IsWhole) :
    (writeRecord r).IsWhole := by
  obtain ⟨rid, className, fields⟩ := r
  have hrid : (optional writeRid rid).IsWhole := by
    cases rid with
    | none => exact isWhole_null
    | some rid => exact isWhole_writeRid rid
  have hclass : (optional Json.string className).IsWhole := by
    cases className with
    | none => exact isWhole_null
    | some className => exact isWhole_string className
  have hfields : (Json.object (writeFields fields)).IsWhole := by
    rw [writeFields_eq_map, Json.isWhole_object_iff, List.forall_mem_map]
    exact h
  rw [writeRecord, Json.isWhole_object_iff, List.forall_mem_cons, List.forall_mem_cons,
    List.forall_mem_singleton]
  exact ⟨hrid, hclass, hfields⟩

/-- A whole value is written without real numbers. -/
theorem isWhole_writeValue {a : Value} (h : a.IsWhole) : (writeValue a).IsWhole := by
  induction a using Value.nested_induction with
  | flat a hflat =>
      have hintegers := (Value.isWhole_flat_iff hflat).mp h
      cases a with
      | null => exact isWhole_string _
      | bool b => exact isWhole_tagged_iff.mpr ((Json.isWhole_flat_iff rfl).mpr rfl)
      | int32 n => exact isWhole_tagged_iff.mpr (isWhole_ofInt (int32_inRange n))
      | int64 n => exact isWhole_tagged_iff.mpr (isWhole_ofInt (int64_inRange n))
      | double x => exact hintegers.elim
      | decimal | string | date | dateTime => exact isWhole_tagged_iff.mpr (isWhole_string _)
      | bytes content =>
          rw [writeValue, isWhole_tagged_iff, list, Json.isWhole_array_iff, List.forall_mem_map]
          exact fun byte _ => isWhole_ofInt (byte_inRange byte)
      | link rid => exact isWhole_tagged_iff.mpr (isWhole_writeRid rid)
      | json document => exact isWhole_tagged_iff.mpr hintegers
      | embedded | array => cases hflat
  | embedded r ih =>
      have hfields := Value.isWhole_embedded_iff.mp h
      exact isWhole_tagged_iff.mpr
        (isWhole_writeRecord fun field hmem => ih field hmem (hfields field hmem))
  | array items ih =>
      have hitems := Value.isWhole_array_iff.mp h
      rw [writeValue, isWhole_tagged_iff, writeItems_eq_map, Json.isWhole_array_iff,
        List.forall_mem_map]
      exact fun item hmem => ih item hmem (hitems item hmem)

/-! ## Levels -/

variable {limit : Nat}

/-- A tag adds one level. -/
theorem depth_tagged_le_iff {tag : String} {content : Json} :
    (tagged tag content).depth ≤ limit ↔ ∃ m, limit = m + 1 ∧ content.depth ≤ m := by
  rw [tagged, Json.depth_object_le_iff]
  simp only [List.forall_mem_singleton]

/-! ## Numbers, identities and members read back -/

/-- An integer in range is read back. -/
theorem readInt?_ofInt {n : Int} (h : -9223372036854775808 ≤ n ∧ n ≤ 18446744073709551615) :
    readInt? (Json.ofInt n).draft = some n := by
  rw [ofInt_eq h, Json.draft, readInt?, Json.Number.toInt, Json.Literal.number?_ofInt n h]

/-- A word of 32 bits is read back. -/
theorem readInt32?_ofInt (n : Int32) : readInt32? (Json.ofInt n.toInt).draft = some n := by
  rw [readInt32?, readInt?_ofInt (int32_inRange n), Option.bind_some]
  exact Text.toInt32?_eq_some_iff.mpr rfl

/-- A word of 64 bits is read back. -/
theorem readInt64?_ofInt (n : Int64) : readInt64? (Json.ofInt n.toInt).draft = some n := by
  rw [readInt64?, readInt?_ofInt (int64_inRange n), Option.bind_some]
  exact Text.toInt64?_eq_some_iff.mpr rfl

/-- A byte is read back. -/
theorem readByte?_ofInt (byte : UInt8) : readByte? (Json.ofInt byte.toNat).draft = some byte := by
  have hbyte : byte.toNat ≤ 255 := Nat.le_of_lt_succ byte.toNat_lt
  rw [readByte?, readNat?, readInt?_ofInt (byte_inRange byte), Option.bind_some,
    if_pos (Int.natCast_nonneg _), Option.bind_some, Int.toNat_natCast, if_pos hbyte,
    UInt8.ofNat_toNat]

/-- Under distinct names, every member is found under its own. -/
theorem single?_of_mem {members : List (String × Draft)} (h : (members.map (·.1)).Nodup) :
    ∀ member ∈ members, single? members member.1 = some (some member.2) := by
  intro member hmem
  have hfilter : (members.filter fun other => other.1 == member.1) = [member] := by
    induction members with
    | nil => cases hmem
    | cons first members ih =>
        obtain ⟨hfirst, hmembers⟩ := List.nodup_cons.mp h
        rcases List.mem_cons.mp hmem with rfl | hmem
        · have hothers : (members.filter fun other => other.1 == member.1) = [] :=
            List.filter_eq_nil_iff.mpr fun other hother hname =>
              hfirst (List.mem_map.mpr ⟨other, hother, beq_iff_eq.mp hname⟩)
          rw [List.filter_cons, if_pos (beq_self_eq_true member.1), hothers]
        · have hne : ¬ (first.1 == member.1) = true := fun hname =>
            hfirst (List.mem_map.mpr ⟨member, hmem, (beq_iff_eq.mp hname).symm⟩)
          rw [List.filter_cons, if_neg hne, ih hmembers hmem]
  rw [single?, hfilter]

/-- The members of a structure are found under their names. -/
theorem readMembers?_object (members : List (String × Json)) (h : (members.map (·.1)).Nodup) :
    readMembers? (members.map (·.1)) (Json.object members).draft =
      some (members.map fun member => some member.2.draft) := by
  have hnamed : namedMembers? (Json.memberDrafts members) =
      some (members.map fun member => (member.1, member.2.draft)) := by
    rw [Json.memberDrafts_eq_map]
    exact mapM_map_eq_some_map fun member _ => rfl
  have hnames : ((members.map fun member => (member.1, member.2.draft)).map (·.1)).Nodup := by
    rwa [List.map_map]
  have hsingle : (members.map (·.1)).mapM
      (single? (members.map fun member => (member.1, member.2.draft))) =
        some (members.map fun member => some member.2.draft) :=
    mapM_map_eq_some_map fun member hmem =>
      single?_of_mem hnames (member.1, member.2.draft) (List.mem_map_of_mem hmem)
  rw [Json.draft, readMembers?, hnamed]
  exact hsingle

/-- An identity is read back. -/
theorem readRid?_draft (rid : RecordId) (limit : Nat) :
    readRid? (limit + 1) (writeRid rid).draft = some rid := by
  have hmembers := readMembers?_object [("cluster", Json.ofInt rid.cluster.toInt),
    ("position", Json.ofInt rid.position.toInt)] (by simp)
  simp only [List.map_cons, List.map_nil] at hmembers
  simp [writeRid, readRid?, hmembers, required?, readInt32?_ofInt, readInt64?_ofInt]

/-! ## Values and records read back -/

/-- A value other than null is read from its content, by the reader of its kind. -/
theorem readValue?_tagged (tag : String) (content : Json) (limit : Nat) :
    readValue? (limit + 1) (tagged tag content).draft =
      readContent? (readItems? limit) (readRecord? limit) limit tag content.draft := by
  rw [tagged, Json.draft, Json.memberDrafts, Json.memberDrafts, readValue?]

/-- Bytes are read back one by one. -/
theorem readList?_bytes (content : List UInt8) (limit : Nat) :
    readList? (fun _ => readByte?) (limit + 1)
      (list (fun byte => Json.ofInt (byte : UInt8).toNat) content).draft = some content := by
  rw [list, Json.draft, readList?, Json.itemDrafts_eq_map, List.map_map]
  exact mapM_map_eq_some fun byte _ => readByte?_ofInt byte

/-- A value without others inside is written under the name of its kind, and read from there. -/
theorem exists_tagged {a : Value} (hflat : a.isFlat = true) (hformed : a.IsFormed)
    (hwhole : a.HasIntegers) (hregular : a.HasRegularTime) (hnull : a ≠ .null)
    (items : Draft → Option (List Value)) (record : Draft → Option Record) :
    ∃ tag content, writeValue a = tagged tag content ∧ ∀ limit, content.depth ≤ limit →
      readContent? items record limit tag content.draft = some a := by
  cases a with
  | null => exact absurd rfl hnull
  | double x => exact hwhole.elim
  | embedded | array => cases hflat
  | bool | decimal | string => exact ⟨_, _, rfl, fun _ _ => rfl⟩
  | int32 n =>
      refine ⟨_, _, rfl, fun limit _ => ?_⟩
      simp [readContent?, readInt32?_ofInt]
  | int64 n =>
      refine ⟨_, _, rfl, fun limit _ => ?_⟩
      simp [readContent?, readInt64?_ofInt]
  | bytes content =>
      refine ⟨_, _, rfl, fun limit hdepth => ?_⟩
      obtain ⟨limit, rfl, -⟩ := Json.depth_array_le_iff.mp hdepth
      simp [readContent?, readList?_bytes]
  | date d =>
      refine ⟨_, _, rfl, fun limit _ => ?_⟩
      simp [readContent?, readSaid?, Json.draft, readText?, Date.read?_text]
  | dateTime t =>
      refine ⟨_, _, rfl, fun limit _ => ?_⟩
      simp [readContent?, readSaid?, Json.draft, readText?, DateTime.read?_text,
        (TimeOfDay.asRead_eq_self_iff t.time).mpr hregular]
  | link rid =>
      refine ⟨_, _, rfl, fun limit hdepth => ?_⟩
      obtain ⟨limit, rfl, -⟩ := Json.depth_object_le_iff.mp hdepth
      simp [readContent?, readRid?_draft]
  | json document =>
      refine ⟨_, _, rfl, fun limit hdepth => ?_⟩
      simp [readContent?, Json.Draft.json?_draft hwhole hformed hdepth]

/-- Values that hold no others are read back, constructor by constructor. -/
theorem readValue?_flat {a : Value} (hflat : a.isFlat = true) (hformed : a.IsFormed)
    (hwhole : a.HasIntegers) (hregular : a.HasRegularTime)
    (hdepth : (writeValue a).depth ≤ limit) :
    readValue? limit (writeValue a).draft = some a := by
  by_cases hnull : a = .null
  · rw [hnull, writeValue, Json.draft, readValue?]
    rfl
  · obtain ⟨tag, content, hwritten, hread⟩ :=
      exists_tagged hflat hformed hwhole hregular hnull (readItems? (limit - 1))
        (readRecord? (limit - 1))
    rw [hwritten] at hdepth ⊢
    obtain ⟨limit, rfl, hcontent⟩ := depth_tagged_le_iff.mp hdepth
    rw [readValue?_tagged]
    exact hread limit hcontent

/-- A value is read back in all the levels that it takes. -/
def ReadsBack (a : Value) : Prop :=
  ∀ {limit : Nat}, (writeValue a).depth ≤ limit → readValue? limit (writeValue a).draft = some a

/-- Fields are read back in their order. -/
theorem readFields?_draft {fields : List (String × Value)}
    (h : ∀ field ∈ fields, ReadsBack field.2)
    (hdepth : (Json.object (writeFields fields)).depth ≤ limit) :
    readFields? limit (Json.object (writeFields fields)).draft = some fields := by
  obtain ⟨limit, rfl, hfields⟩ := Json.depth_object_le_iff.mp hdepth
  rw [writeFields_eq_map, List.forall_mem_map] at hfields
  rw [writeFields_eq_map, Json.draft, Json.memberDrafts_eq_map, List.map_map, readFields?]
  refine mapM_map_eq_some fun field hmem => ?_
  simp [h field hmem (hfields field hmem)]

/-- An identity or none is read back. -/
theorem readOptional?_rid {rid : Option RecordId} (hdepth : (optional writeRid rid).depth ≤ limit) :
    readOptional? (readRid? limit) (optional writeRid rid).draft = some rid := by
  cases rid with
  | none => rfl
  | some rid =>
      obtain ⟨limit, rfl, -⟩ := Json.depth_object_le_iff.mp hdepth
      have hread := readRid?_draft rid limit
      rw [writeRid, Json.draft] at hread
      rw [optional, writeRid, Json.draft, readOptional?, hread, Option.map_some]
      intro hnull
      cases hnull

/-- A text or none is read back. -/
theorem readOptional?_text (text : Option String) :
    readOptional? readText? (optional Json.string text).draft = some text := by
  cases text <;> rfl

/-- A record is read back if the values of its fields are. -/
theorem readRecord?_draft {r : Record} (hnames : r.fieldNames.Nodup)
    (h : ∀ field ∈ r.fields, ReadsBack field.2) (hdepth : (writeRecord r).depth ≤ limit) :
    readRecord? limit (writeRecord r).draft = some r := by
  obtain ⟨rid, className, fields⟩ := r
  obtain ⟨limit, rfl, hmembers⟩ := Json.depth_object_le_iff.mp hdepth
  rw [List.forall_mem_cons, List.forall_mem_cons, List.forall_mem_singleton] at hmembers
  obtain ⟨hriddepth, -, hfieldsdepth⟩ := hmembers
  have hmembers := readMembers?_object [("rid", optional writeRid rid),
    ("class_name", optional .string className), ("fields", .object (writeFields fields))] (by simp)
  simp only [List.map_cons, List.map_nil] at hmembers
  have hrid := readOptional?_rid hriddepth
  have hclass := readOptional?_text className
  have hfields := readFields?_draft h hfieldsdepth
  have hkept : (RecordOf.ofFields fields).fields = fields := RecordOf.fields_ofFields hnames
  rw [writeRecord, readRecord?, hmembers]
  simp [nullable?, required?, hrid, hclass, hfields, hkept]

/-- A value is read back whatever is nested in it. -/
theorem readsBack {a : Value} (hformed : a.WellFormed) (hwhole : a.IsWhole)
    (hregular : a.IsRegular) : ReadsBack a := by
  induction a using Value.nested_induction with
  | flat a hflat =>
      exact readValue?_flat hflat ((Value.wellFormed_flat_iff hflat).mp hformed)
        ((Value.isWhole_flat_iff hflat).mp hwhole) ((Value.isRegular_flat_iff hflat).mp hregular)
  | embedded r ih =>
      intro limit hdepth
      obtain ⟨hnames, hfields⟩ := Value.wellFormed_embedded_iff.mp hformed
      have hintegers := Value.isWhole_embedded_iff.mp hwhole
      have htimes := Value.isRegular_embedded_iff.mp hregular
      obtain ⟨limit, rfl, hrecord⟩ := depth_tagged_le_iff.mp hdepth
      have hread := readRecord?_draft hnames (fun field hmem =>
        ih field hmem (hfields field hmem) (hintegers field hmem) (htimes field hmem)) hrecord
      rw [writeValue, readValue?_tagged]
      simp [readContent?, hread]
  | array items ih =>
      intro limit hdepth
      have hitems := Value.wellFormed_array_iff.mp hformed
      have hintegers := Value.isWhole_array_iff.mp hwhole
      have htimes := Value.isRegular_array_iff.mp hregular
      rw [writeValue, writeItems_eq_map] at hdepth ⊢
      obtain ⟨limit, rfl, harray⟩ := depth_tagged_le_iff.mp hdepth
      obtain ⟨limit, rfl, hlevels⟩ := Json.depth_array_le_iff.mp harray
      rw [List.forall_mem_map] at hlevels
      have hread :
          readItems? (limit + 1) (Json.array (items.map writeValue)).draft = some items := by
        rw [Json.draft, Json.itemDrafts_eq_map, List.map_map, readItems?]
        exact mapM_map_eq_some fun item hmem =>
          ih item hmem (hitems item hmem) (hintegers item hmem) (htimes item hmem)
            (hlevels item hmem)
      rw [readValue?_tagged]
      simp [readContent?, hread]

/-- A record is read back from its JSON text if the values of its fields are read back. -/
theorem decode_encode_of_readsBack {r : Record} (hnames : r.fieldNames.Nodup)
    (hwhole : (Value.embedded r).IsWhole) (hfields : ∀ field ∈ r.fields, ReadsBack field.2)
    (hdepth : (writeRecord r).depth < 128) : decode (encode r) = .ok r := by
  have hintegers := Value.isWhole_embedded_iff.mp hwhole
  have hwritten : (writeRecord r).IsWhole :=
    isWhole_writeRecord fun field hmem => isWhole_writeValue (hintegers field hmem)
  have hread : Form.read? (α := Record) Json.maxDepth (writeRecord r).draft = some r :=
    readRecord?_draft hnames hfields (Nat.le_of_lt_succ hdepth)
  have htext : Draft.read? (encode r).toList = some (writeRecord r).draft := by
    rw [encode, String.toList_ofList]
    exact Json.Draft.read?_text hwritten
  rw [decode, htext, Option.bind_some, hread]

/-- A well-formed record without doubles, without real numbers in its documents and without
irregular times is read back from its JSON text, if that has fewer than 128 levels of arrays and
objects. -/
theorem decode_encode (r : Record) (hformed : (Value.embedded r).WellFormed)
    (hwhole : (Value.embedded r).IsWhole) (hregular : (Value.embedded r).IsRegular)
    (hdepth : (writeRecord r).depth < 128) : decode (encode r) = .ok r := by
  obtain ⟨hnames, hfields⟩ := Value.wellFormed_embedded_iff.mp hformed
  have hintegers := Value.isWhole_embedded_iff.mp hwhole
  have htimes := Value.isRegular_embedded_iff.mp hregular
  refine decode_encode_of_readsBack hnames hwhole (fun field hmem => ?_) hdepth
  exact readsBack (hfields field hmem) (hintegers field hmem) (htimes field hmem)

/-- A document with the largest integer. -/
def extra : Json :=
  .object [("a", .number (.integer 18446744073709551615 (by decide))), ("b", .array [.null])]

/-- The extra document has its names in order. -/
theorem isSorted_extra : extra.IsSorted := by
  rw [extra, Json.isSorted_object_iff, List.forall_mem_cons, List.forall_mem_singleton]
  refine ⟨by decide, Json.isSorted_of_isFlat rfl, ?_⟩
  rw [Json.isSorted_array_iff, List.forall_mem_singleton]
  exact Json.isSorted_of_isFlat rfl

/-- It holds no real number. -/
theorem isWhole_extra : extra.IsWhole := by
  rw [extra, Json.isWhole_object_iff, List.forall_mem_cons, List.forall_mem_singleton,
    Json.isWhole_array_iff, List.forall_mem_singleton]
  exact ⟨(Json.isWhole_flat_iff rfl).mpr rfl, isWhole_null⟩

/-- A record with values of many kinds, some of them at the end of what they can be. -/
def booking : Record where
  rid := some ⟨-2147483648, 9223372036854775807⟩
  className := some "Booking"
  fields := [
    ("a \"quoted\"\nname", .string "\t\u0001 \\ ü 𝄞"),
    ("scan", .bytes [0, 255]),
    ("day", .date ⟨-44, 3, 15, by decide, by decide, by decide, by decide⟩),
    ("until", .dateTime ⟨⟨2016, 12, 31, by decide, by decide, by decide, by decide⟩,
      ⟨23, 59, 59, 1500000000, by decide, by decide, by decide, by decide⟩⟩),
    ("extra", .json extra),
    ("seats", .array [.null, .embedded ⟨none, none, [("row", .int32 (-2147483648))]⟩])]

/-- A booking with a document, bytes and a leap second is read back. -/
theorem decode_encode_booking : (Value.embedded booking).WellFormed ∧
    (Value.embedded booking).IsWhole ∧ (Value.embedded booking).IsRegular ∧
      (writeRecord booking).depth < 128 ∧ decode (encode booking) = .ok booking := by
  have hformed : (Value.embedded booking).WellFormed := by
    have hflat : ∀ {a : Value}, a.isFlat = true → a.IsFormed → a.WellFormed :=
      fun h => (Value.wellFormed_flat_iff h).mpr
    have hseats : (Value.array
        [.null, .embedded ⟨none, none, [("row", .int32 (-2147483648))]⟩]).WellFormed := by
      rw [Value.wellFormed_array_iff, List.forall_mem_cons, List.forall_mem_singleton,
        Value.wellFormed_embedded_iff, List.forall_mem_singleton]
      exact ⟨hflat rfl trivial, by decide, hflat rfl trivial⟩
    refine Value.wellFormed_embedded_iff.mpr ⟨by decide, ?_⟩
    simp only [booking, List.forall_mem_cons]
    exact ⟨hflat rfl trivial, hflat rfl trivial, hflat rfl trivial, hflat rfl trivial,
      hflat rfl isSorted_extra, hseats, List.forall_mem_nil _⟩
  have hwhole : (Value.embedded booking).IsWhole := by
    have hflat : ∀ {a : Value}, a.isFlat = true → a.HasIntegers → a.IsWhole :=
      fun h => (Value.isWhole_flat_iff h).mpr
    have hseats : (Value.array
        [.null, .embedded ⟨none, none, [("row", .int32 (-2147483648))]⟩]).IsWhole := by
      rw [Value.isWhole_array_iff, List.forall_mem_cons, List.forall_mem_singleton,
        Value.isWhole_embedded_iff, List.forall_mem_singleton]
      exact ⟨hflat rfl trivial, hflat rfl trivial⟩
    refine Value.isWhole_embedded_iff.mpr ?_
    simp only [booking, List.forall_mem_cons]
    exact ⟨hflat rfl trivial, hflat rfl trivial, hflat rfl trivial, hflat rfl trivial,
      hflat rfl isWhole_extra, hseats, List.forall_mem_nil _⟩
  have hregular : (Value.embedded booking).IsRegular := by
    have hflat : ∀ {a : Value}, a.isFlat = true → a.HasRegularTime → a.IsRegular :=
      fun h => (Value.isRegular_flat_iff h).mpr
    have hseats : (Value.array
        [.null, .embedded ⟨none, none, [("row", .int32 (-2147483648))]⟩]).IsRegular := by
      rw [Value.isRegular_array_iff, List.forall_mem_cons, List.forall_mem_singleton,
        Value.isRegular_embedded_iff, List.forall_mem_singleton]
      exact ⟨hflat rfl trivial, hflat rfl trivial⟩
    refine Value.isRegular_embedded_iff.mpr ?_
    simp only [booking, List.forall_mem_cons]
    exact ⟨hflat rfl trivial, hflat rfl trivial, hflat rfl trivial, hflat rfl (.inr rfl),
      hflat rfl trivial, hseats, List.forall_mem_nil _⟩
  have hdepth : (writeRecord booking).depth < 128 := by decide
  exact ⟨hformed, hwhole, hregular, hdepth, decode_encode booking hformed hwhole hregular hdepth⟩

/-! ## A leap second before the end of a minute -/

/-- A record of one date and time. -/
def visit (date : Date) (time : TimeOfDay) : Record :=
  ⟨none, some "Visit", [("at", .dateTime ⟨date, time⟩)]⟩

/-- The record of a visit is well formed. -/
theorem wellFormed_visit (date : Date) (time : TimeOfDay) :
    (Value.embedded (visit date time)).WellFormed := by
  refine Value.wellFormed_embedded_iff.mpr ⟨List.pairwise_singleton _ _, ?_⟩
  exact List.forall_mem_singleton.mpr ((Value.wellFormed_flat_iff rfl).mpr trivial)

/-- The record of a visit holds no real number. -/
theorem isWhole_visit (date : Date) (time : TimeOfDay) :
    (Value.embedded (visit date time)).IsWhole :=
  Value.isWhole_embedded_iff.mpr
    (List.forall_mem_singleton.mpr ((Value.isWhole_flat_iff rfl).mpr trivial))

/-- The record of a visit is not too deep. -/
theorem depth_visit (date : Date) (time : TimeOfDay) :
    (writeRecord (visit date time)).depth < 128 := by
  simp [visit, writeRecord, writeFields, writeValue, tagged, optional, Json.depth,
    Json.membersDepth]

/-- A visit is read with the time that its time is written like. -/
theorem decode_encode_visit (date : Date) (time : TimeOfDay) :
    decode (encode (visit date time)) = .ok (visit date time.asRead) := by
  have hwritten : encode (visit date time) = encode (visit date time.asRead) := by
    simp [encode, Form.write, visit, writeRecord, writeFields, writeValue, DateTime.text,
      TimeOfDay.text_asRead]
  have hflat : (Value.dateTime ⟨date, time.asRead⟩).isFlat = true := rfl
  have hfield : ReadsBack (.dateTime ⟨date, time.asRead⟩) :=
    readsBack ((Value.wellFormed_flat_iff hflat).mpr trivial)
      ((Value.isWhole_flat_iff hflat).mpr trivial)
      ((Value.isRegular_flat_iff hflat).mpr (TimeOfDay.isRegular_asRead time))
  rw [hwritten]
  exact decode_encode_of_readsBack (List.pairwise_singleton _ _) (isWhole_visit _ _)
    (List.forall_mem_singleton.mpr hfield) (depth_visit _ _)

/-- So a visit is read back exactly if its time is regular. -/
theorem decode_encode_visit_iff (date : Date) (time : TimeOfDay) :
    decode (encode (visit date time)) = .ok (visit date time) ↔ time.IsRegular := by
  rw [decode_encode_visit, ← TimeOfDay.asRead_eq_self_iff, Except.ok.injEq]
  simp [visit]

/-- A leap second after another second than the last of a minute is read as the next second. -/
theorem decode_encode_leaping :
    let leaping := visit ⟨1998, 12, 31, by decide, by decide, by decide, by decide⟩
      ⟨23, 56, 4, 1333333333, by decide, by decide, by decide, by decide⟩
    (Value.embedded leaping).WellFormed ∧ (Value.embedded leaping).IsWhole ∧
      (writeRecord leaping).depth < 128 ∧ decode (encode leaping) ≠ .ok leaping := by
  refine ⟨wellFormed_visit _ _, isWhole_visit _ _, depth_visit _ _, ?_⟩
  rw [Ne, decode_encode_visit_iff]
  decide

end Wire

end DocumentClient
