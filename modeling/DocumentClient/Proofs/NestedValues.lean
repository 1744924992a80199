import DocumentClient.Proofs.RecordFields
import DocumentClient.Value
import Mathlib.Logic.Relation

/-!
# Values inside values

A value can be a record or an array of other values, and a document can be an array or an object of
other documents. `Inside` relates a whole to all that stands inside of it, and `forall_inside_iff`
is how a property of everything inside is shown part by part. `Value.nested_induction` proves a
statement of a value from what holds of the values in its fields or among its items.
`Value.DistinctFields` says that no record inside a value has two fields of one name; records that
are made by setting fields keep to it.
-/

namespace DocumentClient

section Inside

variable {α : Type} {parts : α → List α} {a b : α} {p : α → Prop}

/-- `Inside parts a b` says that `b` is `a` itself or stands somewhere inside of it. -/
abbrev Inside (parts : α → List α) : α → α → Prop :=
  Relation.ReflTransGen fun a part => part ∈ parts a

/-- Something is inside if it is the whole, or inside of a part. -/
theorem inside_iff : Inside parts a b ↔ b = a ∨ ∃ part ∈ parts a, Inside parts part b :=
  Relation.ReflTransGen.cases_head_iff.trans (or_congr_left eq_comm)

/-- Nothing but itself stands inside of a whole without parts. -/
theorem inside_flat_iff (h : parts a = []) : Inside parts a b ↔ b = a := by
  simp [inside_iff (a := a), h]

/-- What holds of a whole and everything inside of it, holds of it and of its parts. -/
theorem forall_inside_iff : (∀ b, Inside parts a b → p b) ↔
    p a ∧ ∀ part ∈ parts a, ∀ b, Inside parts part b → p b := by
  constructor
  · intro h
    exact ⟨h a .refl, fun part hmem b hinside => h b (.head hmem hinside)⟩
  · rintro ⟨ha, hparts⟩ b hinside
    rcases inside_iff.mp hinside with rfl | ⟨part, hmem, hinside⟩
    · exact ha
    · exact hparts part hmem b hinside

/-- Inside of what has no parts is only the whole. -/
theorem forall_inside_flat_iff (h : parts a = []) : (∀ b, Inside parts a b → p b) ↔ p a := by
  simp only [inside_flat_iff h, forall_eq]

end Inside

namespace RecordOf

variable {α : Type} {name : String} {value : α} {fields : List (String × α)}

/-- A field that was looked up is a field. -/
theorem mem_of_lookup (h : fields.lookup name = some value) : (name, value) ∈ fields := by
  obtain ⟨before, after, rfl, -⟩ := List.lookup_eq_some_iff.mp h
  exact List.mem_append_right before List.mem_cons_self

/-- Setting fields one after another makes no second field of a name. -/
theorem nodup_fieldNames_setAll (r : RecordOf α) (values : List (String × α))
    (h : r.fieldNames.Nodup) : (r.setAll values).fieldNames.Nodup := by
  induction values generalizing r with
  | nil => exact h
  | cons entry values ih =>
      refine ih (r.set entry.1 entry.2) ?_
      rw [fieldNames_set]
      split
      · exact h
      · next hname =>
          refine List.nodup_append.mpr ⟨h, List.pairwise_singleton _ _, ?_⟩
          intro other hother last hlast
          rw [List.mem_singleton.mp hlast]
          exact ne_of_mem_of_not_mem hother hname

/-- A record made of fields has each name once. -/
theorem nodup_fieldNames_ofFields (values : List (String × α)) :
    (ofFields values).fieldNames.Nodup :=
  nodup_fieldNames_setAll empty values List.nodup_nil

/-- A field after an assignment is the assigned one or an old one. -/
theorem mem_of_mem_setField {field : String × α} (h : field ∈ setField name value fields) :
    field = (name, value) ∨ field ∈ fields := by
  induction fields with
  | nil => exact .inl (List.mem_singleton.mp h)
  | cons old fields ih =>
      rw [setField] at h
      split at h
      · next hname =>
          subst hname
          exact (List.mem_cons.mp h).imp_right (List.mem_cons_of_mem _)
      · next =>
          rcases List.mem_cons.mp h with rfl | hmem
          · exact .inr List.mem_cons_self
          · exact (ih hmem).imp_right (List.mem_cons_of_mem _)

/-- Setting fields brings in no fields but those. -/
theorem mem_of_mem_setAll (r : RecordOf α) (values : List (String × α)) {field : String × α}
    (h : field ∈ (r.setAll values).fields) : field ∈ values ∨ field ∈ r.fields := by
  induction values generalizing r with
  | nil => exact .inr h
  | cons entry values ih =>
      rcases ih (r.set entry.1 entry.2) h with hmem | hmem
      · exact .inl (List.mem_cons_of_mem _ hmem)
      · rcases mem_of_mem_setField hmem with rfl | hmem
        · exact .inl List.mem_cons_self
        · exact .inr hmem

/-- A record made of fields has no other fields than these. -/
theorem mem_of_mem_ofFields {values : List (String × α)} {field : String × α}
    (h : field ∈ (ofFields values).fields) : field ∈ values :=
  (mem_of_mem_setAll empty values h).resolve_right List.not_mem_nil

/-- A field under a new name comes last. -/
theorem setField_of_not_mem (h : name ∉ fields.map (·.1)) :
    setField name value fields = fields ++ [(name, value)] := by
  induction fields with
  | nil => rfl
  | cons field fields ih =>
      obtain ⟨first, old⟩ := field
      obtain ⟨hfirst, hfields⟩ := List.ne_and_not_mem_of_not_mem_cons h
      rw [setField, if_neg (Ne.symm hfirst), ih hfields, List.cons_append]

/-- Fields that are all new are put after the old ones. -/
theorem fields_setAll_of_nodup (r : RecordOf α) (values : List (String × α))
    (h : (r.fieldNames ++ values.map (·.1)).Nodup) :
    (r.setAll values).fields = r.fields ++ values := by
  induction values generalizing r with
  | nil => rw [List.append_nil]; rfl
  | cons entry values ih =>
      obtain ⟨name, value⟩ := entry
      have hname : name ∉ r.fieldNames := fun hmem =>
        (List.nodup_append.mp h).2.2 name hmem name List.mem_cons_self rfl
      have hset : (r.set name value).fields = r.fields ++ [(name, value)] :=
        setField_of_not_mem hname
      show ((r.set name value).setAll values).fields = _
      rw [ih, hset, List.append_assoc, List.singleton_append]
      rw [fieldNames_set, if_neg hname, List.append_assoc, List.singleton_append]
      exact h

/-- Fields without a name twice are kept as they are. -/
theorem fields_ofFields (h : (fields.map (·.1)).Nodup) : (ofFields fields).fields = fields :=
  fields_setAll_of_nodup empty fields h

end RecordOf

namespace Value

/-- Whether a value is neither a record nor an array. -/
def isFlat : Value → Bool
  | embedded _ | array _ => false
  | _ => true

/-- A statement about values that carries over from the fields to the record and from the items to
the array is true of all values. -/
theorem nested_induction {motive : Value → Prop} (flat : ∀ a, a.isFlat = true → motive a)
    (embedded : ∀ r : Record, (∀ field ∈ r.fields, motive field.2) → motive (.embedded r))
    (array : ∀ items, (∀ item ∈ items, motive item) → motive (.array items)) :
    ∀ a, motive a :=
  @Value.rec motive (fun r => ∀ field ∈ r.fields, motive field.2)
    (fun items => ∀ item ∈ items, motive item) (fun fields => ∀ field ∈ fields, motive field.2)
    (fun field => motive field.2)
    (flat _ rfl) (fun _ => flat _ rfl) (fun _ => flat _ rfl) (fun _ => flat _ rfl)
    (fun _ => flat _ rfl) (fun _ => flat _ rfl) (fun _ => flat _ rfl) (fun _ => flat _ rfl)
    (fun _ => flat _ rfl) (fun _ => flat _ rfl) (fun _ => flat _ rfl) embedded array
    (fun _ => flat _ rfl) (fun _ _ _ h => h)
    (List.forall_mem_nil _) (fun _ _ hhead htail => List.forall_mem_cons.mpr ⟨hhead, htail⟩)
    (List.forall_mem_nil _) (fun _ _ hhead htail => List.forall_mem_cons.mpr ⟨hhead, htail⟩)
    (fun _ _ h => h)

/-- The values that a value is made of. -/
def parts : Value → List Value
  | embedded r => r.fields.map (·.2)
  | array items => items
  | _ => []

/-- `a.Holds b` says that `b` is `a` itself or stands somewhere inside of it. -/
abbrev Holds (a b : Value) : Prop :=
  Inside parts a b

variable {a b : Value} {r : Record} {items : List Value}

/-- A value that holds no others has no parts. -/
theorem parts_of_isFlat (h : a.isFlat = true) : a.parts = [] := by
  cases a with
  | embedded | array => cases h
  | _ => rfl

/-- What stands inside of a record stands inside of one of its fields. -/
theorem holds_embedded_iff :
    (embedded r).Holds b ↔ b = .embedded r ∨ ∃ field ∈ r.fields, field.2.Holds b := by
  refine inside_iff.trans (or_congr_right ?_)
  constructor
  · rintro ⟨part, hmem, h⟩
    obtain ⟨field, hfield, rfl⟩ := List.mem_map.mp hmem
    exact ⟨field, hfield, h⟩
  · rintro ⟨field, hfield, h⟩
    exact ⟨field.2, List.mem_map_of_mem hfield, h⟩

variable {p : Value → Prop}

/-- Such a value holds only itself. -/
theorem forall_holds_flat_iff (h : a.isFlat = true) : (∀ b, a.Holds b → p b) ↔ p a :=
  forall_inside_flat_iff (parts_of_isFlat h)

/-- A record holds itself and what its fields hold. -/
theorem forall_holds_embedded_iff : (∀ b, (embedded r).Holds b → p b) ↔
    p (.embedded r) ∧ ∀ field ∈ r.fields, ∀ b, field.2.Holds b → p b := by
  rw [forall_inside_iff, parts, List.forall_mem_map]

/-- An array holds itself and what its items hold. -/
theorem forall_holds_array_iff : (∀ b, (array items).Holds b → p b) ↔
    p (.array items) ∧ ∀ item ∈ items, ∀ b, item.Holds b → p b :=
  forall_inside_iff

/-- Every record inside the value has at most one field of each name. -/
def DistinctFields (a : Value) : Prop :=
  ∀ r : Record, a.Holds (.embedded r) → r.fieldNames.Nodup

/-- A value that holds no others has distinct fields. -/
theorem distinctFields_flat (h : a.isFlat = true) : a.DistinctFields := by
  intro r hr
  obtain rfl := (inside_flat_iff (parts_of_isFlat h)).mp hr
  cases h

/-- A record has distinct fields if its own names are distinct and its values have. -/
theorem distinctFields_embedded_iff : (embedded r).DistinctFields ↔
    r.fieldNames.Nodup ∧ ∀ field ∈ r.fields, field.2.DistinctFields := by
  constructor
  · intro h
    exact ⟨h r .refl, fun field hmem s hs => h s (holds_embedded_iff.mpr (.inr ⟨field, hmem, hs⟩))⟩
  · rintro ⟨hr, hfields⟩ s hs
    rcases holds_embedded_iff.mp hs with heq | ⟨field, hmem, hs⟩
    · obtain rfl := embedded.inj heq
      exact hr
    · exact hfields field hmem s hs

/-- An array has if its items have. -/
theorem distinctFields_array_iff :
    (array items).DistinctFields ↔ ∀ item ∈ items, item.DistinctFields := by
  constructor
  · intro h item hmem s hs
    exact h s (.head hmem hs)
  · intro h s hs
    rcases inside_iff.mp hs with heq | ⟨item, hmem, hs⟩
    · cases heq
    · exact h item hmem s hs

/-- Records that are made by setting fields have at most one of each name. -/
theorem distinctFields_ofFields {values : List (String × Value)}
    (h : ∀ entry ∈ values, entry.2.DistinctFields) :
    (embedded (RecordOf.ofFields values)).DistinctFields :=
  distinctFields_embedded_iff.mpr ⟨RecordOf.nodup_fieldNames_ofFields values,
    fun field hmem => h field (RecordOf.mem_of_mem_ofFields hmem)⟩

end Value

end DocumentClient
