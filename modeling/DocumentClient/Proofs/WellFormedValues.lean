import DocumentClient.Proofs.JsonDocuments
import DocumentClient.Proofs.NestedValues
import DocumentClient.Wire.Record

/-!
# Well-formed values

A value is well-formed if no record inside of it has two fields of one name and the members of its
free-form documents are sorted (`Value.WellFormed`). Whatever a JSON text holds, the record that is
read from it is well-formed (`Wire.wellFormed_of_decode`): repeated fields and members are merged,
and members are sorted.
-/

namespace DocumentClient

/-- Each value of a list that was read comes from an element. -/
theorem mem_of_mapM {α β : Type} {read : α → Option β} {elements : List α} {values : List β}
    (h : elements.mapM read = some values) :
    ∀ value ∈ values, ∃ element ∈ elements, read element = some value := by
  induction elements generalizing values with
  | nil =>
      obtain rfl := Option.some.inj h
      exact List.forall_mem_nil _
  | cons element elements ih =>
      simp only [List.mapM_cons, Option.bind_eq_bind, Option.bind_eq_some_iff, Option.pure_def,
        Option.some.injEq] at h
      obtain ⟨first, hfirst, rest, hrest, rfl⟩ := h
      refine List.forall_mem_cons.mpr ⟨⟨element, List.mem_cons_self, hfirst⟩, fun value hmem => ?_⟩
      obtain ⟨source, hsource, hread⟩ := ih hrest value hmem
      exact ⟨source, List.mem_cons_of_mem _ hsource, hread⟩

namespace Json

/-! ## Documents -/

variable {members : List (String × Json)} {name : String} {value : Json}

/-- Inserting a member adds that one at most. -/
theorem mem_of_mem_insertMember {member : String × Json}
    (h : member ∈ insertMember name value members) : member = (name, value) ∨ member ∈ members := by
  induction members with
  | nil => exact .inl (List.mem_singleton.mp h)
  | cons first members ih =>
      obtain ⟨other, old⟩ := first
      rw [insertMember] at h
      split at h
      · exact (List.mem_cons.mp h).imp_right (List.mem_cons_of_mem _)
      · split at h
        · exact List.mem_cons.mp h
        · rcases List.mem_cons.mp h with rfl | hmem
          · exact .inr List.mem_cons_self
          · exact (ih hmem).imp_right (List.mem_cons_of_mem _)

/-- An inserted member stands at its place. -/
theorem pairwise_insertMember (name : String) (value : Json)
    (h : (members.map (·.1)).Pairwise (· < ·)) :
    ((insertMember name value members).map (·.1)).Pairwise (· < ·) := by
  induction members with
  | nil => exact List.pairwise_singleton _ _
  | cons first members ih =>
      obtain ⟨other, old⟩ := first
      obtain ⟨hother, hmembers⟩ := List.pairwise_cons.mp h
      rw [insertMember]
      split
      · next heq => rwa [heq]
      · next hne =>
          split
          · next hlt =>
              refine List.pairwise_cons.mpr ⟨List.forall_mem_cons.mpr ⟨hlt, ?_⟩, h⟩
              exact fun later hlater => String.lt_trans hlt (hother later hlater)
          · next hle =>
              have hlt : other < name := by
                by_cases hlt : other < name
                · exact hlt
                · have heq := String.le_antisymm (String.not_lt.mp hlt) (String.not_lt.mp hle)
                  exact absurd heq hne
              refine List.pairwise_cons.mpr ⟨List.forall_mem_map.mpr fun member hmem => ?_,
                ih hmembers⟩
              rcases mem_of_mem_insertMember hmem with rfl | hmem
              · exact hlt
              · exact hother member.1 (List.mem_map_of_mem hmem)

/-- Sorted members are in ascending order, and no others come in. -/
theorem sortMembers_spec (members : List (String × Json)) :
    ((sortMembers members).map (·.1)).Pairwise (· < ·) ∧
      ∀ member ∈ sortMembers members, member ∈ members := by
  have hfold : ∀ front : List (String × Json), (front.map (·.1)).Pairwise (· < ·) →
      let sorted := members.foldl (fun sorted member => insertMember member.1 member.2 sorted) front
      (sorted.map (·.1)).Pairwise (· < ·) ∧
        ∀ member ∈ sorted, member ∈ front ∨ member ∈ members := by
    induction members with
    | nil => exact fun front hfront => ⟨hfront, fun member hmem => .inl hmem⟩
    | cons first members ih =>
        intro front hfront
        obtain ⟨hsorted, hmem⟩ := ih _ (pairwise_insertMember first.1 first.2 hfront)
        refine ⟨hsorted, fun member hmember => ?_⟩
        rcases hmem member hmember with hinserted | hlater
        · rcases mem_of_mem_insertMember hinserted with rfl | hold
          · exact .inr List.mem_cons_self
          · exact .inl hold
        · exact .inr (List.mem_cons_of_mem _ hlater)
  obtain ⟨hsorted, hmem⟩ := hfold [] List.Pairwise.nil
  exact ⟨hsorted, fun member hmember => (hmem member hmember).resolve_left List.not_mem_nil⟩

/-- The members of a document are sorted when it is valued. -/
theorem isSorted_of_json? {limit : Nat} {draft : Draft} {a : Json}
    (h : draft.json? limit = some a) : a.IsSorted := by
  induction limit using Nat.strongRecOn generalizing draft a with
  | ind limit ih =>
      rw [Draft.json?.eq_def] at h
      split at h
      · obtain rfl := Option.some.inj h
        exact isSorted_of_isFlat rfl
      · obtain rfl := Option.some.inj h
        exact isSorted_of_isFlat rfl
      · obtain ⟨number, -, rfl⟩ := Option.map_eq_some_iff.mp h
        exact isSorted_of_isFlat rfl
      · obtain ⟨text, -, rfl⟩ := Option.map_eq_some_iff.mp h
        exact isSorted_of_isFlat rfl
      · cases h
      · cases h
      · next limit drafts =>
          obtain ⟨items, hitems, rfl⟩ := Option.map_eq_some_iff.mp h
          refine isSorted_array_iff.mpr fun item hmem => ?_
          obtain ⟨draft, -, hread⟩ := mem_of_mapM hitems item hmem
          exact ih limit (Nat.lt_succ_self limit) hread
      · next limit drafts =>
          obtain ⟨members, hmembers, rfl⟩ := Option.map_eq_some_iff.mp h
          obtain ⟨hsorted, hmem⟩ := sortMembers_spec members
          refine isSorted_object_iff.mpr ⟨hsorted, fun member hmember => ?_⟩
          obtain ⟨draft, -, hread⟩ := mem_of_mapM hmembers member (hmem member hmember)
          simp only [Option.bind_eq_bind, Option.bind_eq_some_iff, Option.pure_def,
            Option.some.injEq] at hread
          obtain ⟨name, -, value, hvalue, rfl⟩ := hread
          exact ih limit (Nat.lt_succ_self limit) hvalue

end Json

namespace Value

/-! ## Values -/

/-- The value is well-formed, apart from the values inside of it. -/
def IsFormed : Value → Prop
  | embedded r => r.fieldNames.Nodup
  | json document => document.IsSorted
  | _ => True

/-- The fields of all records inside the value have different names, and its free-form documents
are sorted. -/
def WellFormed (a : Value) : Prop :=
  ∀ b, a.Holds b → b.IsFormed

variable {a : Value} {r : Record} {items : List Value}

/-- A value that holds no others is well formed if it is formed itself. -/
theorem wellFormed_flat_iff (h : a.isFlat = true) : a.WellFormed ↔ a.IsFormed :=
  forall_holds_flat_iff h

/-- A record is well formed if its names are distinct and its values are well formed. -/
theorem wellFormed_embedded_iff : (embedded r).WellFormed ↔
    r.fieldNames.Nodup ∧ ∀ field ∈ r.fields, field.2.WellFormed :=
  forall_holds_embedded_iff

/-- An array is well formed if its items are. -/
theorem wellFormed_array_iff : (array items).WellFormed ↔ ∀ item ∈ items, item.WellFormed :=
  forall_holds_array_iff.trans (iff_of_eq (true_and _))

/-- Well-formed values have distinct names at every depth. -/
theorem WellFormed.distinctFields (h : a.WellFormed) : a.DistinctFields :=
  fun r hr => h (.embedded r) hr

end Value

namespace Wire

open Json (Draft)

/-! ## Reading -/

variable {limit : Nat} {draft : Draft}

/-- What is read as a value with this limit is well-formed. -/
def ReadsFormed (limit : Nat) : Prop :=
  ∀ {draft : Draft} {a : Value}, readValue? limit draft = some a → a.WellFormed

/-- Items that are read are well formed. -/
theorem wellFormed_of_readItems? {items : List Value} (h : ∀ lower < limit, ReadsFormed lower)
    (hread : readItems? limit draft = some items) : (Value.array items).WellFormed := by
  rw [readItems?.eq_def] at hread
  split at hread
  · next limit drafts =>
      refine Value.wellFormed_array_iff.mpr fun item hmem => ?_
      obtain ⟨draft, -, hitem⟩ := mem_of_mapM hread item hmem
      exact h limit (Nat.lt_succ_self limit) hitem
  · cases hread

/-- Fields that are read are well formed. -/
theorem wellFormed_of_readFields? {fields : List (String × Value)}
    (h : ∀ lower < limit, ReadsFormed lower) (hread : readFields? limit draft = some fields) :
    ∀ field ∈ fields, field.2.WellFormed := by
  rw [readFields?.eq_def] at hread
  split at hread
  · next limit members =>
      intro field hmem
      obtain ⟨member, -, hfield⟩ := mem_of_mapM hread field hmem
      simp only [Option.bind_eq_bind, Option.bind_eq_some_iff, Option.pure_def,
        Option.some.injEq] at hfield
      obtain ⟨name, -, value, hvalue, rfl⟩ := hfield
      exact h limit (Nat.lt_succ_self limit) hvalue
  · cases hread

/-- A record that is read is well formed, since a field given again replaces the earlier one. -/
theorem wellFormed_of_readRecord? {r : Record} (h : ∀ lower < limit, ReadsFormed lower)
    (hread : readRecord? limit draft = some r) : (Value.embedded r).WellFormed := by
  rw [readRecord?.eq_def] at hread
  split at hread
  · cases hread
  · next limit _ =>
      simp only [Option.bind_eq_bind, Option.bind_eq_some_iff] at hread
      obtain ⟨members, -, hread⟩ := hread
      split at hread
      · next rid className fields =>
          simp only [Option.bind_eq_some_iff, Option.pure_def, Option.some.injEq] at hread
          obtain ⟨rid, -, className, -, values, hvalues, rfl⟩ := hread
          obtain ⟨draft, -, hfields⟩ := Option.bind_eq_some_iff.mp hvalues
          have hformed := wellFormed_of_readFields?
            (fun lower hlower => h lower (Nat.lt_succ_of_lt hlower)) hfields
          exact Value.wellFormed_embedded_iff.mpr ⟨RecordOf.nodup_fieldNames_ofFields values,
            fun field hmem => hformed field (RecordOf.mem_of_mem_ofFields hmem)⟩
      · cases hread

/-- Whatever kind a tag names, its value is well-formed if the items and the record that are read
are. -/
theorem wellFormed_of_readContent? {items : Draft → Option (List Value)}
    {record : Draft → Option Record} {tag : String} {content : Draft} {a : Value}
    (hitems : ∀ {read}, items content = some read → (Value.array read).WellFormed)
    (hrecord : ∀ {r}, record content = some r → (Value.embedded r).WellFormed)
    (h : readContent? items record limit tag content = some a) : a.WellFormed := by
  have hplain : ∀ {α : Type} {found : Option α} {make : α → Value}, found.map make = some a →
      (∀ x, (make x).isFlat = true ∧ (make x).IsFormed) → a.WellFormed := by
    intro α found make hmake hflat
    obtain ⟨x, -, rfl⟩ := Option.map_eq_some_iff.mp hmake
    exact (Value.wellFormed_flat_iff (hflat x).1).mpr (hflat x).2
  have hchoice : ∀ {p : Prop} [Decidable p] {found others : Option Value},
      (if p then found else others) = some a → found = some a ∨ others = some a := by
    intro p _ found others h
    split at h
    · exact .inl h
    · exact .inr h
  unfold readContent? at h
  -- The kinds come in the order in which the reader asks for them, null being the first.
  rcases hchoice h with h | h
  · split at h
    · obtain rfl := Option.some.inj h
      exact (Value.wellFormed_flat_iff rfl).mpr trivial
    · cases h
  iterate 10
    rcases hchoice h with h | h
    · exact hplain h fun _ => ⟨rfl, trivial⟩
  rcases hchoice h with h | h
  · obtain ⟨r, hr, rfl⟩ := Option.map_eq_some_iff.mp h
    exact hrecord hr
  rcases hchoice h with h | h
  · obtain ⟨read, hread, rfl⟩ := Option.map_eq_some_iff.mp h
    exact hitems hread
  rcases hchoice h with h | h
  · obtain ⟨document, hdocument, rfl⟩ := Option.map_eq_some_iff.mp h
    exact (Value.wellFormed_flat_iff rfl).mpr (Json.isSorted_of_json? hdocument)
  · cases h

/-- Whatever is read is well formed. The induction is on the depth allowed. -/
theorem readsFormed (limit : Nat) : ReadsFormed limit := by
  induction limit using Nat.strongRecOn with
  | ind limit ih =>
      intro draft a h
      rw [readValue?.eq_def] at h
      split at h
      · obtain ⟨-, h⟩ := Option.ite_none_right_eq_some.mp h
        obtain rfl := Option.some.inj h
        exact (Value.wellFormed_flat_iff rfl).mpr trivial
      · next limit tag content =>
          have hlower : ∀ lower < limit, ReadsFormed lower :=
            fun lower hlower => ih lower (Nat.lt_succ_of_lt hlower)
          exact wellFormed_of_readContent? (wellFormed_of_readItems? hlower)
            (wellFormed_of_readRecord? hlower) h
      · cases h

/-- A record that is read from a JSON text is well-formed. -/
theorem wellFormed_of_decode {text : String} {r : Record} (h : decode text = .ok r) :
    (Value.embedded r).WellFormed := by
  rw [decode] at h
  split at h
  · next value hread =>
      obtain rfl := Except.ok.inj h
      obtain ⟨draft, -, hrecord⟩ := Option.bind_eq_some_iff.mp hread
      exact wellFormed_of_readRecord? (fun lower _ => readsFormed lower) hrecord
  · cases h

end Wire

end DocumentClient
