import DocumentClient.Record.Basic

/-!
# The fields of a record after some are set

A record answers for a field with the value that was set last (`get?_setAll`), while the order of
its fields is that in which their names first came up (`fieldNames_setAll`). `Assigned` says both,
and that nothing else about the record is different.
-/

namespace DocumentClient.RecordOf

variable {α : Type}

/-- The first field of a name is the one that is found. -/
theorem lookup_cons_eq_ite (name other : String) (value : α) (fields : List (String × α)) :
    ((name, value) :: fields).lookup other =
      if other = name then some value else fields.lookup other := by
  rw [List.lookup_cons]
  by_cases hother : other = name
  · simp [hother]
  · rw [if_neg hother, beq_false_of_ne hother]

/-- A field with a name of its own is found by it. -/
theorem lookup_eq_some_iff_mem {name : String} {value : α} {fields : List (String × α)}
    (h : (fields.map (·.1)).Nodup) : fields.lookup name = some value ↔ (name, value) ∈ fields := by
  induction fields with
  | nil => simp
  | cons field fields ih =>
      obtain ⟨first, old⟩ := field
      obtain ⟨hfirst, hfields⟩ := List.nodup_cons.mp h
      rw [lookup_cons_eq_ite, List.mem_cons, Prod.mk.injEq]
      split
      · next hname =>
          subst hname
          have hother : (name, value) ∉ fields :=
            fun hmem => hfirst (List.mem_map.mpr ⟨_, hmem, rfl⟩)
          simp only [hother, or_false, true_and, Option.some.injEq, eq_comm]
      · next hname => simp [hname, ih hfields]

/-- A record has a value for the names of its fields, and for no other. -/
theorem get?_eq_none_iff (r : RecordOf α) (name : String) :
    r.get? name = none ↔ name ∉ r.fieldNames := by
  rw [get?, List.lookup_eq_none_iff, fieldNames, List.mem_map]
  constructor
  · rintro h ⟨entry, hentry, rfl⟩
    exact bne_iff_ne.mp (h entry hentry) rfl
  · intro h entry hentry
    exact bne_iff_ne.mpr fun hname => h ⟨entry, hentry, hname.symm⟩

/-- After a field is set, its name has the new value and the others have the old ones. -/
theorem lookup_setField (name other : String) (value : α) (fields : List (String × α)) :
    (setField name value fields).lookup other =
      if other = name then some value else fields.lookup other := by
  induction fields with
  | nil => exact lookup_cons_eq_ite name other value []
  | cons entry fields ih =>
      obtain ⟨key, old⟩ := entry
      rw [setField]
      split
      · next hkey =>
          rw [lookup_cons_eq_ite, lookup_cons_eq_ite, hkey]
          split <;> rfl
      · next hkey =>
          rw [lookup_cons_eq_ite, lookup_cons_eq_ite, ih]
          by_cases hother : other = name
          · simp [hother, Ne.symm hkey]
          · simp [hother]

/-- The same of a record. -/
theorem get?_set (r : RecordOf α) (name other : String) (value : α) :
    (r.set name value).get? other = if other = name then some value else r.get? other :=
  lookup_setField name other value r.fields

/-- Setting a field keeps the order of the names, and a new one comes last. -/
theorem names_setField (name : String) (value : α) (fields : List (String × α)) :
    (setField name value fields).map (·.1) =
      if name ∈ fields.map (·.1) then fields.map (·.1) else fields.map (·.1) ++ [name] := by
  induction fields with
  | nil => rfl
  | cons entry fields ih =>
      obtain ⟨key, old⟩ := entry
      rw [setField]
      split
      · next hkey => simp [hkey]
      · next hkey =>
          rw [List.map_cons, List.map_cons, ih]
          by_cases hname : name ∈ fields.map (·.1)
          · rw [if_pos hname, if_pos (List.mem_cons_of_mem _ hname)]
          · rw [if_neg hname, if_neg, List.cons_append]
            exact List.not_mem_cons_of_ne_of_not_mem (Ne.symm hkey) hname

/-- The same of a record. -/
theorem fieldNames_set (r : RecordOf α) (name : String) (value : α) :
    (r.set name value).fieldNames =
      if name ∈ r.fieldNames then r.fieldNames else r.fieldNames ++ [name] :=
  names_setField name value r.fields

/-- A field has the value that was set last, or its old one if it was not set. -/
theorem get?_setAll (r : RecordOf α) (values : List (String × α)) (name : String) :
    (r.setAll values).get? name = (values.reverse.lookup name).or (r.get? name) := by
  induction values generalizing r with
  | nil => rfl
  | cons entry values ih =>
      obtain ⟨key, value⟩ := entry
      have hlast : (values.reverse ++ [(key, value)]).lookup name =
          (values.reverse.lookup name).or (if name = key then some value else none) := by
        rw [List.lookup_append, lookup_cons_eq_ite]
        rfl
      show ((r.set key value).setAll values).get? name = _
      rw [ih, get?_set, List.reverse_cons, hlast, Option.or_assoc]
      by_cases hname : name = key
      · simp [hname]
      · simp [hname]

/-- A record made from fields has the value that was given last for a name. -/
theorem get?_ofFields (values : List (String × α)) (name : String) :
    (ofFields values).get? name = values.reverse.lookup name := by
  rw [ofFields, get?_setAll]
  exact Option.or_none

/-- Fields keep their places, and new ones follow in the order in which their names come up. -/
theorem fieldNames_setAll (r : RecordOf α) (values : List (String × α)) :
    (r.setAll values).fieldNames =
      r.fieldNames ++ ((values.map (·.1)).filter (· ∉ r.fieldNames)).eraseDups := by
  induction values generalizing r with
  | nil => simp [setAll]
  | cons entry values ih =>
      obtain ⟨name, value⟩ := entry
      show ((r.set name value).setAll values).fieldNames = _
      rw [ih, fieldNames_set, List.map_cons]
      by_cases hname : name ∈ r.fieldNames
      · rw [if_pos hname, List.filter_cons_of_neg (by simpa using hname)]
      · rw [if_neg hname, List.filter_cons_of_pos (by simpa using hname), List.eraseDups_cons,
          List.append_assoc, List.singleton_append, List.filter_filter]
        congr 4
        funext other
        by_cases hother : other = name
        · simp [hother]
        · simp [hother]

/-- `r.Assigned values after` says that `after` is the record with fields set one after another. -/
structure Assigned (r : RecordOf α) (values : List (String × α)) (after : RecordOf α) : Prop where
  rid : after.rid = r.rid
  className : after.className = r.className
  /-- Existing fields keep their places, and new ones follow in the order in which their names come
  up. -/
  fieldNames : after.fieldNames =
    r.fieldNames ++ ((values.map (·.1)).filter (· ∉ r.fieldNames)).eraseDups
  /-- A field has the value that was set last, or its old one if it was not set. -/
  get? : ∀ name, after.get? name = (values.reverse.lookup name).or (r.get? name)

/-- Setting several fields, one after another, does what it should for each of them. -/
theorem assigned_setAll (r : RecordOf α) (values : List (String × α)) :
    r.Assigned values (r.setAll values) where
  rid := r.setAll_rid values
  className := r.setAll_className values
  fieldNames := r.fieldNames_setAll values
  get? := r.get?_setAll values

end DocumentClient.RecordOf
