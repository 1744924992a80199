import DocumentClient.Config.Params
import DocumentClient.Proofs.RecordFields

/-!
# Facts about parameters

Parameters are known from their values (`ext_get?`): `set` changes one value and no other, so
entries that are set again in any order give the same parameters back (`setAll_filter`).
-/

namespace DocumentClient.Params

variable {params : Params} {name other value : String} {entries : List (String × String)}

/-- The names of the entries are all different. -/
def DistinctNames (entries : List (String × String)) : Prop :=
  entries.Pairwise fun a b => a.1 ≠ b.1

/-- No name stands in a set of parameters twice. -/
theorem distinctNames (params : Params) : DistinctNames params.entries := by
  have hne : ∀ {a b : String × String}, a.1 < b.1 → a.1 ≠ b.1 :=
    fun hlt heq => String.lt_irrefl _ (heq ▸ hlt)
  exact params.sorted.imp hne

/-- A name that no entry has is not found. -/
theorem lookup_eq_none_of_forall_ne (h : ∀ entry ∈ entries, name ≠ entry.1) :
    entries.lookup name = none :=
  List.lookup_eq_none_iff.mpr fun entry hentry => bne_iff_ne.mpr (h entry hentry)

/-- If the names are distinct, then to look up an entry is to have it. -/
theorem lookup_eq_some_iff_mem (h : DistinctNames entries) :
    entries.lookup name = some value ↔ (name, value) ∈ entries :=
  RecordOf.lookup_eq_some_iff_mem (List.pairwise_map.mpr h)

/-- In a set of parameters they are distinct. -/
theorem get?_eq_some_iff : params.get? name = some value ↔ (name, value) ∈ params.entries :=
  lookup_eq_some_iff_mem params.distinctNames

/-- Parameters that agree on every name are equal. -/
theorem ext_get? {first second : Params} (h : ∀ name, first.get? name = second.get? name) :
    first = second := by
  have hmem : ∀ entry, entry ∈ first.entries ↔ entry ∈ second.entries := by
    intro ⟨name, value⟩
    rw [← get?_eq_some_iff, ← get?_eq_some_iff, h]
  have hnodup : ∀ params : Params, params.entries.Nodup := fun params =>
    params.distinctNames.imp fun hne heq => hne (congrArg Prod.fst heq)
  have hperm : first.entries.Perm second.entries :=
    (List.perm_ext_iff_of_nodup (hnodup first) (hnodup second)).mpr hmem
  have hentries : first.entries = second.entries :=
    hperm.eq_of_pairwise (fun a b _ _ hab hba => absurd hba (String.lt_asymm hab))
      first.sorted second.sorted
  cases first
  cases second
  congr

/-- After an entry is set, its name has the new value and the others have the old ones. -/
theorem lookup_setEntry (name value other : String) (entries : List (String × String)) :
    (setEntry name value entries).lookup other =
      if other = name then some value else entries.lookup other := by
  induction entries with
  | nil => simp [setEntry]
  | cons entry entries ih =>
      obtain ⟨first, old⟩ := entry
      rw [setEntry]
      split
      · grind
      · split
        · grind
        · rw [List.lookup_cons, ih]
          grind

/-- Setting changes the value of one name. -/
theorem get?_set (params : Params) (name value other : String) :
    (params.set name value).get? other =
      if other = name then some value else params.get? other :=
  lookup_setEntry name value other params.entries

/-- The empty set has no parameter. -/
@[simp] theorem get?_empty (name : String) : empty.get? name = none := rfl

/-- Sets every one of the entries, one after the other. -/
def setAll (params : Params) (entries : List (String × String)) : Params :=
  entries.foldl (fun params entry => params.set entry.1 entry.2) params

/-- After several are set, they have the new values and the others have the old ones. -/
theorem get?_setAll (h : DistinctNames entries) (params : Params) (name : String) :
    (params.setAll entries).get? name = (entries.lookup name).or (params.get? name) := by
  induction entries generalizing params with
  | nil => rfl
  | cons entry entries ih =>
      obtain ⟨first, value⟩ := entry
      obtain ⟨hfirst, hrest⟩ := List.pairwise_cons.mp h
      have hset : params.setAll ((first, value) :: entries) =
          (params.set first value).setAll entries := rfl
      rw [hset, ih hrest, get?_set, List.lookup_cons]
      by_cases hname : name = first
      · rw [hname, lookup_eq_none_of_forall_ne hfirst]
        simp
      · simp [hname, beq_false_of_ne hname]

/-- One entry set first and all others after it give the parameters back. -/
theorem setAll_filter (h : params.get? name = some value) :
    (empty.set name value).setAll (params.entries.filter (·.1 != name)) = params := by
  have hdistinct : DistinctNames (params.entries.filter (·.1 != name)) :=
    params.distinctNames.filter _
  apply ext_get?
  intro other
  rw [get?_setAll hdistinct, get?_set, get?_empty]
  by_cases hother : other = name
  · have hnone : (params.entries.filter (·.1 != name)).lookup other = none := by
      apply lookup_eq_none_of_forall_ne
      intro entry hentry
      rw [hother]
      exact (bne_iff_ne.mp (List.mem_filter.mp hentry).2).symm
    rw [hnone, hother, if_pos rfl, h]
    rfl
  · rw [if_neg hother, Option.or_none]
    apply Option.ext
    intro found
    rw [lookup_eq_some_iff_mem hdistinct, List.mem_filter, get?_eq_some_iff]
    simp [hother]

end DocumentClient.Params
