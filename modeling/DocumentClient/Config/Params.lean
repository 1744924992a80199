/-!
# Parameters

The named parameters of a connection. A name has one value, and the entries stand in ascending
order of their names, so parameters that agree on every name are equal. `set` keeps that order.
-/

namespace DocumentClient

/-- Named parameters, in ascending order of their names. -/
structure Params where
  entries : List (String × String)
  sorted : entries.Pairwise fun a b => a.1 < b.1
deriving DecidableEq

namespace Params

def empty : Params :=
  ⟨[], .nil⟩

instance : Inhabited Params := ⟨empty⟩

/-- Entries with one of them set, at the place of its name. -/
def setEntry (name value : String) : List (String × String) → List (String × String)
  | [] => [(name, value)]
  | (other, old) :: rest =>
    if name = other then (name, value) :: rest
    else if name < other then (name, value) :: (other, old) :: rest
    else (other, old) :: setEntry name value rest

/-- An entry of the set that results is the new one or an old one. -/
theorem mem_of_mem_setEntry {name value : String} {entry : String × String}
    {entries : List (String × String)} (h : entry ∈ setEntry name value entries) :
    entry = (name, value) ∨ entry ∈ entries := by
  induction entries with
  | nil => exact .inl (List.mem_singleton.mp h)
  | cons first rest ih =>
    obtain ⟨other, old⟩ := first
    simp only [setEntry] at h
    split at h
    · exact (List.mem_cons.mp h).imp_right (List.mem_cons_of_mem _)
    · split at h
      · exact List.mem_cons.mp h
      · rcases List.mem_cons.mp h with rfl | h
        · exact .inr List.mem_cons_self
        · exact (ih h).imp_right (List.mem_cons_of_mem _)

/-- Setting an entry keeps the entries in the order of their names, each name once. -/
theorem setEntry_sorted {name value : String} {entries : List (String × String)}
    (h : entries.Pairwise fun a b => a.1 < b.1) :
    (setEntry name value entries).Pairwise fun a b => a.1 < b.1 := by
  induction entries with
  | nil => exact List.pairwise_singleton _ _
  | cons first rest ih =>
    obtain ⟨other, old⟩ := first
    obtain ⟨hfirst, hrest⟩ := List.pairwise_cons.mp h
    simp only [setEntry]
    split
    · next heq =>
      subst heq
      exact List.pairwise_cons.mpr ⟨hfirst, hrest⟩
    · next hne =>
      split
      · next hlt =>
        refine List.pairwise_cons.mpr ⟨fun entry hentry => ?_, h⟩
        rcases List.mem_cons.mp hentry with rfl | hentry
        · exact hlt
        · exact String.lt_trans hlt (hfirst entry hentry)
      · next hlt =>
        refine List.pairwise_cons.mpr ⟨fun entry hentry => ?_, ih hrest⟩
        rcases mem_of_mem_setEntry hentry with rfl | hentry
        · exact Std.lt_of_le_of_ne (String.not_lt.mp hlt) (Ne.symm hne)
        · exact hfirst entry hentry

/-- Sets a parameter. -/
def set (params : Params) (name value : String) : Params :=
  ⟨setEntry name value params.entries, setEntry_sorted params.sorted⟩

/-- The value of a parameter. -/
def get? (params : Params) (name : String) : Option String :=
  params.entries.lookup name

end Params

end DocumentClient
