import DocumentClient.Json.Draft
import DocumentClient.Proofs.IdentityTexts
import DocumentClient.Proofs.NestedValues

/-!
# Documents and their drafts

`Json.draft` is the draft that a document stands for: the literals of its integers, and all its
members in their order. `Draft.json?_draft` gets the document back from it, provided that its
numbers are integers (`IsWhole`), the members of its objects are in ascending order (`IsSorted`)
and it has no more levels than are allowed (`depth`).
-/

namespace DocumentClient

/-- A list is read if each of its elements is. -/
theorem mapM_map_eq_some_map {α β γ : Type} {write : α → β} {read : β → Option γ} {found : α → γ}
    {values : List α} (h : ∀ value ∈ values, read (write value) = some (found value)) :
    (values.map write).mapM read = some (values.map found) := by
  induction values with
  | nil => rfl
  | cons value values ih =>
      obtain ⟨hvalue, hvalues⟩ := List.forall_mem_cons.mp h
      simp [List.mapM_cons, hvalue, ih hvalues]

/-- What is read back one by one is read back as a list. -/
theorem mapM_map_eq_some {α β : Type} {write : α → β} {read : β → Option α} {values : List α}
    (h : ∀ value ∈ values, read (write value) = some value) :
    (values.map write).mapM read = some values := by
  have hread := mapM_map_eq_some_map (γ := α) h
  rwa [List.map_id'] at hread

namespace Json

/-! ## Documents inside documents -/

/-- Whether a document is neither an array nor an object. -/
def isFlat : Json → Bool
  | array _ | object _ => false
  | _ => true

/-- A statement about documents that carries over from the items to the array and from the members
to the object is true of all documents. -/
theorem nested_induction {motive : Json → Prop} (flat : ∀ a, a.isFlat = true → motive a)
    (array : ∀ items, (∀ item ∈ items, motive item) → motive (.array items))
    (object : ∀ members, (∀ member ∈ members, motive member.2) → motive (.object members)) :
    ∀ a, motive a :=
  @Json.rec motive (fun items => ∀ item ∈ items, motive item)
    (fun members => ∀ member ∈ members, motive member.2) (fun member => motive member.2)
    (flat _ rfl) (fun _ => flat _ rfl) (fun _ => flat _ rfl) (fun _ => flat _ rfl) array object
    (List.forall_mem_nil _) (fun _ _ hhead htail => List.forall_mem_cons.mpr ⟨hhead, htail⟩)
    (List.forall_mem_nil _) (fun _ _ hhead htail => List.forall_mem_cons.mpr ⟨hhead, htail⟩)
    (fun _ _ h => h)

/-- The documents that a document is made of. -/
def parts : Json → List Json
  | array items => items
  | object members => members.map (·.2)
  | _ => []

/-- `a.Holds b` says that `b` is `a` itself or stands somewhere inside of it. -/
abbrev Holds (a b : Json) : Prop :=
  Inside parts a b

/-- Whether a document is a number that is no integer. -/
def isReal : Json → Bool
  | number (.real _ _) => true
  | _ => false

/-- All numbers of the document are integers. -/
def IsWhole (a : Json) : Prop :=
  ∀ b, a.Holds b → b.isReal = false

/-- The members of a document are in ascending order, without a name twice. -/
def Ascends : Json → Prop
  | object members => (members.map (·.1)).Pairwise (· < ·)
  | _ => True

/-- The members of all objects in the document are in ascending order. -/
def IsSorted (a : Json) : Prop :=
  ∀ b, a.Holds b → b.Ascends

variable {a : Json} {items : List Json} {members : List (String × Json)} {n : Nat}

/-- A document that holds no others has no parts. -/
theorem parts_of_isFlat (h : a.isFlat = true) : a.parts = [] := by
  cases a with
  | array | object => cases h
  | _ => rfl

/-- Such a document has no real numbers exactly if it is none. -/
theorem isWhole_flat_iff (h : a.isFlat = true) : a.IsWhole ↔ a.isReal = false :=
  forall_inside_flat_iff (parts_of_isFlat h)

/-- An array has no real numbers exactly if its items have none. -/
theorem isWhole_array_iff : (array items).IsWhole ↔ ∀ item ∈ items, item.IsWhole :=
  forall_inside_iff.trans (and_iff_right rfl)

/-- An object has none exactly if its members have none. -/
theorem isWhole_object_iff :
    (object members).IsWhole ↔ ∀ member ∈ members, member.2.IsWhole :=
  forall_inside_iff.trans ((and_iff_right rfl).trans List.forall_mem_map)

/-- A document that holds no others is sorted. -/
theorem isSorted_of_isFlat (h : a.isFlat = true) : a.IsSorted := by
  refine (forall_inside_flat_iff (parts_of_isFlat h)).mpr ?_
  cases a with
  | array | object => cases h
  | _ => trivial

/-- An array is sorted exactly if its items are. -/
theorem isSorted_array_iff : (array items).IsSorted ↔ ∀ item ∈ items, item.IsSorted :=
  forall_inside_iff.trans (and_iff_right trivial)

/-- An object is sorted exactly if its names ascend and its members are sorted. -/
theorem isSorted_object_iff : (object members).IsSorted ↔
    (members.map (·.1)).Pairwise (· < ·) ∧ ∀ member ∈ members, member.2.IsSorted :=
  forall_inside_iff.trans (and_congr_right fun _ => List.forall_mem_map)

mutual

/-- How many levels of arrays and objects a document has. -/
def depth : Json → Nat
  | .array items => itemsDepth items + 1
  | .object members => membersDepth members + 1
  | _ => 0

def itemsDepth : List Json → Nat
  | [] => 0
  | item :: items => max (depth item) (itemsDepth items)

def membersDepth : List (String × Json) → Nat
  | [] => 0
  | (_, value) :: members => max (depth value) (membersDepth members)

end

/-- The depth of items is that of the deepest. -/
theorem itemsDepth_le_iff : itemsDepth items ≤ n ↔ ∀ item ∈ items, item.depth ≤ n := by
  induction items with
  | nil => simp [itemsDepth]
  | cons item items ih => rw [itemsDepth, Nat.max_le, ih, List.forall_mem_cons]

/-- The depth of members is that of the deepest. -/
theorem membersDepth_le_iff :
    membersDepth members ≤ n ↔ ∀ member ∈ members, member.2.depth ≤ n := by
  induction members with
  | nil => simp [membersDepth]
  | cons member members ih =>
      obtain ⟨name, value⟩ := member
      rw [membersDepth, Nat.max_le, ih, List.forall_mem_cons]

/-- An array is one level deeper than its items. -/
theorem depth_array_le_iff :
    (array items).depth ≤ n ↔ ∃ m, n = m + 1 ∧ ∀ item ∈ items, item.depth ≤ m := by
  cases n with
  | zero => simp [depth]
  | succ n => simp [depth, itemsDepth_le_iff]

/-- An object is one level deeper than its members. -/
theorem depth_object_le_iff :
    (object members).depth ≤ n ↔ ∃ m, n = m + 1 ∧ ∀ member ∈ members, member.2.depth ≤ m := by
  cases n with
  | zero => simp [depth]
  | succ n => simp [depth, membersDepth_le_iff]

/-! ## Sorted members -/

/-- A member whose name comes after all others is put last. -/
theorem insertMember_of_lt {name : String} (h : ∀ member ∈ members, member.1 < name)
    (value : Json) : insertMember name value members = members ++ [(name, value)] := by
  induction members with
  | nil => rfl
  | cons member members ih =>
      obtain ⟨other, old⟩ := member
      obtain ⟨hother, hmembers⟩ := List.forall_mem_cons.mp h
      have hne : name ≠ other := fun heq => String.lt_irrefl other (heq ▸ hother)
      have hnot : ¬ name < other := fun hlt => String.lt_irrefl _ (String.lt_trans hlt hother)
      rw [insertMember, if_neg hne, if_neg hnot, ih hmembers, List.cons_append]

/-- Members in ascending order stay as they are. -/
theorem sortMembers_of_pairwise (h : (members.map (·.1)).Pairwise (· < ·)) :
    sortMembers members = members := by
  have hfold : ∀ front : List (String × Json), ((front ++ members).map (·.1)).Pairwise (· < ·) →
      members.foldl (fun sorted member => insertMember member.1 member.2 sorted) front =
        front ++ members := by
    clear h
    induction members with
    | nil => intro front _; rw [List.foldl_nil, List.append_nil]
    | cons member members ih =>
        intro front hfront
        have hlast : ∀ other ∈ front, other.1 < member.1 := by
          rw [List.map_append, List.pairwise_append] at hfront
          exact fun other hother => hfront.2.2 _ (List.mem_map_of_mem hother) _ List.mem_cons_self
        rw [List.foldl_cons, insertMember_of_lt hlast, ih, List.append_assoc, List.singleton_append]
        rwa [List.append_assoc, List.singleton_append]
  exact hfold [] h

/-! ## Drafts -/

/-- The literal of an integer. -/
def Literal.ofInt (n : Int) : Literal :=
  ⟨n < 0, Text.digits n.natAbs, [], none⟩

/-- The integer that a number is; zero for a real. -/
def Number.toInt : Number → Int
  | .integer n _ => n
  | .real _ _ => 0

mutual

/-- The draft of a document whose numbers are integers. -/
def draft : Json → Draft
  | .null => .null
  | .bool b => .bool b
  | .number n => .number (.ofInt n.toInt)
  | .string text => .string (some text)
  | .array items => .array (itemDrafts items)
  | .object members => .object (memberDrafts members)

def itemDrafts : List Json → List Draft
  | [] => []
  | item :: items => draft item :: itemDrafts items

def memberDrafts : List (String × Json) → List (Option String × Draft)
  | [] => []
  | (name, value) :: members => (some name, draft value) :: memberDrafts members

end

/-- The drafts of items are taken one by one. -/
theorem itemDrafts_eq_map (items : List Json) : itemDrafts items = items.map draft := by
  induction items with
  | nil => rfl
  | cons item items ih => rw [itemDrafts, ih, List.map_cons]

/-- The drafts of members are taken one by one, under the same names. -/
theorem memberDrafts_eq_map (members : List (String × Json)) :
    memberDrafts members = members.map fun member => (some member.1, member.2.draft) := by
  induction members with
  | nil => rfl
  | cons member members ih =>
      obtain ⟨name, value⟩ := member
      rw [memberDrafts, ih, List.map_cons]

/-- An integer is the number of its literal. -/
theorem Literal.number?_ofInt (n : Int)
    (h : -9223372036854775808 ≤ n ∧ n ≤ 18446744073709551615) :
    (Literal.ofInt n).number? = some (.integer n h) := by
  have hvalue : (Text.digits n.natAbs).foldl (fun value c => 10 * value + (c.toNat - 48)) 0 =
      n.natAbs := Text.digitsValue_digits n.natAbs
  simp only [Literal.number?, Literal.ofInt, hvalue, List.isEmpty_nil, Option.isNone_none,
    Bool.and_self, if_true, decide_eq_true_eq]
  by_cases hnegative : n < 0
  · have hrange : n.natAbs ≤ 9223372036854775808 := by omega
    have hint : -(n.natAbs : Int) = n := by omega
    rw [if_pos hnegative, if_neg (by omega), dif_pos hrange]
    simp only [hint]
  · have hrange : n.natAbs ≤ 18446744073709551615 := by omega
    have hint : (n.natAbs : Int) = n := by omega
    rw [if_neg hnegative, dif_pos hrange]
    simp only [hint]

/-- A document is what its draft stands for. -/
theorem Draft.json?_draft (hwhole : a.IsWhole) (hsorted : a.IsSorted) {limit : Nat}
    (hdepth : a.depth ≤ limit) : a.draft.json? limit = some a := by
  induction a using nested_induction generalizing limit with
  | flat a hflat =>
      cases a with
      | null | bool | string => simp [draft, Draft.json?]
      | number n =>
          cases n with
          | integer n h =>
              rw [draft, Draft.json?, Number.toInt, Literal.number?_ofInt n h, Option.map_some]
          | real x hx => cases hwhole _ .refl
      | array | object => cases hflat
  | array items ih =>
      obtain ⟨limit, rfl, hitems⟩ := depth_array_le_iff.mp hdepth
      have hread : (items.map draft).mapM (Draft.json? limit) = some items :=
        mapM_map_eq_some fun item hmem =>
          ih item hmem (isWhole_array_iff.mp hwhole item hmem)
            (isSorted_array_iff.mp hsorted item hmem) (hitems item hmem)
      rw [draft, Draft.json?, itemDrafts_eq_map, hread, Option.map_some]
  | object members ih =>
      obtain ⟨limit, rfl, hmembers⟩ := depth_object_le_iff.mp hdepth
      obtain ⟨hnames, hinner⟩ := isSorted_object_iff.mp hsorted
      rw [draft, Draft.json?, memberDrafts_eq_map, mapM_map_eq_some, Option.map_some,
        sortMembers_of_pairwise hnames]
      intro member hmem
      simp [ih member hmem (isWhole_object_iff.mp hwhole member hmem) (hinner member hmem)
        (hmembers member hmem)]

end Json

end DocumentClient
