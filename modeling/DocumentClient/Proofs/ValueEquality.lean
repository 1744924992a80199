import DocumentClient.Proofs.NestedValues
import Mathlib.Data.List.Perm.Subperm

/-!
# Equality of values

`Value.equals` is symmetric and transitive, and a value equals itself unless a NaN is inside of it.
It does not see the order of fields: `Rearranges` relates a value to what it is after the fields of
records inside have been put in another order, and both equal the same values. `equality_laws` says
all this. Two equal records have equally many fields and each field of the first is found in the
second one; that then none of the second is left over is the argument behind the symmetry.
-/

namespace DocumentClient

/-! ## Numbers -/

namespace Double

/-- Doubles are compared alike from both sides. -/
theorem equals_comm (x y : Double) : x.equals y = y.equals x := by
  rw [equals, equals, Bool.and_comm (!x.isNaN), Bool.and_comm x.isZero, BEq.comm (a := x.bits)]

/-- Equality of doubles is transitive. -/
theorem equals_trans {x y z : Double} (hxy : x.equals y = true) (hyz : y.equals z = true) :
    x.equals z = true := by
  simp only [equals, Bool.and_eq_true, Bool.or_eq_true, beq_iff_eq] at hxy hyz ⊢
  obtain ⟨⟨hx, -⟩, hxy⟩ := hxy
  obtain ⟨⟨-, hz⟩, hyz⟩ := hyz
  refine ⟨⟨hx, hz⟩, ?_⟩
  -- Equal numbers have the same bits or are zeros, and the same bits are zeros together.
  rcases hxy with hxy | ⟨hx, hy⟩
  · rcases hyz with hyz | ⟨hy, hz⟩
    · exact .inl (hxy.trans hyz)
    · exact .inr ⟨by rwa [isZero, hxy], hz⟩
  · rcases hyz with hyz | ⟨-, hz⟩
    · exact .inr ⟨hx, by rwa [isZero, ← hyz]⟩
    · exact .inr ⟨hx, hz⟩

/-- A double equals itself unless it is undefined. -/
theorem equals_self (x : Double) : x.equals x = !x.isNaN := by
  simp [equals]

/-- A finite double is a number. -/
theorem not_isNaN_of_isFinite {x : Double} (h : x.isFinite = true) : x.isNaN = false := by
  simp only [isFinite, bne_iff_ne] at h
  simp [isNaN, h]

end Double

/-! ## Documents -/

namespace Json

/-- Numbers of a document are compared alike from both sides. -/
theorem Number.equals_comm (m n : Number) : m.equals n = n.equals m := by
  cases m with
  | integer m hm => cases n <;> simp [equals, BEq.comm]
  | real x hx => cases n <;> simp [equals, Double.equals_comm]

/-- Equality of a document's numbers is transitive. -/
theorem Number.equals_trans {k m n : Number} (hkm : k.equals m = true) (hmn : m.equals n = true) :
    k.equals n = true := by
  cases k with
  | integer k hk =>
      cases m with
      | integer m hm =>
          cases n with
          | integer n hn => simp_all [equals]
          | real z hz => cases hmn
      | real y hy => cases hkm
  | real x hx =>
      cases m with
      | integer m hm => cases hkm
      | real y hy =>
          cases n with
          | integer n hn => cases hmn
          | real z hz => exact Double.equals_trans (x := x) hkm hmn

/-- The numbers of a document are finite. -/
theorem Number.equals_self (n : Number) : n.equals n = true := by
  cases n with
  | integer n hn => simp [equals]
  | real x hx => rw [equals, Double.equals_self, Double.not_isNaN_of_isFinite hx]; rfl

mutual

/-- Documents are compared alike from both sides. -/
theorem equals_comm : ∀ a b : Json, a.equals b = b.equals a
  | .null, b => by cases b <;> rfl
  | .bool a, b => by cases b <;> simp [equals, BEq.comm]
  | .number a, b => by cases b <;> simp [equals, Number.equals_comm]
  | .string a, b => by cases b <;> simp [equals, BEq.comm]
  | .array as, b => by
      cases b with
      | array bs => rw [equals, equals, equalItems_comm as bs]
      | _ => rfl
  | .object as, b => by
      cases b with
      | object bs => rw [equals, equals, equalMembers_comm as bs]
      | _ => rfl

/-- Arrays of documents are compared alike from both sides. -/
theorem equalItems_comm : ∀ as bs : List Json, equalItems as bs = equalItems bs as
  | [], [] => rfl
  | [], _ :: _ => rfl
  | _ :: _, [] => rfl
  | a :: as, b :: bs => by rw [equalItems, equalItems, equals_comm a b, equalItems_comm as bs]

/-- Objects of documents are compared alike from both sides, as their members stand in one order. -/
theorem equalMembers_comm : ∀ as bs : List (String × Json), equalMembers as bs = equalMembers bs as
  | [], [] => rfl
  | [], (_, _) :: _ => rfl
  | (_, _) :: _, [] => rfl
  | (m, a) :: as, (n, b) :: bs => by
      rw [equalMembers, equalMembers, equals_comm a b, equalMembers_comm as bs, BEq.comm (a := m)]

end

mutual

/-- Equality of documents is transitive. -/
theorem equals_trans : ∀ {a b c : Json}, a.equals b = true → b.equals c = true → a.equals c = true
  | .null, b, c, hab, hbc => by
      cases b with
      | null => exact hbc
      | _ => cases hab
  | .bool a, b, c, hab, hbc => by
      cases b with
      | bool b => rwa [beq_iff_eq.mp hab]
      | _ => cases hab
  | .number a, b, c, hab, hbc => by
      cases b with
      | number b =>
          cases c with
          | number c => exact Number.equals_trans (k := a) hab hbc
          | _ => cases hbc
      | _ => cases hab
  | .string a, b, c, hab, hbc => by
      cases b with
      | string b => rwa [beq_iff_eq.mp hab]
      | _ => cases hab
  | .array as, b, c, hab, hbc => by
      cases b with
      | array bs =>
          cases c with
          | array cs => exact @equalItems_trans as bs cs hab hbc
          | _ => cases hbc
      | _ => cases hab
  | .object as, b, c, hab, hbc => by
      cases b with
      | object bs =>
          cases c with
          | object cs => exact @equalMembers_trans as bs cs hab hbc
          | _ => cases hbc
      | _ => cases hab

/-- Equality of arrays is transitive. -/
theorem equalItems_trans : ∀ {as bs cs : List Json},
    equalItems as bs = true → equalItems bs cs = true → equalItems as cs = true
  | [], [], _, _, hbc => hbc
  | a :: as, b :: bs, c :: cs, hab, hbc => by
      obtain ⟨ha, has⟩ := Bool.and_eq_true_iff.mp hab
      obtain ⟨hb, hbs⟩ := Bool.and_eq_true_iff.mp hbc
      exact Bool.and_eq_true_iff.mpr ⟨equals_trans ha hb, equalItems_trans has hbs⟩

/-- Equality of objects is transitive. -/
theorem equalMembers_trans : ∀ {as bs cs : List (String × Json)},
    equalMembers as bs = true → equalMembers bs cs = true → equalMembers as cs = true
  | [], [], _, _, hbc => hbc
  | (l, a) :: as, (m, b) :: bs, (n, c) :: cs, hab, hbc => by
      simp only [equalMembers, Bool.and_eq_true, beq_iff_eq] at hab hbc ⊢
      obtain ⟨⟨rfl, ha⟩, has⟩ := hab
      obtain ⟨⟨rfl, hb⟩, hbs⟩ := hbc
      exact ⟨⟨rfl, equals_trans ha hb⟩, equalMembers_trans has hbs⟩

end

mutual

/-- A document equals itself. -/
theorem equals_self : ∀ a : Json, a.equals a = true
  | .null => rfl
  | .bool a => beq_self_eq_true a
  | .number a => Number.equals_self a
  | .string a => beq_self_eq_true a
  | .array as => equalItems_self as
  | .object as => equalMembers_self as

/-- An array of documents equals itself. -/
theorem equalItems_self : ∀ as : List Json, equalItems as as = true
  | [] => rfl
  | a :: as => Bool.and_eq_true_iff.mpr ⟨equals_self a, equalItems_self as⟩

/-- Every object of a document equals itself, since its numbers are finite. -/
theorem equalMembers_self : ∀ as : List (String × Json), equalMembers as as = true
  | [] => rfl
  | (n, a) :: as => by
      rw [equalMembers, equals_self a, equalMembers_self as, beq_self_eq_true]
      rfl

end

end Json

/-! ## Values that hold no others -/

namespace Value

variable {a b c d : Value} {r s : Record} {items others : List Value}

/-- Whether a value is one of those that equal only themselves. -/
def isExact : Value → Bool
  | double _ | json _ | embedded _ | array _ => false
  | _ => true

/-- Values other than doubles and documents are equal only to themselves. -/
theorem equals_iff_of_isExact (h : a.isExact = true) : a.equals b = true ↔ a = b := by
  cases a with
  | double | json | embedded | array => cases h
  | _ => cases b <;> simp [equals]

/-- A value that holds no others is exact, a double or a document. -/
theorem exact_or_measured (h : a.isFlat = true) :
    a.isExact = true ∨ (∃ x, a = .double x) ∨ ∃ document, a = .json document := by
  cases a with
  | double x => exact .inr (.inl ⟨x, rfl⟩)
  | json document => exact .inr (.inr ⟨document, rfl⟩)
  | embedded | array => cases h
  | _ => exact .inl rfl

/-- A double equals only doubles. -/
theorem equals_double_iff {x : Double} :
    (double x).equals b = true ↔ ∃ y, b = .double y ∧ x.equals y = true := by
  cases b <;> simp [equals]

/-- A document equals only documents. -/
theorem equals_json_iff {document : Json} :
    (json document).equals b = true ↔ ∃ other, b = .json other ∧ document.equals other = true := by
  cases b <;> simp [equals]

/-- Equality is symmetric for values that hold no others. -/
theorem equals_symm_of_isFlat (ha : a.isFlat = true) (h : a.equals b = true) :
    b.equals a = true := by
  rcases exact_or_measured ha with hexact | ⟨x, rfl⟩ | ⟨document, rfl⟩
  · obtain rfl := (equals_iff_of_isExact hexact).mp h
    exact h
  · obtain ⟨y, rfl, h⟩ := equals_double_iff.mp h
    exact equals_double_iff.mpr ⟨x, rfl, by rwa [Double.equals_comm]⟩
  · obtain ⟨other, rfl, h⟩ := equals_json_iff.mp h
    exact equals_json_iff.mpr ⟨document, rfl, by rwa [Json.equals_comm]⟩

/-- Equality is transitive for values that hold no others. -/
theorem equals_trans_of_isFlat (ha : a.isFlat = true) (hab : a.equals b = true)
    (hbc : b.equals c = true) : a.equals c = true := by
  rcases exact_or_measured ha with hexact | ⟨x, rfl⟩ | ⟨document, rfl⟩
  · obtain rfl := (equals_iff_of_isExact hexact).mp hab
    exact hbc
  · obtain ⟨y, rfl, hxy⟩ := equals_double_iff.mp hab
    obtain ⟨z, rfl, hyz⟩ := equals_double_iff.mp hbc
    exact equals_double_iff.mpr ⟨z, rfl, Double.equals_trans hxy hyz⟩
  · obtain ⟨second, rfl, hfirst⟩ := equals_json_iff.mp hab
    obtain ⟨third, rfl, hsecond⟩ := equals_json_iff.mp hbc
    exact equals_json_iff.mpr ⟨third, rfl, Json.equals_trans hfirst hsecond⟩

/-- A value that holds no others equals itself unless it is an undefined double. -/
theorem equals_self_iff_of_isFlat (ha : a.isFlat = true) :
    a.equals a = true ↔ ∀ x, a.Holds (.double x) → x.isNaN = false := by
  simp only [inside_flat_iff (parts_of_isFlat ha)]
  rcases exact_or_measured ha with hexact | ⟨x, rfl⟩ | ⟨document, rfl⟩
  · refine iff_of_true ((equals_iff_of_isExact hexact).mpr rfl) fun x hx => ?_
    rw [← hx] at hexact
    cases hexact
  · simp [equals, Double.equals_self]
  · simp [equals, Json.equals_self]

/-! ## Records and arrays -/

/-- Two equal records have equally many fields, and each field of the first one is found in the
second one. -/
theorem equals_embedded (r s : Record) : (embedded r).equals (embedded s) =
    (r.rid == s.rid && r.className == s.className && r.fields.length == s.fields.length &&
      r.fields.all fun field => (s.fields.lookup field.1).any field.2.equals) := by
  have hfound : ∀ fields : List (String × Value), fieldsFound fields s.fields =
      fields.all fun field => (s.fields.lookup field.1).any field.2.equals := by
    intro fields
    induction fields with
    | nil => rw [fieldsFound, List.all_nil]
    | cons field fields ih =>
        rw [fieldsFound, ih, List.all_cons]
        cases s.fields.lookup field.1 <;> rfl
  rw [equals, equalRecords, hfound]

/-- Records are equal if their fields are, name by name. -/
theorem equals_embedded_iff : (embedded r).equals b = true ↔ ∃ s, b = .embedded s ∧
    r.rid = s.rid ∧ r.className = s.className ∧ r.fields.length = s.fields.length ∧
    ∀ field ∈ r.fields, ∃ other, s.fields.lookup field.1 = some other ∧
      field.2.equals other = true := by
  cases b with
  | embedded s => simp [equals_embedded, Option.any_eq_true, and_assoc]
  | _ => simp [equals]

/-- Arrays equal only arrays, item by item. -/
theorem equals_array_iff : (array items).equals b = true ↔
    ∃ others, b = .array others ∧ equalItems items others = true := by
  cases b <;> simp [equals]

/-- No items equal only no items. -/
theorem equalItems_nil_iff : equalItems [] others = true ↔ others = [] := by
  cases others <;> simp [equalItems]

/-- Items are equal one by one. -/
theorem equalItems_cons_iff {item : Value} : equalItems (item :: items) others = true ↔
    ∃ other rest, others = other :: rest ∧ item.equals other = true ∧
      equalItems items rest = true := by
  cases others <;> simp [equalItems]

/-- Where all fields of a record are found in another one that has as many, there are no others. -/
theorem fieldNames_perm (hr : r.fieldNames.Nodup) (hlength : r.fields.length = s.fields.length)
    (hfound : ∀ field ∈ r.fields, ∃ other, s.fields.lookup field.1 = some other) :
    r.fieldNames.Perm s.fieldNames := by
  have hsubset : r.fieldNames ⊆ s.fieldNames := by
    intro name hname
    obtain ⟨field, hmem, rfl⟩ := List.mem_map.mp hname
    obtain ⟨other, hlookup⟩ := hfound field hmem
    exact List.mem_map.mpr ⟨_, RecordOf.mem_of_lookup hlookup, rfl⟩
  refine (List.subperm_of_subset hr hsubset).perm_of_length_le (Nat.le_of_eq ?_)
  rw [RecordOf.fieldNames, RecordOf.fieldNames, List.length_map, List.length_map, hlength]

/-- Arrays inherit symmetry from their items. -/
theorem equalItems_symm (hsymm : ∀ item ∈ items, ∀ other, item.equals other = true →
    other.equals item = true) (h : equalItems items others = true) :
    equalItems others items = true := by
  induction items generalizing others with
  | nil =>
      obtain rfl := equalItems_nil_iff.mp h
      exact h
  | cons item items ih =>
      obtain ⟨other, rest, rfl, hitem, hrest⟩ := equalItems_cons_iff.mp h
      obtain ⟨hfirst, hothers⟩ := List.forall_mem_cons.mp hsymm
      exact equalItems_cons_iff.mpr ⟨item, items, rfl, hfirst other hitem, ih hothers hrest⟩

/-- Equality is symmetric. For records this needs distinct names: both have as many fields, so the
fields found in the other are all of them. -/
theorem equals_symm (ha : a.DistinctFields) (h : a.equals b = true) : b.equals a = true := by
  induction a using nested_induction generalizing b with
  | flat a hflat => exact equals_symm_of_isFlat hflat h
  | embedded r ih =>
      obtain ⟨hr, hfields⟩ := distinctFields_embedded_iff.mp ha
      obtain ⟨s, rfl, hrid, hclass, hlength, hfound⟩ := equals_embedded_iff.mp h
      have hperm : r.fieldNames.Perm s.fieldNames := fieldNames_perm hr hlength fun field hmem =>
        (hfound field hmem).imp fun other hother => hother.1
      refine equals_embedded_iff.mpr ⟨r, rfl, hrid.symm, hclass.symm, hlength.symm, ?_⟩
      intro other hother
      obtain ⟨field, hmem, hname⟩ :=
        List.mem_map.mp (hperm.mem_iff.mpr (List.mem_map.mpr ⟨other, hother, rfl⟩))
      obtain ⟨found, hlookup, hequals⟩ := hfound field hmem
      -- The field of this name in the second record is the one this started from.
      have hsecond : s.fields.lookup field.1 = some other.2 := by
        rw [hname]
        exact (RecordOf.lookup_eq_some_iff_mem (hperm.nodup_iff.mp hr)).mpr hother
      obtain rfl : other.2 = found := Option.some.inj (hsecond.symm.trans hlookup)
      refine ⟨field.2, ?_, ih field hmem (hfields field hmem) hequals⟩
      rw [← hname]
      exact (RecordOf.lookup_eq_some_iff_mem hr).mpr hmem
  | array items ih =>
      have hdistinct := distinctFields_array_iff.mp ha
      obtain ⟨others, rfl, hitems⟩ := equals_array_iff.mp h
      exact equals_array_iff.mpr ⟨items, rfl, equalItems_symm
        (fun item hmem other hequals => ih item hmem (hdistinct item hmem) hequals) hitems⟩

/-- Arrays inherit transitivity from their items. -/
theorem equalItems_trans {seconds thirds : List Value}
    (htrans : ∀ item ∈ items, ∀ second third, item.equals second = true →
      second.equals third = true → item.equals third = true)
    (hseconds : equalItems items seconds = true) (hthirds : equalItems seconds thirds = true) :
    equalItems items thirds = true := by
  induction items generalizing seconds thirds with
  | nil =>
      obtain rfl := equalItems_nil_iff.mp hseconds
      exact hthirds
  | cons item items ih =>
      obtain ⟨second, seconds, rfl, hsecond, hseconds⟩ := equalItems_cons_iff.mp hseconds
      obtain ⟨third, thirds, rfl, hthird, hthirds⟩ := equalItems_cons_iff.mp hthirds
      obtain ⟨hfirst, hrest⟩ := List.forall_mem_cons.mp htrans
      exact equalItems_cons_iff.mpr
        ⟨third, thirds, rfl, hfirst second third hsecond hthird, ih hrest hseconds hthirds⟩

/-- Equality is transitive. -/
theorem equals_trans (hab : a.equals b = true) (hbc : b.equals c = true) : a.equals c = true := by
  induction a using nested_induction generalizing b c with
  | flat a hflat => exact equals_trans_of_isFlat hflat hab hbc
  | embedded r ih =>
      obtain ⟨s, rfl, hrid, hclass, hlength, hfound⟩ := equals_embedded_iff.mp hab
      obtain ⟨t, rfl, hrid', hclass', hlength', hfound'⟩ := equals_embedded_iff.mp hbc
      refine equals_embedded_iff.mpr ⟨t, rfl, hrid.trans hrid', hclass.trans hclass',
        hlength.trans hlength', fun field hmem => ?_⟩
      obtain ⟨second, hsecond, hequals⟩ := hfound field hmem
      obtain ⟨third, hthird, hequals'⟩ := hfound' _ (RecordOf.mem_of_lookup hsecond)
      exact ⟨third, hthird, ih field hmem hequals hequals'⟩
  | array items ih =>
      obtain ⟨seconds, rfl, hseconds⟩ := equals_array_iff.mp hab
      obtain ⟨thirds, rfl, hthirds⟩ := equals_array_iff.mp hbc
      exact equals_array_iff.mpr ⟨thirds, rfl, equalItems_trans
        (fun item hmem second third hsecond hthird => ih item hmem hsecond hthird)
        hseconds hthirds⟩

/-- Items equal themselves if each of them does. -/
theorem equalItems_self_iff : equalItems items items = true ↔
    ∀ item ∈ items, item.equals item = true := by
  induction items with
  | nil => simp [equalItems]
  | cons item items ih => simp [equalItems, ih]

/-- A value equals itself exactly if it holds no undefined double. -/
theorem equals_self_iff (ha : a.DistinctFields) :
    a.equals a = true ↔ ∀ x, a.Holds (.double x) → x.isNaN = false := by
  induction a using nested_induction with
  | flat a hflat => exact equals_self_iff_of_isFlat hflat
  | embedded r ih =>
      obtain ⟨hr, hfields⟩ := distinctFields_embedded_iff.mp ha
      have hself : (embedded r).equals (embedded r) = true ↔
          ∀ field ∈ r.fields, field.2.equals field.2 = true := by
        rw [equals_embedded_iff]
        constructor
        · rintro ⟨s, heq, -, -, -, hfound⟩ field hmem
          obtain rfl := embedded.inj heq
          obtain ⟨other, hlookup, hequals⟩ := hfound field hmem
          rw [(RecordOf.lookup_eq_some_iff_mem hr).mpr hmem] at hlookup
          rwa [← Option.some.inj hlookup] at hequals
        · intro h
          exact ⟨r, rfl, rfl, rfl, rfl, fun field hmem =>
            ⟨field.2, (RecordOf.lookup_eq_some_iff_mem hr).mpr hmem, h field hmem⟩⟩
      rw [hself]
      simp only [holds_embedded_iff, reduceCtorEq, false_or]
      constructor
      · rintro h x ⟨field, hmem, hholds⟩
        exact (ih field hmem (hfields field hmem)).mp (h field hmem) x hholds
      · intro h field hmem
        exact (ih field hmem (hfields field hmem)).mpr fun x hholds => h x ⟨field, hmem, hholds⟩
  | array items ih =>
      have hitems := distinctFields_array_iff.mp ha
      rw [equals, equalItems_self_iff]
      simp only [inside_iff (a := array items), parts, reduceCtorEq, false_or]
      constructor
      · rintro h x ⟨item, hmem, hholds⟩
        exact (ih item hmem (hitems item hmem)).mp (h item hmem) x hholds
      · intro h item hmem
        exact (ih item hmem (hitems item hmem)).mpr fun x hholds => h x ⟨item, hmem, hholds⟩

/-! ## The order of fields -/

/-- `Rearranges a b` says that `b` is `a` with the fields of records inside in another order. -/
inductive Rearranges : Value → Value → Prop where
  | refl (a : Value) : Rearranges a a
  | fields {r : Record} {fields : List (String × Value)} (h : r.fields.Perm fields) :
      Rearranges (.embedded r) (.embedded { r with fields })
  | field {r : Record} {before after : List (String × Value)} {name : String} {a b : Value}
      (hfields : r.fields = before ++ (name, a) :: after) (h : Rearranges a b) :
      Rearranges (.embedded r) (.embedded { r with fields := before ++ (name, b) :: after })
  | item {before after : List Value} {a b : Value} (h : Rearranges a b) :
      Rearranges (.array (before ++ a :: after)) (.array (before ++ b :: after))
  | trans {a b c : Value} (hab : Rearranges a b) (hbc : Rearranges b c) : Rearranges a c

/-- What holds of all elements also does after one of them was replaced. -/
theorem forall_mem_replaced {α : Type} {p : α → Prop} {x y : α} {before after : List α}
    (h : ∀ z ∈ before ++ x :: after, p z) (hy : p y) : ∀ z ∈ before ++ y :: after, p z := by
  rw [List.forall_mem_append, List.forall_mem_cons] at h ⊢
  exact ⟨h.1, hy, h.2.2⟩

/-- Rearranging fields keeps their names distinct. -/
theorem Rearranges.distinctFields (h : Rearranges a b) (ha : a.DistinctFields) :
    b.DistinctFields := by
  induction h with
  | refl => exact ha
  | fields hperm =>
      obtain ⟨hnames, hfields⟩ := distinctFields_embedded_iff.mp ha
      exact distinctFields_embedded_iff.mpr ⟨(hperm.map Prod.fst).nodup_iff.mp hnames,
        fun field hmem => hfields field (hperm.mem_iff.mpr hmem)⟩
  | @field r before after name a b hfields _ ih =>
      obtain ⟨hnames, hdistinct⟩ := distinctFields_embedded_iff.mp ha
      rw [RecordOf.fieldNames] at hnames
      rw [hfields] at hnames hdistinct
      have hb : b.DistinctFields := ih (hdistinct (name, a) (by simp))
      exact distinctFields_embedded_iff.mpr ⟨by simpa [RecordOf.fieldNames] using hnames,
        forall_mem_replaced hdistinct hb⟩
  | @item before after a b _ ih =>
      have hdistinct := distinctFields_array_iff.mp ha
      have hb : b.DistinctFields := ih (hdistinct a (by simp))
      exact distinctFields_array_iff.mpr (forall_mem_replaced hdistinct hb)
  | trans _ _ ihab ihbc => exact ihbc (ihab ha)

/-- A field is found under its name wherever it stands. -/
theorem lookup_perm {fields : List (String × Value)} (hr : r.fieldNames.Nodup)
    (hperm : r.fields.Perm fields) (name : String) : fields.lookup name = r.fields.lookup name := by
  have hfields : (fields.map (·.1)).Nodup := (hperm.map Prod.fst).nodup_iff.mp hr
  ext value
  rw [RecordOf.lookup_eq_some_iff_mem hr, RecordOf.lookup_eq_some_iff_mem hfields, hperm.mem_iff]

/-- On the left, an item may be replaced by one that compares alike. -/
theorem equalItems_replaced_left (h : ∀ d : Value, b.equals d = a.equals d)
    (before after : List Value) :
    equalItems (before ++ b :: after) others = equalItems (before ++ a :: after) others := by
  induction before generalizing others with
  | nil => cases others <;> simp [equalItems, h]
  | cons item before ih => cases others <;> simp [equalItems, ih]

/-- On the right, an item may be replaced by one that compares alike. -/
theorem equalItems_replaced_right (h : ∀ d : Value, d.equals b = d.equals a)
    (before after : List Value) :
    equalItems others (before ++ b :: after) = equalItems others (before ++ a :: after) := by
  induction before generalizing others with
  | nil => cases others <;> simp [equalItems, h]
  | cons item before ih => cases others <;> simp [equalItems, ih]

/-- A field may be replaced so too, as its name finds it in the same place. -/
theorem any_lookup_replaced (h : ∀ d : Value, d.equals b = d.equals a) (d : Value)
    (name key : String) (before after : List (String × Value)) :
    ((before ++ (name, b) :: after).lookup key).any d.equals =
      ((before ++ (name, a) :: after).lookup key).any d.equals := by
  induction before with
  | nil =>
      rw [List.nil_append, List.nil_append, RecordOf.lookup_cons_eq_ite,
        RecordOf.lookup_cons_eq_ite]
      split
      · exact h d
      · rfl
  | cons field before ih =>
      rw [List.cons_append, List.cons_append, RecordOf.lookup_cons_eq_ite,
        RecordOf.lookup_cons_eq_ite]
      split
      · rfl
      · exact ih

/-- A rearranged value equals what the value equals. -/
theorem Rearranges.equals_left (h : Rearranges a b) (d : Value) : b.equals d = a.equals d := by
  induction h generalizing d with
  | refl => rfl
  | @fields r fields hperm =>
      cases d with
      | embedded s => rw [equals_embedded, equals_embedded, hperm.length_eq, hperm.all_eq]
      | _ => simp [equals]
  | @field r before after name a b hfields _ ih =>
      have hb : b.equals = a.equals := funext ih
      cases d with
      | embedded s => simp [equals_embedded, hfields, hb]
      | _ => simp [equals]
  | @item before after a b _ ih =>
      cases d with
      | array others => rw [equals, equals, equalItems_replaced_left ih]
      | _ => simp [equals]
  | trans _ _ ihab ihbc => rw [ihbc, ihab]

/-- A rearranged value is equalled by what equals the value. -/
theorem Rearranges.equals_right (h : Rearranges a b) (ha : a.DistinctFields) (d : Value) :
    d.equals b = d.equals a := by
  induction h generalizing d with
  | refl => rfl
  | @fields r fields hperm =>
      obtain ⟨hr, -⟩ := distinctFields_embedded_iff.mp ha
      cases d with
      | embedded s =>
          rw [equals_embedded, equals_embedded, hperm.length_eq]
          simp only [lookup_perm hr hperm]
      | _ => simp [equals]
  | @field r before after name a b hfields _ ih =>
      obtain ⟨-, hdistinct⟩ := distinctFields_embedded_iff.mp ha
      have hb := ih (hdistinct (name, a) (by simp [hfields]))
      cases d with
      | embedded s =>
          rw [equals_embedded, equals_embedded, hfields]
          simp only [any_lookup_replaced hb, List.length_append, List.length_cons]
      | _ => simp [equals]
  | @item before after a b _ ih =>
      have hb := ih (distinctFields_array_iff.mp ha a (by simp))
      cases d with
      | array others => rw [equals, equals, equalItems_replaced_right hb]
      | _ => simp [equals]
  | trans hab _ ihab ihbc => rw [ihbc (hab.distinctFields ha), ihab ha]

/-! ## The laws -/

/-- What holds of the equality of a value with others. -/
structure EqualityLaws (a : Value) : Prop where
  symm : ∀ b, a.equals b = true → b.equals a = true
  trans : ∀ b c, a.equals b = true → b.equals c = true → a.equals c = true
  /-- Only a NaN keeps a value from being equal to itself. -/
  self : a.equals a = true ↔ ∀ x, a.Holds (.double x) → x.isNaN = false
  /-- Other orders of the fields of records inside do not show on either side. -/
  rearranged : ∀ b, Rearranges a b → ∀ d, b.equals d = a.equals d ∧ d.equals b = d.equals a
  /-- The equality of records is that of the values that hold them. -/
  records : ∀ r, a = .embedded r → ∀ s : Record, r.equals s = a.equals (.embedded s)

/-- The equality of values whose records do not have a name twice is symmetric, transitive and blind
to the order of fields, and it is reflexive but for NaN. -/
theorem equality_laws (a : Value) (ha : a.DistinctFields) : a.EqualityLaws where
  symm _ := equals_symm ha
  trans _ _ := equals_trans
  self := equals_self_iff ha
  rearranged _ h d := ⟨h.equals_left d, h.equals_right ha d⟩
  records r h s := by rw [h, equals, RecordOf.equals]

/-- A record with a record and an array inside. -/
def nested : Value :=
  .embedded (RecordOf.ofFields [
    ("place", .embedded (RecordOf.ofFields [("row", .int64 1), ("seat", .string "B")])),
    ("prices", .array [.double (Double.ofInt 12), .null])])

/-- The laws hold of a record that holds another and an array. -/
theorem equality_laws_nested : nested.DistinctFields ∧ nested.EqualityLaws := by
  have hdistinct : nested.DistinctFields := by
    refine distinctFields_ofFields ?_
    rw [List.forall_mem_cons, List.forall_mem_singleton]
    constructor
    · refine distinctFields_ofFields ?_
      rw [List.forall_mem_cons, List.forall_mem_singleton]
      exact ⟨distinctFields_flat rfl, distinctFields_flat rfl⟩
    · refine distinctFields_array_iff.mpr ?_
      rw [List.forall_mem_cons, List.forall_mem_singleton]
      exact ⟨distinctFields_flat rfl, distinctFields_flat rfl⟩
  exact ⟨hdistinct, equality_laws nested hdistinct⟩

end Value

end DocumentClient
