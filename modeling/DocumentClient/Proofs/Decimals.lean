import DocumentClient.Text.Integer

/-!
# Decimals read back

Every natural number is read back from its digits (`readDigits?_digits`), and so is every word of
16 bits by the reader that checks the range (`readUInt16?_digits`).
-/

namespace DocumentClient.Text

/-- The character of a digit has its value. -/
theorem digitValue?_digitChar : ∀ {d : Nat}, d < 10 → digitValue? (digitChar d) = some d := by
  decide

/-- No separator and no sign is taken for a digit. -/
theorem digitValue?_of_mem_digits {n : Nat} {c : Char} (h : c ∈ digits n) :
    (digitValue? c).isSome = true := by
  fun_induction digits n with
  | case1 n hn =>
      obtain rfl := List.mem_singleton.mp h
      rw [digitValue?_digitChar hn]
      rfl
  | case2 n hn ih =>
      rcases List.mem_append.mp h with h | h
      · exact ih h
      · obtain rfl := List.mem_singleton.mp h
        rw [digitValue?_digitChar (Nat.mod_lt n (by omega))]
        rfl

/-- Only digits are written for a number. -/
theorem not_mem_digits {n : Nat} {c : Char} (hc : digitValue? c = none) : c ∉ digits n := by
  intro h
  have hsome := digitValue?_of_mem_digits h
  rw [hc] at hsome
  exact absurd hsome Bool.false_ne_true

/-- Digits are read on from where the digits before them led. -/
theorem readMoreDigits?_append (value : Nat) (front back : List Char) :
    readMoreDigits? value (front ++ back) =
      (readMoreDigits? value front).bind (readMoreDigits? · back) := by
  induction front generalizing value with
  | nil => rfl
  | cons c front ih =>
      rw [List.cons_append, readMoreDigits?, readMoreDigits?]
      cases digitValue? c with
      | none => rfl
      | some d => exact ih (10 * value + d)

/-- The digits of a number are read as that number. -/
theorem readMoreDigits?_digits (n : Nat) : readMoreDigits? 0 (digits n) = some n := by
  fun_induction digits n with
  | case1 n hn => simp only [readMoreDigits?, digitValue?_digitChar hn, Nat.mul_zero, Nat.zero_add]
  | case2 n hn ih =>
      have hdigit := digitValue?_digitChar (Nat.mod_lt n (Nat.zero_lt_succ 9))
      rw [readMoreDigits?_append, ih, Option.bind_some]
      simp only [readMoreDigits?, hdigit, Nat.div_add_mod]

/-- Every number has a digit. -/
theorem digits_ne_nil (n : Nat) : digits n ≠ [] := by
  rw [digits]
  split <;> simp

/-- A natural number is read back from its digits. -/
theorem readDigits?_digits (n : Nat) : readDigits? (digits n) = some n := by
  cases hdigits : digits n with
  | nil => exact absurd hdigits (digits_ne_nil n)
  | cons c rest =>
      rw [readDigits?, ← hdigits, readMoreDigits?_digits]
      exact List.cons_ne_nil c rest

/-- A written number is read back. -/
theorem readUnsigned?_digits (n : Nat) : readUnsigned? (digits n) = some n := by
  have hplus : '+' ∉ digits n := not_mem_digits (by decide)
  rw [readUnsigned?, readDigits?_digits]
  intro rest hrest
  exact hplus (hrest ▸ List.mem_cons_self)

/-- A word of 16 bits is read back from its digits. -/
theorem readUInt16?_digits (word : UInt16) : readUInt16? (digits word.toNat) = some word := by
  have hword : word.toNat ≤ 65535 := Nat.le_of_lt_succ word.toNat_lt
  rw [readUInt16?, readUnsigned?_digits, Option.bind_some, toUInt16?, if_pos hword,
    UInt16.ofNat_toNat]

end DocumentClient.Text
