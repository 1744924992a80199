import DocumentClient.Calendar
import DocumentClient.Proofs.IdentityTexts
import Mathlib.Algebra.Group.Nat.Defs

/-!
# Dates and times read back

Every date is read back from its text (`Date.read?_text`), and so is every regular time together
with its date (`DateTime.read?_text`): years before zero and beyond 9999, fractions of a second in
three, six or nine digits, and leap seconds at the end of a minute. A leap second after another
second is read as the second that follows (`TimeOfDay.asRead`). Months, days and the numbers of a
time take two digits, so that a reader that stops after two does not depend on what follows; a year
ends at the mark behind it.
-/

namespace DocumentClient

namespace Text

/-! ## Numbers with leading zeros -/

/-- A number below a power of ten has no more digits than the exponent says. -/
theorem digitCount_le {width n : Nat} (hwidth : 0 < width) (h : n < 10 ^ width) :
    digitCount n ≤ width := by
  induction width generalizing n with
  | zero => exact absurd hwidth (Nat.lt_irrefl 0)
  | succ width ih =>
      rw [digitCount]
      split
      · exact hwidth
      · next hn =>
          have hquotient : n / 10 < 10 ^ width := by
            rw [Nat.pow_succ] at h
            omega
          have hpositive : 0 < width := by
            rcases Nat.eq_zero_or_pos width with rfl | hpositive
            · rw [Nat.zero_add, Nat.pow_one] at h
              exact absurd h hn
            · exact hpositive
          exact Nat.succ_le_succ (ih hpositive hquotient)

/-- A number that has at most this many digits is written with just as many. -/
theorem length_paddedDigits {width n : Nat} (hwidth : 0 < width) (h : n < 10 ^ width) :
    (paddedDigits width n).length = width := by
  have hcount := digitCount_le hwidth h
  rw [paddedDigits, List.length_append, List.length_replicate, length_digits]
  omega

/-- Zeros in front of a number are digits, too. -/
theorem isDigit_of_mem_paddedDigits {width n : Nat} :
    ∀ c ∈ paddedDigits width n, c.isDigit = true := by
  intro c hc
  rcases List.mem_append.mp hc with hc | hc
  · rw [List.eq_of_mem_replicate hc]
    rfl
  · exact isDigit_of_mem_digits c hc

/-- A padded number is not empty. -/
theorem paddedDigits_ne_nil (width n : Nat) : paddedDigits width n ≠ [] :=
  List.append_ne_nil_of_right_ne_nil _ (digits_ne_nil n)

/-- Leading zeros do not count. -/
theorem digitsValue_paddedDigits (width n : Nat) : digitsValue (paddedDigits width n) = n := by
  have hzeros : ∀ count, digitsValue (List.replicate count '0') = 0 := by
    intro count
    induction count with
    | zero => rfl
    | succ count ih => exact ih
  have hdigits := digitsValue_digits n
  rw [digitsValue] at hdigits ⊢
  rw [paddedDigits, List.foldl_append, ← digitsValue, hzeros, hdigits]

/-- Digits are not trimmed. -/
theorem trimStart_digits {number : List Char} (hne : number ≠ [])
    (hnumber : ∀ c ∈ number, c.isDigit = true) (rest : List Char) :
    trimStart (number ++ rest) = number ++ rest :=
  trimStart_word_append hne (fun c hc => isBlank_of_isDigit (hnumber c hc)) rest

end Text

open Text

/-! ## Readers of numbers -/

variable {rest : List Char}

/-- A number is read to its end if no more digits may follow or none does. -/
theorem readShortNumber?_digits {most : Nat} {number : List Char} (hne : number ≠ [])
    (hnumber : ∀ c ∈ number, c.isDigit = true)
    (hend : number.length = most ∨
      number.length ≤ most ∧ ∀ c ∈ rest.head?, c.isDigit = false) :
    readShortNumber? most (number ++ rest) = some (digitsValue number, rest) := by
  have htake : ((number ++ rest).take most).takeWhile Char.isDigit = number := by
    rcases hend with rfl | ⟨hlength, hrest⟩
    · rw [List.take_left]
      exact List.takeWhile_eq_self_iff.mpr hnumber
    · rw [List.take_append, List.take_of_length_le hlength]
      refine takeWhile_isDigit_append hnumber fun c hc => hrest c ?_
      rw [List.head?_take] at hc
      split at hc
      · cases hc
      · exact hc
  have hvalue : readDigits? number = some (digitsValue number) :=
    readDigits?_eq_some_iff.mpr ⟨hne, hnumber, rfl⟩
  simp only [readShortNumber?, htake, hvalue, Option.map_some, List.drop_left]

/-- A number of two digits is read, whatever follows it. -/
theorem readPart?_paddedDigits {n : Nat} (hn : n < 100) (rest : List Char) :
    readPart? (paddedDigits 2 n ++ rest) = some (n, rest) := by
  have hne := paddedDigits_ne_nil 2 n
  have hlength : (paddedDigits 2 n).length = 2 := length_paddedDigits (by decide) hn
  rw [readPart?, trimStart_digits hne isDigit_of_mem_paddedDigits,
    readShortNumber?_digits hne isDigit_of_mem_paddedDigits (.inl hlength),
    digitsValue_paddedDigits]

/-- A mark is read if it stands in front. -/
theorem readMark?_cons (mark : Char) (hmark : isBlank mark = false) (rest : List Char) :
    readMark? mark (mark :: rest) = some rest := by
  simp [readMark?, trimStart_cons, hmark]

namespace Date

/-! ## Dates -/

/-- A year without a sign has up to four digits. -/
theorem readYear?_digits {number : List Char} (hne : number ≠ [])
    (hnumber : ∀ c ∈ number, c.isDigit = true) : readYear? (number ++ rest) =
      (readShortNumber? 4 (number ++ rest)).map fun found => ((found.1 : Int), found.2) := by
  rw [readYear?, trimStart_digits hne hnumber]
  obtain ⟨c, number, rfl⟩ := List.exists_cons_of_ne_nil hne
  have hc : c.isDigit = true := hnumber c List.mem_cons_self
  rw [List.cons_append]
  split
  · next heq => exact absurd ((List.cons.inj heq).1 ▸ hc) (by decide)
  · next heq => exact absurd ((List.cons.inj heq).1 ▸ hc) (by decide)
  · rfl

/-- After a sign, a year goes on to the last digit. -/
theorem readShortNumber?_signed (year : Nat) (hrest : ∀ c ∈ rest.head?, c.isDigit = false) :
    readShortNumber? (paddedDigits 4 year ++ rest).length (paddedDigits 4 year ++ rest) =
      some (year, rest) := by
  have hlength : (paddedDigits 4 year).length ≤ (paddedDigits 4 year ++ rest).length := by
    rw [List.length_append]
    exact Nat.le_add_right _ _
  rw [readShortNumber?_digits (paddedDigits_ne_nil 4 year) isDigit_of_mem_paddedDigits
    (.inr ⟨hlength, hrest⟩), digitsValue_paddedDigits]

/-- A year is read with its sign if no digit follows it. -/
theorem readYear?_yearText (year : Int) (hrest : ∀ c ∈ rest.head?, c.isDigit = false) :
    readYear? (yearText year ++ rest) = some (year, rest) := by
  rw [yearText]
  split
  · next hyear =>
      have hlength : (paddedDigits 4 year.toNat).length = 4 :=
        length_paddedDigits (by decide) (by omega)
      rw [readYear?_digits (paddedDigits_ne_nil _ _) isDigit_of_mem_paddedDigits,
        readShortNumber?_digits (paddedDigits_ne_nil _ _) isDigit_of_mem_paddedDigits
          (.inl hlength), digitsValue_paddedDigits, Option.map_some, Int.toNat_of_nonneg hyear.1]
  · next hyear =>
      have hread := readShortNumber?_signed year.natAbs hrest
      by_cases hnegative : year < 0
      · have hvalue : -(year.natAbs : Int) = year := by omega
        rw [if_pos hnegative, List.cons_append, readYear?, IsVisible.trimStart_cons (by decide)]
        simp only [hread, Option.map_some, hvalue]
      · have hvalue : (year.natAbs : Int) = year := by omega
        rw [if_neg hnegative, List.cons_append, readYear?, IsVisible.trimStart_cons (by decide)]
        simp only [hread, Option.map_some, hvalue]

/-- There are twelve months. -/
theorem month_le (d : Date) : d.month ≤ 12 := by
  have hday : 1 ≤ daysInMonth d.year d.month := Nat.le_trans d.day_pos d.day_le
  by_cases hmonth : d.month ≤ 12
  · exact hmonth
  · have hnone : daysInMonth d.year d.month = 0 := by
      unfold daysInMonth
      split <;> omega
    omega

/-- No month has more than 31 days. -/
theorem daysInMonth_le (year : Int) (month : Nat) : daysInMonth year month ≤ 31 := by
  unfold daysInMonth
  repeat' split
  all_goals decide

/-- The parts of a date make up that date. -/
theorem of?_self (d : Date) : Date.of? d.year d.month d.day = some d :=
  dif_pos ⟨d.year_ge, d.year_le, d.day_pos, d.day_le⟩

/-- A date is read from the start of a text; its day has two digits, whatever follows. -/
theorem readStart?_text (d : Date) (rest : List Char) :
    readStart? (d.text ++ rest) = some (d, rest) := by
  have hday : d.day < 100 := by
    have hle := Nat.le_trans d.day_le (daysInMonth_le d.year d.month)
    omega
  have hmonth : d.month < 100 := by
    have hle := d.month_le
    omega
  rw [text, List.append_assoc, List.append_assoc, List.cons_append, List.cons_append, readStart?,
    readYear?_yearText d.year (by simp)]
  simp only [Option.bind_eq_bind, Option.bind_some,
    readMark?_cons '-' (IsVisible.not_blank (by decide)),
    readPart?_paddedDigits hmonth, readPart?_paddedDigits hday, of?_self]
  rfl

/-- A date is read back from its text. -/
theorem read?_text (d : Date) : Date.read? d.text = some d := by
  have hread := readStart?_text d []
  rw [List.append_nil] at hread
  rw [Date.read?, hread]
  rfl

end Date

namespace TimeOfDay

/-! ## Times -/

/-- The digits after the point are those of the fraction, from the tenths on. -/
theorem readFraction?_paddedDigits {width n : Nat} (hwidth : 0 < width) (hmost : width ≤ 9)
    (hn : n < 10 ^ width) :
    readFraction? ('.' :: paddedDigits width n) = some (n * 10 ^ (9 - width), []) := by
  have hlength : (paddedDigits width n).length = width := length_paddedDigits hwidth hn
  have htake : ((paddedDigits width n).take 9).takeWhile Char.isDigit = paddedDigits width n := by
    rw [List.take_of_length_le (by omega)]
    exact List.takeWhile_eq_self_iff.mpr isDigit_of_mem_paddedDigits
  have hvalue : readDigits? (paddedDigits width n) = some n :=
    readDigits?_eq_some_iff.mpr ⟨paddedDigits_ne_nil width n, isDigit_of_mem_paddedDigits,
      digitsValue_paddedDigits width n⟩
  simp only [readFraction?, htake, hvalue, hlength, Option.map_some, Nat.pow_eq]
  rw [List.drop_of_length_le (by omega)]
  rfl

/-- A fraction of a second is read back, whether it has no, three, six or nine digits. -/
theorem readFraction?_fractionText {nanosecond : Nat} (h : nanosecond < 1000000000) :
    readFraction? (fractionText nanosecond) = some (nanosecond, []) := by
  rw [fractionText]
  split
  · next hzero =>
      rw [hzero]
      rfl
  · split
    · rw [readFraction?_paddedDigits (by decide) (by decide) (by omega)]
      simp
      omega
    · split
      · rw [readFraction?_paddedDigits (by decide) (by decide) (by omega)]
        simp
        omega
      · rw [readFraction?_paddedDigits (by decide) (by decide) h]
        simp

/-- A leap second stands at the end of a minute, if the time has one. -/
def IsRegular (t : TimeOfDay) : Prop :=
  t.nanosecond < 1000000000 ∨ t.second = 59

instance (t : TimeOfDay) : Decidable t.IsRegular :=
  inferInstanceAs (Decidable (_ ∨ _))

/-- The time that is read from the text of a time. -/
def asRead (t : TimeOfDay) : TimeOfDay :=
  if h : t.IsRegular then t
  else
    { t with
      second := t.second + 1
      nanosecond := t.nanosecond % 1000000000
      second_lt := Nat.lt_of_le_of_ne t.second_lt fun hlast =>
        h (.inr (Nat.succ.inj hlast))
      nanosecond_lt := Nat.lt_trans (Nat.mod_lt _ (by decide)) (by decide) }

/-- Exactly the regular times are read as they are. -/
theorem asRead_eq_self_iff (t : TimeOfDay) : t.asRead = t ↔ t.IsRegular := by
  constructor
  · intro h
    by_contra hirregular
    rw [asRead, dif_neg hirregular] at h
    have hsecond : t.second + 1 = t.second := congrArg TimeOfDay.second h
    omega
  · exact fun h => dif_pos h

/-- What is read is regular. -/
theorem isRegular_asRead (t : TimeOfDay) : t.asRead.IsRegular := by
  by_cases hregular : t.IsRegular
  · rwa [(asRead_eq_self_iff t).mpr hregular]
  · rw [asRead, dif_neg hregular]
    exact .inl (Nat.mod_lt _ (by decide))

/-- The clock shows second 60 exactly in a leap second at the end of a minute. -/
theorem ofClock?_asRead (t : TimeOfDay) : ofClock? t.hour t.minute
    (t.second + t.nanosecond / 1000000000) (t.nanosecond % 1000000000) = some t.asRead := by
  have hsecond := t.second_lt
  have hnanosecond := t.nanosecond_lt
  by_cases hregular : t.IsRegular
  · have hself : of? t.hour t.minute t.second t.nanosecond = some t :=
      dif_pos ⟨t.hour_lt, t.minute_lt, hsecond, hnanosecond, hregular⟩
    rw [(asRead_eq_self_iff t).mpr hregular]
    by_cases hwhole : t.nanosecond < 1000000000
    · rw [Nat.div_eq_of_lt hwhole, Nat.mod_eq_of_lt hwhole, Nat.add_zero, ofClock?,
        if_neg (by omega), hself]
    · have hlast : t.second = 59 := hregular.resolve_left hwhole
      have hquotient : t.nanosecond / 1000000000 = 1 := by omega
      have hremainder : 1000000000 + t.nanosecond % 1000000000 = t.nanosecond := by omega
      rw [hquotient, hlast, ofClock?, if_pos rfl, hremainder, ← hlast, hself]
  · obtain ⟨hleap, hearly⟩ := not_or.mp hregular
    have hquotient : t.nanosecond / 1000000000 = 1 := by omega
    have hfraction : t.nanosecond % 1000000000 < 1000000000 := Nat.mod_lt _ (by decide)
    rw [hquotient, ofClock?, if_neg (by omega), asRead, dif_neg hregular]
    exact dif_pos ⟨t.hour_lt, t.minute_lt, by omega, by omega, .inl hfraction⟩

/-- A time is written like the one that is read from its text. -/
theorem text_asRead (t : TimeOfDay) : t.asRead.text = t.text := by
  by_cases hregular : t.IsRegular
  · rw [(asRead_eq_self_iff t).mpr hregular]
  · have hleap := (not_or.mp hregular).1
    have hnanosecond := t.nanosecond_lt
    have hquotient : t.nanosecond / 1000000000 = 1 := by omega
    have hfraction : t.nanosecond % 1000000000 < 1000000000 := Nat.mod_lt _ (by decide)
    rw [asRead, dif_neg hregular]
    simp only [text, hquotient, Nat.div_eq_of_lt hfraction, Nat.mod_eq_of_lt hfraction,
      Nat.add_zero]

/-- The text of a time is read to its end. -/
theorem readStart?_text (t : TimeOfDay) : readStart? t.text = some (t.asRead, []) := by
  have hhour : t.hour < 100 := Nat.lt_trans t.hour_lt (by decide)
  have hminute : t.minute < 100 := Nat.lt_trans t.minute_lt (by decide)
  have hsecond : t.second + t.nanosecond / 1000000000 < 100 := by
    have hlt := t.second_lt
    have hnanosecond := t.nanosecond_lt
    omega
  have hfraction : t.nanosecond % 1000000000 < 1000000000 := Nat.mod_lt _ (by decide)
  rw [text, List.append_assoc, List.append_assoc, List.cons_append, List.cons_append, readStart?,
    readPart?_paddedDigits hhour]
  simp only [Option.bind_eq_bind, Option.bind_some,
    readMark?_cons ':' (IsVisible.not_blank (by decide)),
    readPart?_paddedDigits hminute, readPart?_paddedDigits hsecond,
    readFraction?_fractionText hfraction, ofClock?_asRead]
  rfl

end TimeOfDay

/-- A date and a time are read back from their text, an irregular time as the one it is written
like. -/
theorem DateTime.read?_text (t : DateTime) :
    DateTime.read? (t.text 'T') = some ⟨t.date, t.time.asRead⟩ := by
  rw [DateTime.text, DateTime.read?, Date.readStart?_text]
  simp only [Option.bind_eq_bind, Option.bind_some, readMark?_cons 'T' rfl,
    TimeOfDay.readStart?_text]
  rfl

end DocumentClient
