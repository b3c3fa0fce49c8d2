import ComponentDocs.Instant
import ComponentDocs.Proofs.Text.Digits

/-!
The text of an instant is read back as the instant, digit by digit and mark by
mark.
-/

namespace ComponentDocs

namespace Instant

/-! ## Digits -/

theorem isDigit_of_mem_padded {width number : Nat} {digit : Char}
    (member : digit ∈ padded width number) : digit.isDigit = true := by
  rcases List.mem_append.mp member with zero | inNumber
  · rw [List.eq_of_mem_replicate zero]
    rfl
  · exact Text.isDigit_of_mem_ofNat inNumber

theorem padded_ne_nil (width number : Nat) : padded width number ≠ [] := by
  simp [padded, Text.ofNat, Nat.toDigits_ne_nil]

theorem padded_append_ne_cons (width number : Nat) (rest : Text) {mark : Char}
    (notDigit : mark.isDigit = false) (other : Text) :
    padded width number ++ rest ≠ mark :: other := by
  obtain ⟨first, others, split⟩ :=
    List.exists_cons_of_ne_nil (padded_ne_nil width number)
  have digit : first.isDigit = true :=
    isDigit_of_mem_padded (split ▸ List.mem_cons_self)
  intro starts
  rw [split] at starts
  rw [(List.cons.inj starts).1, notDigit] at digit
  cases digit

theorem toNat?_padded (width number : Nat) :
    Text.toNat? (padded width number) = some number := by
  rw [Text.toNat?_eq_ofDigitChars (padded_ne_nil width number)
    fun _ => isDigit_of_mem_padded, padded, Nat.ofDigitChars_append,
    Nat.ofDigitChars_replicate_zero, Nat.mul_zero, Text.ofDigitChars_ofNat]

theorem length_padded {width number : Nat} (positive : 0 < width)
    (fits : number < 10 ^ width) : (padded width number).length = width := by
  have short : (Text.ofNat number).length ≤ width :=
    (Nat.length_toDigits_le_iff (by decide) positive).mpr fits
  simp only [padded, List.length_append, List.length_replicate]
  omega

/-! ## Reading numbers -/

theorem trimStart_padded (width number : Nat) (rest : Text) :
    Text.trimStart (padded width number ++ rest) =
      padded width number ++ rest := by
  obtain ⟨first, others, split⟩ :=
    List.exists_cons_of_ne_nil (padded_ne_nil width number)
  have digit : first.isDigit = true :=
    isDigit_of_mem_padded (split ▸ List.mem_cons_self)
  rw [split, List.cons_append, Text.trimStart,
    List.dropWhile_cons_of_neg (by simp [Text.isBlank_of_isDigit digit])]

/-- A number padded to the width is read whatever comes after it. -/
theorem number?_padded {width number : Nat} (positive : 0 < width)
    (fits : number < 10 ^ width) (rest : Text) :
    number? width (padded width number ++ rest) = some (number, rest) := by
  have length := length_padded positive fits
  have taken : (padded width number ++ rest).take width =
      padded width number :=
    List.take_left' length
  have digits : (padded width number).takeWhile Char.isDigit =
      padded width number :=
    List.takeWhile_eq_self_iff.mpr fun _ => isDigit_of_mem_padded
  simp only [number?, trimStart_padded, taken, digits, toNat?_padded,
    Option.map_some, List.drop_left]

theorem takeWhile_padded (width number : Nat) {mark : Char}
    (notDigit : mark.isDigit = false) (rest : Text) :
    (padded width number ++ mark :: rest).takeWhile Char.isDigit =
      padded width number := by
  rw [List.takeWhile_append_of_pos fun _ => isDigit_of_mem_padded,
    List.takeWhile_cons_of_neg (by simp [notDigit]), List.append_nil]

theorem dropWhile_padded (width number : Nat) {mark : Char}
    (notDigit : mark.isDigit = false) (rest : Text) :
    (padded width number ++ mark :: rest).dropWhile Char.isDigit =
      mark :: rest := by
  rw [List.dropWhile_append_of_pos fun _ => isDigit_of_mem_padded,
    List.dropWhile_cons_of_neg (by simp [notDigit])]

/-- A number is read up to the mark after it, however wide it is. -/
theorem wholeNumber?_padded (width number : Nat) {mark : Char}
    (notDigit : mark.isDigit = false) (rest : Text) :
    wholeNumber? (padded width number ++ mark :: rest) =
      some (number, mark :: rest) := by
  rw [wholeNumber?, takeWhile_padded _ _ notDigit, toNat?_padded,
    dropWhile_padded _ _ notDigit]
  rfl

/-! ## Reading the parts -/

theorem year?_writeYear (year : Int) (rest : Text) :
    year? (writeYear year ++ '-' :: rest) = some (year, '-' :: rest) := by
  have notDigit : '-'.isDigit = false := rfl
  rw [writeYear]
  split
  · rename_i negative
    have back : -(year.natAbs : Int) = year := by omega
    have trimmed (text : Text) : Text.trimStart ('-' :: text) = '-' :: text :=
      rfl
    rw [List.cons_append, year?, trimmed]
    simp only [wholeNumber?_padded _ _ notDigit, Option.map_some, back]
  split
  · rename_i notNegative great
    have back : (year.natAbs : Int) = year := by omega
    have trimmed (text : Text) : Text.trimStart ('+' :: text) = '+' :: text :=
      rfl
    rw [List.cons_append, year?, trimmed]
    simp only [wholeNumber?_padded _ _ notDigit, Option.map_some, back]
  · rename_i notNegative notGreat
    have back : (year.natAbs : Int) = year := by omega
    have fits : year.natAbs < 10 ^ 4 := by omega
    rw [year?, trimStart_padded]
    split
    · rename_i starts
      exact absurd starts (padded_append_ne_cons _ _ _ rfl _)
    · rename_i starts
      exact absurd starts (padded_append_ne_cons _ _ _ rfl _)
    · have isRead := number?_padded (by decide) fits ('-' :: rest)
      simp only [isRead, Option.map_some, back]

theorem fraction?_padded {width number : Nat} (positive : 0 < width)
    (atMostNine : width ≤ 9) (fits : number < 10 ^ width) :
    fraction? ('.' :: (padded width number ++ ['Z'])) =
      some (number * 10 ^ (9 - width), ['Z']) := by
  have notDigit : 'Z'.isDigit = false := rfl
  have length := length_padded positive fits
  have taken : (padded width number).take 9 = padded width number :=
    List.take_of_length_le (by omega)
  simp only [fraction?, takeWhile_padded _ _ notDigit,
    dropWhile_padded _ _ notDigit, taken, toNat?_padded, Option.map_some,
    length, Nat.pow_eq]

/-- The digits of a fraction that are left out are zeros. -/
theorem fraction?_writeFraction {nanosecond : Nat}
    (fits : nanosecond < 1000000000) :
    fraction? (writeFraction nanosecond ++ ['Z']) =
      some (nanosecond, ['Z']) := by
  rw [writeFraction]
  split
  · rename_i zero
    rw [zero]
    rfl
  split
  · rename_i _ wholeMillis
    rw [List.cons_append, fraction?_padded (by decide) (by decide) (by omega)]
    congr 2
    omega
  split
  · rename_i _ _ wholeMicros
    rw [List.cons_append, fraction?_padded (by decide) (by decide) (by omega)]
    congr 2
    omega
  · rw [List.cons_append, fraction?_padded (by decide) (by decide) (by omega)]
    congr 2
    omega

theorem earlier_zero {instant : Instant} (hour : instant.hour ≤ 23)
    (minute : instant.minute ≤ 59) : instant.earlier 0 = instant := by
  have notBefore : ¬ ((instant.hour : Int) * 60 + instant.minute - 0 < 0) := by
    omega
  have notAfter :
      ¬ (1440 ≤ (instant.hour : Int) * 60 + instant.minute - 0) := by
    omega
  have minuteOfDay :
      (((instant.hour : Int) * 60 + instant.minute - 0) % 1440).toNat =
        instant.hour * 60 + instant.minute := by
    omega
  have sameHour : (instant.hour * 60 + instant.minute) / 60 = instant.hour := by
    omega
  have sameMinute :
      (instant.hour * 60 + instant.minute) % 60 = instant.minute := by
    omega
  simp only [earlier, notBefore, notAfter, if_false, minuteOfDay, sameHour,
    sameMinute]

theorem afterMark?_cons {mark : Char} (visible : Text.isBlank mark = false)
    (rest : Text) : afterMark? mark (mark :: rest) = some rest := by
  rw [afterMark?, Text.trimStart, List.dropWhile_cons_of_neg (by simp [visible])]
  simp

theorem write_eq (instant : Instant) :
    instant.write = writeYear instant.year ++ '-' ::
      (padded 2 instant.month ++ '-' :: (padded 2 instant.day ++ 'T' ::
        (padded 2 instant.hour ++ ':' :: (padded 2 instant.minute ++ ':' ::
          (padded 2 instant.second ++
            (writeFraction instant.nanosecond ++ ['Z'])))))) := by
  simp [write]

theorem daysInMonth_le (year : Int) (month : Nat) :
    daysInMonth year month ≤ 31 := by
  rw [daysInMonth]
  split
  · split <;> decide
  · split <;> decide

theorem afterDate?_cons (rest : Text) : afterDate? ('T' :: rest) = some rest :=
  rfl

theorem offset?_zulu : offset? (Text.trimStart ['Z']) = some (0, []) :=
  rfl

theorem number?_two {number : Nat} (short : number < 100) (rest : Text) :
    number? 2 (padded 2 number ++ rest) = some (number, rest) :=
  number?_padded (by decide) short rest

/-- The text of every instant of the calendar is read back. -/
theorem read?_write {instant : Instant} (valid : instant.isValid = true) :
    read? instant.write = some instant := by
  have bounds := valid
  simp only [isValid, Bool.and_eq_true, decide_eq_true_eq] at bounds
  obtain ⟨⟨⟨⟨⟨⟨⟨⟨⟨_, _⟩, _⟩, month⟩, _⟩, day⟩, hour⟩, minute⟩, second⟩,
    nanosecond⟩ := bounds
  have shortDay := daysInMonth_le instant.year instant.month
  have afterDash := afterMark?_cons (show Text.isBlank '-' = false from rfl)
  have afterColon := afterMark?_cons (show Text.isBlank ':' = false from rfl)
  rw [write_eq]
  refine Option.bind_eq_some_iff.mpr ⟨_, year?_writeYear _ _, ?_⟩
  refine Option.bind_eq_some_iff.mpr ⟨_, afterDash _, ?_⟩
  refine Option.bind_eq_some_iff.mpr ⟨_, number?_two (by omega) _, ?_⟩
  refine Option.bind_eq_some_iff.mpr ⟨_, afterDash _, ?_⟩
  refine Option.bind_eq_some_iff.mpr ⟨_, number?_two (by omega) _, ?_⟩
  refine Option.bind_eq_some_iff.mpr ⟨_, afterDate?_cons _, ?_⟩
  refine Option.bind_eq_some_iff.mpr ⟨_, number?_two (by omega) _, ?_⟩
  refine Option.bind_eq_some_iff.mpr ⟨_, afterColon _, ?_⟩
  refine Option.bind_eq_some_iff.mpr ⟨_, number?_two (by omega) _, ?_⟩
  refine Option.bind_eq_some_iff.mpr ⟨_, afterColon _, ?_⟩
  refine Option.bind_eq_some_iff.mpr ⟨_, number?_two (by omega) _, ?_⟩
  refine Option.bind_eq_some_iff.mpr ⟨_, fraction?_writeFraction nanosecond, ?_⟩
  refine Option.bind_eq_some_iff.mpr ⟨_, offset?_zulu, ?_⟩
  simp only [earlier_zero hour minute, valid]
  rfl

end Instant

end ComponentDocs
