import TableCalc.Calendar.Timestamp
import TableCalc.Proofs.Calendar.Words

/-!
Instants and their calendar fields. The exact milliseconds of valid fields lead back to the fields,
so there is one instant for each valid date and time of day. Whether it is found is a question of
words of 64 bits alone: on the day on which they begin, no instant is, although the last hours of
that day fit.
-/

namespace TableCalc.Calendar

/-- Whether a date is a day of the calendar and a time is a time of day. -/
structure DateTime.IsValid (t : DateTime) : Prop where
  date : t.toDate.IsValid
  hour : t.hour ≤ 23
  minute : t.minute ≤ 59
  second : t.second ≤ 59

instance : DecidablePred DateTime.IsValid := fun t =>
  decidable_of_iff (t.toDate.IsValid ∧ t.hour ≤ 23 ∧ t.minute ≤ 59 ∧ t.second ≤ 59)
    ⟨fun ⟨hdate, hhour, hminute, hsecond⟩ => ⟨hdate, hhour, hminute, hsecond⟩,
      fun ⟨hdate, hhour, hminute, hsecond⟩ => ⟨hdate, hhour, hminute, hsecond⟩⟩

section Fields

variable {t : DateTime}

theorem DateTime.millisOfDay_eq (t : DateTime) :
    t.millisOfDay = 3600000 * t.hour + 60000 * t.minute + 1000 * t.second := by
  unfold DateTime.millisOfDay millisPerHour millisPerMinute millisPerSecond
  omega

theorem DateTime.IsValid.millisOfDay_bounds (h : t.IsValid) :
    0 ≤ t.millisOfDay ∧ t.millisOfDay < 86400000 := by
  obtain ⟨-, hhour, hminute, hsecond⟩ := h
  rw [t.millisOfDay_eq]
  omega

theorem DateTime.millis_eq (t : DateTime) : t.millis = 86400000 * t.dayNumber + t.millisOfDay := by
  rw [DateTime.millis, Int.mul_comm]
  rfl

/-- The fields are found again from the exact milliseconds that they denote. -/
theorem DateTime.IsValid.toDateTime_millis (h : t.IsValid) :
    (Timestamp.mk t.millis).toDateTime = t := by
  have hbounds := h.millisOfDay_bounds
  have hday : t.millis / millisPerDay = t.dayNumber := by
    rw [t.millis_eq]
    unfold millisPerDay millisPerHour millisPerMinute millisPerSecond
    omega
  have htime : t.millis % millisPerDay = t.millisOfDay := by
    rw [t.millis_eq]
    unfold millisPerDay millisPerHour millisPerMinute millisPerSecond
    omega
  obtain ⟨hdate, hhour, hminute, hsecond⟩ := h
  simp only [Timestamp.toDateTime, hday, htime, hdate.ofDayNumber_dayNumber, t.millisOfDay_eq,
    millisPerHour, millisPerMinute, millisPerSecond]
  obtain ⟨date, hour, minute, second⟩ := t
  dsimp only at hhour hminute hsecond
  simp only [DateTime.mk.injEq, true_and]
  omega

theorem Timestamp.isValid_toDateTime (s : Timestamp) : s.toDateTime.IsValid := by
  refine ⟨Date.isValid_ofDayNumber _, ?_, ?_, ?_⟩
  all_goals
    simp only [Timestamp.toDateTime, millisPerDay, millisPerHour, millisPerMinute, millisPerSecond]
    omega

/-- The fields leave nothing out but the milliseconds after the last second. -/
theorem Timestamp.millis_toDateTime (s : Timestamp) :
    s.toDateTime.millis = s.millis - s.millis % 1000 := by
  have hday : s.toDateTime.dayNumber = s.millis / 86400000 := Date.dayNumber_ofDayNumber _
  rw [DateTime.millis_eq, DateTime.millisOfDay_eq, hday]
  simp only [Timestamp.toDateTime, millisPerDay, millisPerHour, millisPerMinute, millisPerSecond]
  omega

end Fields

section Construction

/-- The day on which signed words of 64 bits begin to count milliseconds, at 16:47:04.192. -/
def firstDay : Date := ⟨-292275055, 5, 16⟩

variable {t : DateTime}

theorem Timestamp.ofDateTime_eq (h : t.IsValid) :
    Timestamp.ofDateTime t =
      if Text.isInt64 (t.dayNumber * millisPerDay) && Text.isInt64 t.millis then .ok ⟨t.millis⟩
      else .error .overflow := by
  obtain ⟨⟨hmonthLow, hmonthHigh, hdayLow, hdayHigh⟩, hhour, hminute, hsecond⟩ := h
  rw [Timestamp.ofDateTime, if_neg (by omega), if_neg (by omega), if_neg (by omega),
    if_neg (by omega), if_neg (by omega)]

/-- Fields that are not valid are reported, and it is one of them that is. -/
theorem Timestamp.ofDateTime_of_not_isValid (h : ¬ t.IsValid) :
    ∃ fault, Timestamp.ofDateTime t = .error fault ∧ fault ≠ .overflow := by
  unfold Timestamp.ofDateTime
  split
  · exact ⟨_, rfl, by simp⟩
  split
  · exact ⟨_, rfl, by simp⟩
  split
  · exact ⟨_, rfl, by simp⟩
  split
  · exact ⟨_, rfl, by simp⟩
  split
  · exact ⟨_, rfl, by simp⟩
  · refine absurd ⟨⟨?_, ?_, ?_, ?_⟩, ?_, ?_, ?_⟩ h <;> omega

theorem Timestamp.isInt64_of_ofDateTime {s : Timestamp} (h : Timestamp.ofDateTime t = .ok s) :
    Text.isInt64 s.millis = true := by
  by_cases hvalid : t.IsValid
  · rw [Timestamp.ofDateTime_eq hvalid] at h
    split at h
    · next hfits =>
      cases h
      exact (Bool.and_eq_true_iff.mp hfits).2
    · cases h
  · obtain ⟨fault, hfault, -⟩ := Timestamp.ofDateTime_of_not_isValid hvalid
    rw [hfault] at h
    cases h

/-- Where the milliseconds fit, the start of the day does as well, but on the first day. -/
theorem DateTime.IsValid.start_fits_iff (h : t.IsValid) (hfits : Text.isInt64 t.millis = true) :
    Text.isInt64 (t.dayNumber * millisPerDay) = true ↔ t.toDate ≠ firstDay := by
  have hbounds := h.millisOfDay_bounds
  have hfirst : firstDay.dayNumber = -106751991168 := by decide
  rw [Word.isInt64_iff, t.millis_eq] at *
  unfold millisPerDay millisPerHour millisPerMinute millisPerSecond
  constructor
  · intro hstart heq
    rw [heq, hfirst] at hstart
    omega
  · intro hne
    have hnumber : t.dayNumber ≠ -106751991168 := by
      intro heq
      apply hne
      rw [← h.date.ofDayNumber_dayNumber, heq]
      decide
    omega

/-- An instant is found just for valid fields whose exact milliseconds fit a word of 64 bits and do
not lie on the first day; it holds those milliseconds, which lead back to the fields. An overflow is
reported just for the other valid fields, on the first day also where the milliseconds fit, because
the start of that day does not. -/
theorem Timestamp.ofDateTime_fits (t : DateTime) :
    (∀ s, Timestamp.ofDateTime t = .ok s ↔
      t.IsValid ∧ Text.isInt64 t.millis = true ∧ t.toDate ≠ firstDay ∧ s = ⟨t.millis⟩) ∧
    (Timestamp.ofDateTime t = .error .overflow ↔
      t.IsValid ∧ (Text.isInt64 t.millis = false ∨ t.toDate = firstDay)) ∧
    (t.IsValid → (Timestamp.mk t.millis).toDateTime = t) := by
  by_cases h : t.IsValid
  · have hstart := h.start_fits_iff
    rw [Timestamp.ofDateTime_eq h]
    refine ⟨fun s => ?_, ?_, fun _ => h.toDateTime_millis⟩
    · cases hfits : Text.isInt64 t.millis with
      | false => simp
      | true =>
        rw [Bool.and_true, ← hstart hfits]
        split
        · next hday => simp [h, hday, eq_comm]
        · next hday => simp [hday]
    · cases hfits : Text.isInt64 t.millis with
      | false => simp [h]
      | true =>
        rw [Bool.and_true, ← not_ne_iff (a := t.toDate), ← hstart hfits]
        split
        · next hday => simp [hday]
        · next hday => simp [h, hday]
  · obtain ⟨fault, hfault, hne⟩ := Timestamp.ofDateTime_of_not_isValid h
    simp [hfault, h, hne]

/-- The first second whose milliseconds fit. Its fields are valid, and they are those of an instant,
which is not found. -/
theorem Timestamp.ofDateTime_firstDay :
    let t : DateTime :=
      { year := -292275055, month := 5, day := 16, hour := 16, minute := 47, second := 5 }
    t.IsValid ∧ Text.isInt64 t.millis = true ∧ (Timestamp.mk t.millis).toDateTime = t ∧
      Timestamp.ofDateTime t = .error .overflow :=
  ⟨by decide, by decide, by decide, rfl⟩

/-- The last second whose milliseconds fit. -/
theorem Timestamp.ofDateTime_fits_lastSecond :
    let t : DateTime :=
      { year := 292278994, month := 8, day := 17, hour := 7, minute := 12, second := 55 }
    t.IsValid ∧ Timestamp.ofDateTime t = .ok ⟨9223372036854775000⟩ ∧
      (Timestamp.mk t.millis).toDateTime = t := by
  intro t
  have hvalid : t.IsValid := by decide
  obtain ⟨hok, -, hback⟩ := Timestamp.ofDateTime_fits t
  exact ⟨hvalid, (hok _).mpr ⟨hvalid, by decide, by decide, by decide⟩, hback hvalid⟩

end Construction

end TableCalc.Calendar
