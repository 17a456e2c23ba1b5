import TableCalc.Display
import TableCalc.Proofs.Cell.Numbers
import TableCalc.Proofs.Decimal.Integers

/-!
Cells that hold date-times. What is written for an instant is the text of its fields, and it is read
back as that instant, rounded down to the last field that is written; whatever else looks like a
date-time has fields that are no date or no time of day, and counts as zero.
-/

namespace TableCalc.Cell

open Calendar (DateTime Timestamp IsMark)

section Texts

variable {t : DateTime} (h : t.IsValid) (hyear : t.InFourDigitYears) {mark : Char}
  (hmark : IsMark mark) {withSeconds : Bool}

include h hyear hmark

/-- The text of a date-time is read as the instant of the fields that it tells. -/
theorem read_of_trim_eq_chars {text : String}
    (htext : Text.trim text.toList = t.chars mark withSeconds) :
    kind text = .timestamp ∧ Timestamp.read text = .ok ⟨(t.shown withSeconds).millis⟩ := by
  have hvalid := h.shown withSeconds
  have hshownYear : (t.shown withSeconds).InFourDigitYears := by
    rwa [DateTime.InFourDigitYears, DateTime.year_shown]
  have hpattern := hvalid.inPattern hshownYear
  have hsecond : withSeconds = false → (t.shown withSeconds).second = 0 := by
    rintro rfl
    rfl
  rw [← DateTime.chars_shown] at htext
  constructor
  · rw [kind_eq_timestamp_iff, htext]
    exact looksLikeTimestamp_iff.mpr ⟨_, mark, withSeconds, hpattern, hmark, hsecond, rfl⟩
  · rw [Timestamp.read_eq_ofDateTime hpattern hmark hsecond htext,
      hvalid.ofDateTime_eq_ok hshownYear]

theorem number_chars (withSeconds : Bool) :
    kind (.ofList (t.chars mark withSeconds)) = .timestamp ∧
      number (.ofList (t.chars mark withSeconds)) = .ofInt (t.shown withSeconds).millis := by
  have htext : Text.trim (String.ofList (t.chars mark withSeconds)).toList =
      t.chars mark withSeconds := by
    rw [String.toList_ofList]
    exact Text.trim_eq_self ((h.inPattern hyear).isTrimmed_chars mark withSeconds)
  obtain ⟨hkind, hread⟩ := read_of_trim_eq_chars h hyear hmark htext
  refine ⟨hkind, ?_⟩
  rw [number, hkind]
  dsimp only
  rw [hread]
  rfl

end Texts

/-- A text that looks like a date-time but does not tell one counts as zero. -/
theorem number_eq_zero_of_not_isValid {text : String} {t : DateTime} (h : ¬ t.IsValid)
    (hkind : kind text = .timestamp) (hread : Timestamp.read text = Timestamp.ofDateTime t) :
    number text = 0 := by
  obtain ⟨fault, hfault, -⟩ := Timestamp.ofDateTime_of_not_isValid h
  rw [number, hkind]
  dsimp only
  rw [hread, hfault]
  rfl

theorem write_dateTime {text : String} {millis : Int}
    (h : (number text).floor.toInt64? = some millis) :
    Display.write .dateTime text = .ofList (Timestamp.mk millis).chars := by
  unfold Display.write
  dsimp only
  rw [h]
  exact Timestamp.toString_eq _

/-- Date-times are read back. For an instant of a year of four digits, a cell that holds its
milliseconds is written as the text of its fields; that text, with a blank or a `T` between date and
time, is taken for a date-time and counts as the milliseconds rounded down to the minute, or to the
second if seconds are written too. Any other text that is taken for a date-time has a month, a day or
an hour that does not exist, and counts as zero. -/
theorem dateTimes_read_back :
    (∀ s : Timestamp, Text.isInt64 s.millis = true → s.toDateTime.InFourDigitYears →
      Display.write .dateTime (Decimal.ofInt s.millis).canonical =
          .ofList (s.toDateTime.chars ' ' false) ∧
        (∀ text, (number text).floor.toInt64? = some s.millis →
          Display.write .dateTime text = .ofList (s.toDateTime.chars ' ' false)) ∧
        ∀ mark withSeconds, IsMark mark →
          kind (.ofList (s.toDateTime.chars mark withSeconds)) = .timestamp ∧
          number (.ofList (s.toDateTime.chars mark withSeconds)) =
            .ofInt (s.millis - s.millis % if withSeconds then 1000 else 60000)) ∧
    ∀ text, kind text = .timestamp →
      (∀ (s : Timestamp) (mark : Char) (withSeconds : Bool), Text.isInt64 s.millis = true →
        s.toDateTime.InFourDigitYears → IsMark mark →
        Text.trim text.toList ≠ s.toDateTime.chars mark withSeconds) →
      number text = 0 ∧ ∃ (t : DateTime) (mark : Char) (withSeconds : Bool), ¬ t.IsValid ∧
        t.InPattern ∧ IsMark mark ∧ Text.trim text.toList = t.chars mark withSeconds := by
  constructor
  · intro s hfits hyear
    have hwrite (text : String) (htext : (number text).floor.toInt64? = some s.millis) :
        Display.write .dateTime text = .ofList (s.toDateTime.chars ' ' false) := by
      rw [write_dateTime htext, s.chars_eq]
    refine ⟨hwrite _ ?_, hwrite, fun mark withSeconds hmark => ?_⟩
    · rw [number_canonical _ (precision_ofInt_word_le hfits), Decimal.floor_ofInt,
        Decimal.toInt64?_ofInt hfits]
    · obtain ⟨hkind, hnumber⟩ := number_chars s.isValid_toDateTime hyear hmark withSeconds
      rw [Timestamp.millis_shown] at hnumber
      exact ⟨hkind, hnumber⟩
  · intro text hkind hother
    obtain ⟨t, mark, withSeconds, hpattern, hmark, -, htext, hread⟩ :=
      read_of_kind_eq_timestamp hkind
    have hvalid : ¬ t.IsValid := by
      intro hvalid
      have hfits := Timestamp.isInt64_of_ofDateTime (hvalid.ofDateTime_eq_ok hpattern.year)
      have hback := hvalid.toDateTime_millis
      refine hother ⟨t.millis⟩ mark withSeconds hfits ?_ hmark ?_
      · rw [hback]
        exact hpattern.year
      · rw [hback, htext]
    exact ⟨number_eq_zero_of_not_isValid hvalid hkind hread, t, mark, withSeconds, hvalid,
      hpattern, hmark, htext⟩

/-- The last millisecond before 1970, and a day that does not exist. -/
theorem dateTimes_read_back_beforeEpoch :
    Display.write .dateTime (Decimal.ofInt (-1)).canonical = "1969-12-31 23:59" ∧
    number "1969-12-31 23:59" = .ofInt (-60000) ∧
    number "1969-12-31T23:59:59" = .ofInt (-1000) ∧
    kind "2024-02-30T10:00" = .timestamp ∧ number "2024-02-30T10:00" = 0 := by
  have hyear : (Timestamp.mk (-1)).toDateTime.InFourDigitYears := ⟨by decide, by decide⟩
  obtain ⟨hwritten, -, hread⟩ := dateTimes_read_back.1 ⟨-1⟩ (by decide) hyear
  have hminute := (hread ' ' false (.inr rfl)).2
  have hsecond := (hread 'T' true (.inl rfl)).2
  have hminuteText : String.ofList ((Timestamp.mk (-1)).toDateTime.chars ' ' false) =
      "1969-12-31 23:59" := by decide
  have hsecondText : String.ofList ((Timestamp.mk (-1)).toDateTime.chars 'T' true) =
      "1969-12-31T23:59:59" := by decide
  rw [hminuteText] at hwritten hminute
  rw [hsecondText] at hsecond
  have hkind : kind "2024-02-30T10:00" = .timestamp := kind_eq_timestamp_iff.mpr (by decide)
  have hfault : Timestamp.read "2024-02-30T10:00" = .error (.day 30 2 2024) := by rfl
  refine ⟨hwritten, hminute, hsecond, hkind, (dateTimes_read_back.2 _ hkind ?_).1⟩
  intro s mark withSeconds _ hyear hmark htext
  have hread := (read_of_trim_eq_chars s.isValid_toDateTime hyear hmark htext).2
  rw [hfault] at hread
  cases hread

end TableCalc.Cell
