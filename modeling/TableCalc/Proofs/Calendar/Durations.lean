import TableCalc.Calendar.Duration
import TableCalc.Proofs.Calendar.Texts
import TableCalc.Proofs.Outcome

/-!
The texts of durations, and what is read from them. Hours are written however many they are, but they
are read as half a word; the sign is that of the whole minutes, so nothing is lost near zero.
-/

namespace TableCalc.Calendar

open Text (paddedDigits isDigit_of_mem_paddedDigits splitFirst?_append)

theorem mem_durationChars {millis : Int} {c : Char} (hc : c ∈ durationChars millis) :
    c.isDigit = true ∨ c = '-' ∨ c = ':' := by
  simp only [durationChars, List.mem_append, List.mem_cons] at hc
  rcases hc with (hsign | hhours) | rfl | hminutes
  · split at hsign
    · exact .inr (.inl (List.mem_singleton.mp hsign))
    · cases hsign
  · exact .inl (isDigit_of_mem_paddedDigits hhours)
  · exact .inr (.inr rfl)
  · exact .inl (isDigit_of_mem_paddedDigits hminutes)

theorem isTrimmed_durationChars (millis : Int) : Text.IsTrimmed (durationChars millis) := by
  refine Text.isTrimmed_of_visible fun c hc => ?_
  rcases mem_durationChars hc with hdigit | rfl | rfl
  · exact Text.isBlank_of_isDigit hdigit
  · rfl
  · rfl

theorem utf8ByteSize_minutes :
    ∀ n < 60, (String.ofList (paddedDigits 2 n)).utf8ByteSize = 2 := by
  decide

/-- Hours and minutes behind a sign are read as what they are, unless the hours are too large for
half a word. -/
theorem readDuration_parts {s : String} {negative : Bool} {hours minutes : Nat}
    (hminutes : minutes < 60)
    (htext : Text.splitSign (Text.trim s.toList) =
      (negative, paddedDigits 2 hours ++ ':' :: paddedDigits 2 minutes)) :
    readDuration s =
      if hours ≤ Text.maxHalfWord then
        .ok (if negative then -((60 * hours + minutes : Nat) * millisPerMinute)
          else (60 * hours + minutes : Nat) * millisPerMinute)
      else .error (.unreadable (.field .hours)) := by
  have hsplit : Text.splitFirst? (· == ':') (paddedDigits 2 hours ++ ':' :: paddedDigits 2 minutes) =
      some (paddedDigits 2 hours, paddedDigits 2 minutes) :=
    splitFirst?_append (fun _ hc => ne_of_digit (by decide) hc) (beq_self_eq_true ':')
  rw [readDuration, htext]
  dsimp only
  rw [hsplit]
  dsimp only
  rw [if_neg (not_not_intro (utf8ByteSize_minutes _ hminutes))]
  by_cases hhours : hours ≤ Text.maxHalfWord
  · have hmax : Text.maxHalfWord = 4294967295 := rfl
    have hmillis : hours * millisPerHour + minutes * millisPerMinute =
        (60 * hours + minutes : Nat) * millisPerMinute := by
      unfold millisPerHour millisPerMinute millisPerSecond
      omega
    rw [if_pos hhours, readField_digits _ hhours, readField_digits _ (by omega), ← hmillis]
    exact if_neg (by omega)
  · rw [if_neg hhours, readField_large _ (by omega)]
    rfl

/-- A duration is read back without its parts of a minute, unless its hours are too large for half a
word. -/
theorem readDuration_durationChars {s : String} {millis : Int}
    (htext : Text.trim s.toList = durationChars millis) :
    readDuration s =
      if (millis.tdiv millisPerHour).natAbs ≤ Text.maxHalfWord then
        .ok (millis.tdiv millisPerMinute * millisPerMinute)
      else .error (.unreadable (.field .hours)) := by
  have hhours : (millis.tdiv millisPerHour).natAbs = (millis.tdiv millisPerMinute).natAbs / 60 := by
    rw [Int.natAbs_tdiv, Int.natAbs_tdiv]
    exact (Nat.div_div_eq_div_mul millis.natAbs 60000 60).symm
  have hsplit : Text.splitSign (Text.trim s.toList) =
      (decide (millis.tdiv millisPerMinute < 0),
        paddedDigits 2 ((millis.tdiv millisPerMinute).natAbs / 60) ++
          ':' :: paddedDigits 2 ((millis.tdiv millisPerMinute).natAbs % 60)) := by
    rw [htext, durationChars, List.append_assoc,
      Text.splitSign_signed (Text.paddedDigits_ne_nil _ _) fun _ => isDigit_of_mem_paddedDigits]
  rw [hhours, readDuration_parts (Nat.mod_lt _ (by decide)) hsplit, Nat.div_add_mod]
  generalize millis.tdiv millisPerMinute = minutes
  have hsigned : (if decide (minutes < 0) then -((minutes.natAbs : Int) * millisPerMinute)
      else minutes.natAbs * millisPerMinute) = minutes * millisPerMinute := by
    simp only [decide_eq_true_eq]
    unfold millisPerMinute millisPerSecond
    split <;> omega
  rw [hsigned]

/-- No duration that is read is longer than the hours of half a word. -/
theorem natAbs_readDuration_le {s : String} {n : Int} (h : readDuration s = .ok n) :
    n.natAbs ≤ 10 ^ 17 := by
  unfold readDuration at h
  dsimp only at h
  split at h
  · cases h
  split at h
  · cases h
  simp only [bind_eq_ok_iff] at h
  obtain ⟨hours, hhours, minutes, hminutes, h⟩ := h
  split at h
  · cases h
  have hle := readField_le hhours
  have hmax : Text.maxHalfWord = 4294967295 := rfl
  have hn := Except.ok.inj h
  unfold millisPerHour millisPerMinute millisPerSecond at hn
  split at hn <;> omega

end TableCalc.Calendar
