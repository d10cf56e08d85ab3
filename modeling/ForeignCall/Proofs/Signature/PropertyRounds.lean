import ForeignCall.Proofs.Encoding.Bytes
import ForeignCall.Proofs.Encoding.Degradation
import ForeignCall.Proofs.Signature.PropertyText

/-! # Rounds of a property

The parts of a property are read in rounds, each of which takes a part and the comma after it and goes
on with a shorter text. The rounds from any text come to an end, and what is found there is found with
any count that is not below the length of the text (`Property.readParts_of_rounds`).
-/

namespace ForeignCall

theorem CType.rest_parsePrefix {text rest : List Char} {type : CType}
    (read : CType.parsePrefix text = .ok (type, rest)) : rest <:+ text := by
  have within := (stays (text.length + 1)).type false text
  rwa [CType.parsePrefix_eq_ok.mp read] at within

namespace Property

/-- One round: a part, and a comma with more behind it. -/
inductive Round (total : List Char) : Property × List Char → Char → Property × List Char → Prop where
  | part {property result : Property} {code next : Char} {body rest : List Char}
    (read : readPart total property code body = .ok (result, ',' :: next :: rest)) :
    Round total (property, code :: body) code (result, next :: rest)

/-- Where no further round starts, and what the text is found to be. -/
inductive End (total : List Char) : Property × List Char → Except EncodingError Property → Prop where
  | blank {property : Property} : End total (property, []) (.ok property)
  | last {property result : Property} {code : Char} {body : List Char}
    (read : readPart total property code body = .ok (result, [])) :
    End total (property, code :: body) (.ok result)
  | unseparated {property result : Property} {code other : Char} {body rest : List Char}
    (read : readPart total property code body = .ok (result, other :: rest))
    (stray : ¬(other = ',' ∧ rest ≠ [])) :
    End total (property, code :: body)
      (.error (.malformed (byteOffset total (other :: rest)) .expectedComma))
  | refused {property : Property} {code : Char} {body : List Char} {error : EncodingError}
    (read : readPart total property code body = .error error) :
    End total (property, code :: body) (.error error)

variable {total text codes : List Char} {property result : Property} {code : Char}
  {start stop : Property × List Char} {outcome : Except EncodingError Property} {count : Nat}

theorem end_or_round (total : List Char) (state : Property × List Char) :
    (∃ outcome, End total state outcome) ∨ ∃ code stop, Round total state code stop := by
  obtain ⟨property, _ | ⟨code, body⟩⟩ := state
  · exact .inl ⟨_, .blank⟩
  rcases read : readPart total property code body with error | ⟨result, _ | ⟨other, rest⟩⟩
  · exact .inl ⟨_, .refused read⟩
  · exact .inl ⟨_, .last read⟩
  by_cases separates : other = ',' ∧ rest ≠ []
  · obtain ⟨rfl, nonempty⟩ := separates
    obtain ⟨next, rest, rfl⟩ := List.exists_cons_of_ne_nil nonempty
    exact .inr ⟨_, _, .part read⟩
  · exact .inl ⟨_, .unseparated read separates⟩

theorem readOn_stray {other : Char} {rest : List Char} (stray : ¬(other = ',' ∧ rest ≠ [])) :
    readOn total count property (other :: rest) =
      .error (.malformed (byteOffset total (other :: rest)) .expectedComma) := by
  unfold readOn
  split
  next none => cases none
  next following => cases following; simp at stray
  next => rfl

/-- A part leaves an end of what follows its code. -/
theorem rest_readPart {body rest : List Char}
    (read : readPart total property code body = .ok (result, rest)) : rest <:+ body := by
  rcases readPart_cases read with ⟨type, found, _⟩ | ⟨_, _, _, _, rfl⟩
  · exact CType.rest_parsePrefix found
  · exact List.dropWhile_suffix _

namespace Round

/-- A round takes the first character at least. -/
theorem suffix_tail (round : Round total start code stop) :
    ∃ body, start.2 = code :: body ∧ stop.2 <:+ body := by
  obtain ⟨read⟩ := round
  exact ⟨_, rfl, (List.suffix_cons ',' _).trans (rest_readPart read)⟩

theorem suffix (round : Round total start code stop) : stop.2 <:+ start.2 := by
  obtain ⟨body, split, within⟩ := round.suffix_tail
  exact split ▸ within.trans (List.suffix_cons code body)

theorem shorter (round : Round total start code stop) : stop.2.length < start.2.length := by
  obtain ⟨body, split, within⟩ := round.suffix_tail
  rw [split]
  exact Nat.lt_succ_of_le within.length_le

theorem readParts_eq (round : Round total start code stop) :
    readParts total (count + 1) start.1 start.2 = readParts total count stop.1 stop.2 := by
  obtain ⟨read⟩ := round
  rw [readParts_cons, read]
  rfl

end Round

theorem End.readParts_eq (ends : End total start outcome) (enough : start.2.length ≤ count) :
    readParts total count start.1 start.2 = outcome := by
  cases ends with
  | blank => cases count <;> rfl
  | last read =>
    obtain ⟨count, rfl⟩ := Nat.exists_eq_add_one.mpr (Nat.zero_lt_of_lt enough)
    rw [readParts_cons, read]
    rfl
  | unseparated read stray =>
    obtain ⟨count, rfl⟩ := Nat.exists_eq_add_one.mpr (Nat.zero_lt_of_lt enough)
    rw [readParts_cons, read]
    exact readOn_stray stray
  | refused read =>
    obtain ⟨count, rfl⟩ := Nat.exists_eq_add_one.mpr (Nat.zero_lt_of_lt enough)
    rw [readParts_cons, read]
    rfl

theorem readParts_of_rounds (run : Rounds (Round total) start codes stop) (ends : End total stop outcome)
    (enough : start.2.length ≤ count) : readParts total count start.1 start.2 = outcome := by
  induction run generalizing count with
  | none => exact ends.readParts_eq enough
  | next first _ ih =>
    have shorter := Nat.lt_of_lt_of_le first.shorter enough
    obtain ⟨count, rfl⟩ := Nat.exists_eq_add_one.mpr (Nat.zero_lt_of_lt shorter)
    rw [first.readParts_eq]
    exact ih ends (Nat.le_of_lt_succ shorter)

theorem suffix_of_rounds (run : Rounds (Round total) start codes stop) : stop.2 <:+ start.2 :=
  run.suffix (·.2) fun _ _ _ => Round.suffix

theorem exists_rounds (total : List Char) (start : Property × List Char) :
    ∃ codes stop outcome, Rounds (Round total) start codes stop ∧ End total stop outcome := by
  obtain ⟨codes, stop, run, outcome, ends⟩ := Rounds.exists_end (Round total) (·.2.length)
    (fun _ _ _ => Round.shorter) (end_or_round total) start
  exact ⟨codes, stop, outcome, run, ends⟩

end Property

end ForeignCall
