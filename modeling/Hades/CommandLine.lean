import Hades.TomlIO

/-!
# Command Lines

Flags with a value (`parseFlag` in `Commands.cpp`; the generated program tests for the same
prefixes), and the library's `strtoul`, which reads some of the values.
-/

namespace Hades.Runtime

/-- The largest `unsigned long`. -/
abbrev ULONG_MAX : ℕ := 2 ^ 64 - 1

/-- `std::strtoul` in base ten: white space, a sign and the digits that follow. A number that
is too large becomes the largest one, and a minus sign wraps around. -/
def strtoul (ulongMax : ℕ) (text : Text) : ℕ :=
  let text := text.dropWhile isSpace
  let negative := text.head? = some '-'
  let digits := if negative ∨ text.head? = some '+' then text.tail else text
  let value := (DecimalText.natOfText? (digits.takeWhile Char.isDigit)).getD 0
  if ulongMax < value then ulongMax
  else if negative ∧ value ≠ 0 then ulongMax + 1 - value
  else value

/-- A digit is neither white space nor a sign. -/
theorem isDigit_not_space_not_sign {c : Char} (h : c.isDigit = true) :
    isSpace c = false ∧ c ≠ '-' ∧ c ≠ '+' := by
  have hbounds : 48 ≤ c.toNat ∧ c.toNat ≤ 57 := by
    simpa [Char.isDigit, UInt32.le_iff_toNat_le] using h
  have hne : ∀ d : Char, d.toNat < 48 → c ≠ d := by
    rintro d hd rfl
    omega
  refine ⟨?_, hne '-' (by decide), hne '+' (by decide)⟩
  rw [isSpace, Bool.or_eq_false_iff, Bool.and_eq_false_iff]
  exact ⟨beq_false_of_ne (hne ' ' (by decide)), .inr (decide_eq_false (by omega))⟩

/-- A text of digits is read as its number, up to the largest one. -/
theorem strtoul_of_natOfText? {text : Text} {n : ℕ}
    (h : DecimalText.natOfText? text = some n) (ulongMax : ℕ) :
    strtoul ulongMax text = min n ulongMax := by
  obtain ⟨hne, hdigits⟩ := DecimalText.natOfText?_eq_some h
  obtain ⟨c, cs, rfl⟩ := List.exists_cons_of_ne_nil hne
  obtain ⟨hspace, hminus, hplus⟩ := isDigit_not_space_not_sign (hdigits c List.mem_cons_self)
  have hstart : (c :: cs).dropWhile isSpace = c :: cs :=
    List.dropWhile_cons_of_neg (by simp [hspace])
  have htake : (c :: cs).takeWhile Char.isDigit = c :: cs :=
    List.takeWhile_eq_self_iff.mpr hdigits
  have hnegative : ¬ (c :: cs).head? = some '-' := fun hc => hminus (Option.some.inj hc)
  have hpositive : ¬ (c :: cs).head? = some '+' := fun hc => hplus (Option.some.inj hc)
  rw [strtoul, hstart]
  rw [if_neg (not_or.mpr ⟨hnegative, hpositive⟩), htake, h, Option.getD_some]
  split
  · next hlt => exact (min_eq_right hlt.le).symm
  · next hle =>
    rw [if_neg fun hc => hnegative hc.1]
    exact (min_eq_left (Nat.le_of_not_lt hle)).symm

/-- The value of a flag, if the argument is this flag. -/
def flagValue? (flag arg : Text) : Option Text :=
  arg.dropPrefix? ("--".toList ++ flag ++ "=".toList)

/-- The argument that gives a flag a value. -/
def flagArgument (flag value : Text) : Text :=
  "--".toList ++ flag ++ "=".toList ++ value

/-- A flag's argument has the flag's value. -/
theorem flagValue?_flagArgument (flag value : Text) :
    flagValue? flag (flagArgument flag value) = some value :=
  List.dropPrefix?_append_of_beq value BEq.rfl

end Hades.Runtime
