import Mathlib.Data.List.Basic
import Mathlib.Tactic.Common

/-!
# UTF-8

The bytes of a text. A byte is the character with its number, so that the bytes of a text
are a text again; a list of bytes is valid UTF-8 if it is the encoding of a text.

## Main results

* `encode_injective`: **an encoding stands for one text**.
* `mem_encode_iff`: the ASCII characters of a text are those of its encoding.
* `encode_takeWhile`: cutting a text at an ASCII character cuts its encoding there.
-/

namespace Utf8

/-- A character that is its own encoding. -/
def IsAscii (c : Char) : Prop :=
  c.toNat < 0x80

instance (c : Char) : Decidable (IsAscii c) :=
  inferInstanceAs (Decidable (_ < _))

/-- The character with the number of a byte. -/
def ofByte (b : UInt8) : Char :=
  Char.ofNat b.toNat

/-- The bytes of a text. -/
def encode (text : List Char) : List Char :=
  (text.flatMap String.utf8EncodeChar).map ofByte

@[simp] theorem encode_nil : encode [] = [] := rfl

theorem encode_append (xs ys : List Char) : encode (xs ++ ys) = encode xs ++ encode ys := by
  rw [encode, List.flatMap_append, List.map_append]
  rfl

theorem encode_cons (c : Char) (text : List Char) :
    encode (c :: text) = (String.utf8EncodeChar c).map ofByte ++ encode text := by
  rw [encode, List.flatMap_cons, List.map_append]
  rfl

/-- The number of a byte's character. -/
theorem toNat_ofByte (b : UInt8) : (ofByte b).toNat = b.toNat := by
  have hb := b.toNat_lt
  have hvalid : b.toNat.isValidChar := Or.inl (by omega)
  rw [ofByte, Char.ofNat, dif_pos hvalid]
  rfl

theorem ofByte_injective : Function.Injective ofByte := by
  intro a b h
  have hnat : (ofByte a).toNat = (ofByte b).toNat := congrArg Char.toNat h
  rw [toNat_ofByte, toNat_ofByte] at hnat
  exact UInt8.toNat_inj.mp hnat

/-- **An encoding stands for one text.** -/
theorem encode_injective : Function.Injective encode := by
  intro xs ys h
  have hbytes : xs.flatMap String.utf8EncodeChar = ys.flatMap String.utf8EncodeChar :=
    List.map_injective_iff.mpr ofByte_injective h
  have hstring : String.ofList xs = String.ofList ys := by
    rw [← String.toByteArray_inj, String.toByteArray_ofList, String.toByteArray_ofList]
    exact congrArg List.toByteArray hbytes
  simpa using congrArg String.toList hstring

/-! ### ASCII characters -/

/-- An ASCII character is its own encoding. -/
theorem utf8EncodeChar_of_isAscii {c : Char} (h : IsAscii c) :
    (String.utf8EncodeChar c).map ofByte = [c] := by
  have hval : c.val.toNat ≤ 0x7f := Nat.le_of_lt_succ h
  have hbyte : ofByte (UInt8.ofNat c.val.toNat) = c := by
    refine Char.toNat_inj.mp ?_
    rw [toNat_ofByte, UInt8.toNat_ofNat', Nat.mod_eq_of_lt (by omega)]
    rfl
  rw [String.utf8EncodeChar, if_pos hval, List.map_singleton, hbyte]

theorem encode_cons_of_isAscii {c : Char} (h : IsAscii c) (text : List Char) :
    encode (c :: text) = c :: encode text := by
  rw [encode_cons, utf8EncodeChar_of_isAscii h, List.singleton_append]

/-- ASCII text is its own encoding. -/
theorem encode_of_isAscii {text : List Char} (h : ∀ c ∈ text, IsAscii c) :
    encode text = text := by
  induction text with
  | nil => rfl
  | cons c text ih =>
      rw [encode_cons_of_isAscii (h c List.mem_cons_self),
        ih fun d hd => h d (List.mem_cons_of_mem c hd)]

/-- The bytes of an ASCII text and another one. -/
theorem encode_append_of_isAscii {xs : List Char} (h : ∀ c ∈ xs, IsAscii c) (ys : List Char) :
    encode (xs ++ ys) = xs ++ encode ys := by
  rw [encode_append, encode_of_isAscii h]

/-- The bytes of any other character are no ASCII characters. -/
theorem not_isAscii_of_mem {c : Char} (h : ¬ IsAscii c) :
    ∀ d ∈ (String.utf8EncodeChar c).map ofByte, ¬ IsAscii d := by
  have hval : ¬ c.val.toNat ≤ 0x7f := fun hle => h (Nat.lt_succ_of_le hle)
  have hbyte : ∀ n m, 0x80 ≤ m → n + m < 256 → ¬ IsAscii (ofByte (UInt8.ofNat (n + m))) := by
    intro n m hm hlt hascii
    rw [IsAscii, toNat_ofByte, UInt8.toNat_ofNat', Nat.mod_eq_of_lt hlt] at hascii
    omega
  intro d hd
  obtain ⟨b, hb, rfl⟩ := List.mem_map.mp hd
  rw [String.utf8EncodeChar, if_neg hval] at hb
  by_cases htwo : c.val.toNat ≤ 0x7ff
  · rw [if_pos htwo] at hb
    simp only [List.mem_cons, List.not_mem_nil, or_false] at hb
    rcases hb with rfl | rfl
    · exact hbyte _ _ (by omega) (by omega)
    · exact hbyte _ _ (by omega) (by omega)
  rw [if_neg htwo] at hb
  by_cases hthree : c.val.toNat ≤ 0xffff
  · rw [if_pos hthree] at hb
    simp only [List.mem_cons, List.not_mem_nil, or_false] at hb
    rcases hb with rfl | rfl | rfl
    · exact hbyte _ _ (by omega) (by omega)
    · exact hbyte _ _ (by omega) (by omega)
    · exact hbyte _ _ (by omega) (by omega)
  · rw [if_neg hthree] at hb
    simp only [List.mem_cons, List.not_mem_nil, or_false] at hb
    rcases hb with rfl | rfl | rfl | rfl
    · exact hbyte _ _ (by omega) (by omega)
    · exact hbyte _ _ (by omega) (by omega)
    · exact hbyte _ _ (by omega) (by omega)
    · exact hbyte _ _ (by omega) (by omega)

/-- **The ASCII characters of a text** are those of its encoding. -/
theorem mem_encode_iff {c : Char} (h : IsAscii c) (text : List Char) :
    c ∈ encode text ↔ c ∈ text := by
  induction text with
  | nil => rfl
  | cons d text ih =>
      by_cases hd : IsAscii d
      · rw [encode_cons_of_isAscii hd, List.mem_cons, List.mem_cons, ih]
      · have hne : c ≠ d := by
          rintro rfl
          exact hd h
        rw [encode_cons, List.mem_append, List.mem_cons, ih]
        constructor
        · rintro (hmem | hmem)
          · exact absurd h (not_isAscii_of_mem hd c hmem)
          · exact Or.inr hmem
        · rintro (rfl | hmem)
          · exact absurd rfl hne
          · exact Or.inr hmem

/-- **Cutting a text at an ASCII character** cuts its encoding there. -/
theorem encode_takeWhile {c : Char} (h : IsAscii c) (text : List Char) :
    encode (text.takeWhile (· ≠ c)) = (encode text).takeWhile (· ≠ c) := by
  induction text with
  | nil => rfl
  | cons d text ih =>
      by_cases hd : d = c
      · subst hd
        rw [encode_cons_of_isAscii h]
        simp
      · have htake : (d :: text).takeWhile (· ≠ c) = d :: text.takeWhile (· ≠ c) := by simp [hd]
        rw [htake, encode_cons, encode_cons, ih]
        symm
        refine List.takeWhile_append_of_pos fun e he => ?_
        refine decide_eq_true ?_
        rintro rfl
        by_cases hascii : IsAscii d
        · rw [utf8EncodeChar_of_isAscii hascii, List.mem_singleton] at he
          exact hd he.symm
        · exact not_isAscii_of_mem hascii e he h

end Utf8
