import Mathlib
import Reckon.Proofs.Json.Reader

/-! # Texts are read as they were written

Escapes are undone character by character, and surrogates are put together again. What stands between quotes
is ASCII.
-/
namespace Reckon.Json
set_option autoImplicit false
open Reader

/-- The character is one of the first 128. -/
def isAscii (c : Char) : Bool := c.toNat < 128

/-! ## Hexadecimal digits -/

theorem hexDigit?_digitChar {n : Nat} (h : n < 16) : hexDigit? (Nat.digitChar n) = some n := by
  interval_cases n <;> rfl

theorem isAscii_digitChar {n : Nat} (h : n < 16) : isAscii (Nat.digitChar n) = true := by
  interval_cases n <;> rfl

theorem hexadecimal?_append (front back : List Char) :
    hexadecimal? (front ++ back) = (hexadecimal? front).bind fun n =>
      back.foldlM (fun n c => (hexDigit? c).map (16 * n + ·)) n := by
  rw [hexadecimal?, List.foldlM_append]
  rfl

theorem hexadecimal?_toDigits (n : Nat) : hexadecimal? (Nat.toDigits 16 n) = some n := by
  induction n using Nat.strongRecOn with
  | ind n ih =>
    rcases Nat.lt_or_ge n 16 with hSmall | hLarge
    · rw [Nat.toDigits_of_lt_base hSmall]
      simp [hexadecimal?, hexDigit?_digitChar hSmall]
    · have hDigit : n % 16 < 16 := Nat.mod_lt n (by decide)
      rw [Nat.toDigits_of_base_le (by decide) hLarge, hexadecimal?_append, ih (n / 16) (by omega)]
      simp [hexDigit?_digitChar hDigit]
      omega

theorem hexadecimal?_zeros (count : Nat) : hexadecimal? (List.replicate count '0') = some 0 := by
  induction count with
  | zero => rfl
  | succ count ih =>
    rw [List.replicate_succ', hexadecimal?_append, ih]
    rfl

theorem hexadecimal?_hexadecimal (width n : Nat) : hexadecimal? (Text.hexadecimal width n) = some n := by
  rw [Text.hexadecimal, hexadecimal?_append, hexadecimal?_zeros]
  exact hexadecimal?_toDigits n

theorem length_hexadecimal {width n : Nat} (hSome : 0 < width) (h : n < 16 ^ width) :
    (Text.hexadecimal width n).length = width := by
  have hDigits := (Nat.length_toDigits_le_iff (b := 16) (by decide) hSome).mpr h
  rw [Text.hexadecimal, List.length_append, List.length_replicate]
  omega

theorem ascii_toDigits {base : Nat} (hBase : 1 < base) (hMost : base ≤ 16) (n : Nat) :
    (Nat.toDigits base n).all isAscii = true := by
  induction n using Nat.strongRecOn with
  | ind n ih =>
    rcases Nat.lt_or_ge n base with hSmall | hLarge
    · rw [Nat.toDigits_of_lt_base hSmall, List.all_cons, isAscii_digitChar (by omega)]
      rfl
    · have hDigit : n % base < 16 := (Nat.mod_lt n (by omega)).trans_le hMost
      rw [Nat.toDigits_of_base_le hBase hLarge, List.all_append, List.all_cons, isAscii_digitChar hDigit,
        ih (n / base) (Nat.div_lt_self (by omega) hBase)]
      rfl

theorem ascii_zeros (count : Nat) : (List.replicate count '0').all isAscii = true := by
  rw [List.all_replicate]
  cases count <;> rfl

theorem ascii_hexadecimal (width n : Nat) : (Text.hexadecimal width n).all isAscii = true := by
  rw [Text.hexadecimal, List.all_append, ascii_zeros, ascii_toDigits (by decide) (by decide)]
  rfl

/-! ## Texts -/

/-- The four ways to write a character between quotes. -/
inductive Escape (c : Char) : List Char → Prop
  | short {mark : Char} (hMark : Reader.short? mark = some c) (hAscii : isAscii mark = true)
      (hPlane : c.toNat < 0x10000) : Escape c ['\\', mark]
  | plain (hQuote : c ≠ '"') (hBackslash : c ≠ '\\') (hLow : 32 ≤ c.toNat) (hHigh : c.toNat < 127) : Escape c [c]
  | unicode (hPlane : c.toNat < 0x10000) : Escape c (unicodeEscape c.toNat)
  | pair (hPlane : 0x10000 ≤ c.toNat) :
      Escape c (unicodeEscape (0xD800 + (c.toNat - 0x10000) / 0x400) ++
        unicodeEscape (0xDC00 + (c.toNat - 0x10000) % 0x400))

theorem escape_escaped (c : Char) : Escape c (escaped c) := by
  have hSame {n : Nat} (h : c.toNat = n) : Char.ofNat n = c := h ▸ Char.ofNat_toNat c
  unfold escaped
  split_ifs with hMark hNewline hReturn hTab hBackspace hFeed hPlain hPlane
  · rcases Bool.or_eq_true_iff.mp hMark with hQuote | hBackslash
    · obtain rfl := beq_iff_eq.mp hQuote
      exact .short rfl rfl (by decide)
    · obtain rfl := beq_iff_eq.mp hBackslash
      exact .short rfl rfl (by decide)
  · obtain rfl := beq_iff_eq.mp hNewline
    exact .short rfl rfl (by decide)
  · obtain rfl := beq_iff_eq.mp hReturn
    exact .short rfl rfl (by decide)
  · obtain rfl := beq_iff_eq.mp hTab
    exact .short rfl rfl (by decide)
  · exact .short (congrArg some (hSame hBackspace)) rfl (by omega)
  · exact .short (congrArg some (hSame hFeed)) rfl (by omega)
  · refine .plain ?_ ?_ hPlain.1 hPlain.2
    · rintro rfl
      exact hMark rfl
    · rintro rfl
      exact hMark rfl
  · exact .unicode hPlane
  · exact .pair (by omega)

theorem ascii_unicodeEscape (unit : Nat) : (unicodeEscape unit).all isAscii = true :=
  ascii_hexadecimal 4 unit

theorem ascii_escaped (c : Char) : (escaped c).all isAscii = true := by
  have hEscape := escape_escaped c
  generalize escaped c = text at hEscape ⊢
  cases hEscape with
  | short hMark hAscii hPlane => simpa [isAscii] using hAscii
  | plain hQuote hBackslash hLow hHigh =>
    simp [isAscii]
    omega
  | unicode hPlane => exact ascii_unicodeEscape _
  | pair hPlane => rw [List.all_append, ascii_unicodeEscape, ascii_unicodeEscape]; rfl

theorem ascii_quoted (s : String) : (quoted s).all isAscii = true := by
  rw [quoted, List.all_cons, List.all_append, List.all_flatMap]
  simp [ascii_escaped, isAscii]

/-- The units that a character is escaped as, beyond the first plane two surrogates. -/
def unitsOf (c : Char) : List Nat :=
  if c.toNat < 0x10000 then [c.toNat]
  else [0xD800 + (c.toNat - 0x10000) / 0x400, 0xDC00 + (c.toNat - 0x10000) % 0x400]

theorem units?_unicodeEscape {unit : Nat} (h : unit < 0x10000) (input : List Char) :
    units? (unicodeEscape unit ++ input) = (units? input).map fun (units, rest) => (unit :: units, rest) := by
  have hLength : (Text.hexadecimal 4 unit).length = 4 := length_hexadecimal (by decide) h
  have hRead := hexadecimal?_hexadecimal 4 unit
  rw [unicodeEscape]
  match hDigits : Text.hexadecimal 4 unit, hLength with
  | [a, b, c, d], _ =>
    rw [hDigits] at hRead
    simp only [List.cons_append, List.nil_append, units?, hRead]
    cases units? input <;> rfl

theorem unitsOf_of_lt {c : Char} (h : c.toNat < 0x10000) : unitsOf c = [c.toNat] := if_pos h

theorem toNat_bounds (c : Char) : c.toNat < 0xD800 ∨ 0xDFFF < c.toNat ∧ c.toNat < 0x110000 := c.valid

theorem units?_short {c mark : Char} (h : short? mark = some c) (input : List Char) :
    units? ('\\' :: mark :: input) = (units? input).map fun (units, rest) => (c.toNat :: units, rest) := by
  rw [units?.eq_4, h]
  · cases units? input <;> rfl
  · rintro a b c d more rfl
    cases h

theorem units?_plain {c : Char} (hQuote : c ≠ '"') (hBackslash : c ≠ '\\') (hControl : 32 ≤ c.toNat)
    (input : List Char) :
    units? (c :: input) = (units? input).map fun (units, rest) => (c.toNat :: units, rest) := by
  rw [units?.eq_5, if_neg (by omega)]
  · cases units? input <;> rfl
  · exact hQuote
  · exact fun _ _ _ _ _ hSame => absurd hSame hBackslash
  · exact fun _ _ hSame => absurd hSame hBackslash

/-- Each escape is read as the units of its character. -/
theorem units?_escaped (c : Char) (input : List Char) :
    units? (escaped c ++ input) = (units? input).map fun (units, rest) => (unitsOf c ++ units, rest) := by
  have hMost := toNat_bounds c
  have hEscape := escape_escaped c
  generalize escaped c = text at hEscape ⊢
  cases hEscape with
  | short hMark hAscii hPlane =>
    rw [unitsOf_of_lt hPlane]
    exact units?_short hMark input
  | plain hQuote hBackslash hLow hHigh =>
    rw [unitsOf_of_lt (by omega)]
    exact units?_plain hQuote hBackslash hLow input
  | unicode hPlane =>
    rw [unitsOf_of_lt hPlane]
    exact units?_unicodeEscape hPlane input
  | pair hPlane =>
    rw [List.append_assoc, units?_unicodeEscape (by omega), units?_unicodeEscape (by omega), unitsOf,
      if_neg (by omega), Option.map_map]
    rfl

/-- Surrogates are put together again. -/
theorem characters?_unitsOf (c : Char) (units : List Nat) :
    characters? (unitsOf c ++ units) = (characters? units).map (c :: ·) := by
  have hBounds := toNat_bounds c
  rw [unitsOf]
  split
  · rw [List.singleton_append, characters?.eq_def]
    dsimp only
    rw [if_neg (by omega), if_neg (by omega), Char.ofNat_toNat]
  · rename_i hPlane
    simp only [List.cons_append, List.nil_append, characters?]
    rw [if_pos (by omega), if_pos (by omega)]
    have hNumber : 0x10000 + 0x400 * (0xD800 + (c.toNat - 0x10000) / 0x400 - 0xD800) +
        (0xDC00 + (c.toNat - 0x10000) % 0x400 - 0xDC00) = c.toNat := by omega
    rw [hNumber, Char.ofNat_toNat]

theorem units?_flatMap (characters input : List Char) :
    units? (characters.flatMap escaped ++ '"' :: input) = some (characters.flatMap unitsOf, input) := by
  induction characters with
  | nil => rfl
  | cons c characters ih => rw [List.flatMap_cons, List.append_assoc, units?_escaped, ih]; rfl

theorem characters?_flatMap (characters : List Char) :
    characters? (characters.flatMap unitsOf) = some characters := by
  induction characters with
  | nil => rfl
  | cons c characters ih => rw [List.flatMap_cons, characters?_unitsOf, ih]; rfl

/-- A text is read up to its closing quote. -/
theorem string?_quoted (s : String) (rest : List Char) :
    string? (s.toList.flatMap escaped ++ '"' :: rest) = some (s, rest) := by
  rw [string?, units?_flatMap, Option.bind_eq_bind, Option.bind_some]
  dsimp only
  rw [characters?_flatMap]
  simp

end Reckon.Json
