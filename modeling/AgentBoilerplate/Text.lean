import AgentBoilerplate.Basic
import Mathlib.Data.List.DropRight

namespace AgentBoilerplate

theorem trimChars_eq (chars : List Char) :
    trimChars chars = (chars.dropWhile isWhitespace).rdropWhile isWhitespace := rfl

-- Cutting the end leaves the first character, which is not white space.
theorem dropWhile_trimChars (chars : List Char) :
    (trimChars chars).dropWhile isWhitespace = trimChars chars := by
  rw [trimChars_eq]
  cases hmiddle : (chars.dropWhile isWhitespace).rdropWhile isWhitespace with
  | nil => rfl
  | cons c rest =>
      obtain ⟨tail, htail⟩ := List.rdropWhile_prefix isWhitespace (chars.dropWhile isWhitespace)
      rw [hmiddle, List.cons_append] at htail
      have hfirst : isWhitespace c = false := by
        have hne : chars.dropWhile isWhitespace ≠ [] := by simp [← htail]
        have hhead := List.head_dropWhile_not isWhitespace hne
        simpa [← htail] using hhead
      rw [List.dropWhile_cons_of_neg (by simp [hfirst])]

theorem trimChars_idempotent (chars : List Char) :
    trimChars (trimChars chars) = trimChars chars := by
  rw [trimChars_eq (trimChars chars), dropWhile_trimChars, trimChars_eq,
    List.rdropWhile_idempotent]

theorem trim_trimmed (text : String) : Trimmed (trim text) := by
  unfold Trimmed trim
  rw [String.toList_ofList, trimChars_idempotent]

theorem toString_injective : Function.Injective (toString : Nat → String) := by
  intro a b h
  have h : Nat.toDigits 10 a = Nat.toDigits 10 b := by
    simpa [toString, Nat.repr] using congrArg String.toList h
  rw [← Nat.ofDigitChars_toDigits (by decide : 1 < 10) (Nat.le_refl 10) (n := a), h,
    Nat.ofDigitChars_toDigits (by decide) (Nat.le_refl 10)]

theorem append_ne {front other : String} {c : Char} (hfront : front.toList.head? = some c)
    (hother : other.toList.head? ≠ some c) (rest : String) : front ++ rest ≠ other := by
  rintro rfl
  rw [String.toList_append, List.head?_append, hfront] at hother
  exact hother rfl

end AgentBoilerplate
