/-
Numerals.  A number is written with its digits only: no sign, no padding and no
leading zero, so equal numerals come from equal numbers.
-/

namespace TreeLabels

/-- The decimal numeral of a number. -/
def decimal (n : Nat) : String :=
  String.ofList (Nat.toDigits 10 n)

/-- The hexadecimal numeral of a number, in lower-case digits. -/
def hexadecimal (n : Nat) : List Char :=
  Nat.toDigits 16 n

theorem toList_decimal (n : Nat) : (decimal n).toList = Nat.toDigits 10 n :=
  String.toList_ofList

/-- Reading the digits back gives the number. -/
theorem ofDigitChars_decimal (n : Nat) :
    Nat.ofDigitChars 10 (decimal n).toList 0 = n := by
  rw [toList_decimal]
  exact Nat.ofDigitChars_toDigits (by decide) (by decide)

theorem decimal_inj {m n : Nat} : decimal m = decimal n ↔ m = n := by
  constructor
  · intro h
    rw [← ofDigitChars_decimal m, h, ofDigitChars_decimal]
  · exact congrArg decimal

theorem isDigit_of_mem_decimal {n : Nat} {c : Char}
    (h : c ∈ (decimal n).toList) : c.isDigit = true := by
  rw [toList_decimal] at h
  exact Nat.isDigit_of_mem_toDigits (by decide) (by decide) h

/-- Numerals hold nothing but digits. -/
theorem not_mem_decimal {n : Nat} {c : Char} (hc : c.isDigit = false) :
    c ∉ (decimal n).toList := by
  intro hmem
  rw [isDigit_of_mem_decimal hmem] at hc
  contradiction

theorem hexadecimal_of_lt {n : Nat} (hn : n < 16) :
    hexadecimal n = [n.digitChar] :=
  Nat.toDigits_of_lt_base hn

/-- The last digit of a longer numeral is split off. -/
theorem hexadecimal_of_le {n : Nat} (hn : 16 ≤ n) :
    hexadecimal n = hexadecimal (n / 16) ++ [(n % 16).digitChar] :=
  Nat.toDigits_of_base_le (by decide) hn

theorem exists_digit_of_mem_hexadecimal {n : Nat} {c : Char}
    (h : c ∈ hexadecimal n) : ∃ digit, digit < 16 ∧ c = digit.digitChar := by
  induction n using Nat.strongRecOn with
  | ind n ih =>
      rcases Nat.lt_or_ge n 16 with hlt | hle
      · rw [hexadecimal_of_lt hlt, List.mem_singleton] at h
        exact ⟨n, hlt, h⟩
      · rw [hexadecimal_of_le hle, List.mem_append, List.mem_singleton] at h
        rcases h with hlead | hlast
        · exact ih (n / 16) (by omega) hlead
        · exact ⟨n % 16, Nat.mod_lt n (by decide), hlast⟩

theorem digitChar_inj_of_lt {m n : Nat} (hm : m < 16) (hn : n < 16)
    (h : m.digitChar = n.digitChar) : m = n := by
  have hall : ∀ m, m < 16 → ∀ n, n < 16 →
      m.digitChar = n.digitChar → m = n := by decide
  exact hall m hm n hn h

/-- A numeral of one digit is never as long as one of more digits. -/
theorem hexadecimal_lt_ne_le {m n : Nat} (hm : m < 16) (hn : 16 ≤ n) :
    hexadecimal m ≠ hexadecimal n := by
  intro h
  have hlead : 0 < (hexadecimal (n / 16)).length := Nat.length_toDigits_pos
  have hlength := congrArg List.length h
  rw [hexadecimal_of_lt hm, hexadecimal_of_le hn, List.length_append,
    List.length_singleton, List.length_singleton] at hlength
  omega

theorem hexadecimal_inj {m n : Nat} :
    hexadecimal m = hexadecimal n ↔ m = n := by
  refine ⟨?_, congrArg hexadecimal⟩
  induction m using Nat.strongRecOn generalizing n with
  | ind m ih =>
      intro h
      rcases Nat.lt_or_ge m 16 with hm | hm <;>
        rcases Nat.lt_or_ge n 16 with hn | hn
      · rw [hexadecimal_of_lt hm, hexadecimal_of_lt hn] at h
        exact digitChar_inj_of_lt hm hn (List.cons.inj h).1
      · exact absurd h (hexadecimal_lt_ne_le hm hn)
      · exact absurd h.symm (hexadecimal_lt_ne_le hn hm)
      · rw [hexadecimal_of_le hm, hexadecimal_of_le hn] at h
        obtain ⟨hlead, hlast⟩ := List.append_inj' h rfl
        have hquotient : m / 16 = n / 16 := ih (m / 16) (by omega) hlead
        have hremainder : m % 16 = n % 16 := digitChar_inj_of_lt
          (Nat.mod_lt m (by decide)) (Nat.mod_lt n (by decide))
          (List.cons.inj hlast).1
        omega

end TreeLabels
