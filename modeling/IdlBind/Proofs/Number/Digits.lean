import IdlBind.Number.Integer

set_option autoImplicit false

/-! # Digits of numbers

The digits in which a number is written denote it, so that texts of different numbers differ, and
literals reach every 64-bit integer. -/

namespace IdlBind.Number

theorem digitsValue_append (base : Nat) (ds : List Char) (c : Char) :
    digitsValue base (ds ++ [c]) = digitsValue base ds * base + digitValue c := by
  simp [digitsValue, List.foldl_append]

theorem digitValue_digitChar : ∀ d < 16, digitValue d.digitChar = d := by decide

/-- The digits of a number in a base denote it. -/
theorem digitsValue_toDigits {base : Nat} (hbase : 1 < base) (hle : base ≤ 16) (n : Nat) :
    digitsValue base (Nat.toDigits base n) = n := by
  induction n using Nat.strongRecOn with
  | ind n ih =>
    rw [Nat.toDigits_eq_if hbase]
    split
    · rename_i hlt
      simpa [digitsValue] using digitValue_digitChar n (by omega)
    · rename_i hge
      have hlast := Nat.mod_lt n (Nat.zero_lt_of_lt hbase)
      have hfront := Nat.div_lt_self (by omega : 0 < n) hbase
      rw [digitsValue_append, ih (n / base) hfront, digitValue_digitChar (n % base) (by omega),
        Nat.div_add_mod']

/-- Different numbers have different digits. -/
theorem toDigits_inj {base m n : Nat} (hbase : 1 < base) (hle : base ≤ 16)
    (h : Nat.toDigits base m = Nat.toDigits base n) : m = n := by
  rw [← digitsValue_toDigits hbase hle m, h, digitsValue_toDigits hbase hle]

theorem isAlphanum_digitChar : ∀ d < 16, d.digitChar.isAlphanum = true := by decide

theorem isAlphanum_of_mem_toDigits {base n : Nat} (hbase : 1 < base) (hle : base ≤ 16) {c : Char}
    (h : c ∈ Nat.toDigits base n) : c.isAlphanum = true := by
  induction n using Nat.strongRecOn with
  | ind n ih =>
    rw [Nat.toDigits_eq_if hbase] at h
    split at h
    · rename_i hlt
      rw [List.mem_singleton.1 h]
      exact isAlphanum_digitChar n (by omega)
    · rename_i hge
      have hlast := Nat.mod_lt n (Nat.zero_lt_of_lt hbase)
      rcases List.mem_append.1 h with h | h
      · exact ih (n / base) (Nat.div_lt_self (by omega) hbase) h
      · rw [List.mem_singleton.1 h]
        exact isAlphanum_digitChar _ (by omega)

/-! ## Texts of integers -/

/-- The text of an integer is its sign and its decimal digits. -/
theorem toList_toString_int (n : Int) :
    (toString n).toList = (if n < 0 then ['-'] else []) ++ Nat.toDigits 10 n.natAbs := by
  rw [Int.toString_eq_repr, Int.repr_eq_if]
  by_cases hneg : n < 0
  · have habs : (-n).toNat = n.natAbs := by omega
    rw [if_neg (by omega), if_pos hneg, String.toList_append, Nat.toList_repr, habs]
    rfl
  · have habs : n.toNat = n.natAbs := by omega
    rw [if_pos (by omega), if_neg hneg, Nat.toList_repr, habs]
    rfl

theorem eq_minus_or_isDigit_of_mem_toString {n : Int} {c : Char} (h : c ∈ (toString n).toList) :
    c = '-' ∨ c.isDigit = true := by
  rw [toList_toString_int] at h
  rcases List.mem_append.1 h with hsign | hdigit
  · by_cases hneg : n < 0
    · rw [if_pos hneg] at hsign
      exact .inl (List.mem_singleton.1 hsign)
    · rw [if_neg hneg] at hsign
      exact absurd hsign List.not_mem_nil
  · exact .inr (Nat.isDigit_of_mem_toDigits (by decide) (Nat.le_refl 10) hdigit)

theorem toString_int_ne_nil (n : Int) : (toString n).toList ≠ [] := by
  rw [toList_toString_int]
  simp

/-- Different integers have different texts. -/
theorem toString_int_inj {m n : Int} (h : (toString m).toList = (toString n).toList) : m = n := by
  have hsign : ∀ {d e : Nat}, '-' :: Nat.toDigits 10 d ≠ Nat.toDigits 10 e := by
    intro d e heq
    have hmem : '-' ∈ Nat.toDigits 10 e := heq ▸ List.mem_cons_self
    exact absurd (Nat.isDigit_of_mem_toDigits (by decide) (Nat.le_refl 10) hmem) (by decide)
  rw [toList_toString_int, toList_toString_int] at h
  by_cases hm : m < 0 <;> by_cases hn : n < 0
  · rw [if_pos hm, if_pos hn] at h
    have habs := toDigits_inj (by decide) (by decide) (List.append_cancel_left h)
    omega
  · rw [if_pos hm, if_neg hn] at h
    exact absurd h hsign
  · rw [if_neg hm, if_pos hn] at h
    exact absurd h.symm hsign
  · rw [if_neg hm, if_neg hn] at h
    have habs := toDigits_inj (by decide) (by decide) (List.append_cancel_left h)
    omega

/-! ## Literals -/

/-- A 64-bit integer has a magnitude in range. -/
theorem ofMagnitude_natAbs (v : Int64) :
    ofMagnitude (decide (v.toInt < 0)) v.toInt.natAbs = .ok v := by
  have hlower := v.le_toInt
  have hupper := v.toInt_lt
  unfold ofMagnitude
  by_cases hneg : v.toInt < 0
  · have hle : v.toInt.natAbs ≤ Nat.pow 2 63 := by
      show v.toInt.natAbs ≤ 9223372036854775808
      omega
    have habs : (-(v.toInt.natAbs : Int)) = v.toInt := by omega
    rw [if_pos (by simpa using hneg), if_pos hle, habs, Int64.ofInt_toInt]
  · have hlt : v.toInt.natAbs < Nat.pow 2 63 := by
      show v.toInt.natAbs < 9223372036854775808
      omega
    have habs : (v.toInt.natAbs : Int) = v.toInt := by omega
    rw [if_neg (by simpa using hneg), if_pos hlt, ← Int64.ofInt_eq_ofNat, habs, Int64.ofInt_toInt]

/-- Sign and decimal digits of a 64-bit integer denote it. -/
theorem ofDecimalDigits_toDigits (v : Int64) :
    ofDecimalDigits (decide (v.toInt < 0)) (Nat.toDigits 10 v.toInt.natAbs) = .ok v := by
  have hdigits : (Nat.toDigits 10 v.toInt.natAbs).isEmpty = false := by simp
  rw [ofDecimalDigits, hdigits, if_neg (by simp), digitsValue_toDigits (by decide) (by decide),
    ofMagnitude_natAbs]

end IdlBind.Number
