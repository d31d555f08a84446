import Mathlib.Data.List.Basic
import Mathlib.Tactic.Positivity
import Mathlib.Tactic.Ring
import ScriptGraph.Number.Shortest

/-!
# Numbers read back from their numerals

Every finite number is the nearest number to the numeral it is written as, in every
style, and that numeral has the shape of a JSON number: digits without a leading zero
and digits in the exponent. A numeral of few digits is only taken after it was read
back. The exact numeral behind them is read without rounding, since a finite magnitude
is a whole number of units.
-/
namespace ScriptGraph

namespace Binary64

lemma divNearest_mul_right (m : ℕ) {d : ℕ} (hd : 0 < d) : divNearest (m * d) d = m := by
  unfold divNearest
  simp [Nat.mul_div_cancel _ hd, hd]

/-- The leading bit of a word with an exponent stands above its fraction. -/
theorem log2_units {word : ℕ} (h : word / fractions ≠ 0) :
    (units word).log2 = 52 + (word / fractions - 1) := by
  have hr : word % fractions < 2 ^ 52 := Nat.mod_lt _ (by decide)
  have hunits : units word
      = (2 ^ 52 + word % fractions) * 2 ^ (word / fractions - 1) := by
    simp only [units, if_neg h]
    rfl
  have hpos : 0 < 2 ^ (word / fractions - 1) := by positivity
  rw [hunits, Nat.log2_eq_iff (by positivity)]
  constructor
  · rw [Nat.pow_add]
    exact Nat.mul_le_mul_right _ (Nat.le_add_right ..)
  · rw [show 52 + (word / fractions - 1) + 1 = 53 + (word / fractions - 1) by omega, Nat.pow_add]
    exact Nat.mul_lt_mul_of_pos_right (by omega) hpos

/-- A quotient that is a whole number of units is read without rounding. -/
theorem nearest_of_units {n d word : ℕ} (hd : 0 < d)
    (h : n * unitsInOne = units word * d) : nearest n d = word := by
  have hsplit : word / fractions * fractions + word % fractions = word :=
    Nat.div_add_mod' word fractions
  simp only [nearest, h, Nat.mul_div_cancel _ hd]
  by_cases hexp : word / fractions = 0
  · -- Below the least exponent a word counts units itself.
    have hunits : units word = word := by
      simp only [units, if_pos hexp]
      rw [hexp] at hsplit
      omega
    have hlog : word.log2 - 52 = 0 := by
      rcases Nat.eq_zero_or_pos word with rfl | hpos
      · rfl
      · have hlt : word < 2 ^ 52 := (Nat.div_eq_zero_iff.1 hexp).resolve_left (by decide)
        have := (Nat.log2_lt (by omega)).2 hlt
        omega
    rw [hunits, hlog]
    simp [divNearest_mul_right word hd]
  · have hshift : (units word).log2 - 52 = word / fractions - 1 := by
      rw [log2_units hexp]
      omega
    have hd' : 0 < d * Nat.pow 2 (word / fractions - 1) :=
      Nat.mul_pos hd (Nat.pow_pos (by decide))
    rw [hshift]
    have hunits : units word * d
        = (fractions + word % fractions) * (d * Nat.pow 2 (word / fractions - 1)) := by
      simp only [units, if_neg hexp]
      ring
    rw [hunits, divNearest_mul_right _ hd']
    calc (word / fractions - 1) * fractions + (fractions + word % fractions)
        = (word / fractions - 1 + 1) * fractions + word % fractions := by ring
      _ = word / fractions * fractions + word % fractions := by
          rw [Nat.sub_add_cancel (Nat.one_le_iff_ne_zero.2 hexp)]
      _ = word := hsplit

lemma units_ne_zero {word : ℕ} (h : word ≠ 0) : units word ≠ 0 := by
  unfold units
  dsimp only
  split_ifs with hexp
  · intro hfrac
    have hsplit := Nat.div_add_mod' word fractions
    rw [hexp, hfrac] at hsplit
    omega
  · exact Nat.mul_ne_zero (by unfold fractions; omega) (Nat.pow_pos (by decide)).ne'

lemma ofMagnitude_self {x : Binary64} (hx : x.isFinite) :
    ofMagnitude x.negative x.magnitude = x := by
  have hlt : x.magnitude.val < infinite := of_decide_eq_true hx
  obtain ⟨negative, magnitude⟩ := x
  simp only [ofMagnitude, Nat.min_eq_left hlt.le]

end Binary64

namespace Decimal

/-- A decimal with at least as many digits as places is not below the range of the
format. -/
theorem nearest_places {digits places : ℕ} (hpos : 0 < places) (h : 2 ^ places ≤ digits) :
    nearest ⟨digits, -places⟩ = Binary64.nearest digits (Nat.pow 10 places) := by
  have hdigits : digits ≠ 0 := (lt_of_lt_of_le (by positivity) h).ne'
  have hlog : places ≤ digits.log2 := (Nat.le_log2 hdigits).2 h
  obtain ⟨k, rfl⟩ := Nat.exists_eq_succ_of_ne_zero hpos.ne'
  have hhigh : ¬ 400 < Int.negSucc k := by omega
  have hlow : ¬ Int.negSucc k < -(401 + digits.log2 : Int) := by omega
  rw [show -((k.succ : ℕ) : Int) = Int.negSucc k from rfl]
  simp only [nearest, if_neg hdigits, if_neg hhigh, if_neg hlow]

/-- A number of units, written out to its last decimal place, is read without rounding.
The number of places stays a variable here, so that no power is ever computed. -/
theorem nearest_units {word places : ℕ} (hword : word ≠ 0) (hplaces : places = 1074) :
    nearest ⟨Binary64.units word * Nat.pow 5 places, -places⟩ = word := by
  have hone : Binary64.unitsInOne = Nat.pow 2 places := by
    delta Binary64.unitsInOne
    rw [← hplaces]
  have hfive : 2 ^ places ≤ Binary64.units word * 5 ^ places :=
    calc 2 ^ places ≤ 5 ^ places := Nat.pow_le_pow_left (by decide) _
      _ ≤ Binary64.units word * 5 ^ places :=
        Nat.le_mul_of_pos_left _ (Nat.pos_of_ne_zero (Binary64.units_ne_zero hword))
  have hten : Binary64.units word * 5 ^ places * Binary64.unitsInOne
      = Binary64.units word * Nat.pow 10 places := by
    rw [hone, Nat.mul_assoc]
    exact congrArg _ (Nat.mul_pow 5 2 places).symm
  exact (nearest_places (by omega) hfive).trans
    (Binary64.nearest_of_units (Nat.pow_pos (by decide)) hten)

lemma trim_digits_eq_zero_iff (digits : ℕ) (e : Int) :
    (trim digits e).digits = 0 ↔ digits = 0 := by
  fun_induction trim digits e with
  | case1 digits e h ih =>
    rw [ih]
    omega
  | case2 => rfl

lemma trim_zero (e : Int) : trim 0 e = ⟨0, e⟩ := by
  rw [trim, dif_neg (by simp)]

end Decimal

namespace Numeral

lemma digitsValue_toDigits (n : ℕ) : digitsValue (Nat.toDigits 10 n) = n :=
  Nat.ofDigitChars_ten_toDigits

lemma digitsValue_zeros {digits : List Char} (h : ∀ c ∈ digits, c = '0') :
    digitsValue digits = 0 := by
  rw [List.eq_replicate_of_mem h]
  exact Nat.ofDigitChars_replicate_zero

lemma decimal_exact (x : Binary64) {places : ℕ} (hplaces : places = 1074) :
    (exact x).decimal = ⟨Binary64.units x.magnitude * Nat.pow 5 places, -places⟩ := by
  simp only [decimal, exact, ← hplaces, List.append_nil, digitsValue_toDigits, signedExponent,
    List.length_nil, Nat.cast_zero, sub_zero]

/-- The exact numeral is read without rounding. -/
theorem toBinary64_exact {x : Binary64} (hx : x.isFinite) (hzero : x.magnitude.val ≠ 0) :
    (exact x).toBinary64 = x := by
  obtain ⟨places, hplaces⟩ : ∃ places, places = 1074 := ⟨_, rfl⟩
  rw [toBinary64, decimal_exact x hplaces, Decimal.nearest_units hzero hplaces]
  exact Binary64.ofMagnitude_self hx

lemma toBinary64_of_digits_zero {n : Numeral} (h : n.decimal.digits = 0) :
    n.toBinary64 = .ofMagnitude n.negative 0 := by
  rw [toBinary64, Decimal.nearest, if_pos h]

lemma negative_layout (style : Style) (negative : Bool) (d : Decimal) :
    (layout style negative d).negative = negative := by
  unfold layout
  dsimp only
  split_ifs <;> rfl

/-- However zero is laid out, it has only zeros. -/
theorem digits_layout_zero (style : Style) (negative : Bool) (e : Int) :
    (layout style negative ⟨0, e⟩).decimal.digits = 0 := by
  apply digitsValue_zeros
  unfold layout
  simp only [Decimal.trim_zero, Nat.toDigits_zero]
  split
  · cases e with
    | ofNat k => split_ifs <;> simp +contextual [spread, or_imp]
    | negSucc k => split_ifs <;> simp +contextual [spread, or_imp]
  · simp

/-- A number that is not zero is written in few digits that read back, or exactly. -/
theorem ofBinary64_cases (style : Style) {x : Binary64} (hzero : x.magnitude.val ≠ 0) :
    (∃ d : Decimal, ofBinary64 style x = layout style x.negative d
        ∧ (layout style x.negative d).toBinary64 = x)
      ∨ ofBinary64 style x = exact x := by
  rw [ofBinary64, if_neg hzero]
  dsimp only
  rcases hfound : (List.range 17).findSome? _ with _ | n
  · exact .inr rfl
  · obtain ⟨i, -, hi⟩ := List.exists_of_findSome?_eq_some hfound
    obtain ⟨d, -, rfl⟩ := List.mem_map.1 (List.mem_of_find?_eq_some hi)
    have hread := List.find?_some hi
    exact .inl ⟨d, rfl, of_decide_eq_true hread⟩

lemma ofBinary64_zero (style : Style) {x : Binary64} (hzero : x.magnitude.val = 0) :
    ofBinary64 style x = layout style x.negative ⟨0, 0⟩ := by
  rw [ofBinary64, if_pos hzero]

/-- A finite number is read back from its numeral. -/
@[simp] theorem toBinary64_ofBinary64 (style : Style) {x : Binary64} (hx : x.isFinite) :
    (ofBinary64 style x).toBinary64 = x := by
  by_cases hzero : x.magnitude.val = 0
  · rw [ofBinary64_zero style hzero, toBinary64_of_digits_zero (digits_layout_zero ..),
      negative_layout, ← hzero, Binary64.ofMagnitude_self hx]
  · rcases ofBinary64_cases style hzero with ⟨d, hd, hread⟩ | hexact
    · rw [hd, hread]
    · rw [hexact, toBinary64_exact hx hzero]

/-- The shape of a JSON number: digits throughout, and no zero in front of other
digits. -/
structure WellFormed (n : Numeral) : Prop where
  whole_ne_nil : n.whole ≠ []
  whole_digits : ∀ c ∈ n.whole, c.isDigit
  no_leading_zero : n.whole.head? = some '0' → n.whole = ['0']
  fraction_digits : ∀ c ∈ n.fraction, c.isDigit
  exponent_ne_nil : ∀ e ∈ n.exponent, e.2 ≠ []
  exponent_digits : ∀ e ∈ n.exponent, ∀ c ∈ e.2, c.isDigit

lemma isDigit_of_mem_toDigits {n : ℕ} {c : Char} (h : c ∈ Nat.toDigits 10 n) : c.isDigit :=
  Nat.isDigit_of_mem_toDigits (by decide) (by decide) h

lemma eq_zero_of_head?_toDigits {n : ℕ} (h : (Nat.toDigits 10 n).head? = some '0') :
    n = 0 := by
  induction n using Nat.strong_induction_on with
  | h n ih =>
    rw [Nat.toDigits_eq_if (by decide)] at h
    split_ifs at h with hlt
    · exact Nat.digitChar_eq_zero.1 (Option.some.inj h)
    · rw [List.head?_append_of_ne_nil _ Nat.toDigits_ne_nil] at h
      have := ih (n / 10) (by omega) h
      omega

lemma wellFormed_exact (x : Binary64) : (exact x).WellFormed where
  whole_ne_nil := Nat.toDigits_ne_nil
  whole_digits _ := isDigit_of_mem_toDigits
  no_leading_zero h := by
    have hzero := eq_zero_of_head?_toDigits h
    rw [exact, hzero, Nat.toDigits_zero]
  fraction_digits _ h := absurd h List.not_mem_nil
  exponent_ne_nil := by
    rintro e ⟨⟩
    exact (Nat.toDigits_ne_nil : Nat.toDigits 10 1074 ≠ [])
  exponent_digits := by
    rintro e ⟨⟩ c hc
    exact isDigit_of_mem_toDigits (n := 1074) hc

/-- Digits that are spread over a whole part and a fraction are digits still, and a zero
stands in front only if it is all there is to the whole part. -/
theorem wellFormed_spread {digits : List Char} {e : Int} (negative : Bool)
    (hne : digits ≠ []) (hdigits : ∀ c ∈ digits, c.isDigit)
    (hlead : digits.head? = some '0' → digits = ['0'] ∧ e = 0) :
    WellFormed ⟨negative, (spread digits e).1, (spread digits e).2, none⟩ := by
  have hzeros : ∀ k, ∀ c ∈ List.replicate k '0', c.isDigit := fun k c hc => by
    rw [List.eq_of_mem_replicate hc]
    decide
  cases e with
  | ofNat k =>
    refine ⟨by simp [spread, hne], fun c hc => ?_, fun h => ?_, by simp [spread], by simp,
      by simp⟩
    · exact (List.mem_append.1 hc).elim (hdigits c) (hzeros k c)
    · rw [spread, List.head?_append_of_ne_nil _ hne] at h
      obtain ⟨hd, hk⟩ := hlead h
      have hk : k = 0 := Int.ofNat.inj hk
      simp [spread, hd, hk]
  | negSucc k =>
    have hhead : digits.head? ≠ some '0' := fun h => by simpa using (hlead h).2
    by_cases hlt : k + 1 < digits.length
    · simp only [spread, if_pos hlt, List.splitAt_eq]
      obtain ⟨n, hn⟩ : ∃ n, digits.length - (k + 1) = n + 1 :=
        Nat.exists_eq_succ_of_ne_zero (by omega)
      rw [hn]
      refine ⟨by simp [hne], fun c hc => hdigits c (List.mem_of_mem_take hc), fun h => ?_,
        fun c hc => hdigits c (List.mem_of_mem_drop hc), by simp, by simp⟩
      exact absurd (by simpa [List.head?_take] using h) hhead
    · simp only [spread, if_neg hlt]
      refine ⟨by simp, by simp, by simp, fun c hc => ?_, by simp, by simp⟩
      exact (List.mem_append.1 hc).elim (hzeros _ c) (hdigits c)

/-- The numeral of a decimal, in which zero has no exponent. -/
theorem wellFormed_layout (style : Style) (negative : Bool) {d : Decimal}
    (hzero : d.digits = 0 → d.exponent = 0) : (layout style negative d).WellFormed := by
  obtain ⟨t, ht⟩ : ∃ t, Decimal.trim d.digits d.exponent = t := ⟨_, rfl⟩
  have hlead : (Nat.toDigits 10 t.digits).head? = some '0' →
      Nat.toDigits 10 t.digits = ['0'] ∧ t.exponent = 0 := by
    intro hhead
    have htzero := eq_zero_of_head?_toDigits hhead
    have hdzero : d.digits = 0 := (Decimal.trim_digits_eq_zero_iff ..).1 (ht ▸ htzero)
    rw [htzero, Nat.toDigits_zero, ← ht, hdzero, Decimal.trim_zero]
    exact ⟨rfl, hzero hdzero⟩
  have hdigits : ∀ c ∈ Nat.toDigits 10 t.digits, c.isDigit := fun _ => isDigit_of_mem_toDigits
  simp only [layout, ht]
  split
  · have hspread := wellFormed_spread negative Nat.toDigits_ne_nil hdigits hlead
    split_ifs
    · exact { hspread with fraction_digits := by simp }
    · exact hspread
  · refine ⟨by simp [Nat.toDigits_ne_nil], fun c hc => hdigits c (List.mem_of_mem_take hc),
      fun h => ?_, fun c hc => hdigits c (List.mem_of_mem_drop hc), ?_, ?_⟩
    · rw [(hlead (by simpa [List.head?_take] using h)).1]
      rfl
    · simp [Nat.toDigits_ne_nil]
    · simp only [Option.mem_some_iff, forall_eq']
      exact fun _ => isDigit_of_mem_toDigits

/-- Every numeral that is written has the shape of a JSON number. -/
theorem wellFormed_ofBinary64 (style : Style) (x : Binary64) :
    (ofBinary64 style x).WellFormed := by
  by_cases hzero : x.magnitude.val = 0
  · rw [ofBinary64_zero style hzero]
    exact wellFormed_layout _ _ fun _ => rfl
  · rcases ofBinary64_cases style hzero with ⟨d, hd, hread⟩ | hexact
    · rw [hd]
      refine wellFormed_layout _ _ fun hdzero => absurd ?_ hzero
      -- A decimal without digits would have been read back as zero.
      obtain ⟨digits, e⟩ := d
      subst hdzero
      rw [toBinary64_of_digits_zero (digits_layout_zero ..)] at hread
      rw [← hread]
      rfl
    · rw [hexact]
      exact wellFormed_exact x

end Numeral

end ScriptGraph
