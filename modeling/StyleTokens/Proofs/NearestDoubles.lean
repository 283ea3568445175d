import StyleTokens.Binary64.Shortest
import Mathlib.Tactic.Ring
import Mathlib.Algebra.Order.Ring.Nat

namespace StyleTokens

theorem octave_eq : octave = 2 ^ 52 := by
  unfold octave
  rw [Nat.shiftLeft_eq, Nat.one_mul]

theorem octave_pos : 0 < octave := by
  rw [octave_eq]
  exact Nat.two_pow_pos 52

theorem tenTo_pos (places : Nat) : 0 < tenTo places := Nat.pow_pos (by decide)

theorem tenTo_add (m n : Nat) : tenTo (m + n) = tenTo m * tenTo n := Nat.pow_add 10 m n

theorem tenTo_le {m n : Nat} (h : m ≤ n) : tenTo m ≤ tenTo n := Nat.pow_le_pow_right (by decide) h

theorem tenTo_factors (places : Nat) : tenTo places = 2 ^ places * 5 ^ places := Nat.mul_pow 2 5 places

theorem two_pow_le_tenTo {n places : Nat} (h : n ≤ 3 * places) : 2 ^ n ≤ tenTo places :=
  calc 2 ^ n ≤ 2 ^ (3 * places) := Nat.pow_le_pow_right (by decide) h
    _ = 8 ^ places := Nat.pow_mul 2 3 places
    _ ≤ 10 ^ places := Nat.pow_le_pow_left (by decide) places

theorem tenTo_le_and_lt {n : Nat} (hn : n ≠ 0) :
    tenTo ((Nat.toDigits 10 n).length - 1) ≤ n ∧ n < tenTo (Nat.toDigits 10 n).length := by
  have pos : 0 < (Nat.toDigits 10 n).length := Nat.length_toDigits_pos
  refine ⟨?_, (Nat.length_toDigits_le_iff (by decide) pos).mp le_rfl⟩
  by_cases one : (Nat.toDigits 10 n).length = 1
  · rw [one]
    exact Nat.one_le_iff_ne_zero.mpr hn
  · by_contra small
    have short := (Nat.length_toDigits_le_iff (by decide) (by omega)).mpr (not_le.mp small)
    omega

namespace Binary64

/-- The least positive double is one over two to this power. -/
def leastPlaces : Nat := 1074

/-- No finite double reaches two to this power. -/
def greatestPlaces : Nat := 1024

theorem unitsPerOne_eq : unitsPerOne = 2 ^ leastPlaces := Nat.one_shiftLeft leastPlaces

theorem unitsPerOne_pos : 0 < unitsPerOne := by
  rw [unitsPerOne_eq]
  exact Nat.two_pow_pos leastPlaces

theorem roundDiv_mul_right {k : Nat} (hk : 0 < k) (num den : Nat) :
    roundDiv (num * k) (den * k) = roundDiv num den := by
  have quotient : num * k / (den * k) = num / den := Nat.mul_div_mul_right num den hk
  have rest : 2 * (num * k % (den * k)) = 2 * (num % den) * k := by
    rw [Nat.mul_mod_mul_right, Nat.mul_assoc]
  unfold roundDiv
  simp only [quotient, rest, Nat.mul_lt_mul_right hk]

theorem roundDiv_mul {den : Nat} (hd : 0 < den) (n : Nat) : roundDiv (n * den) den = n := by
  have whole : n * den / den = n := Nat.mul_div_cancel n hd
  have rest : n * den % den = 0 := Nat.mul_mod_left n den
  simp [roundDiv, whole, rest, hd]

theorem div_le_roundDiv (num den : Nat) : num / den ≤ roundDiv num den := by
  unfold roundDiv
  dsimp only
  split
  · exact le_rfl
  · split <;> omega

/-- The nearest word depends on the value of the fraction only. -/
theorem nearestWord_mul_right {k : Nat} (hk : 0 < k) (num den : Nat) :
    nearestWord (num * k) (den * k) = nearestWord num den := by
  have units : num * k * unitsPerOne = num * unitsPerOne * k := Nat.mul_right_comm num k unitsPerOne
  have whole : num * unitsPerOne * k / (den * k) = num * unitsPerOne / den :=
    Nat.mul_div_mul_right (num * unitsPerOne) den hk
  have scaled (n : Nat) : (den * k) <<< n = den <<< n * k := by
    rw [Nat.shiftLeft_eq, Nat.shiftLeft_eq, Nat.mul_right_comm]
  unfold nearestWord
  simp only [units, whole, scaled, roundDiv_mul_right hk]

/-- What is nearer to nothing than to the least positive double is rounded to zero. -/
theorem nearestWord_eq_zero {num den : Nat} (small : 2 * (num * unitsPerOne) < den) :
    nearestWord num den = 0 := by
  have whole : num * unitsPerOne / den = 0 := Nat.div_eq_of_lt (by omega)
  have rest : num * unitsPerOne % den = num * unitsPerOne := Nat.mod_eq_of_lt (by omega)
  have rounded : roundDiv (num * unitsPerOne) den = 0 := by
    unfold roundDiv
    simp only [whole, rest, small, if_true]
  unfold nearestWord
  simp only [whole, Nat.log2_zero, Nat.zero_sub, Nat.zero_mul, Nat.zero_add, Nat.shiftLeft_zero, rounded]

theorem nearestWord_zero (den : Nat) : nearestWord 0 den = 0 := by
  have rounded : roundDiv 0 den = 0 := by simp [roundDiv]
  unfold nearestWord
  simp [rounded]

theorem finiteWords_le_nearestWord {num den : Nat} (hd : 0 < den)
    (large : 2 ^ greatestPlaces * den ≤ num) :
    finiteWords ≤ nearestWord num den := by
  obtain ⟨whole, hw⟩ : ∃ whole, whole = num * unitsPerOne / den := ⟨_, rfl⟩
  obtain ⟨shift, hs⟩ : ∃ shift, shift = Nat.log2 whole - 52 := ⟨_, rfl⟩
  have bound : 2 ^ (greatestPlaces + leastPlaces) ≤ whole := by
    rw [hw, Nat.le_div_iff_mul_le hd, unitsPerOne_eq, Nat.pow_add, Nat.mul_right_comm]
    exact Nat.mul_le_mul_right _ large
  have positive : whole ≠ 0 := Nat.ne_of_gt (lt_of_lt_of_le (Nat.two_pow_pos _) bound)
  have log : greatestPlaces + leastPlaces ≤ Nat.log2 whole := (Nat.le_log2 positive).mpr bound
  have places : greatestPlaces + leastPlaces = 2098 := rfl
  have top : octave ≤ num * unitsPerOne / den <<< shift := by
    rw [Nat.shiftLeft_eq, ← Nat.div_div_eq_div_mul, ← hw, octave_eq,
      Nat.le_div_iff_mul_le (Nat.two_pow_pos shift), ← Nat.pow_add,
      show 52 + shift = Nat.log2 whole by omega]
    exact Nat.log2_self_le positive
  have rounded := div_le_roundDiv (num * unitsPerOne) (den <<< shift)
  have words : nearestWord num den = shift * octave + roundDiv (num * unitsPerOne) (den <<< shift) := by
    unfold nearestWord
    simp only [← hw, ← hs]
  have steps : 2046 * octave ≤ shift * octave := Nat.mul_le_mul_right octave (by omega)
  rw [words]
  unfold finiteWords
  omega

theorem units_of_lt {word : Nat} (h : word < octave) : units word = word := by
  have scale : word / octave - 1 = 0 := by rw [Nat.div_eq_of_lt h]
  simp [units, significand, h, Binary64.scale, scale]

theorem units_of_le {word : Nat} (h : octave ≤ word) :
    units word = (octave + word % octave) * 2 ^ (word / octave - 1) := by
  simp [units, significand, Nat.not_lt.mpr h, scale, Nat.shiftLeft_eq]

theorem log2_significand_mul {m : Nat} (least : octave ≤ m) (below : m < 2 ^ 53) (s : Nat) :
    Nat.log2 (m * 2 ^ s) = 52 + s := by
  rw [octave_eq] at least
  have bottom : 2 ^ 52 * 2 ^ s ≤ m * 2 ^ s := Nat.mul_le_mul_right _ least
  have top : m * 2 ^ s < 2 ^ 53 * 2 ^ s := Nat.mul_lt_mul_of_pos_right below (Nat.two_pow_pos s)
  rw [← Nat.pow_add] at bottom top
  have positive : m * 2 ^ s ≠ 0 := Nat.ne_of_gt (lt_of_lt_of_le (Nat.two_pow_pos _) bottom)
  exact (Nat.log2_eq_iff positive).mpr ⟨bottom, by rwa [show 52 + s + 1 = 53 + s by omega]⟩

theorem nearestWord_units (word : Nat) : nearestWord (units word) unitsPerOne = word := by
  have whole : units word * unitsPerOne / unitsPerOne = units word :=
    Nat.mul_div_cancel _ unitsPerOne_pos
  unfold nearestWord
  simp only [whole]
  -- a word of the first octave is its own significand; later ones have a significand of 53 bits, shifted
  by_cases small : word < octave
  · have low : Nat.log2 word - 52 = 0 := by
      by_cases zero : word = 0
      · simp [zero]
      · have := (Nat.log2_lt zero).mpr (octave_eq ▸ small)
        omega
    rw [units_of_lt small, low, Nat.shiftLeft_zero, roundDiv_mul unitsPerOne_pos]
    omega
  · have large : octave ≤ word := Nat.not_lt.mp small
    obtain ⟨s, hs⟩ : ∃ s, s = word / octave - 1 := ⟨_, rfl⟩
    obtain ⟨m, hm⟩ : ∃ m, m = octave + word % octave := ⟨_, rfl⟩
    have value : units word = m * 2 ^ s := by rw [units_of_le large, hs, hm]
    have below : m < 2 ^ 53 := by
      have := Nat.mod_lt word octave_pos
      have : octave + octave = 2 ^ 53 := by rw [octave_eq, ← Nat.two_mul, ← Nat.pow_succ']
      omega
    have log : Nat.log2 (m * 2 ^ s) = 52 + s := log2_significand_mul (by omega) below s
    have rounded : roundDiv (m * 2 ^ s * unitsPerOne) (unitsPerOne <<< s) = m := by
      rw [Nat.shiftLeft_eq, Nat.mul_assoc, Nat.mul_comm (2 ^ s) unitsPerOne]
      exact roundDiv_mul (Nat.mul_pos unitsPerOne_pos (Nat.two_pow_pos s)) m
    have parts : octave * (word / octave) + word % octave = word := Nat.div_add_mod word octave
    have octaves : 1 ≤ word / octave := (Nat.one_le_div_iff octave_pos).mpr large
    calc (Nat.log2 (units word) - 52) * octave
          + roundDiv (units word * unitsPerOne) (unitsPerOne <<< (Nat.log2 (units word) - 52))
        = s * octave + m := by rw [value, log, Nat.add_sub_cancel_left, rounded]
      _ = (s + 1) * octave + word % octave := by rw [hm]; ring
      _ = octave * (word / octave) + word % octave := by
          rw [hs, Nat.sub_add_cancel octaves, Nat.mul_comm]
      _ = word := parts

end Binary64

namespace Decimal

open Binary64

theorem word_eq_nearestWord (d : Decimal) {places : Nat} (h : -d.exponent ≤ places) :
    d.word = nearestWord (d.digits * tenTo (d.exponent + places).toNat) (tenTo places) := by
  unfold word
  split
  next whole =>
    have split : (d.exponent + places).toNat = d.exponent.toNat + places := by omega
    rw [split, tenTo_add, ← Nat.mul_assoc]
    simpa using (nearestWord_mul_right (tenTo_pos places) (d.digits * tenTo d.exponent.toNat) 1).symm
  next broken =>
    have split : places = (-d.exponent).toNat + (d.exponent + places).toNat := by omega
    conv_rhs => arg 2; rw [split]
    rw [tenTo_add]
    exact (nearestWord_mul_right (tenTo_pos _) d.digits (tenTo (-d.exponent).toNat)).symm

/-- Zeros after the digits may be moved into the exponent. -/
theorem word_zeros (digits zeros : Nat) (exponent : Int) :
    (⟨digits * tenTo zeros, exponent⟩ : Decimal).word = (⟨digits, exponent + zeros⟩ : Decimal).word := by
  have enough : -exponent ≤ ((-exponent).toNat : Int) := by omega
  rw [word_eq_nearestWord ⟨digits * tenTo zeros, exponent⟩ enough,
    word_eq_nearestWord ⟨digits, exponent + zeros⟩ (by dsimp only; omega : _ ≤ ((-exponent).toNat : Int))]
  dsimp only
  have split : (exponent + zeros + (-exponent).toNat).toNat = zeros + (exponent + (-exponent).toNat).toNat := by
    omega
  rw [split, tenTo_add, Nat.mul_assoc]

theorem word_of_digits_zero {d : Decimal} (h : d.digits = 0) : d.word = 0 := by
  unfold word
  split <;> simp [h, nearestWord_zero]

theorem word_eq_zero {d : Decimal} {length cut : Nat} (most : d.digits < tenTo length)
    (hc : 2 * unitsPerOne ≤ tenTo cut) (small : length + d.exponent ≤ -cut) : d.word = 0 := by
  have places : -d.exponent ≤ ((-d.exponent).toNat : Int) := by omega
  have none : (d.exponent + (-d.exponent).toNat).toNat = 0 := by omega
  rw [word_eq_nearestWord d places, none, show tenTo 0 = 1 from rfl, Nat.mul_one]
  apply nearestWord_eq_zero
  have units : 0 < 2 * unitsPerOne := Nat.mul_pos (by decide) unitsPerOne_pos
  calc 2 * (d.digits * unitsPerOne)
      = d.digits * (2 * unitsPerOne) := Nat.mul_left_comm ..
    _ < tenTo length * (2 * unitsPerOne) := Nat.mul_lt_mul_of_pos_right most units
    _ ≤ tenTo length * tenTo cut := Nat.mul_le_mul_left _ hc
    _ = tenTo (length + cut) := (tenTo_add length cut).symm
    _ ≤ tenTo (-d.exponent).toNat := tenTo_le (by omega)

theorem finiteWords_le_word {d : Decimal} {length cut : Nat} (least : tenTo length ≤ d.digits)
    (hc : 2 ^ greatestPlaces ≤ tenTo cut) (large : cut ≤ length + d.exponent) :
    finiteWords ≤ d.word := by
  obtain ⟨places, hp⟩ : ∃ places, places = (-d.exponent).toNat := ⟨_, rfl⟩
  have enough : -d.exponent ≤ (places : Int) := by omega
  rw [word_eq_nearestWord d enough]
  apply finiteWords_le_nearestWord (tenTo_pos places)
  calc 2 ^ greatestPlaces * tenTo places
      ≤ tenTo cut * tenTo places := Nat.mul_le_mul_right _ hc
    _ = tenTo (cut + places) := (tenTo_add cut places).symm
    _ ≤ tenTo (length + (d.exponent + places).toNat) := tenTo_le (by omega)
    _ = tenTo length * tenTo (d.exponent + places).toNat := tenTo_add ..
    _ ≤ d.digits * tenTo (d.exponent + places).toNat := Nat.mul_le_mul_right _ least

theorem word_trim_go (fuel : Nat) (d : Decimal) : (trim.go fuel d).word = d.word := by
  induction fuel generalizing d with
  | zero => rfl
  | succ fuel ih =>
    unfold trim.go
    split
    next ends =>
      have tens : d.digits / 10 * tenTo 1 = d.digits := Nat.div_mul_cancel (Nat.dvd_of_mod_eq_zero ends.1)
      have moved := word_zeros (d.digits / 10) 1 d.exponent
      rw [tens] at moved
      exact (ih ⟨d.digits / 10, d.exponent + 1⟩).trans moved.symm
    next => rfl

theorem word_trim (d : Decimal) : d.trim.word = d.word := word_trim_go _ d

end Decimal

namespace Binary64

theorem word_of_nearestDecimal? {word count : Nat} {d : Decimal} (h : nearestDecimal? word count = some d) :
    d.word = word := by
  unfold nearestDecimal? at h
  obtain ⟨digits, -, taken⟩ := List.exists_of_findSome?_eq_some h
  dsimp only at taken
  split at taken
  next reads =>
    obtain rfl := Option.some.inj taken
    exact reads.1
  next => cases taken

theorem exactDecimal_eq (word : Nat) :
    exactDecimal word = ⟨units word * 5 ^ leastPlaces, -(leastPlaces : Int)⟩ := by
  unfold exactDecimal leastPlaces
  rw [Nat.pow_eq, Nat.cast_ofNat]

theorem word_exactDecimal (word : Nat) : (exactDecimal word).word = word := by
  obtain ⟨places, hp⟩ : ∃ places, places = leastPlaces := ⟨_, rfl⟩
  have one : tenTo places = unitsPerOne * 5 ^ places := by rw [unitsPerOne_eq, ← hp, tenTo_factors]
  have reads := Decimal.word_eq_nearestWord ⟨units word * 5 ^ places, -(places : Int)⟩
    (Int.neg_neg (places : Int)).le
  have none : (-(places : Int) + places).toNat = 0 := by omega
  rw [exactDecimal_eq, ← hp, reads]
  dsimp only
  rw [none, show tenTo 0 = 1 from rfl, Nat.mul_one, one, nearestWord_mul_right (Nat.pow_pos (by decide)),
    nearestWord_units]

theorem word_shortest (word : Nat) : (shortest word).word = word := by
  unfold shortest
  rw [Decimal.word_trim]
  cases found : (List.range 17).findSome? fun n => nearestDecimal? word (n + 1) with
  | none => exact word_exactDecimal word
  | some d =>
    obtain ⟨n, -, near⟩ := List.exists_of_findSome?_eq_some found
    exact word_of_nearestDecimal? near

theorem digits_shortest_ne_zero {word : Nat} (hw : word ≠ 0) : (shortest word).digits ≠ 0 := by
  intro nothing
  have zero := Decimal.word_of_digits_zero nothing
  exact hw ((word_shortest word).symm.trans zero)

theorem ofWord_of_le {word : Nat} (h : finiteWords ≤ word) (negative : Bool) :
    ofWord negative word = .infinity negative :=
  dif_neg (Nat.not_lt.mpr h)

theorem ofWord_val (negative : Bool) (word : Fin finiteWords) :
    ofWord negative word = .finite negative word :=
  dif_pos word.isLt

/-- Reading a decimal never depends on the cut at 400 places: what lies past it is infinite or zero anyway. -/
theorem ofDecimal_eq (negative : Bool) (digits : Nat) (exponent : Int) :
    ofDecimal negative digits exponent = ofWord negative (Decimal.word ⟨digits, exponent⟩) := by
  by_cases zero : digits = 0
  · subst zero
    have nothing : (⟨0, exponent⟩ : Decimal).word = 0 := Decimal.word_of_digits_zero rfl
    simp [ofDecimal, nothing]
  obtain ⟨least, most⟩ := tenTo_le_and_lt zero
  obtain ⟨length, hl⟩ : ∃ length, length = (Nat.toDigits 10 digits).length := ⟨_, rfl⟩
  have positive : 0 < length := hl ▸ Nat.length_toDigits_pos
  rw [← hl] at least most
  unfold ofDecimal
  simp only [← hl, zero, false_or]
  split
  next tiny =>
    -- less than half of the least positive double
    have cut : 2 * unitsPerOne ≤ tenTo 400 := by
      rw [unitsPerOne_eq, ← Nat.pow_succ']
      exact two_pow_le_tenTo (by decide)
    rw [Decimal.word_eq_zero most cut (by dsimp only; omega)]
  next =>
    split
    next huge =>
      have cut : 2 ^ greatestPlaces ≤ tenTo 400 := two_pow_le_tenTo (by decide)
      exact (ofWord_of_le (Decimal.finiteWords_le_word least cut (by dsimp only; omega)) negative).symm
    next =>
      unfold Decimal.word nearest
      split <;> rfl

end Binary64

end StyleTokens
