import StyleTokens.Json.Printer
import StyleTokens.Json.Reader
import StyleTokens.Proofs.NearestDoubles

namespace StyleTokens

namespace Json

theorem digitsValue_eq (cs : List Char) : digitsValue cs = Nat.ofDigitChars 10 cs 0 := by
  simp [digitsValue, Nat.ofDigitChars, Nat.mul_comm]

theorem digitsValue_append (cs ds : List Char) :
    digitsValue (cs ++ ds) = digitsValue cs * tenTo ds.length + digitsValue ds := by
  simp only [digitsValue_eq, Nat.ofDigitChars_append]
  rw [Nat.ofDigitChars_eq_ofDigitChars_zero, Nat.mul_comm]
  rfl

theorem digitsValue_zeros (n : Nat) : digitsValue (List.replicate n '0') = 0 := by
  rw [digitsValue_eq, Nat.ofDigitChars_replicate_zero, Nat.mul_zero]

theorem digitsValue_digitsOf (n : Nat) : digitsValue (Binary64.digitsOf n) = n := by
  rw [digitsValue_eq]
  exact Nat.ofDigitChars_ten_toDigits

/-- No character that could go on in a number. -/
def EndsNumber (rest : List Char) : Prop :=
  ∀ c ∈ rest.head?, isDigit c = false ∧ c ≠ '.' ∧ c ≠ 'e' ∧ c ≠ 'E'

/-- Digits, at least one. -/
structure Digits (ds : List Char) : Prop where
  nonempty : ds ≠ []
  digits : ∀ c ∈ ds, isDigit c = true

namespace Digits

variable {ds es rest : List Char}

theorem append (h : Digits ds) (h' : ∀ c ∈ es, isDigit c = true) : Digits (ds ++ es) :=
  ⟨by simp [h.nonempty], fun c hc => (List.mem_append.mp hc).elim (h.digits c) (h' c)⟩

theorem head?_append (h : Digits ds) : (ds ++ rest).head? = ds.head? := by
  cases ds with
  | nil => exact absurd rfl h.nonempty
  | cons c more => rfl

theorem takeWhile (h : Digits ds) (hr : ∀ c ∈ rest.head?, isDigit c = false) :
    (ds ++ rest).takeWhile isDigit = ds := by
  rw [List.takeWhile_append_of_pos h.digits]
  cases rest with
  | nil => simp
  | cons c more => simp [hr c rfl]

theorem dropWhile (h : Digits ds) (hr : ∀ c ∈ rest.head?, isDigit c = false) :
    (ds ++ rest).dropWhile isDigit = rest := by
  rw [List.dropWhile_append_of_pos h.digits]
  cases rest with
  | nil => rfl
  | cons c more => simp [hr c rfl]

end Digits

theorem digits_zeros (n : Nat) : ∀ c ∈ List.replicate n '0', isDigit c = true := by
  intro c hc
  rw [List.eq_of_mem_replicate hc]
  rfl

theorem digits_digitsOf (n : Nat) : Digits (Binary64.digitsOf n) where
  nonempty := Nat.toDigits_ne_nil
  digits c hc := by
    rw [isDigit_eq]
    exact Nat.isDigit_of_mem_toDigits (by decide) (by decide) hc

theorem head?_digitsOf {n : Nat} (hn : n ≠ 0) : (Binary64.digitsOf n).head? ≠ some '0' := by
  unfold Binary64.digitsOf
  induction n using Nat.strong_induction_on with
  | _ n ih =>
    rw [Nat.toDigits_eq_if (by decide)]
    split
    next small =>
      have first : ∀ d < 10, d ≠ 0 → Nat.digitChar d ≠ '0' := by decide
      simpa using first n small hn
    next large =>
      have digits : Digits (Nat.toDigits 10 (n / 10)) := digits_digitsOf (n / 10)
      rw [digits.head?_append]
      exact ih (n / 10) (by omega) (by omega)

/-- Digits as they stand before a point: a zero, or digits that start with another one. -/
structure Whole (ds : List Char) : Prop extends Digits ds where
  leading : ds.head? = some '0' → ds = ['0']

theorem digits_zero : Digits ['0'] := ⟨by simp, List.forall_mem_singleton.mpr rfl⟩

theorem whole_zero : Whole ['0'] := ⟨digits_zero, fun _ => rfl⟩

theorem whole_digitsOf (n : Nat) : Whole (Binary64.digitsOf n) where
  toDigits := digits_digitsOf n
  leading h := by
    by_cases zero : n = 0
    · subst zero
      rfl
    · exact absurd h (head?_digitsOf zero)

theorem wholePart?_append {ds rest : List Char} (h : Whole ds)
    (hr : ∀ c ∈ rest.head?, isDigit c = false) : wholePart? (ds ++ rest) = some (ds, rest) := by
  cases ds with
  | nil => exact absurd rfl h.nonempty
  | cons c more =>
    by_cases zero : c = '0'
    · subst zero
      obtain rfl : more = [] := by simpa using h.leading rfl
      rfl
    · have digit := h.digits c (by simp)
      have took := h.takeWhile hr
      have left := h.dropWhile hr
      simp only [List.cons_append, List.takeWhile_cons, List.dropWhile_cons, digit, if_true,
        List.cons.injEq, true_and] at took left
      unfold wholePart?
      split
      next same => exact absurd (List.cons.inj same).1 zero
      next c' rest' _ same =>
        obtain ⟨rfl, rfl⟩ := List.cons.inj same
        simp [digit, took, left]
      next same => cases same

theorem fraction?_append {ds rest : List Char} (h : Digits ds)
    (hr : ∀ c ∈ rest.head?, isDigit c = false) : fraction? ('.' :: ds ++ rest) = some (ds, rest) := by
  cases ds with
  | nil => exact absurd rfl h.nonempty
  | cons c more =>
    have digit := h.digits c (by simp)
    have took := h.takeWhile hr
    have left := h.dropWhile hr
    simp only [List.cons_append, List.takeWhile_cons, List.dropWhile_cons, digit, if_true,
      List.cons.injEq, true_and] at took left
    simp [fraction?, digit, took, left]

theorem fraction?_eq_none {rest : List Char} (hr : rest.head? ≠ some '.') : fraction? rest = none := by
  unfold fraction?
  split
  · simp at hr
  · rfl

theorem exponent?_eq_none {rest : List Char} (hr : EndsNumber rest) : exponent? rest = none := by
  cases rest with
  | nil => rfl
  | cons c more =>
    obtain ⟨-, -, small, large⟩ := hr c rfl
    simp [exponent?, small, large]

theorem exponentDigits (e : Int) : ∃ ds, Digits ds ∧ digitsValue ds = e.natAbs ∧
    Binary64.exponentText e = (if e < 0 then '-' else '+') :: ds := by
  refine ⟨_, ?_, ?_, rfl⟩
  · split
    · exact digits_zero.append (digits_digitsOf _).digits
    · exact digits_digitsOf _
  · split
    · rw [show '0' :: Binary64.digitsOf e.natAbs = ['0'] ++ Binary64.digitsOf e.natAbs from rfl,
        digitsValue_append, digitsValue_digitsOf, show digitsValue ['0'] = 0 from rfl]
      omega
    · exact digitsValue_digitsOf _

theorem exponent?_exponentText (e : Int) {rest : List Char} (hr : EndsNumber rest) :
    exponent? ('e' :: Binary64.exponentText e ++ rest) = some (e, rest) := by
  have hd : ∀ c ∈ rest.head?, isDigit c = false := fun c hc => (hr c hc).1
  obtain ⟨ds, digits, value, text⟩ := exponentDigits e
  have took := digits.takeWhile hd
  have left := digits.dropWhile hd
  rw [text]
  cases ds with
  | nil => exact absurd rfl digits.nonempty
  | cons d more =>
    by_cases negative : e < 0
    · have signed : -(digitsValue (d :: more) : Int) = e := by omega
      simp only [exponent?, negative, if_true, List.cons_append, true_or] at took left ⊢
      simp [took, left, signed]
    · have signed : (digitsValue (d :: more) : Int) = e := by omega
      simp only [exponent?, negative, if_false, if_true, List.cons_append, true_or] at took left ⊢
      simp [took, left, signed]

def sign (negative : Bool) : List Char := if negative then ['-'] else []

/-- What a number says whose parts are read: an integer if it has neither places nor an exponent. -/
def numberOf (negative : Bool) (whole places : List Char) : Option Int → Scalar
  | some e => .double (.ofDecimal negative (digitsValue (whole ++ places)) (e - places.length))
  | none =>
    if places.isEmpty then .int (if negative then -(digitsValue whole : Int) else digitsValue whole)
    else .double (.ofDecimal negative (digitsValue (whole ++ places)) (-places.length))

section Number

variable {cs whole places after left rest : List Char}

/-- A number is read part by part, whatever its sign. -/
theorem number?_eq (negative : Bool) {exponent : Option (Int × List Char)}
    (hw : wholePart? cs = some (whole, after))
    (hf : (fraction? after).getD ([], after) = (places, left)) (he : exponent? left = exponent) :
    number? (sign negative ++ cs)
      = some (numberOf negative whole places (exponent.map Prod.fst), (exponent.map Prod.snd).getD left) := by
  -- a whole part begins with a digit, so without a sign the reader sees none
  have unsigned : ∀ more, cs ≠ '-' :: more := by
    rintro more rfl
    simp [wholePart?, isDigit] at hw
  unfold number?
  cases negative with
  | true =>
    simp only [sign, if_true, List.cons_append, List.nil_append, hw, hf, he]
    cases exponent with
    | some found => rfl
    | none =>
      simp only [Option.map_none, Option.getD_none, numberOf]
      split <;> rfl
  | false =>
    simp only [sign, Bool.false_eq_true, if_false, List.nil_append, hw, hf, he]
    cases exponent with
    | some found => rfl
    | none =>
      simp only [Option.map_none, Option.getD_none, numberOf]
      split <;> rfl

theorem number?_int (negative : Bool) (h : Whole whole) (hr : EndsNumber rest) :
    number? (sign negative ++ (whole ++ rest))
      = some (.int (if negative then -(digitsValue whole : Int) else digitsValue whole), rest) := by
  have noPoint : rest.head? ≠ some '.' := fun hc => (hr '.' hc).2.1 rfl
  have none : (fraction? rest).getD ([], rest) = ([], rest) := by
    rw [fraction?_eq_none noPoint, Option.getD_none]
  rw [number?_eq negative (wholePart?_append h fun c hc => (hr c hc).1) none (exponent?_eq_none hr)]
  simp [numberOf]

theorem number?_point (negative : Bool) (h : Whole whole) (hp : Digits places) (hr : EndsNumber rest) :
    number? (sign negative ++ (whole ++ ('.' :: places ++ rest)))
      = some (.double (.ofDecimal negative (digitsValue (whole ++ places)) (-places.length)), rest) := by
  have fraction : (fraction? ('.' :: places ++ rest)).getD ([], '.' :: places ++ rest) = (places, rest) := by
    rw [fraction?_append hp fun c hc => (hr c hc).1, Option.getD_some]
  have nonempty : places.isEmpty = false := by simpa using hp.nonempty
  rw [number?_eq negative (wholePart?_append h (by simp [isDigit])) fraction (exponent?_eq_none hr)]
  simp [numberOf, nonempty]

theorem number?_exponent (negative : Bool) (e : Int) (h : Whole whole) (hr : EndsNumber rest) :
    number? (sign negative ++ (whole ++ ('e' :: Binary64.exponentText e ++ rest)))
      = some (.double (.ofDecimal negative (digitsValue whole) e), rest) := by
  have none : (fraction? ('e' :: Binary64.exponentText e ++ rest)).getD
      ([], 'e' :: Binary64.exponentText e ++ rest) = ([], 'e' :: Binary64.exponentText e ++ rest) := by
    rw [fraction?_eq_none (by simp), Option.getD_none]
  rw [number?_eq negative (wholePart?_append h (by simp [isDigit])) none (exponent?_exponentText e hr)]
  simp [numberOf]

theorem number?_point_exponent (negative : Bool) (e : Int) (h : Whole whole) (hp : Digits places)
    (hr : EndsNumber rest) :
    number? (sign negative ++ (whole ++ ('.' :: places ++ ('e' :: Binary64.exponentText e ++ rest))))
      = some (.double (.ofDecimal negative (digitsValue (whole ++ places)) (e - places.length)), rest) := by
  have fraction : (fraction? ('.' :: places ++ ('e' :: Binary64.exponentText e ++ rest))).getD
      ([], '.' :: places ++ ('e' :: Binary64.exponentText e ++ rest))
        = (places, 'e' :: Binary64.exponentText e ++ rest) := by
    rw [fraction?_append hp (by simp [isDigit]), Option.getD_some]
  rw [number?_eq negative (wholePart?_append h (by simp [isDigit])) fraction (exponent?_exponentText e hr)]
  simp [numberOf]

end Number

theorem number?_intText (n : Int) {rest : List Char} (hr : EndsNumber rest) :
    number? (intText n ++ rest) = some (.int n, rest) := by
  have read := number?_int (decide (n < 0)) (whole_digitsOf n.natAbs) hr
  have value := digitsValue_digitsOf n.natAbs
  by_cases negative : n < 0
  · have signed : -(digitsValue (Binary64.digitsOf n.natAbs) : Int) = n := by omega
    simpa [sign, intText, negative, signed] using read
  · have signed : (digitsValue (Binary64.digitsOf n.natAbs) : Int) = n := by omega
    simpa [sign, intText, negative, signed] using read

section Double

variable {n : Nat} {rest : List Char}

/-- Digits with a point say the decimal, wherever the point stands. -/
theorem number?_positional (negative : Bool) (hn : n ≠ 0) (exponent : Int) (hr : EndsNumber rest) :
    number? (sign negative ++ (Binary64.positional (Binary64.digitsOf n)
        ((Binary64.digitsOf n).length + exponent) ++ rest))
      = some (.double (.ofWord negative (Decimal.word ⟨n, exponent⟩)), rest) := by
  obtain ⟨ds, hds⟩ : ∃ ds, ds = Binary64.digitsOf n := ⟨_, rfl⟩
  have digits : Digits ds := hds ▸ digits_digitsOf n
  have value : digitsValue ds = n := hds ▸ digitsValue_digitsOf n
  have first : ds.head? ≠ some '0' := hds ▸ head?_digitsOf hn
  rw [← hds]
  obtain ⟨place, hp⟩ : ∃ place : Int, place = ds.length + exponent := ⟨_, rfl⟩
  rw [← hp]
  unfold Binary64.positional
  split
  next front =>
    have places : Digits (List.replicate (-place).toNat '0' ++ ds) :=
      ⟨by simp [digits.nonempty], fun c hc => (List.mem_append.mp hc).elim (digits_zeros _ c) (digits.digits c)⟩
    have all : digitsValue (['0'] ++ (List.replicate (-place).toNat '0' ++ ds)) = n := by
      rw [digitsValue_append, digitsValue_append, digitsValue_zeros, value,
        show digitsValue ['0'] = 0 from rfl, Nat.zero_mul, Nat.zero_mul, Nat.zero_add, Nat.zero_add]
    have point : -((List.replicate (-place).toNat '0' ++ ds).length : Int) = exponent := by
      rw [List.length_append, List.length_replicate]
      omega
    have read := number?_point negative whole_zero places hr
    rw [all, point, Binary64.ofDecimal_eq] at read
    exact read
  next =>
    split
    next behind =>
      obtain ⟨zeros, hz⟩ : ∃ zeros, zeros = place.toNat - ds.length := ⟨_, rfl⟩
      have whole : Whole (ds ++ List.replicate zeros '0') :=
        ⟨digits.append (digits_zeros zeros), fun h => absurd (digits.head?_append ▸ h) first⟩
      have all : digitsValue (ds ++ List.replicate zeros '0' ++ ['0']) = n * tenTo (zeros + 1) := by
        rw [digitsValue_append, digitsValue_append, digitsValue_zeros, value, List.length_replicate,
          show digitsValue ['0'] = 0 from rfl, Nat.add_zero, Nat.add_zero, tenTo_add, Nat.mul_assoc]
        rfl
      have moved : (-1 : Int) + (zeros + 1 : Nat) = exponent := by omega
      have read := number?_point negative whole digits_zero hr
      rw [all, Binary64.ofDecimal_eq] at read
      rw [← moved, ← Decimal.word_zeros]
      simpa [← hz] using read
    next inside =>
      obtain ⟨front, hf⟩ : ∃ front, front = place.toNat := ⟨_, rfl⟩
      have taken : 0 < front ∧ front < ds.length := by omega
      have whole : Whole (ds.take front) := by
        refine ⟨⟨?_, fun c hc => digits.digits c (List.mem_of_mem_take hc)⟩, fun h => absurd ?_ first⟩
        · simp [digits.nonempty]
          omega
        · rwa [List.head?_take, if_neg (by omega)] at h
      have places : Digits (ds.drop front) :=
        ⟨by simpa using taken.2, fun c hc => digits.digits c (List.mem_of_mem_drop hc)⟩
      have point : -((ds.drop front).length : Int) = exponent := by
        rw [List.length_drop]
        omega
      have read := number?_point negative whole places hr
      rw [List.take_append_drop, value, point, Binary64.ofDecimal_eq] at read
      simpa [← hf] using read

theorem number?_scientific (negative : Bool) (hn : n ≠ 0) (exponent : Int) (hr : EndsNumber rest) :
    number? (sign negative ++ (Binary64.scientific (Binary64.digitsOf n)
        ((Binary64.digitsOf n).length + exponent) ++ rest))
      = some (.double (.ofWord negative (Decimal.word ⟨n, exponent⟩)), rest) := by
  have digits := digits_digitsOf n
  have value := digitsValue_digitsOf n
  have first := head?_digitsOf hn
  cases written : Binary64.digitsOf n with
  | nil => exact absurd written digits.nonempty
  | cons c more =>
    rw [written] at digits value first
    have whole : Whole [c] :=
      ⟨⟨by simp, by simpa using digits.digits c (by simp)⟩, fun h => absurd (by simpa using h) first⟩
    cases more with
    | nil =>
      have e : (([c] : List Char).length : Int) + exponent - 1 = exponent := by simp
      have read := number?_exponent negative exponent whole hr
      rw [value, Binary64.ofDecimal_eq] at read
      simpa [Binary64.scientific, e] using read
    | cons d more =>
      have places : Digits (d :: more) := ⟨by simp, fun c' hc => digits.digits c' (List.mem_cons_of_mem c hc)⟩
      have e : (((c :: d :: more).length : Int) + exponent - 1) - (d :: more).length = exponent := by
        simp only [List.length_cons]
        omega
      have read := number?_point_exponent negative ((c :: d :: more).length + exponent - 1) whole places hr
      rw [show [c] ++ d :: more = c :: d :: more from rfl, value, e, Binary64.ofDecimal_eq] at read
      simpa [Binary64.scientific] using read

theorem number?_wordText (negative : Bool) (word : Nat) (hr : EndsNumber rest) :
    number? (sign negative ++ (Binary64.wordText word ++ rest))
      = some (.double (.ofWord negative word), rest) := by
  unfold Binary64.wordText
  split
  next zero =>
    have read := number?_point negative whole_zero digits_zero hr
    have value : digitsValue (['0'] ++ ['0']) = 0 := rfl
    rw [Binary64.ofDecimal_eq, Decimal.word_of_digits_zero value] at read
    rw [zero]
    exact read
  next positive =>
    obtain ⟨d, hd⟩ : ∃ d, d = Binary64.shortest word := ⟨_, rfl⟩
    have digits : d.digits ≠ 0 := hd ▸ Binary64.digits_shortest_ne_zero positive
    have reads : d.word = word := hd ▸ Binary64.word_shortest word
    rw [← hd, ← reads]
    dsimp only
    split
    · exact number?_positional negative digits d.exponent hr
    · exact number?_scientific negative digits d.exponent hr

end Double

end Json

end StyleTokens
