import StyleTokens.Naming

namespace StyleTokens

theorem exists_of_isSmall {c : Char} (h : isSmall c = true) : ∃ i < 26, c = Char.ofNat (97 + i) := by
  simp only [isSmall, Bool.and_eq_true, decide_eq_true_eq, Char.le_def, UInt32.le_iff_toNat_le] at h
  have bounds : 97 ≤ c.toNat ∧ c.toNat ≤ 122 := h
  refine ⟨c.toNat - 97, by omega, ?_⟩
  rw [Nat.add_sub_cancel' bounds.1, Char.ofNat_toNat]

theorem exists_of_isCapital {c : Char} (h : isCapital c = true) : ∃ i < 26, c = Char.ofNat (65 + i) := by
  simp only [isCapital, Bool.and_eq_true, decide_eq_true_eq, Char.le_def, UInt32.le_iff_toNat_le] at h
  have bounds : 65 ≤ c.toNat ∧ c.toNat ≤ 90 := h
  refine ⟨c.toNat - 65, by omega, ?_⟩
  rw [Nat.add_sub_cancel' bounds.1, Char.ofNat_toNat]

theorem capitalOf_spec {c : Char} (h : isSmall c = true) :
    isCapital c = false ∧ isCapital (capitalOf c) = true ∧ smallOf (capitalOf c) = c := by
  have all : ∀ i < 26, isCapital (Char.ofNat (97 + i)) = false ∧
      isCapital (capitalOf (Char.ofNat (97 + i))) = true ∧
      smallOf (capitalOf (Char.ofNat (97 + i))) = Char.ofNat (97 + i) := by decide
  obtain ⟨i, hi, rfl⟩ := exists_of_isSmall h
  exact all i hi

theorem smallOf_spec {c : Char} (h : isCapital c = true) :
    isSmall c = false ∧ isSmall (smallOf c) = true ∧ capitalOf (smallOf c) = c := by
  have all : ∀ i < 26, isSmall (Char.ofNat (65 + i)) = false ∧
      isSmall (smallOf (Char.ofNat (65 + i))) = true ∧
      capitalOf (smallOf (Char.ofNat (65 + i))) = Char.ofNat (65 + i) := by decide
  obtain ⟨i, hi, rfl⟩ := exists_of_isCapital h
  exact all i hi

theorem smallOf_of_not_isCapital {c : Char} (h : isCapital c = false) : smallOf c = c := by
  rw [smallOf, h]
  rfl

theorem isCapital_smallOf (c : Char) : isCapital (smallOf c) = false := by
  cases h : isCapital c with
  | true => exact (capitalOf_spec (smallOf_spec h).2.1).1
  | false => rwa [smallOf_of_not_isCapital h]

theorem smallOf_smallOf (c : Char) : smallOf (smallOf c) = smallOf c := smallOf_of_not_isCapital (isCapital_smallOf c)

theorem smallOf_capitalOf (c : Char) : smallOf (capitalOf c) = smallOf c := by
  cases h : isSmall c with
  | true =>
    obtain ⟨low, -, back⟩ := capitalOf_spec h
    rw [back, smallOf_of_not_isCapital low]
  | false => simp [capitalOf, h]

theorem ascii_of_isSmall {c : Char} (h : isSmall c = true) : c.toNat < 128 := by
  obtain ⟨i, hi, rfl⟩ := exists_of_isSmall h
  have all : ∀ i < 26, (Char.ofNat (97 + i)).toNat < 128 := by decide
  exact all i hi

theorem ascii_of_isCapital {c : Char} (h : isCapital c = true) : c.toNat < 128 := by
  obtain ⟨i, hi, rfl⟩ := exists_of_isCapital h
  have all : ∀ i < 26, (Char.ofNat (65 + i)).toNat < 128 := by decide
  exact all i hi

theorem ascii_smallOf {c : Char} (ascii : c.toNat < 128) : (smallOf c).toNat < 128 := by
  cases h : isCapital c with
  | true => exact ascii_of_isSmall (smallOf_spec h).2.1
  | false => rwa [smallOf_of_not_isCapital h]

/-- The numbers from `first` on in steps, as many as asked for, as the bits of one number: two sets of characters
are then compared at once, and not each range of one with each of the other. -/
def bitsFrom (first step : Nat) : Nat → Nat
  | 0 => 0
  | count + 1 => 1 <<< first ||| bitsFrom (first + step) step count

/-- The numbers of all parts together. -/
def unionBits {α : Type} (bits : α → Nat) (parts : List α) : Nat := parts.foldr (fun x m => bits x ||| m) 0

theorem testBit_bitsFrom {first step count i : Nat} (h : i < count) :
    (bitsFrom first step count).testBit (first + step * i) = true := by
  induction count generalizing first i with
  | zero => exact absurd h (Nat.not_lt_zero i)
  | succ count ih =>
    rw [bitsFrom, Nat.testBit_or, Bool.or_eq_true]
    cases i with
    | zero => exact .inl (by simp)
    | succ i =>
      have place : first + step + step * i = first + step * (i + 1) := by rw [Nat.mul_succ]; omega
      have later : (bitsFrom (first + step) step count).testBit (first + step + step * i) = true :=
        ih (Nat.lt_of_succ_lt_succ h)
      rw [place] at later
      exact .inr later

theorem testBit_unionBits {α : Type} {bits : α → Nat} {parts : List α} {x : α} {n : Nat} (hx : x ∈ parts)
    (h : (bits x).testBit n = true) : (unionBits bits parts).testBit n = true := by
  induction parts with
  | nil => cases hx
  | cons y rest ih =>
    change (bits y ||| unionBits bits rest).testBit n = true
    rw [Nat.testBit_or, Bool.or_eq_true]
    rcases List.mem_cons.mp hx with rfl | later
    · exact .inl h
    · exact .inr (ih later)

theorem not_testBit_of_apart {m k n : Nat} (apart : m &&& k = 0) (h : k.testBit n = true) : m.testBit n ≠ true := by
  intro both
  have common : (m &&& k).testBit n = true := by rw [Nat.testBit_and, both, h]; rfl
  rw [apart, Nat.zero_testBit] at common
  cases common

/-- The numbers in ranges, both ends included. -/
def rangeBits (ranges : List (Nat × Nat)) : Nat := unionBits (fun g => bitsFrom g.1 1 (g.2 - g.1 + 1)) ranges

theorem testBit_rangeBits {ranges : List (Nat × Nat)} {c : Char} (h : inRanges ranges c = true) :
    (rangeBits ranges).testBit c.toNat = true := by
  obtain ⟨g, hg, within⟩ := List.any_eq_true.mp h
  simp only [Bool.and_eq_true, decide_eq_true_eq] at within
  have bit : (bitsFrom g.1 1 (g.2 - g.1 + 1)).testBit (g.1 + 1 * (c.toNat - g.1)) = true := testBit_bitsFrom (by omega)
  rw [Nat.one_mul, Nat.add_sub_cancel' within.1] at bit
  exact testBit_unionBits hg bit

namespace CaseRange

variable {r : CaseRange} {ranges : List CaseRange} {c d : Char}

/-- How many characters a range holds. -/
def count (r : CaseRange) : Nat := (r.last - r.first) / r.step + 1

/-- The characters that the ranges hold. -/
def places (ranges : List CaseRange) : Nat := unionBits (fun r => bitsFrom r.first r.step r.count) ranges

/-- The images of these characters. -/
def images (ranges : List CaseRange) : Nat := unionBits (fun r => bitsFrom r.image r.step r.count) ranges

/-- All images of a range are characters. -/
def IsValid (r : CaseRange) : Prop :=
  r.image + (r.last - r.first) < 0xD800 ∨ 0xDFFF < r.image ∧ r.image + (r.last - r.first) < 0x110000

/-- A character that a range holds is so many steps from the first one. -/
theorem exists_steps_of_holds (h : r.holds c = true) :
    r.first ≤ c.toNat ∧ c.toNat ≤ r.last ∧ ∃ i < r.count, c.toNat - r.first = r.step * i := by
  simp only [holds, Bool.and_eq_true, decide_eq_true_eq, beq_iff_eq] at h
  obtain ⟨⟨low, high⟩, stepped⟩ := h
  have whole := Nat.div_add_mod (c.toNat - r.first) r.step
  have within : c.toNat - r.first ≤ r.last - r.first := Nat.sub_le_sub_right high _
  exact ⟨low, high, (c.toNat - r.first) / r.step, Nat.lt_succ_of_le (Nat.div_le_div_right within), by omega⟩

theorem testBit_places (hr : r ∈ ranges) (h : r.holds c = true) : (places ranges).testBit c.toNat = true := by
  obtain ⟨low, -, i, hi, steps⟩ := exists_steps_of_holds h
  have bit : (bitsFrom r.first r.step r.count).testBit (r.first + r.step * i) = true := testBit_bitsFrom hi
  rw [← steps, Nat.add_sub_cancel' low] at bit
  exact testBit_unionBits hr bit

theorem testBit_images_of_lookup (valid : ∀ r ∈ ranges, r.IsValid) (h : lookup ranges c = some d) :
    (images ranges).testBit d.toNat = true := by
  obtain ⟨r, found, rfl⟩ := Option.map_eq_some_iff.mp h
  have hr := List.mem_of_find?_eq_some found
  have held := List.find?_some found
  obtain ⟨low, high, i, hi, steps⟩ := exists_steps_of_holds (r := r) (c := c) held
  have isChar : (r.image + (c.toNat - r.first)).isValidChar := by
    rcases valid r hr with below | ⟨above, bound⟩
    · exact .inl (by omega)
    · exact .inr ⟨by omega, by omega⟩
  have place : (Char.ofNat (r.image + (c.toNat - r.first))).toNat = r.image + r.step * i := by
    rw [Char.ofNat, dif_pos isChar, ← steps]
    rfl
  rw [place]
  exact testBit_unionBits hr (testBit_bitsFrom hi)

theorem lookup_eq_none (unheld : ∀ r ∈ ranges, r.holds c = false) : lookup ranges c = none := by
  rw [lookup, Option.map_eq_none_iff, List.find?_eq_none]
  intro r hr
  rw [unheld r hr]
  decide

end CaseRange

/-- Ranges without a small form of another character: all blanks, the underscore and the dotted capital are there. -/
def imageless : List (Nat × Nat) :=
  [(0x0000, 0x0060), (0x0085, 0x00A0), (0x0130, 0x0130), (0x1680, 0x1680), (0x2000, 0x205F), (0x3000, 0x3000)]

/-- The small forms that are not in the table, and the sigma. -/
theorem smallForm_exceptions : smallForm 'i' = ['i'] ∧ smallForm (Char.ofNat 0x307) = [Char.ofNat 0x307] ∧
    smallForm 'ς' = ['ς'] ∧ smallForm 'Σ' = ['σ'] := by
  decide +kernel

theorem apart_lowercaseRanges : CaseRange.places lowercaseRanges &&& CaseRange.images lowercaseRanges = 0 ∧
    rangeBits imageless &&& CaseRange.images lowercaseRanges = 0 := by
  decide +kernel

theorem valid_lowercaseRanges : ∀ r ∈ lowercaseRanges, r.IsValid := by
  unfold CaseRange.IsValid
  decide +kernel

section Forms

variable {c d : Char}

/-- The second character is a small form of the first one, which for a capital sigma is one of two. -/
def IsSmallForm (c d : Char) : Prop := d ∈ smallForm c ∨ c = 'Σ' ∧ d = 'ς'

/-- The character is an image in the table of small letters. -/
def IsImage (d : Char) : Prop := (CaseRange.images lowercaseRanges).testBit d.toNat = true

theorem IsImage.unheld (image : IsImage d) : ∀ r ∈ lowercaseRanges, r.holds d = false := by
  intro r hr
  apply Bool.eq_false_iff.mpr
  intro held
  exact not_testBit_of_apart apart_lowercaseRanges.1 image (CaseRange.testBit_places hr held)

theorem IsImage.outside (image : IsImage d) : inRanges imageless d = false := by
  apply Bool.eq_false_iff.mpr
  intro inside
  exact not_testBit_of_apart apart_lowercaseRanges.2 image (testBit_rangeBits inside)

theorem smallForm_of_ascii (ascii : c.toNat < 128) : smallForm c = [smallOf c] := by
  rw [smallForm, if_pos ascii, smallOf]
  simp only [isCapital, Bool.and_eq_true, decide_eq_true_eq]

theorem smallForm_of_unheld (unheld : ∀ r ∈ lowercaseRanges, r.holds c = false) (undotted : c.toNat ≠ 0x130) :
    smallForm c = [c] := by
  by_cases ascii : c.toNat < 128
  · -- The capitals of ASCII are looked up in no table, but a range of the table has just them.
    have first := unheld ⟨0x41, 0x5A, 1, 0x61⟩ (by decide)
    have capital : isCapital c = false := by
      apply Bool.eq_false_iff.mpr
      intro capital
      obtain ⟨i, hi, rfl⟩ := exists_of_isCapital capital
      have all : ∀ i < 26, CaseRange.holds ⟨0x41, 0x5A, 1, 0x61⟩ (Char.ofNat (65 + i)) = true := by decide
      rw [all i hi] at first
      cases first
    rw [smallForm_of_ascii ascii, smallOf_of_not_isCapital capital]
  · have other : c ≠ Char.ofNat 0x130 := by
      rintro rfl
      exact undotted (by decide)
    rw [smallForm, if_neg ascii, if_neg other, CaseRange.lookup_eq_none unheld]
    rfl

/-- A small form is one of ASCII, one of the two parts of the dotted capital, an image of the table, or the character. -/
theorem smallForm_cases (h : d ∈ smallForm c) :
    c.toNat < 128 ∧ d = smallOf c ∨ (d = 'i' ∨ d = Char.ofNat 0x307) ∨ IsImage d ∨ smallForm c = [c] ∧ d = c := by
  by_cases ascii : c.toNat < 128
  · rw [smallForm_of_ascii ascii] at h
    exact .inl ⟨ascii, List.mem_singleton.mp h⟩
  · unfold smallForm at h ⊢
    rw [if_neg ascii] at h ⊢
    by_cases dotted : c = Char.ofNat 0x130
    · rw [if_pos dotted] at h
      exact .inr (.inl (by simpa using h))
    · rw [if_neg dotted] at h ⊢
      cases found : CaseRange.lookup lowercaseRanges c with
      | none =>
        rw [found] at h
        exact .inr (.inr (.inr ⟨rfl, List.mem_singleton.mp h⟩))
      | some image =>
        rw [found] at h
        have same : d = image := List.mem_singleton.mp h
        exact .inr (.inr (.inl (same ▸ CaseRange.testBit_images_of_lookup valid_lowercaseRanges found)))

/-- A small form has no other small form. -/
theorem IsSmallForm.settled (h : IsSmallForm c d) : smallForm d = [d] := by
  rcases h with h | ⟨-, rfl⟩
  · rcases smallForm_cases h with ⟨ascii, rfl⟩ | dotted | image | ⟨same, rfl⟩
    · rw [smallForm_of_ascii (ascii_smallOf ascii), smallOf_smallOf]
    · rcases dotted with rfl | rfl
      · exact smallForm_exceptions.1
      · exact smallForm_exceptions.2.1
    · refine smallForm_of_unheld image.unheld fun dotted => ?_
      have outside := image.outside
      simp [inRanges, imageless, dotted] at outside
    · exact same
  · exact smallForm_exceptions.2.2.1

theorem not_isCapital_of_settled (h : smallForm c = [c]) : isCapital c = false := by
  apply Bool.eq_false_iff.mpr
  intro capital
  rw [smallForm_of_ascii (ascii_of_isCapital capital)] at h
  have same : smallOf c = c := List.singleton_inj.mp h
  have low := isCapital_smallOf c
  rw [same, capital] at low
  cases low

end Forms

section Texts

variable {c d : Char} {cs before after : List Char}

theorem isSmallForm_of_mem_smallFormAt (h : d ∈ smallFormAt before c after) : IsSmallForm c d := by
  unfold smallFormAt at h
  split at h
  next sigma =>
    subst sigma
    split at h
    next => exact .inr ⟨rfl, List.mem_singleton.mp h⟩
    next => exact .inl (by rwa [smallForm_exceptions.2.2.2])
  next => exact .inl h

/-- Whatever stands in a text in small letters is a small form. -/
theorem exists_isSmallForm_of_mem_lower (h : d ∈ lower cs) : ∃ c ∈ cs, IsSmallForm c d := by
  have after : ∀ before, d ∈ lowerAfter before cs → ∃ c ∈ cs, IsSmallForm c d := by
    clear h
    induction cs with
    | nil => intro before h; cases h
    | cons c rest ih =>
      intro before h
      rcases List.mem_append.mp h with here | later
      · exact ⟨c, by simp, isSmallForm_of_mem_smallFormAt here⟩
      · obtain ⟨e, he, form⟩ := ih _ later
        exact ⟨e, List.mem_cons_of_mem _ he, form⟩
  exact after [] h

theorem smallFormAt_of_settled (h : smallForm c = [c]) (before after : List Char) : smallFormAt before c after = [c] := by
  have other : c ≠ 'Σ' := by
    rintro rfl
    rw [smallForm_exceptions.2.2.2] at h
    exact absurd h (by decide)
  rw [smallFormAt, if_neg other, h]

/-- A text whose characters change one by one, whatever stands around them. -/
theorem lower_eq_map {f : Char → Char} (h : ∀ c ∈ cs, ∀ before after, smallFormAt before c after = [f c]) :
    lower cs = cs.map f := by
  have after : ∀ before, lowerAfter before cs = cs.map f := by
    induction cs with
    | nil => exact fun _ => rfl
    | cons c rest ih =>
      intro before
      obtain ⟨first, later⟩ := List.forall_mem_cons.mp h
      rw [lowerAfter, first, ih later]
      rfl
  exact after []

theorem lower_of_settled (h : ∀ c ∈ cs, smallForm c = [c]) : lower cs = cs := by
  have same := lower_eq_map (f := id) fun c hc => smallFormAt_of_settled (h c hc)
  rwa [List.map_id] at same

theorem lower_lower (cs : List Char) : lower (lower cs) = lower cs := by
  apply lower_of_settled
  intro d hd
  obtain ⟨c, -, form⟩ := exists_isSmallForm_of_mem_lower hd
  exact form.settled

theorem smallFormAt_of_ascii (ascii : c.toNat < 128) (before after : List Char) :
    smallFormAt before c after = [smallOf c] := by
  have other : c ≠ 'Σ' := by
    rintro rfl
    exact absurd ascii (by decide)
  rw [smallFormAt, if_neg other, smallForm_of_ascii ascii]

/-- In a text of ASCII only the capitals change. -/
theorem lower_of_ascii (ascii : ∀ c ∈ cs, c.toNat < 128) : lower cs = cs.map smallOf :=
  lower_eq_map fun c hc => smallFormAt_of_ascii (ascii c hc)

theorem head?_lower (ascii : c.toNat < 128) (rest : List Char) : (lower (c :: rest)).head? = some (smallOf c) := by
  rw [lower, lowerAfter, smallFormAt_of_ascii ascii]
  rfl

theorem getLast?_lower (ascii : c.toNat < 128) (cs : List Char) : (lower (cs ++ [c])).getLast? = some (smallOf c) := by
  have after : ∀ before, (lowerAfter before (cs ++ [c])).getLast? = some (smallOf c) := by
    induction cs with
    | nil =>
      intro before
      rw [List.nil_append, lowerAfter, smallFormAt_of_ascii ascii]
      rfl
    | cons x rest ih =>
      intro before
      rw [List.cons_append, lowerAfter, List.getLast?_append, ih, Option.some_or]
  exact after []

end Texts

/-- A hyphen is not passed over, and not cased. -/
theorem hyphen_stops : inRanges caseIgnorableRanges '-' = false ∧ inRanges casedRanges '-' = false := by decide +kernel

/-- What stands behind a hyphen does not count for a sigma before it, nor does the hyphen itself. -/
theorem facesCased_append_hyphen (xs ys : List Char) : facesCased (xs ++ '-' :: ys) = facesCased xs := by
  induction xs with
  | nil => simp [facesCased, hyphen_stops]
  | cons x xs ih =>
    cases passed : inRanges caseIgnorableRanges x with
    | true => simpa [facesCased, passed] using ih
    | false => simp [facesCased, passed]

theorem smallFormAt_before_hyphen (before ys : List Char) (c : Char) (after : List Char) :
    smallFormAt (before ++ '-' :: ys) c after = smallFormAt before c after := by
  rw [smallFormAt, facesCased_append_hyphen, smallFormAt]

theorem smallFormAt_after_hyphen (before : List Char) (c : Char) (xs ys : List Char) :
    smallFormAt before c (xs ++ '-' :: ys) = smallFormAt before c xs := by
  rw [smallFormAt, facesCased_append_hyphen, smallFormAt]

theorem lowerAfter_hyphen (before more cs : List Char) :
    lowerAfter (before ++ '-' :: more) cs = lowerAfter before cs := by
  induction cs generalizing before with
  | nil => rfl
  | cons c rest ih =>
    have later := ih (c :: before)
    rw [List.cons_append] at later
    rw [lowerAfter, smallFormAt_before_hyphen, later, lowerAfter]

theorem lower_append_hyphen (xs ys : List Char) : lower (xs ++ '-' :: ys) = lower xs ++ '-' :: lower ys := by
  -- What stood before the hyphen is forgotten behind it, so the second part starts afresh whatever came first.
  have after : ∀ before, lowerAfter before (xs ++ '-' :: ys) = lowerAfter before xs ++ '-' :: lower ys := by
    induction xs with
    | nil =>
      intro before
      have fresh := lowerAfter_hyphen [] before ys
      rw [List.nil_append] at fresh
      have here : smallFormAt before '-' ys = ['-'] := smallFormAt_of_ascii (by decide) before ys
      change smallFormAt before '-' ys ++ lowerAfter ('-' :: before) ys = '-' :: lower ys
      rw [here, fresh]
      rfl
    | cons x xs ih =>
      intro before
      rw [List.cons_append, lowerAfter, smallFormAt_after_hyphen, ih, lowerAfter, List.append_assoc]
  exact after []

end StyleTokens
