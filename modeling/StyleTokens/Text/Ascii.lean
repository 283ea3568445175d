namespace StyleTokens

/-- An ASCII capital. -/
def isCapital (c : Char) : Bool := 'A' ≤ c && c ≤ 'Z'

/-- An ASCII small letter. -/
def isSmall (c : Char) : Bool := 'a' ≤ c && c ≤ 'z'

/-- An ASCII digit. -/
def isDigit (c : Char) : Bool := '0' ≤ c && c ≤ '9'

theorem isDigit_eq (c : Char) : isDigit c = c.isDigit := by
  rw [Bool.eq_iff_iff]
  simp [isDigit, Char.isDigit, Char.le_def]

/-- An ASCII capital for a small letter. -/
def capitalOf (c : Char) : Char := if isSmall c then Char.ofNat (c.toNat - 32) else c

/-- An ASCII small letter for a capital. -/
def smallOf (c : Char) : Char := if isCapital c then Char.ofNat (c.toNat + 32) else c

end StyleTokens
