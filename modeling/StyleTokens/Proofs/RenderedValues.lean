import StyleTokens.Json.Reader
import StyleTokens.Proofs.TokenExports
import StyleTokens.Token.Record

namespace StyleTokens

/-- The double is a number. -/
def Binary64.IsFinite (x : Binary64) : Prop := ∃ negative word, x = .finite negative word

/-- A literal carries a text: it quotes that text, or it quotes nothing and has the same characters. -/
def Script.Carries (literal text : List Char) : Prop :=
  (∀ s, Quotes literal s → s.toList = text) ∧ ((¬ ∃ s, Quotes literal s) → literal = text)

open Script

theorem Binary64.toInt?_eq_none_of_not_finite {x : Binary64} (h : ¬ x.IsFinite) : x.toInt? = none := by
  cases x with
  | nan => rfl
  | infinity negative => rfl
  | finite negative word => exact absurd ⟨negative, word, rfl⟩ h

/-- Only numbers have the same text under both sets of names. -/
theorem Binary64.text_names_iff {x : Binary64} : x.text Json.specialNames = x.text Scalar.plainNames ↔ x.IsFinite := by
  cases x with
  | nan => exact iff_of_false (by decide) (by rintro ⟨_, _, same⟩; cases same)
  | infinity negative => exact iff_of_false (by cases negative <;> decide) (by rintro ⟨_, _, same⟩; cases same)
  | finite negative word => exact iff_of_true rfl ⟨negative, word, rfl⟩

/-- A literal carries the one text that it quotes, or its own characters. -/
theorem Scripts.LiteralForm.carries_iff {type : ScriptType} {quoted : Option String} {literal text : List Char}
    (h : LiteralForm type quoted literal) :
    Carries literal text ↔ (quoted.map String.toList).getD literal = text := by
  simp only [Carries, h.quotes_iff]
  cases quoted with
  | none => simp
  | some s => simp

namespace TokenValue

/-- The value is a number if it is a double. -/
def IsOrdinary (v : TokenValue) : Prop := ∀ x, v = .double x → x.IsFinite

theorem isOrdinary_double_iff {x : Binary64} : IsOrdinary (.double x) ↔ x.IsFinite := by
  constructor
  · intro ordinary
    exact ordinary x rfl
  · intro finite y same
    cases same
    exact finite

/-- The literal and the text of a style sheet differ only in the names of special doubles. -/
theorem literal_double_iff {x : Binary64} : literal (.double x) = plain (.double x) ↔ x.IsFinite := by
  rw [literal, plain]
  split
  next n whole =>
    refine iff_of_true rfl (not_not.mp fun special => ?_)
    rw [Binary64.toInt?_eq_none_of_not_finite special] at whole
    cases whole
  next => exact Binary64.text_names_iff

theorem carries_plain_iff (v : TokenValue) : Carries v.literal v.plain ↔ v.IsOrdinary := by
  rw [(Scripts.literalForm_value v).carries_iff]
  cases v with
  | bool b => exact iff_of_true rfl nofun
  | int n => exact iff_of_true rfl nofun
  | double x => exact literal_double_iff.trans isOrdinary_double_iff.symm
  | text s => exact iff_of_true rfl nofun

end TokenValue

namespace Token

theorem type_of_isNumericDimension {t : Token} (h : t.isNumericDimension = true) :
    t.type = TokenType.dimension.name := by
  rw [isNumericDimension, Bool.and_eq_true, beq_iff_eq] at h
  exact h.1

theorem isNumericDimension_of_type {t : Token} (h : t.type = TokenType.dimension.name) {x : Binary64}
    (double : t.value = .double x) : t.isNumericDimension = true := by
  simp [isNumericDimension, h, double]

/-- A script carries the text of the style sheet exactly if the value has a unit or is no infinity and no nan. -/
theorem carries_cssValue_iff (t : Token) :
    Carries t.scriptLiteral t.cssValue ↔ t.type = TokenType.dimension.name ∨ t.value.IsOrdinary := by
  cases unit : t.isNumericDimension with
  | true =>
    refine iff_of_true ?_ (.inl (type_of_isNumericDimension unit))
    rw [(Scripts.literalForm_token t).carries_iff, quoted?, cssValue, if_pos unit, if_pos unit]
    exact String.toList_ofList
  | false =>
    have bare : ¬ t.isNumericDimension = true := by simp [unit]
    rw [scriptLiteral, cssValue, if_neg bare, if_neg bare, t.value.carries_plain_iff]
    refine ⟨.inr, ?_⟩
    rintro (dimension | ordinary)
    · intro x double
      exact absurd (isNumericDimension_of_type dimension double) bare
    · exact ordinary

/-- An infinity is read as a value, and a weight of that value goes by two names. -/
theorem uncarried_infinity : Json.parse "Infinity" = .ok (.scalar (.double (.infinity false))) ∧
    ∃ t : Token, ofRecord (.text "weight") (.object [(RecordKey.type, .text TokenType.fontWeight.name),
        (RecordKey.value, .scalar (.double (.infinity false)))]) = .ok t ∧
      t.cssValue = "inf".toList ∧ t.scriptLiteral = "Infinity".toList ∧ ¬ Carries t.scriptLiteral t.cssValue := by
  have read : Json.parse "Infinity" = .ok (.scalar (.double (.infinity false))) := by rfl
  refine ⟨read, ⟨"weight", "fontWeight", .double (.infinity false), none, by decide⟩, rfl, rfl, rfl, ?_⟩
  rintro ⟨-, same⟩
  have unquoted : ¬ ∃ s, Quotes "Infinity".toList s := by
    rintro ⟨s, body, starts, -⟩
    cases starts
  exact absurd (same unquoted) (by decide)

end Token

end StyleTokens
