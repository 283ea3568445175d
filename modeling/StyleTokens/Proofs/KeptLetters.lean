import StyleTokens.Proofs.ExportedNames

namespace StyleTokens

namespace Naming

open Script

/-- A text without an underscore in front. -/
def withoutMark : List Char → List Char
  | '_' :: cs => cs
  | cs => cs

/-- The letters and digits of ASCII in a text, in small letters. -/
def letters (name : String) : List Char := lower (name.toList.filter isAlphanumeric)

theorem lower_of_alphanumeric {cs : List Char} (h : ∀ c ∈ cs, isAlphanumeric c = true) :
    lower cs = cs.map smallOf :=
  lower_of_ascii fun c hc => IdentifierClasses.ascii_of_alphanumeric (h c hc)

theorem letters_eq (name : String) : letters name = (name.toList.filter isAlphanumeric).map smallOf :=
  lower_of_alphanumeric fun _ hc => (List.mem_filter.mp hc).2

theorem lower_camel {name : String} (h : name.toList.any isAlphanumeric = true) :
    lower (withoutMark (camel name).toList) = letters name := by
  obtain ⟨c, rest, alphanumeric, same, spelled⟩ := exists_camel h
  have unmarked : withoutMark (camel name).toList = c :: rest := by
    rw [spelled, String.toList_ofList]
    split
    next => rfl
    next =>
      have letter : c ≠ '_' := by
        rintro rfl
        exact absurd (alphanumeric '_' (by simp)) (by decide)
      rw [withoutMark]
      rintro cs (starts : c :: rest = '_' :: cs)
      exact letter (List.cons.inj starts).1
  rw [unmarked, lower_of_alphanumeric alphanumeric, same, letters_eq]

theorem alphanumeric_camel {name : String} (h : name.toList.any isAlphanumeric = true) :
    (camel name).toList.any isAlphanumeric = true := by
  obtain ⟨c, rest, alphanumeric, -, spelled⟩ := exists_camel h
  have first : isAlphanumeric c = true := alphanumeric c (by simp)
  rw [spelled, String.toList_ofList]
  split <;> simp [first]

/-- A name keeps its letters and digits in its identifier, so the names of one identifier differ only in case and in other
characters. -/
theorem camel_keeps_letters {name : String} (h : name.toList.any isAlphanumeric = true) :
    lower (withoutMark (camel name).toList) = letters name ∧
      ∀ other, camel other = camel name → other.toList.any isAlphanumeric = true ∧ letters other = letters name := by
  refine ⟨lower_camel h, fun other same => ?_⟩
  have some_letter : other.toList.any isAlphanumeric = true := by
    cases none : other.toList.any isAlphanumeric with
    | true => rfl
    | false =>
      rw [camel_of_wordless none] at same
      rw [same, alphanumeric_camel h] at none
      cases none
  refine ⟨some_letter, ?_⟩
  calc letters other = lower (withoutMark (camel other).toList) := (lower_camel some_letter).symm
    _ = lower (withoutMark (camel name).toList) := by rw [same]
    _ = letters name := lower_camel h

theorem camel_keeps_letters_acronym : "HTMLColor_2x".toList.any isAlphanumeric = true ∧
    lower (withoutMark (camel "HTMLColor_2x").toList) = letters "HTMLColor_2x" ∧
      letters "HTML_color_2x" = letters "HTMLColor_2x" := by
  have letter : "HTMLColor_2x".toList.any isAlphanumeric = true := by decide +kernel
  obtain ⟨kept, others⟩ := camel_keeps_letters letter
  exact ⟨letter, kept, (others "HTML_color_2x" (by decide +kernel)).2⟩

end Naming

end StyleTokens
