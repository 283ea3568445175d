import StyleTokens.Proofs.SmallLetters
import StyleTokens.Token.Rendering

namespace StyleTokens

namespace Naming

section Humps

variable {xs ys cs : List Char}

/-- The first text ends in a small letter and the second one starts with a capital. -/
def Hump (xs ys : List Char) : Prop := xs.getLast?.any isSmall = true ∧ ys.head?.any isCapital = true

/-- A hump between two texts is found whatever else stands in them. -/
theorem splitHumps_append (h : Hump xs ys) : splitHumps (xs ++ ys) = splitHumps xs ++ '-' :: splitHumps ys := by
  induction xs with
  | nil => exact absurd h.1 (by simp)
  | cons x rest ih =>
    cases rest with
    | nil =>
      obtain ⟨small, capital⟩ := h
      obtain ⟨d, starts, capital⟩ := (Option.any_eq_true _ _).mp capital
      obtain ⟨more, rfl⟩ := List.head?_eq_some_iff.mp starts
      have here : (isSmall x && isCapital d) = true := Bool.and_eq_true_iff.mpr ⟨small, capital⟩
      rw [List.singleton_append, splitHumps, if_pos here]
      rfl
    | cons e more =>
      have later := ih ⟨by simpa using h.1, h.2⟩
      rw [List.cons_append] at later
      rw [List.cons_append, List.cons_append, splitHumps, splitHumps, later]
      split <;> rfl

theorem splitHumps_of_no_capital (h : ∀ c ∈ cs, isCapital c = false) : splitHumps cs = cs := by
  fun_induction splitHumps cs with
  | case1 c d rest here ih =>
    have capital : isCapital d = true := (Bool.and_eq_true_iff.mp here).2
    rw [h d (by simp)] at capital
    cases capital
  | case2 c d rest other ih => rw [ih (List.forall_mem_cons.mp h).2]
  | case3 => rfl

end Humps

theorem not_isSeparator_of_isSmall {c : Char} (h : isSmall c = true) : isSeparator c = false := by
  have all : ∀ i < 26, isSeparator (Char.ofNat (97 + i)) = false := by decide
  obtain ⟨i, hi, rfl⟩ := exists_of_isSmall h
  exact all i hi

theorem not_isSeparator_of_isCapital {c : Char} (h : isCapital c = true) : isSeparator c = false := by
  have all : ∀ i < 26, isSeparator (Char.ofNat (65 + i)) = false := by decide
  obtain ⟨i, hi, rfl⟩ := exists_of_isCapital h
  exact all i hi

theorem not_isSeparator_of_isImage {d : Char} (image : IsImage d) : isSeparator d = false := by
  have outside := image.outside
  simp only [inRanges, imageless, List.any_cons, List.any_nil, Bool.or_eq_false_iff, Bool.and_eq_false_iff,
    decide_eq_false_iff_not] at outside
  apply Bool.eq_false_iff.mpr
  intro separates
  rcases Bool.or_eq_true_iff.mp separates with blank | underscore
  · simp only [isBlank, Bool.or_eq_true, Bool.and_eq_true, decide_eq_true_eq, beq_iff_eq] at blank
    omega
  · have place : d.toNat = 0x5F := by rw [eq_of_beq underscore]; rfl
    omega

section Separators

variable {c : Char} {cs : List Char}

theorem isSeparator_of_mem_joinSeparators {inRun : Bool} (h : c ∈ joinSeparators inRun cs) : isSeparator c = false := by
  have hyphen : isSeparator '-' = false := by decide
  fun_induction joinSeparators inRun cs with
  | case1 => cases h
  | case2 d rest separates ih => exact ih h
  | case3 inRun d rest separates begins ih =>
    rcases List.mem_cons.mp h with rfl | later
    · exact hyphen
    · exact ih later
  | case4 inRun d rest other ih =>
    rcases List.mem_cons.mp h with rfl | later
    · exact Bool.eq_false_iff.mpr other
    · exact ih later

theorem joinSeparators_of_no_separator (h : ∀ c ∈ cs, isSeparator c = false) (inRun : Bool) :
    joinSeparators inRun cs = cs := by
  induction cs generalizing inRun with
  | nil => rfl
  | cons c rest ih =>
    obtain ⟨first, later⟩ := List.forall_mem_cons.mp h
    rw [joinSeparators, if_neg (Bool.eq_false_iff.mp first), ih later]

/-- A character that is no separator ends the run before it. -/
theorem joinSeparators_append (h : isSeparator c = false) (inRun : Bool) (xs ys : List Char) :
    joinSeparators inRun (xs ++ c :: ys) = joinSeparators inRun xs ++ c :: joinSeparators false ys := by
  induction xs generalizing inRun with
  | nil =>
    change joinSeparators inRun (c :: ys) = c :: joinSeparators false ys
    rw [joinSeparators, if_neg (Bool.eq_false_iff.mp h)]
  | cons x xs ih =>
    rw [List.cons_append, joinSeparators, joinSeparators, ih, ih]
    split
    next => split <;> rfl
    next => rfl

end Separators

/-- A blank or an underscore in small letters was one before. -/
theorem isSeparator_of_isSmallForm {c d : Char} (form : IsSmallForm c d) (h : isSeparator d = true) :
    isSeparator c = true := by
  rcases form with form | ⟨-, rfl⟩
  · rcases smallForm_cases form with ⟨-, rfl⟩ | dotted | image | ⟨-, rfl⟩
    · cases capital : isCapital c with
      | true =>
        have letter := not_isSeparator_of_isSmall (smallOf_spec capital).2.1
        exact absurd h (Bool.eq_false_iff.mp letter)
      | false => rwa [smallOf_of_not_isCapital capital] at h
    · rcases dotted with rfl | rfl
      · exact absurd h (by decide)
      · exact absurd h (by decide)
    · exact absurd h (Bool.eq_false_iff.mp (not_isSeparator_of_isImage image))
    · exact h
  · exact absurd h (by decide)

theorem toList_kebab (name : String) : (kebab name).toList = lower (joinSeparators false (splitHumps name.toList)) :=
  String.toList_ofList

/-- Each character of a hyphenated form is a small form, and no separator. -/
theorem of_mem_kebab {name : String} {d : Char} (h : d ∈ (kebab name).toList) :
    smallForm d = [d] ∧ isSeparator d = false := by
  rw [toList_kebab] at h
  obtain ⟨c, hc, form⟩ := exists_isSmallForm_of_mem_lower h
  have joined : isSeparator c = false := isSeparator_of_mem_joinSeparators hc
  refine ⟨form.settled, Bool.eq_false_iff.mpr fun separates => ?_⟩
  rw [isSeparator_of_isSmallForm form separates] at joined
  cases joined

theorem plain_of_mem_kebab {name : String} {d : Char} (h : d ∈ (kebab name).toList) :
    isBlank d = false ∧ d ≠ '_' ∧ isCapital d = false := by
  obtain ⟨settled, joined⟩ := of_mem_kebab h
  obtain ⟨blank, underscore⟩ := Bool.or_eq_false_iff.mp joined
  exact ⟨blank, beq_eq_false_iff_ne.mp underscore, not_isCapital_of_settled settled⟩

theorem kebab_kebab (name : String) : kebab (kebab name) = kebab name := by
  have whole : splitHumps (kebab name).toList = (kebab name).toList :=
    splitHumps_of_no_capital fun d hd => (plain_of_mem_kebab hd).2.2
  have joined : joinSeparators false (kebab name).toList = (kebab name).toList :=
    joinSeparators_of_no_separator (fun d hd => (of_mem_kebab hd).2) false
  have small : lower (kebab name).toList = (kebab name).toList := by rw [toList_kebab, lower_lower]
  apply String.toList_inj.mp
  rw [toList_kebab, whole, joined, small]

/-- Where a name goes from a small letter to a capital, a hyphen stands between the forms of both sides. -/
theorem kebab_append {a b : String} (h : Hump a.toList b.toList) : kebab (a ++ b) = kebab a ++ "-" ++ kebab b := by
  have hyphen : isSeparator '-' = false := by decide
  apply String.toList_inj.mp
  calc (kebab (a ++ b)).toList
      = lower (joinSeparators false (splitHumps (a.toList ++ b.toList))) := by rw [toList_kebab, String.toList_append]
    _ = lower (joinSeparators false (splitHumps a.toList) ++ '-' :: joinSeparators false (splitHumps b.toList)) := by
      rw [splitHumps_append h, joinSeparators_append hyphen]
    _ = (kebab a).toList ++ '-' :: (kebab b).toList := by rw [lower_append_hyphen, toList_kebab, toList_kebab]
    _ = (kebab a ++ "-" ++ kebab b).toList := by simp

theorem getLast?_kebab {a : String} (h : a.toList.getLast?.any isSmall = true) :
    (kebab a).toList.getLast? = a.toList.getLast? := by
  obtain ⟨c, ends, small⟩ := (Option.any_eq_true _ _).mp h
  obtain ⟨before, whole⟩ := List.getLast?_eq_some_iff.mp ((getLast?_splitHumps a.toList).trans ends)
  have last := getLast?_lower (ascii_of_isSmall small) (joinSeparators false before)
  rw [smallOf_of_not_isCapital (capitalOf_spec small).1] at last
  rw [toList_kebab, whole, joinSeparators_append (not_isSeparator_of_isSmall small), ends]
  exact last

theorem head?_kebab {b : String} (h : b.toList.head?.any isCapital = true) :
    (kebab b).toList.head? = b.toList.head?.map smallOf := by
  obtain ⟨d, starts, capital⟩ := (Option.any_eq_true _ _).mp h
  obtain ⟨after, whole⟩ := List.head?_eq_some_iff.mp ((head?_splitHumps b.toList).trans starts)
  have joined : joinSeparators false (d :: after) = d :: joinSeparators false after :=
    joinSeparators_append (not_isSeparator_of_isCapital capital) false [] after
  rw [toList_kebab, whole, joined, starts]
  exact head?_lower (ascii_of_isCapital capital) _

theorem space_not_mem_variableName (name : String) : ' ' ∉ (Token.variableName name).toList := by
  intro h
  rw [Token.variableName, String.toList_append, List.mem_append] at h
  rcases h with hyphens | form
  · exact absurd hyphens (by decide)
  · exact absurd (plain_of_mem_kebab form).1 (by decide)

/-- What stands before the first space of a declaration, and what from there on. -/
theorem firstSpace_cssDeclaration (t : Token) :
    t.cssDeclaration.toList.takeWhile (· ≠ ' ') = (Token.variableName t.name).toList ++ [':'] ∧
      t.cssDeclaration.toList.dropWhile (· ≠ ' ') = ' ' :: t.cssValue ++ [';'] := by
  have whole : t.cssDeclaration.toList =
      ((Token.variableName t.name).toList ++ [':']) ++ (' ' :: t.cssValue ++ [';']) := by
    simp [Token.cssDeclaration, toString]
  have spaceless : ∀ c ∈ (Token.variableName t.name).toList ++ [':'], decide (c ≠ ' ') = true := by
    intro c hc
    apply decide_eq_true
    rintro rfl
    rcases List.mem_append.mp hc with named | colon
    · exact space_not_mem_variableName t.name named
    · exact absurd colon (by decide)
  rw [whole, List.takeWhile_append_of_pos spaceless, List.dropWhile_append_of_pos spaceless]
  simp

/-- A hyphenated form has no blank, no underscore and no capital of ASCII, it has a hyphen where its name goes from a small
letter to a capital, and it is its own hyphenated form. The first space of a declaration stands behind the colon after the
name of the variable. -/
theorem kebab_settles (name : String) (t : Token) :
    (∀ c ∈ (kebab name).toList, isBlank c = false ∧ c ≠ '_' ∧ isCapital c = false) ∧
      (∀ a b, name = a ++ b → Hump a.toList b.toList → kebab name = kebab a ++ "-" ++ kebab b ∧
        (kebab a).toList.getLast? = a.toList.getLast? ∧ (kebab b).toList.head? = b.toList.head?.map smallOf) ∧
      kebab (kebab name) = kebab name ∧
      t.cssDeclaration.toList.takeWhile (· ≠ ' ') = (Token.variableName t.name).toList ++ [':'] ∧
      t.cssDeclaration.toList.dropWhile (· ≠ ' ') = ' ' :: t.cssValue ++ [';'] := by
  refine ⟨fun c hc => plain_of_mem_kebab hc, ?_, kebab_kebab name, firstSpace_cssDeclaration t⟩
  rintro a b rfl hump
  exact ⟨kebab_append hump, getLast?_kebab hump.1, head?_kebab hump.2⟩

/-- A token whose name has a hump, a separator and a capital sigma at its end. -/
def primaryInk : Token := ⟨"textPrimary ΙΣ", "border", .text "1px solid", none, by decide⟩

theorem kebab_settles_primaryInk : Hump "text".toList "Primary ΙΣ".toList ∧
    kebab primaryInk.name = "text" ++ "-" ++ "primary-ις" ∧ kebab "text-primary-ις" = "text-primary-ις" ∧
      primaryInk.cssDeclaration.toList.takeWhile (· ≠ ' ') = "--text-primary-ις:".toList := by
  have hump : Hump "text".toList "Primary ΙΣ".toList := ⟨by decide, by decide⟩
  have forms : kebab "text" = "text" ∧ kebab "Primary ΙΣ" = "primary-ις" := by decide +kernel
  obtain ⟨-, parted, again, first, -⟩ := kebab_settles primaryInk.name primaryInk
  have whole := (parted "text" "Primary ΙΣ" (by decide) hump).1
  rw [forms.1, forms.2] at whole
  rw [whole] at again
  rw [Token.variableName, whole] at first
  exact ⟨hump, whole, again, first⟩

end Naming

end StyleTokens
