import StyleTokens.Proofs.NestedReferences

namespace StyleTokens

namespace Placeholder

theorem ne_empty_of_mem_names {s b : String} (h : b ∈ names s) : b ≠ "" := by
  have filled : ∀ cs : List Char, ∀ body ∈ holes (pieces cs), body ≠ [] := by
    intro cs
    fun_induction pieces cs with
    | case1 => simp [holes]
    | case2 cs body rest hb ih => exact List.forall_mem_cons.mpr ⟨(not_mem_of_body? hb).1, ih⟩
    | case3 cs hb ih => exact ih
    | case4 c cs hc ih => exact ih
  obtain ⟨body, hm, rfl⟩ := List.mem_map.mp h
  exact mt String.ofList_eq_empty_iff.mp (filled _ body hm)

/-- Nothing is left of a text after its last point exactly if it ends in one. -/
theorem lastPart_eq_empty_iff {b : String} (filled : b ≠ "") :
    lastPart b = "" ↔ b.toList.getLast? = some '.' := by
  have last : b.toList.getLast? ≠ none := by simpa using filled
  rw [lastPart, String.ofList_eq_empty_iff, lastSegment, List.reverse_eq_nil_iff, ← List.head?_reverse]
  rw [← List.head?_reverse] at last
  cases hr : b.toList.reverse with
  | nil => simp [hr] at last
  | cons c cs => simp

end Placeholder

/-- Two warnings about references in one wording and at one place are about names of one length. -/
theorem Finding.length_of_danglingReference {theme mode token ref theme' mode' token' ref' : String}
    (h : (Finding.danglingReference theme mode token ref).issue =
      (Finding.danglingReference theme' mode' token' ref').issue) : ref.length = ref'.length := by
  have words : "Token " ++ token ++ " in " ++ theme ++ "/" ++ mode ++ " references unknown token: \x7b" ++ ref ++
      "\x7d" = "Token " ++ token' ++ " in " ++ theme' ++ "/" ++ mode' ++ " references unknown token: \x7b" ++ ref' ++
      "\x7d" := congrArg Issue.message h
  have location := congrArg Issue.location h
  have place : theme ++ "/" ++ mode ++ "/" ++ token = theme' ++ "/" ++ mode' ++ "/" ++ token' :=
    Scalar.text.inj (Option.some.inj location)
  have long := congrArg String.length words
  have far := congrArg String.length place
  simp only [String.length_append] at long far
  omega

namespace Nested

/-- The last part of a reference of a leaf names a token of the theme, or the warnings have one about it for each
mode, at the token of the leaf. -/
def Accounted (theme : Theme) (warnings : List Issue) (l : Leaf) (b : String) : Prop :=
  (∃ m ∈ theme.modes.items, m.tokens.contains (Placeholder.lastPart b) = true) ∨
    ∀ m ∈ theme.modes.items,
      (Finding.danglingReference theme.name m.name l.key.message (Placeholder.lastPart b)).issue ∈ warnings

/-- The single theme that is made of a tree has in each mode the tokens of its last leaves. -/
theorem exists_theme_of_builds {d : Doc} {theme : Option String} {modes : List String} {records : ThemeRecords}
    {t : Table} (h : Pipeline.Builds d ⟨"tokens-studio", theme, modes⟩ records t) :
    ∃ th, t.themes.items = [th] ∧ th.Complete ∧ ∀ m ∈ th.modes.items, Makes d m.tokens := by
  obtain ⟨name, flat, _, _, flattened, rfl⟩ := assemble_ok_iff.mp h.assembled
  obtain ⟨-, rfl⟩ := flatten_ok flattened
  have made := h.made
  have complete := Table.complete_of_ofRecords (ThemeRecords.isValid_iff.mp h.valid).2 made
  rw [ofFlat_eq] at made
  obtain ⟨th, items, ho⟩ := ofRecords_themeRecord_iff.mp made
  obtain ⟨_, all⟩ := ofDoc_modeEntries_iff.mp ho
  refine ⟨th, items, complete th (by simp [items]), ?_⟩
  intro m hm
  obtain ⟨_, _, _, tokens⟩ := exists_of_forall₂_right all hm
  exact tokens

/-- No warning is about a reference with an empty name. -/
theorem ref_ne_empty_of_warned {d : Doc} {t : Table} {theme mode token ref : String}
    (valid : (Validation.references t).isValid = true)
    (h : (Finding.danglingReference theme mode token ref).issue ∈
      (Validation.document d).issues ++ (Validation.references t).issues) : ref ≠ "" := by
  rcases List.mem_append.mp h with found | found
  · obtain ⟨f, hf, same⟩ := List.mem_map.mp found
    have plain := Validation.aboutReferences_documentFindings f (Finding.mem_of_mem_upToError hf)
    have about : (Finding.danglingReference theme mode token ref).aboutReferences = true := rfl
    exact absurd (congrArg Issue.code same.symm) (Finding.code_ne_of_aboutReferences plain about)
  · rw [Validation.issues_references valid] at found
    obtain ⟨f, hf, same⟩ := List.mem_map.mp found
    obtain ⟨p, _, hp⟩ := List.mem_flatMap.mp hf
    obtain ⟨q, hq, rfl⟩ := List.mem_map.mp hp
    obtain ⟨source, _, _, refers, _⟩ := Mode.mem_dangling_iff.mp hq
    have filled : q.2 ≠ "" := by
      cases hv : source.value with
      | text s => exact Placeholder.ne_empty_of_mem_names (by simpa [hv, TokenValue.references] using refers)
      | _ => simp [hv, TokenValue.references] at refers
    have long := Finding.length_of_danglingReference same
    rintro rfl
    exact filled (String.length_eq_zero_iff.mp long)

/-- A reference of a last leaf that has a last part and names no token of a mode is warned about there. -/
theorem warned_of_not_contains {d : Doc} {t : Table} {th : Theme} {m : Mode} {l : Leaf} {b : String}
    (valid : (Validation.references t).isValid = true) (items : t.themes.items = [th])
    (hm : m ∈ th.modes.items) (makes : Makes d m.tokens) (hl : Remains d l) (hb : b ∈ referenceNames l.value)
    (last : Placeholder.lastPart b ≠ "") (unknown : m.tokens.contains (Placeholder.lastPart b) = false) :
    (Finding.danglingReference th.name m.name l.key.message (Placeholder.lastPart b)).issue ∈
      (Validation.references t).issues := by
  obtain ⟨token, htoken, source⟩ := makes.exists_token hl
  have refers : Placeholder.lastPart b ∈ token.value.references := by
    rw [← TokenValue.referenceNames_toScalar, ← source.value]
    exact mem_referenceNames_shortenReferences.mpr ⟨last, b, hb, rfl⟩
  have dangles := Mode.mem_dangling_iff.mpr ⟨token, htoken, rfl, refers, unknown⟩
  have here : (th.name, m) ∈ t.modes := Table.mem_modes (by simp [items]) hm
  have named : l.key.message = token.name := by
    rw [source.name]
    rfl
  rw [Validation.issues_references valid, named]
  refine List.mem_map_of_mem (List.mem_flatMap.mpr ⟨(th.name, m), here, ?_⟩)
  exact List.mem_map.mpr ⟨(token.name, Placeholder.lastPart b), dangles, rfl⟩

/-- After a run over a tree a reference of a last leaf is accounted for exactly if it does not end in a point. -/
theorem accounted_iff {selector : String} {d : Doc} {theme : Option String} {modes : List String}
    {generate log : Bool} {o : Outcome}
    (run : (Pipeline.run selector d ⟨"tokens-studio", theme, modes⟩ generate log).result = .ok o)
    (ok : o.ok = true) :
    ∃ t th, o.table? = some t ∧ t.themes.items = [th] ∧ ∀ l, Remains d l → ∀ b ∈ referenceNames l.value,
      (Accounted th o.warnings l b ↔ b.toList.getLast? ≠ some '.') := by
  obtain ⟨records, t, builds, table, warnings, -⟩ := Pipeline.built_of_run run ok
  obtain ⟨th, items, complete, makes⟩ := exists_theme_of_builds builds
  refine ⟨t, th, table, items, ?_⟩
  intro l hl b hb
  have filled : b ≠ "" := by
    unfold referenceNames at hb
    split at hb
    next s => exact Placeholder.ne_empty_of_mem_names hb
    next => cases hb
  obtain ⟨light, hlight⟩ := complete lightMode light_required
  have lit : light ∈ th.modes.items := (Roster.mem_of_get? hlight).1
  rw [ne_eq, ← Placeholder.lastPart_eq_empty_iff filled, warnings]
  constructor
  · rintro (⟨m, hm, named⟩ | warned)
    · obtain ⟨token, _, name⟩ := Roster.contains_iff.mp named
      exact name ▸ token.named
    · exact ref_ne_empty_of_warned builds.references (warned light lit)
  · intro last
    by_cases known : ∃ m ∈ th.modes.items, m.tokens.contains (Placeholder.lastPart b) = true
    · exact .inl known
    · refine .inr fun m hm => List.mem_append_right _ ?_
      have unknown : m.tokens.contains (Placeholder.lastPart b) = false :=
        Bool.eq_false_iff.mpr fun named => known ⟨m, hm, named⟩
      exact warned_of_not_contains builds.references items hm (makes m hm) hl hb last unknown

/-- A tree of one leaf that refers to what it does not have. -/
def lonelyTree (body : String) : Doc :=
  .object [("x", .object [("value", .text ("\x7b" ++ body ++ "\x7d")), ("type", .text "color")])]

theorem remains_lonelyTree (body : String) : Remains (lonelyTree body)
    ⟨[], .text "x", .text "color", .text ("\x7b" ++ body ++ "\x7d")⟩ :=
  ⟨[], [], rfl, by simp⟩

theorem accounted_lonelyTree : ∃ o th,
    (Pipeline.run ":root" (lonelyTree "a.b") ⟨"tokens-studio", some "brand", requiredModes⟩ false true).result =
      .ok o ∧ o.ok = true ∧
    Accounted th o.warnings ⟨[], .text "x", .text "color", .text "{a.b}"⟩ "a.b" := by
  have ran : (Pipeline.run ":root" (lonelyTree "a.b") ⟨"tokens-studio", some "brand", requiredModes⟩ false
      true).result.toOption.any Outcome.ok = true := by decide +kernel
  obtain ⟨o, run, ok⟩ := exists_ok_of_any ran
  obtain ⟨_, th, _, _, accounted⟩ := accounted_iff run ok
  have refers : "a.b" ∈ referenceNames (.text "{a.b}") := by decide +kernel
  exact ⟨o, th, run, ok, (accounted _ (remains_lonelyTree "a.b") "a.b" refers).mpr (by decide)⟩

/-- A run succeeds without a warning over a tree with a reference to nothing that ends in a point. -/
theorem unaccounted_lonelyTree : ∃ o t th,
    (Pipeline.run ":root" (lonelyTree "a.") ⟨"tokens-studio", some "brand", requiredModes⟩ false true).result =
      .ok o ∧ o.ok = true ∧ o.table? = some t ∧ t.themes.items = [th] ∧
    Remains (lonelyTree "a.") ⟨[], .text "x", .text "color", .text "{a.}"⟩ ∧
    "a." ∈ referenceNames (.text "{a.}") ∧ o.warnings = [] ∧
    ¬ Accounted th o.warnings ⟨[], .text "x", .text "color", .text "{a.}"⟩ "a." := by
  have ran : (Pipeline.run ":root" (lonelyTree "a.") ⟨"tokens-studio", some "brand", requiredModes⟩ false
      true).result.toOption.any (fun o => o.ok && o.warnings.isEmpty) = true := by decide +kernel
  obtain ⟨o, run, silent⟩ := exists_ok_of_any ran
  obtain ⟨ok, none⟩ := Bool.and_eq_true_iff.mp silent
  have warnings : o.warnings = [] := List.isEmpty_iff.mp none
  obtain ⟨_, t, builds, table, -⟩ := Pipeline.built_of_run run ok
  obtain ⟨th, items, complete, -⟩ := exists_theme_of_builds builds
  refine ⟨o, t, th, run, ok, table, items, remains_lonelyTree "a.", by decide +kernel, warnings, ?_⟩
  rintro (⟨m, _, named⟩ | warned)
  · obtain ⟨token, _, name⟩ := Roster.contains_iff.mp named
    have empty : Placeholder.lastPart "a." = "" := by decide
    exact token.named (name.trans empty)
  · obtain ⟨light, hlight⟩ := complete lightMode light_required
    have found := warned light (Roster.mem_of_get? hlight).1
    rw [warnings] at found
    cases found

end Nested

end StyleTokens
