import StyleTokens.Proofs.ExactCycles
import StyleTokens.Proofs.ValidRecords

namespace StyleTokens

/-- A placeholder in the value of a token, with the mode and the theme of the token. -/
structure Occurrence where
  theme : String
  mode : Mode
  token : Token
  reference : String

namespace Occurrence

/-- The placeholders in some modes, token by token. -/
def listed (modes : List (String × Mode)) : List Occurrence :=
  modes.flatMap fun p => p.2.tokens.items.flatMap fun t => t.value.references.map fun r => ⟨p.1, p.2, t, r⟩

/-- The placeholder names no token of the mode in which it stands. -/
def Dangles (o : Occurrence) : Prop := o.reference ∉ o.mode.tokenNames

instance : DecidablePred Dangles := fun o => inferInstanceAs (Decidable (o.reference ∉ o.mode.tokenNames))

/-- The warning that a placeholder dangles. -/
def warning (o : Occurrence) : Issue :=
  (Finding.danglingReference o.theme o.mode.name o.token.name o.reference).issue

/-- The warnings about the placeholders in some modes. -/
def warnings (modes : List (String × Mode)) : List Issue := ((listed modes).filter fun o => o.Dangles).map warning

theorem warnings_append (modes more : List (String × Mode)) :
    warnings (modes ++ more) = warnings modes ++ warnings more := by
  simp only [warnings, listed, List.flatMap_append, List.filter_append, List.map_append]

theorem issues_dangling (theme : String) (m : Mode) :
    (m.dangling.map fun p => Finding.danglingReference theme m.name p.1 p.2).map Finding.issue =
      warnings [(theme, m)] := by
  have unknown : ∀ r, (!m.tokens.contains r) = decide (r ∉ m.tokenNames) := by
    intro r
    have known : m.tokens.contains r = true ↔ r ∈ m.tokenNames := Roster.contains_iff.trans List.mem_map.symm
    rw [decide_not, Bool.eq_iff_iff.mpr (known.trans (decide_eq_true_iff).symm)]
  simp only [warnings, listed, List.flatMap_singleton, Mode.dangling, List.map_flatMap, List.filter_flatMap]
  refine List.flatMap_congr fun t _ => ?_
  simp only [List.filter_map, List.map_map]
  exact congrArg _ (List.filter_congr fun r _ => unknown r)

end Occurrence

/-- The error at a mode shows a cycle of the mode, and stands at the first token of it. -/
def Mode.Closes (theme : String) (m : Mode) (i : Issue) : Prop :=
  ∃ first rest, first ∈ m.tokenNames ∧ m.SimpleCycle (first :: rest) ∧
    i = (Finding.circularReference theme m.name (first :: rest)).issue ∧
    i.location = some (.text s!"{theme}/{m.name}/{first}")

namespace Mode

theorem SimpleCycle.exists_first {m : Mode} {c : List String} (h : m.SimpleCycle c) :
    ∃ first rest, c = first :: rest ∧ first ∈ m.tokenNames := by
  match c, h.long, h.chain with
  | first :: second :: rest, _, chain =>
    obtain ⟨⟨t, ht, named, _⟩, _⟩ := (List.isChain_cons_cons.mp chain).1
    exact ⟨first, second :: rest, rfl, named ▸ List.mem_map_of_mem ht⟩

theorem exists_closes {m : Mode} (circle : ¬ m.Acyclic) (theme : String) : ∃ f, f.isError = true ∧
    Validation.modeReferences theme m = [f] ∧ m.Closes theme f.issue := by
  cases hc : m.cycles with
  | nil => exact absurd (m.cycles_eq_nil_iff.mp hc) circle
  | cons c more =>
    have simple : m.SimpleCycle c := simpleCycle_of_mem_cycles (by simp [hc])
    obtain ⟨first, rest, rfl, here⟩ := simple.exists_first
    refine ⟨.circularReference theme m.name (first :: rest), rfl, ?_, first, rest, here, simple, rfl, rfl⟩
    rw [Validation.modeReferences, hc]

end Mode

namespace Validation

theorem issues_of_acyclic {modes : List (String × Mode)} (acyclic : ∀ p ∈ modes, p.2.Acyclic) :
    (modes.flatMap fun p => modeReferences p.1 p.2).map Finding.issue = Occurrence.warnings modes := by
  induction modes with
  | nil => rfl
  | cons p rest ih =>
    obtain ⟨here, later⟩ := List.forall_mem_cons.mp acyclic
    rw [List.flatMap_cons, List.map_append, ih later, modeReferences_of_acyclic here, Occurrence.issues_dangling]
    exact (Occurrence.warnings_append [p] rest).symm

theorem harmless_of_acyclic {modes : List (String × Mode)} (acyclic : ∀ p ∈ modes, p.2.Acyclic) :
    Finding.Harmless (modes.flatMap fun p => modeReferences p.1 p.2) :=
  List.forall_mem_flatMap.mpr fun p hp =>
    harmless_modeReferences.mpr (p.2.cycles_eq_nil_iff.mpr (acyclic p hp))

/-- References are reported up to the first mode in which they lead in a circle: an error there, and before it a warning
for each placeholder that names no token of its mode. -/
theorem references_exact (t : Table) :
    ((references t).isValid = false ↔ ∃ theme ∈ t.themes.items, ∃ m ∈ theme.modes.items, ¬ m.Acyclic) ∧
    ∃ checked later, t.modes = checked ++ later ∧ (∀ p ∈ checked, p.2.Acyclic) ∧
      (later = [] ∧ (references t).issues = Occurrence.warnings checked ∨
        ∃ theme m rest error, later = (theme, m) :: rest ∧ ¬ m.Acyclic ∧ m.Closes theme error ∧
          (references t).issues = Occurrence.warnings checked ++ [error]) := by
  constructor
  · rw [← Bool.not_eq_true, isValid_references_iff]
    simp only [not_forall, exists_prop]
  · have found : (references t).issues =
        (Finding.upToError (t.modes.flatMap fun p => modeReferences p.1 p.2)).map Finding.issue := rfl
    rcases forall_or_exists_first (fun p : String × Mode => p.2.Acyclic) t.modes with
      all | ⟨checked, ⟨theme, m⟩, rest, split, fine, circle⟩
    · refine ⟨t.modes, [], (List.append_nil _).symm, all, .inl ⟨rfl, ?_⟩⟩
      rw [found, Finding.upToError_of_harmless (harmless_of_acyclic all), issues_of_acyclic all]
    · obtain ⟨f, error, only, closes⟩ := Mode.exists_closes circle theme
      refine ⟨checked, (theme, m) :: rest, split, fine, .inr ⟨theme, m, rest, f.issue, rfl, circle, closes, ?_⟩⟩
      rw [found, split, List.flatMap_append, Finding.upToError_append (harmless_of_acyclic fine), List.flatMap_cons,
        only, List.singleton_append, Finding.upToError_cons error, List.map_append, issues_of_acyclic fine,
        List.map_singleton]

/-- Two themes: the light mode of the first has a reference to a token of its dark mode only, the dark mode leads in a
circle, and the second theme is not looked at any more. -/
def circlingTable : Table :=
  let token (name value : String) (named : name ≠ "") : Token := ⟨name, "color", .text value, none, named⟩
  let light : Mode := ⟨lightMode, Roster.ofList
    [token "paper" "{ink} {shade}" (by decide), token "ink" "#000" (by decide)]⟩
  let dark : Mode := ⟨darkMode, Roster.ofList
    [token "paper" "{shade}" (by decide), token "shade" "{paper} {gone}" (by decide)]⟩
  let late : Mode := ⟨lightMode, Roster.ofList [token "paper" "{gone}" (by decide)]⟩
  ⟨Roster.ofList [⟨"brand", Roster.ofList [light, dark], by decide⟩, ⟨"late", Roster.ofList [late], by decide⟩]⟩

theorem references_circlingTable :
    (references circlingTable).issues.map Issue.message =
      ["Token paper in brand/light references unknown token: {shade}",
        "Circular reference in brand/dark: paper -> shade -> paper"] ∧
      ∃ theme ∈ circlingTable.themes.items, ∃ m ∈ theme.modes.items, ¬ m.Acyclic := by
  have messages : (references circlingTable).issues.map Issue.message =
      ["Token paper in brand/light references unknown token: {shade}",
        "Circular reference in brand/dark: paper -> shade -> paper"] := by decide +kernel
  have refused : (references circlingTable).isValid = false := by decide +kernel
  exact ⟨messages, (references_exact circlingTable).1.mp refused⟩

end Validation

end StyleTokens
