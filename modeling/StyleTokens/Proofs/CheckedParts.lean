import StyleTokens.Proofs.ValidRecords

namespace StyleTokens

/-- A part of a document that has to be in order, with the names of what it stands in. -/
inductive Part where
  | whole (d : Doc)
  | record (index : Nat) (d : Doc)
  | content (theme : Scalar) (d : Doc)
  | modes (theme : Scalar) (modes : List (Scalar × Doc))
  | mode (theme name : Scalar) (d : Doc)
  | token (theme mode name : Scalar) (d : Doc)

/-- Something is wrong with a part: what the finding says. -/
inductive Part.Breaks : Part → Finding → Prop
  | noList {d} : (∀ items, d ≠ .list items) → Breaks (.whole d) .notASequence
  | noItem : Breaks (.whole (.list [])) .emptyInput
  | noRecord {index d} : (∀ entry rest, d ≠ .mapping (entry :: rest)) →
      Breaks (.record index d) (.invalidThemeRecord index)
  | noModes {theme d} : (∀ modes, d.modesIn ≠ .mapping modes) → Breaks (.content theme d) (.missingModes theme)
  | noMode {theme modes m} : m ∈ requiredModes → (∀ c, Doc.get? modes m = some c → c.isNull = true) →
      Breaks (.modes theme modes) (.missingMode theme)
  | noTokens {theme name d} : (∀ tokens, d ≠ .mapping tokens) → Breaks (.mode theme name d) (.invalidMode theme name)
  | undescribed {theme mode name d} : ¬ Described d →
      Breaks (.token theme mode name d) (.missingTypeOrValue theme mode name)
  | noScalar {theme mode name d} : Described d → ¬ TokenShape d →
      Breaks (.token theme mode name d) (.invalidValue theme mode name)

theorem Part.Breaks.isError {p : Part} {f : Finding} (h : p.Breaks f) : f.isError = true := by
  cases h <;> rfl

/-- There is one thing wrong with a part at a time. -/
theorem Part.Breaks.unique {p : Part} {f g : Finding} (h : p.Breaks f) (h' : p.Breaks g) : g = f := by
  cases h with
  | noList noList =>
    cases h' with
    | noList => rfl
    | noItem => exact absurd rfl (noList [])
  | noItem =>
    cases h' with
    | noList noList => exact absurd rfl (noList [])
    | noItem => rfl
  | undescribed off =>
    cases h' with
    | undescribed => rfl
    | noScalar described => exact absurd described off
  | noScalar described =>
    cases h' with
    | undescribed off => exact absurd described off
    | noScalar => rfl
  | _ =>
    cases h'
    rfl

/-- Nothing is wrong with a part. -/
def Part.InOrder (p : Part) : Prop := ∀ f, ¬ p.Breaks f

namespace Validation

/-- A mode as a whole, and its tokens. -/
def modeParts (theme name : Scalar) (d : Doc) : List Part :=
  .mode theme name d :: (d.entries?.getD []).map fun q => .token theme name q.1 q.2

/-- The content of a theme, its modes as a whole, and the parts of each of them. -/
def themeParts (name : Scalar) (d : Doc) : List Part :=
  .content name d :: match d.modesIn with
    | .mapping modes => .modes name modes :: modes.flatMap fun p => modeParts name p.1 p.2
    | _ => []

/-- A record as a whole, and the parts of the theme at its first key. -/
def recordParts (index : Nat) (d : Doc) : List Part :=
  .record index d :: match d with
    | .mapping ((name, content) :: _) => themeParts name content
    | _ => []

/-- All parts of a document in order. -/
def parts (d : Doc) : List Part :=
  .whole d :: match d with
    | .list items => items.zipIdx.flatMap fun p => recordParts p.2 p.1
    | _ => []

/-- The names of types that a source may use. -/
def sourceTypes : List String := TokenType.all.map TokenType.name ++ [legacyFloat]

/-- The type with which a token is given. -/
def givenType? (d : Doc) : Option String :=
  match (d.entries?.bind fun entries => Doc.get? entries RecordKey.type) with
  | some (.scalar (.text s)) => some s
  | _ => none

/-- The warning that a token has a type which no source may use. -/
def warning? : Part → Option Finding
  | .token theme mode name d => (givenType? d).bind fun type =>
    if type ∈ sourceTypes then none else some (.unknownType theme mode name type)
  | _ => none

/-- What is found when a part is looked at alone. -/
def finding? : Part → Option Finding
  | .whole (.list []) => some .emptyInput
  | .whole (.list _) => none
  | .whole _ => some .notASequence
  | .record _ (.mapping (_ :: _)) => none
  | .record index _ => some (.invalidThemeRecord index)
  | .content name d => match d.modesIn with
    | .mapping _ => none
    | _ => some (.missingModes name)
  | .modes name modes =>
    if requiredModes.any fun m => ((Doc.get? modes m).getD .null).isNull then some (.missingMode name) else none
  | .mode _ _ (.mapping _) => none
  | .mode theme name _ => some (.invalidMode theme name)
  | .token theme mode name d => token? theme mode name d

theorem findings_modeParts (theme name : Scalar) (d : Doc) :
    (modeParts theme name d).filterMap finding? = mode theme name d := by
  cases d with
  | mapping tokens =>
    simp only [modeParts, Doc.entries?, Option.getD_some, List.filterMap_cons, List.filterMap_map, finding?, mode]
    rfl
  | _ => rfl

theorem findings_themeParts (name : Scalar) (d : Doc) :
    Finding.upToError ((themeParts name d).filterMap finding?) = Finding.upToError (theme name d) := by
  rw [theme_eq]
  cases hm : d.modesIn with
  | mapping modes =>
    have held : finding? (.content name d) = none := by simp [finding?, hm]
    have tokens : ((modes.flatMap fun p => modeParts name p.1 p.2).filterMap finding?) =
        modes.flatMap fun p => mode name p.1 p.2 := by
      rw [List.filterMap_flatMap]
      exact List.flatMap_congr fun p _ => findings_modeParts name p.1 p.2
    simp only [themeParts, hm, List.filterMap_cons, held, tokens]
    by_cases missing : (requiredModes.any fun m => ((Doc.get? modes m).getD .null).isNull) = true
    · -- The walk leaves the tokens of such a theme out, but what is found in them comes after the error.
      simp only [finding?, if_pos missing]
      rw [Finding.upToError_cons rfl, Finding.upToError_cons rfl]
    · simp only [finding?, if_neg missing]
  | _ => simp [themeParts, hm, finding?]

theorem findings_recordParts (index : Nat) (d : Doc) :
    Finding.upToError ((recordParts index d).filterMap finding?) = Finding.upToError (record index d) := by
  match d with
  | .mapping ((name, content) :: rest) => exact findings_themeParts name content
  | .mapping [] | .scalar _ | .list _ | .set _ => rfl

theorem findings_records (index : Nat) (items : List Doc) :
    Finding.upToError (((items.zipIdx index).flatMap fun p => recordParts p.2 p.1).filterMap finding?) =
      Finding.upToError (records index items) := by
  induction items generalizing index with
  | nil => rfl
  | cons d rest ih =>
    rw [List.zipIdx_cons, List.flatMap_cons, List.filterMap_append, records_cons]
    exact Finding.upToError_append_congr (findings_recordParts index d) (ih (index + 1))

/-- The walk through a document finds the same, up to its first error, as a look at each of its parts. -/
theorem findings_parts (d : Doc) :
    Finding.upToError ((parts d).filterMap finding?) = Finding.upToError (documentFindings d) := by
  match d with
  | .list [] => rfl
  | .list (item :: rest) => exact findings_records 0 (item :: rest)
  | .scalar _ | .mapping _ | .set _ => rfl

theorem isSourceType_iff {s : String} : isSourceType s = true ↔ s ∈ sourceTypes := by
  simp [isSourceType, sourceTypes, TokenType.ofName?, List.find?_isSome]

theorem token?_of_shape {d : Doc} (shape : TokenShape d) (theme mode name : Scalar) :
    token? theme mode name d = warning? (.token theme mode name d) := by
  obtain ⟨entries, type, value, rfl, hty, hne, hv⟩ := shape
  have given : givenType? (.mapping entries) = some type := by simp [givenType?, Doc.entries?, hty]
  simp only [token?_of_entries hty hne hv, warning?, given, isSourceType_iff, Option.bind_some]

/-- A part is judged by a finding: either this is what is wrong with the part, or nothing is wrong with it and the
finding is at most a warning. -/
def Judged (p : Part) : Prop :=
  (∃ f, p.Breaks f ∧ finding? p = some f) ∨ p.InOrder ∧ finding? p = warning? p

theorem judged_whole (d : Doc) : Judged (.whole d) := by
  match d with
  | .list [] => exact .inl ⟨_, .noItem, rfl⟩
  | .list (item :: rest) =>
    refine .inr ⟨?_, rfl⟩
    intro f h
    cases h with
    | noList noList => exact noList (item :: rest) rfl
  | .scalar _ | .mapping _ | .set _ => exact .inl ⟨_, .noList (by simp), rfl⟩

theorem judged_record (index : Nat) (d : Doc) : Judged (.record index d) := by
  match d with
  | .mapping (entry :: rest) =>
    refine .inr ⟨?_, rfl⟩
    intro f h
    cases h with
    | noRecord noRecord => exact noRecord entry rest rfl
  | .mapping [] | .scalar _ | .list _ | .set _ => exact .inl ⟨_, .noRecord (by simp), rfl⟩

theorem judged_content (name : Scalar) (d : Doc) : Judged (.content name d) := by
  cases hm : d.modesIn with
  | mapping modes =>
    refine .inr ⟨?_, by simp only [finding?, hm, warning?]⟩
    intro f h
    cases h with
    | noModes noModes => exact noModes modes hm
  | _ => exact .inl ⟨_, .noModes (by simp [hm]), by simp only [finding?, hm]⟩

theorem judged_modes (name : Scalar) (modes : List (Scalar × Doc)) : Judged (.modes name modes) := by
  cases missing : requiredModes.any fun m => ((Doc.get? modes m).getD .null).isNull with
  | false =>
    refine .inr ⟨?_, by simp only [finding?, missing, Bool.false_eq_true, if_false, warning?]⟩
    intro f h
    cases h with
    | noMode hr null =>
      obtain ⟨c, hc, present⟩ := none_missing_iff.mp missing _ hr
      rw [null c hc] at present
      cases present
  | true =>
    obtain ⟨m, hr, null⟩ := List.any_eq_true.mp missing
    refine .inl ⟨_, .noMode hr ?_, by simp only [finding?, missing, if_true]⟩
    intro c hc
    rwa [hc] at null

theorem judged_mode (theme name : Scalar) (d : Doc) : Judged (.mode theme name d) := by
  cases d with
  | mapping tokens =>
    refine .inr ⟨?_, rfl⟩
    intro f h
    cases h with
    | noTokens noTokens => exact noTokens tokens rfl
  | _ => exact .inl ⟨_, .noTokens (by simp), rfl⟩

theorem judged_token (theme mode name : Scalar) (d : Doc) : Judged (.token theme mode name d) := by
  by_cases described : Described d
  · by_cases shape : TokenShape d
    · refine .inr ⟨?_, token?_of_shape shape theme mode name⟩
      intro f h
      cases h with
      | undescribed off => exact off described
      | noScalar _ off => exact off shape
    · exact .inl ⟨_, .noScalar described shape, token?_of_not_shape described shape theme mode name⟩
  · exact .inl ⟨_, .undescribed described, token?_of_not_described described theme mode name⟩

theorem judged (p : Part) : Judged p :=
  match p with
  | .whole d => judged_whole d
  | .record index d => judged_record index d
  | .content name d => judged_content name d
  | .modes name modes => judged_modes name modes
  | .mode theme name d => judged_mode theme name d
  | .token theme mode name d => judged_token theme mode name d

theorem filterMap_finding {ps : List Part} (fine : ∀ p ∈ ps, p.InOrder) :
    ps.filterMap finding? = ps.filterMap warning? := by
  refine List.filterMap_congr fun p hp => ?_
  rcases judged p with ⟨f, broken, _⟩ | ⟨_, found⟩
  · exact absurd broken (fine p hp f)
  · exact found

theorem harmless_warnings (ps : List Part) : Finding.Harmless (ps.filterMap warning?) := by
  intro f hf
  obtain ⟨p, _, hw⟩ := List.mem_filterMap.mp hf
  cases p with
  | token theme mode name d =>
    obtain ⟨type, _, hw⟩ := Option.bind_eq_some_iff.mp hw
    split at hw
    · cases hw
    · cases hw
      rfl
  | _ => cases hw

theorem document_eq {d : Doc} {fs : List Finding} (found : Finding.upToError ((parts d).filterMap finding?) = fs) :
    document d = ⟨fs.map Finding.issue, if fs.all (fun f => !f.isError) then themeCount d else 0⟩ := by
  have valid : (⟨fs.map Finding.issue, 0⟩ : Report).isValid = fs.all fun f => !f.isError := List.all_map
  rw [document, ← findings_parts, found, valid]

theorem dropLast_harmless (fs : List Finding) : Finding.Harmless (Finding.upToError fs).dropLast := by
  rcases forall_or_exists_first (fun f => f.isError = false) fs with fine | ⟨before, f, after, rfl, fine, off⟩
  · rw [Finding.upToError_of_harmless fine]
    exact fun f hf => fine f (List.dropLast_subset fs hf)
  · rw [Finding.upToError_append fine, Finding.upToError_cons (Bool.not_eq_false _ ▸ off), List.dropLast_concat]
    exact fine

/-- A document nothing is wrong with in any part is a list, and its themes are counted. -/
theorem document_of_fine {d : Doc} (fine : ∀ p ∈ parts d, p.InOrder) :
    ∃ items, d = .list items ∧
      document d = ⟨((parts d).filterMap warning?).map Finding.issue, items.length⟩ := by
  have listed : ∃ items, d = .list items := by
    by_contra noList
    exact fine (.whole d) List.mem_cons_self _ (.noList fun items hd => noList ⟨items, hd⟩)
  obtain ⟨items, rfl⟩ := listed
  have warned := harmless_warnings (parts (.list items))
  have counted : ((parts (.list items)).filterMap warning?).all (fun f => !f.isError) = true := by
    rw [List.all_eq_true]
    intro f hf
    rw [warned f hf, Bool.not_false]
  have upTo : Finding.upToError ((parts (.list items)).filterMap finding?) =
      (parts (.list items)).filterMap warning? := by
    rw [filterMap_finding fine, Finding.upToError_of_harmless warned]
  refine ⟨items, rfl, ?_⟩
  rw [document_eq upTo, if_pos counted]
  rfl

/-- A document with a part that something is wrong with is reported up to the first of them. -/
theorem document_of_broken {d : Doc} {before after : List Part} {p : Part} {f : Finding}
    (cut : parts d = before ++ p :: after) (fine : ∀ p ∈ before, p.InOrder)
    (error : f.isError = true) (found : finding? p = some f) :
    document d = ⟨(before.filterMap warning?).map Finding.issue ++ [f.issue], 0⟩ := by
  have upTo : Finding.upToError ((parts d).filterMap finding?) = before.filterMap warning? ++ [f] := by
    rw [cut, List.filterMap_append, List.filterMap_cons_some found, filterMap_finding fine,
      Finding.upToError_append (harmless_warnings before), Finding.upToError_cons error]
  have spoilt : ¬ (before.filterMap warning? ++ [f]).all (fun f => !f.isError) = true := by simp [error]
  rw [document_eq upTo, if_neg spoilt, List.map_append, List.map_singleton]

/-- A document is valid exactly if it is a list of themes, at least one, and each of the shape of one. A report has at
most one error, as its last issue. What is reported is the first part of the document with which something is wrong,
after a warning for each token before it whose type no source may use; themes are counted if there is no such part. -/
theorem document_exact (d : Doc) :
    ((document d).isValid = true ↔
      ∃ items, d = .list items ∧ items ≠ [] ∧
        ∀ item ∈ items, ∃ name content rest modes,
          item = .mapping ((name, content) :: rest) ∧ ThemeShape content modes) ∧
    (∀ i ∈ (document d).issues.dropLast, i.isError = false) ∧
    ∃ before later, parts d = before ++ later ∧ (∀ p ∈ before, p.InOrder) ∧
      ((later = [] ∧ ∃ items, d = .list items ∧
          document d = ⟨(before.filterMap warning?).map Finding.issue, items.length⟩) ∨
        ∃ p after f, later = p :: after ∧ f.isError = true ∧ (∀ g, p.Breaks g ↔ g = f) ∧
          document d = ⟨(before.filterMap warning?).map Finding.issue ++ [f.issue], 0⟩) := by
  refine ⟨isValid_document_iff, ?_, ?_⟩
  · intro i hi
    rw [document_eq rfl, ← List.map_dropLast] at hi
    obtain ⟨f, hf, rfl⟩ := List.mem_map.mp hi
    exact dropLast_harmless _ f hf
  · rcases forall_or_exists_first Part.InOrder (parts d) with
      fine | ⟨before, p, after, cut, fine, off⟩
    · exact ⟨parts d, [], (List.append_nil _).symm, fine, .inl ⟨rfl, document_of_fine fine⟩⟩
    · obtain ⟨f, broken, found⟩ := (judged p).resolve_right fun held => off held.1
      have only : ∀ g, p.Breaks g ↔ g = f := fun g => ⟨broken.unique, fun h => h ▸ broken⟩
      exact ⟨before, p :: after, cut, fine,
        .inr ⟨p, after, f, rfl, broken.isError, only, document_of_broken cut fine broken.isError found⟩⟩

/-- Two themes: the light mode of the first has a token of an unknown type, its dark mode has a token with a list for a
value before another of an unknown type, and the second theme is not looked at any more. -/
def straySource : Doc :=
  let text (s : String) : Scalar := .text s
  let token (type : String) (value : Doc) : Doc :=
    .mapping [(text RecordKey.type, .text type), (text RecordKey.value, value)]
  let light : Doc :=
    .mapping [(text "paper", token "gradient" (.text "#fff")), (text "ink", token "float" (.text "1px"))]
  let dark : Doc := .mapping [(text "paper", token "color" (.list [])), (text "ink", token "shade" (.text "#000"))]
  let modes : Doc := .mapping [(text lightMode, light), (text darkMode, dark)]
  .list [.mapping [(text "brand", .mapping [(text ExportKey.modes, modes)])], .mapping [(text "late", .scalar .null)]]

theorem document_straySource :
    (document straySource).issues.map Issue.message =
      ["Token paper in brand/light has unknown type: gradient",
        "Token paper in brand/dark must have a scalar $value"] ∧
      (document straySource).themes = 0 ∧ ∀ i ∈ (document straySource).issues.dropLast, i.isError = false := by
  have messages : (document straySource).issues.map Issue.message =
      ["Token paper in brand/light has unknown type: gradient",
        "Token paper in brand/dark must have a scalar $value"] := by decide +kernel
  have counted : (document straySource).themes = 0 := by decide +kernel
  exact ⟨messages, counted, (document_exact straySource).2.1⟩

end Validation

end StyleTokens
