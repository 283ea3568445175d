import StyleTokens.Proofs.TableFiles

namespace StyleTokens

theorem Token.ofRecord_error {name : Scalar} {record : Doc} {fault : TableFault} (shape : TokenShape record)
    (h : Token.ofRecord name record = .error fault) : ∃ vs, fault = .invalid .token vs := by
  obtain ⟨entries, type, value, rfl, hty, -, hv⟩ := shape
  simp only [Token.ofRecord, hty, hv] at h
  obtain ⟨vs, -, rfl⟩ := except_mapError_error h
  exact ⟨vs, rfl⟩

/-- A record in the shape of a token under a text is refused only for an empty name, if its collection is a
text or absent. -/
theorem Token.ofRecord_text_error {s : String} {entries : List (Scalar × Doc)} {collection : Option String}
    {fault : TableFault} (shape : TokenShape (.mapping entries))
    (source : Token.checkCollection (Doc.get? entries RecordKey.collection) = .ok collection)
    (h : Token.ofRecord (.text s) (.mapping entries) = .error fault) :
    s = "" ∧ fault = .invalid .token [⟨"name", .notEmpty⟩] := by
  obtain ⟨_, type, value, he, hty, -, hv⟩ := shape
  cases he
  have typed := Token.checkType_ok_iff.mpr (rfl : Doc.text type = .text type)
  have valued := Token.checkValue_ok_iff.mpr (rfl : Doc.scalar value.toScalar = .scalar value.toScalar)
  simp only [Token.ofRecord, Token.check, hty, hv, typed, valued, source] at h
  obtain ⟨vs, refused, rfl⟩ := except_mapError_error h
  split at refused
  next empty =>
    cases refused
    subst empty
    exact ⟨rfl, by decide⟩
  next => cases refused

theorem Mode.ofDoc_error {name : Scalar} {tokens : List (Scalar × Doc)} {fault : TableFault}
    (h : Mode.ofDoc name (.mapping tokens) = .error fault) :
    (∃ q ∈ tokens, Token.ofRecord q.1 q.2 = .error fault) ∨
      (∀ s, name ≠ .text s) ∧ ∃ vs, fault = .invalid .mode vs := by
  simp only [Mode.ofDoc] at h
  cases made : tokens.mapM fun q => Token.ofRecord q.1 q.2 with
  | error e =>
    rw [made] at h
    cases h
    obtain ⟨_, q, _, rfl, -, refused⟩ := mapM_error_iff.mp made
    exact .inl ⟨q, by simp, refused⟩
  | ok ts =>
    rw [made] at h
    cases name with
    | text s => cases h
    | _ =>
      cases h
      exact .inr ⟨by simp, _, rfl⟩

theorem Theme.ofDoc_error {name : Scalar} {modes : List (Scalar × Doc)} {fault : TableFault}
    (h : Theme.ofDoc name (.mapping modes) = .error fault) :
    (∃ p ∈ modes, Mode.ofDoc p.1 p.2 = .error fault) ∨
      (∀ s, name = .text s → s = "") ∧ fault = .invalid .theme (nameViolations false name) := by
  simp only [Theme.ofDoc] at h
  cases made : modes.mapM fun p => Mode.ofDoc p.1 p.2 with
  | error e =>
    rw [made] at h
    cases h
    obtain ⟨_, p, _, rfl, -, refused⟩ := mapM_error_iff.mp made
    exact .inl ⟨p, by simp, refused⟩
  | ok ms =>
    rw [made] at h
    cases name with
    | text s =>
      by_cases hs : s = ""
      · simp only [bind, Except.bind, hs, dite_true] at h
        cases h
        exact .inr ⟨fun _ same => (Scalar.text.inj same).symm.trans hs, by rw [hs]⟩
      · simp [bind, Except.bind, hs] at h
    | _ =>
      cases h
      exact .inr ⟨by simp, rfl⟩

theorem Table.ofEntries_error {entries : List (Scalar × Doc)} {fault : TableFault}
    (h : Table.ofEntries entries = .error fault) : ∃ p ∈ entries, Theme.ofDoc p.1 p.2 = .error fault := by
  unfold Table.ofEntries at h
  cases made : entries.mapM fun p => Theme.ofDoc p.1 p.2 with
  | error e =>
    rw [made] at h
    cases h
    obtain ⟨_, p, _, rfl, -, refused⟩ := mapM_error_iff.mp made
    exact ⟨p, by simp, refused⟩
  | ok themes =>
    rw [made] at h
    cases h

/-- The content of a theme has an entry for a mode. -/
def Doc.HasMode (content : Doc) (p : Scalar × Doc) : Prop :=
  ∃ modes, content.modesIn = .mapping modes ∧ p ∈ modes

/-- A mode in the content of a theme has an entry for a token. -/
def Doc.HasToken (content : Doc) (p q : Scalar × Doc) : Prop :=
  content.HasMode p ∧ ∃ tokens, p.2 = .mapping tokens ∧ q ∈ tokens

namespace ThemeRecords

variable {records : ThemeRecords}

theorem tokenShape_of_valid (valid : (Validation.document records.toDoc).isValid = true) {r p q : Scalar × Doc}
    (hr : r ∈ records) (token : r.2.HasToken p q) : TokenShape q.2 := by
  obtain ⟨modes, shape⟩ := (isValid_iff.mp valid).2 r hr
  obtain ⟨⟨modes', held, hp⟩, tokens, ht, hq⟩ := token
  cases shape.held.symm.trans held
  obtain ⟨tokens', ht', shapes⟩ := shape.tokens p hp
  cases ht.symm.trans ht'
  exact shapes q hq

/-- How the records that count are refused: for a token, for a mode or for a theme. -/
inductive Refused (records : ThemeRecords) : TableFault → Prop where
  | token {r p q : Scalar × Doc} {fault : TableFault} (survives : Survives Prod.fst records r)
      (token : r.2.HasToken p q) (refused : Token.ofRecord q.1 q.2 = .error fault) : Refused records fault
  | mode {r p : Scalar × Doc} {vs : List Violation} (survives : Survives Prod.fst records r)
      (mode : r.2.HasMode p) (noText : ∀ s, p.1 ≠ .text s) : Refused records (.invalid .mode vs)
  | theme {r : Scalar × Doc} {name : Scalar} (member : r ∈ records) (same : (r.1 == name) = true)
      (unnamed : ∀ s, name = .text s → s = "") : Refused records (.invalid .theme (nameViolations false name))

theorem refused_of_error (valid : (Validation.document records.toDoc).isValid = true) {stop : Stop}
    (h : Table.ofRecords records.toDocs = .error stop) :
    ∃ fault, Refused records fault ∧ stop = Table.stopOf fault := by
  obtain ⟨-, shapes⟩ := isValid_iff.mp valid
  rw [Table.ofRecords_of_shapes shapes] at h
  obtain ⟨fault, refused, rfl⟩ := except_mapError_error h
  refine ⟨fault, ?_, rfl⟩
  -- the fault is passed up unchanged from the level where it arises, so it is followed down from the table
  obtain ⟨entry, hentry, atTheme⟩ := Table.ofEntries_error refused
  obtain ⟨r, survives, same, content⟩ := Ordered.exists_survives_of_mem_ofList hentry
  obtain ⟨modes, shape⟩ := shapes r survives.mem
  rw [← content, shape.held] at atTheme
  rcases Theme.ofDoc_error atTheme with ⟨p, hp, atMode⟩ | ⟨unnamed, rfl⟩
  · have mode : r.2.HasMode p := ⟨modes, shape.held, hp⟩
    obtain ⟨tokens, ht, -⟩ := shape.tokens p hp
    rw [ht] at atMode
    rcases Mode.ofDoc_error atMode with ⟨q, hq, atToken⟩ | ⟨noText, vs, rfl⟩
    · exact .token survives ⟨mode, tokens, ht, hq⟩ atToken
    · exact .mode survives mode noText
  · exact .theme survives.mem same unnamed

/-- Records that are in order are refused only for fields that break rules. -/
theorem exists_violations_of_error (valid : (Validation.document records.toDoc).isValid = true) {stop : Stop}
    (h : Table.ofRecords records.toDocs = .error stop) :
    ∃ model vs, stop = .failure (.invalidTable (.invalid model vs)) := by
  obtain ⟨fault, refused, rfl⟩ := refused_of_error valid h
  cases refused with
  | token survives token refused =>
    obtain ⟨vs, rfl⟩ := Token.ofRecord_error (tokenShape_of_valid valid survives.mem token) refused
    exact ⟨.token, vs, rfl⟩
  | mode => exact ⟨.mode, _, rfl⟩
  | theme => exact ⟨.theme, _, rfl⟩

/-- The names in theme records are texts, and where a token has a collection that is a text. -/
structure Textual (records : ThemeRecords) : Prop where
  themes : ∀ r ∈ records, ∃ s, r.1 = .text s
  modes : ∀ r ∈ records, ∀ p, r.2.HasMode p → ∃ s, p.1 = .text s
  tokens : ∀ r ∈ records, ∀ p q, r.2.HasToken p q → ∃ s, q.1 = .text s
  collections : ∀ r ∈ records, ∀ p q, r.2.HasToken p q → ∃ entries collection, q.2 = .mapping entries ∧
    Token.checkCollection (Doc.get? entries RecordKey.collection) = .ok collection

end ThemeRecords

namespace Collections

/-- An entry that is kept in a JSON document comes from an entry under the same text, and has the name of its
collection. -/
theorem exists_source_of_kept {name : String} {content : Doc} (json : content.IsJson) {p q : Scalar × Doc}
    (token : (keepCollection (.text name) content).HasToken p q) :
    (∃ s, q.1 = .text s) ∧ ∃ entries, q.2 = .mapping entries ∧
      Doc.get? entries RecordKey.collection = some (.text name) := by
  obtain ⟨⟨modes, held, hp⟩, tokens, ht, hq⟩ := token
  obtain ⟨entries, sources, rfl, hm, rfl⟩ := exists_modes_of_keepCollection held
  obtain ⟨⟨mode, d⟩, hsource, rfl⟩ := List.mem_map.mp hp
  have inside : d.IsJson := Doc.EntriesJson.isJson (Doc.EntriesJson.get? json hm) (mode, d) hsource
  cases d with
  | mapping raw =>
    obtain ⟨kept, hk, all⟩ := exists_carried (.text name) raw
    cases hk.symm.trans ht
    obtain ⟨c, hc, as⟩ := exists_of_forall₂_right all hq
    obtain ⟨e, he, hn⟩ := exists_entry_of_carried hc
    obtain ⟨s, hs⟩ := Doc.EntriesJson.exists_text inside e he
    obtain ⟨record, hd, -, -, named⟩ := as.record
    exact ⟨⟨s, as.name.trans (hn.trans hs)⟩, record, hd, named⟩
  | _ => cases ht

theorem textual_of_kept {docs : List Doc} (json : Doc.AllJson docs) {records : ThemeRecords}
    (kept : List.Forall₂ KeptFrom docs records) : records.Textual := by
  have source : ∀ r ∈ records, ∃ name content, r = (.text name, keepCollection (.text name) content) ∧
      content.IsJson := by
    intro r hr
    obtain ⟨item, hi, content, rest, rfl, same⟩ := exists_of_forall₂_right kept hr
    have entries : Doc.EntriesJson ((r.1, content) :: rest) := json.isJson _ hi
    obtain ⟨name, hn⟩ := entries.exists_text (r.1, content) (by simp)
    rw [hn] at same
    exact ⟨name, content, Prod.ext hn same, entries.isJson (r.1, content) (by simp)⟩
  refine ⟨?_, ?_, ?_, ?_⟩
  · intro r hr
    obtain ⟨name, _, rfl, -⟩ := source r hr
    exact ⟨name, rfl⟩
  · intro r hr p mode
    obtain ⟨name, content, rfl, inside⟩ := source r hr
    obtain ⟨modes, held, hp⟩ := mode
    obtain ⟨entries, sources, rfl, hm, rfl⟩ := exists_modes_of_keepCollection held
    obtain ⟨entry, he, rfl⟩ := List.mem_map.mp hp
    exact Doc.EntriesJson.exists_text (Doc.EntriesJson.get? inside hm) entry he
  · intro r hr p q token
    obtain ⟨name, content, rfl, inside⟩ := source r hr
    exact (exists_source_of_kept inside token).1
  · intro r hr p q token
    obtain ⟨name, content, rfl, inside⟩ := source r hr
    obtain ⟨-, entries, hd, named⟩ := exists_source_of_kept inside token
    exact ⟨entries, some name, hd, by rw [named]; rfl⟩

end Collections

namespace Nested

theorem textual_themeRecord {d : Doc} (json : d.IsJson) (name : String) (modes : List String) :
    (themeRecord d name modes).Textual := by
  have mode : ∀ r ∈ themeRecord d name modes, ∀ p, r.2.HasMode p →
      ∃ m, p = (.text m, .mapping (tokenEntries (leaves d))) := by
    rintro r hr p ⟨ms, held, hp⟩
    cases List.mem_singleton.mp hr
    cases (modesIn_content _).symm.trans held
    obtain ⟨m, -, he⟩ := mem_modeEntries_iff.mp hp
    exact ⟨m, he⟩
  have token : ∀ r ∈ themeRecord d name modes, ∀ p q, r.2.HasToken p q →
      ∃ l ∈ leaves d, q = (l.key, .mapping (shortRecord l)) := by
    rintro r hr p q ⟨held, tokens, ht, hq⟩
    obtain ⟨m, rfl⟩ := mode r hr p held
    cases ht
    obtain ⟨l, hl, he⟩ := (mem_tokenEntries_iff json).mp hq
    exact ⟨l, hl.mem, he⟩
  refine ⟨?_, ?_, ?_, ?_⟩
  · intro r hr
    cases List.mem_singleton.mp hr
    exact ⟨name, rfl⟩
  · intro r hr p held
    obtain ⟨m, rfl⟩ := mode r hr p held
    exact ⟨m, rfl⟩
  · intro r hr p q held
    obtain ⟨l, hl, rfl⟩ := token r hr p q held
    exact ⟨keyText l, key_of_leaf json hl⟩
  · intro r hr p q held
    obtain ⟨l, -, rfl⟩ := token r hr p q held
    obtain ⟨-, -, unnamed⟩ := get?_shortRecord l
    exact ⟨shortRecord l, none, rfl, by rw [unnamed]; rfl⟩

end Nested

namespace ThemeRecords

variable {records : ThemeRecords}

theorem textual_of_assemble {d : Doc} (json : d.IsJson) {format : String} {theme : Option String}
    {modes : List String} (h : (assemble d format theme modes).result = .ok records) : records.Textual := by
  rcases assemble_cases h with ⟨docs, rfl, kept⟩ | ⟨name, rfl⟩
  · exact Collections.textual_of_kept json kept
  · exact Nested.textual_themeRecord json name modes

/-- No theme has an empty name, and no token of a theme record that counts. -/
structure Named (records : ThemeRecords) : Prop where
  themes : ∀ r ∈ records, r.1 ≠ .text ""
  tokens : ∀ r, Survives Prod.fst records r → ∀ p q, r.2.HasToken p q → q.1 ≠ .text ""

theorem named_of_ofRecords (valid : (Validation.document records.toDoc).isValid = true) {t : Table}
    (h : Table.ofRecords records.toDocs = .ok t) : records.Named := by
  obtain ⟨-, shapes⟩ := isValid_iff.mp valid
  rw [Table.ofRecords_of_shapes shapes, except_mapError_ok_iff] at h
  have made := Table.exists_ofEntries_ok_iff.mp ⟨t, h⟩
  have themes : ∀ r, Survives Prod.fst records r → ∃ name theme, (name == r.1) = true ∧
      Theme.ofDoc name r.2.modesIn = .ok theme := by
    intro r survives
    obtain ⟨name, hp, same⟩ : ∃ name, (name, r.2.modesIn) ∈
        Ordered.ofList (records.map fun r => (r.1, r.2.modesIn)) ∧ (name == r.1) = true :=
      Ordered.exists_mem_ofList_of_survives survives
    obtain ⟨theme, ht⟩ := made _ hp
    exact ⟨name, theme, same, ht⟩
  refine ⟨?_, ?_⟩
  · intro r hr empty
    obtain ⟨last, survives, same⟩ : ∃ last, Survives Prod.fst records last ∧ (last.1 == r.1) = true :=
      exists_survives hr
    obtain ⟨name, theme, again, ht⟩ := themes last survives
    have key : name = .text "" := Scalar.eq_text_of_beq (empty ▸ BEq.trans again same)
    exact theme.named (Scalar.text.inj ((Theme.name_of_ofDoc ht).symm.trans key))
  · rintro r survives p q ⟨⟨modes, hm, hp⟩, tokens, htokens, hq⟩ empty
    obtain ⟨name, theme, -, ht⟩ := themes r survives
    rw [hm] at ht
    obtain ⟨mode, hmode⟩ := (Theme.exists_ofDoc_ok_iff.mp ⟨theme, ht⟩).2 p hp
    rw [htokens] at hmode
    obtain ⟨token, htoken⟩ := (Mode.exists_ofDoc_ok_iff.mp ⟨mode, hmode⟩).2 q hq
    exact token.named (Scalar.text.inj ((Token.name_of_ofRecord htoken).symm.trans empty))

/-- Records of a JSON document that are in order are refused for an empty name alone. -/
theorem Refused.unnamed (valid : (Validation.document records.toDoc).isValid = true) (textual : records.Textual)
    {fault : TableFault} (h : Refused records fault) :
    ¬ records.Named ∧ ∃ model ∈ [Model.token, .theme], fault = .invalid model [⟨"name", .notEmpty⟩] := by
  cases h with
  | @token r p q _ survives token refused =>
    obtain ⟨s, hs⟩ := textual.tokens r survives.mem p q token
    obtain ⟨entries, collection, hd, source⟩ := textual.collections r survives.mem p q token
    have shape := tokenShape_of_valid valid survives.mem token
    rw [hd] at shape
    rw [hs, hd] at refused
    obtain ⟨rfl, rfl⟩ := Token.ofRecord_text_error shape source refused
    exact ⟨fun named => named.tokens r survives p q token hs, .token, by simp, rfl⟩
  | @mode r p vs survives mode noText =>
    obtain ⟨s, hs⟩ := textual.modes r survives.mem p mode
    exact absurd hs (noText s)
  | @theme r name member same unnamed =>
    obtain ⟨s, hs⟩ := textual.themes r member
    obtain rfl : name = .text s := Scalar.eq_text_of_beq (hs ▸ BEq.symm same)
    obtain rfl := unnamed s rfl
    exact ⟨fun named => named.themes r member hs, .theme, by simp, by decide⟩

end ThemeRecords

/-- An error that is found at a theme record, and is there: at the theme, at one of its modes or at one of its
tokens. -/
inductive Finding.ErrorAt (r : Scalar × Doc) : Finding → Prop where
  | missingModes (none : ∀ modes, r.2.modesIn ≠ .mapping modes) : ErrorAt r (.missingModes r.1)
  | missingMode {modes : List (Scalar × Doc)} {m : String} (held : r.2.modesIn = .mapping modes)
      (required : m ∈ requiredModes) (none : ((Doc.get? modes m).getD .null).isNull = true) :
      ErrorAt r (.missingMode r.1)
  | invalidMode {p : Scalar × Doc} (mode : r.2.HasMode p) (none : ∀ tokens, p.2 ≠ .mapping tokens) :
      ErrorAt r (.invalidMode r.1 p.1)
  | missingTypeOrValue {p q : Scalar × Doc} (token : r.2.HasToken p q) (unshaped : ¬ TokenShape q.2) :
      ErrorAt r (.missingTypeOrValue r.1 p.1 q.1)
  | invalidValue {p q : Scalar × Doc} (token : r.2.HasToken p q) (unshaped : ¬ TokenShape q.2) :
      ErrorAt r (.invalidValue r.1 p.1 q.1)

namespace Validation

variable {f : Finding}

theorem not_tokenShape_of_error {theme mode name : Scalar} {d : Doc} (error : f.isError = true)
    (h : token? theme mode name d = some f) : ¬ TokenShape d := by
  intro shape
  have harmless := harmless_token.mpr shape f (Option.mem_toList.mpr h)
  rw [error] at harmless
  cases harmless

theorem errorAt_token {r p q : Scalar × Doc} (token : r.2.HasToken p q) (error : f.isError = true)
    (h : token? r.1 p.1 q.1 q.2 = some f) : f.ErrorAt r := by
  have unshaped := not_tokenShape_of_error error h
  by_cases described : Described q.2
  · rw [token?_of_not_shape described unshaped] at h
    cases h
    exact .invalidValue token unshaped
  · rw [token?_of_not_described described] at h
    cases h
    exact .missingTypeOrValue token unshaped

theorem errorAt_mode {r p : Scalar × Doc} (held : r.2.HasMode p) (error : f.isError = true)
    (h : f ∈ mode r.1 p.1 p.2) : f.ErrorAt r := by
  unfold mode at h
  split at h
  next tokens ht =>
    obtain ⟨q, hq, found⟩ := List.mem_filterMap.mp h
    exact errorAt_token ⟨held, tokens, ht, hq⟩ error found
  next noMapping =>
    cases List.mem_singleton.mp h
    exact .invalidMode held noMapping

theorem errorAt_theme {r : Scalar × Doc} (error : f.isError = true) (h : f ∈ theme r.1 r.2) : f.ErrorAt r := by
  rw [theme_eq] at h
  split at h
  next modes held =>
    split at h
    next absent =>
      obtain ⟨m, required, none⟩ := List.any_eq_true.mp absent
      cases List.mem_singleton.mp h
      exact .missingMode held required none
    next =>
      obtain ⟨p, hp, found⟩ := List.mem_flatMap.mp h
      exact errorAt_mode ⟨modes, held, hp⟩ error found
  next noModes =>
    cases List.mem_singleton.mp h
    exact .missingModes noModes

theorem errorAt_records {index : Nat} {records : ThemeRecords} (error : f.isError = true)
    (h : f ∈ Validation.records index records.toDocs) : ∃ r ∈ records, f.ErrorAt r := by
  induction records generalizing index with
  | nil => cases h
  | cons r rest ih =>
    have split : ThemeRecords.toDocs (r :: rest) = .mapping [r] :: ThemeRecords.toDocs rest := rfl
    rw [split, records_cons] at h
    rcases List.mem_append.mp h with h | h
    · exact ⟨r, by simp, errorAt_theme error h⟩
    · obtain ⟨r', hr', found⟩ := ih h
      exact ⟨r', List.mem_cons_of_mem r hr', found⟩

/-- The error that theme records are rejected for is at one of them, unless there are none. -/
theorem errorAt_of_check {records : ThemeRecords} {failure : Failure}
    (h : (document records.toDoc).check = .error failure) :
    (records = [] ∧ failure = .rejected Finding.emptyInput.issue) ∨
      ∃ r ∈ records, ∃ f : Finding, f.ErrorAt r ∧ failure = .rejected f.issue := by
  obtain ⟨issue, listed, error, rfl⟩ := Report.check_error h
  obtain ⟨f, hf, rfl⟩ := List.mem_map.mp listed
  have found := Finding.mem_of_mem_upToError hf
  cases records with
  | nil =>
    cases List.mem_singleton.mp found
    exact .inl ⟨rfl, rfl⟩
  | cons r rest =>
    have inRecords : f ∈ Validation.records 0 (ThemeRecords.toDocs (r :: rest)) := found
    obtain ⟨r', hr', spot⟩ := errorAt_records error inRecords
    exact .inr ⟨r', hr', f, spot, rfl⟩

end Validation

namespace ThemeRecords

/-- The records of a JSON document that are in order make a table exactly if no theme and no token that counts
has an empty name, and are refused for such a name alone. All else that is wrong with them is reported at a
theme, a mode or a token. -/
theorem table_iff_named {d : Doc} (json : d.IsJson) {format : String} {theme : Option String}
    {modes : List String} {records : ThemeRecords}
    (assembled : (assemble d format theme modes).result = .ok records) :
    ((Validation.document records.toDoc).check = .ok () →
      ((∃ t, Table.ofRecords records.toDocs = .ok t) ↔ records.Named) ∧
      (¬ records.Named → ∃ model ∈ [Model.token, .theme], Table.ofRecords records.toDocs =
        .error (.failure (.invalidTable (.invalid model [⟨"name", .notEmpty⟩]))))) ∧
    ∀ failure, (Validation.document records.toDoc).check = .error failure →
      (records = [] ∧ failure = .rejected Finding.emptyInput.issue) ∨
        ∃ r ∈ records, ∃ f : Finding, f.ErrorAt r ∧ failure = .rejected f.issue := by
  refine ⟨?_, fun failure => Validation.errorAt_of_check⟩
  intro passed
  have valid := Report.check_ok_iff.mp passed
  have textual := textual_of_assemble json assembled
  cases made : Table.ofRecords records.toDocs with
  | ok t =>
    have named := named_of_ofRecords valid made
    exact ⟨iff_of_true ⟨t, rfl⟩ named, fun unnamed => absurd named unnamed⟩
  | error stop =>
    obtain ⟨fault, refused, rfl⟩ := refused_of_error valid made
    obtain ⟨unnamed, model, hmodel, rfl⟩ := refused.unnamed valid textual
    refine ⟨iff_of_false (by simp) unnamed, ?_⟩
    intro _
    exact ⟨model, hmodel, rfl⟩

theorem table_brandCollections : Collections.brandCollections.IsJson ∧ ∃ records,
    (assemble Collections.brandCollections "figma" none []).result = .ok records ∧
      (Validation.document records.toDoc).check = .ok () ∧ records.Named ∧
      ∃ t, Table.ofRecords records.toDocs = .ok t := by
  have json : Collections.brandCollections.IsJson := by
    simp [Collections.brandCollections, Doc.object, Doc.IsJson, Doc.AllJson, Doc.EntriesJson, Ordered.contains,
      Scalar.text_beq]
  have ran : (assemble Collections.brandCollections "figma" none []).result.toOption.any (fun records =>
      (Validation.document records.toDoc).isValid && (Table.ofRecords records.toDocs).isOk) = true := by
    decide +kernel
  obtain ⟨records, assembled, made⟩ := exists_ok_of_any ran
  obtain ⟨valid, made⟩ := Bool.and_eq_true_iff.mp made
  have passed := Report.check_ok_iff.mpr valid
  cases table : Table.ofRecords records.toDocs with
  | error stop =>
    rw [table] at made
    cases made
  | ok t =>
    obtain ⟨covered, -⟩ := (table_iff_named json assembled).1 passed
    exact ⟨json, records, assembled, passed, covered.mp ⟨t, table⟩, t, table⟩

/-- A collection in which a token has an empty name. -/
def unnamedToken : Doc :=
  .list [.object [("brand", .object [("modes", .object [
    ("light", .object [("", .object [("$type", .text "color"), ("$value", .text "#fff")])]),
    ("dark", .object [])])])]]

/-- Records with a token of an empty name are in order, and yet make no table. -/
theorem refused_unnamedToken : unnamedToken.IsJson ∧ ∃ records,
    (assemble unnamedToken "figma" none []).result = .ok records ∧
      (Validation.document records.toDoc).isValid = true ∧
      Table.ofRecords records.toDocs =
        .error (.failure (.invalidTable (.invalid .token [⟨"name", .notEmpty⟩]))) := by
  have json : unnamedToken.IsJson := by
    simp [unnamedToken, Doc.object, Doc.IsJson, Doc.AllJson, Doc.EntriesJson, Ordered.contains, Scalar.text_beq]
  have ran : (assemble unnamedToken "figma" none []).result.toOption.any (fun records =>
      (Validation.document records.toDoc).isValid && decide (Table.ofRecords records.toDocs =
        .error (.failure (.invalidTable (.invalid .token [⟨"name", .notEmpty⟩]))))) = true := by
    decide +kernel
  obtain ⟨records, assembled, refused⟩ := exists_ok_of_any ran
  obtain ⟨valid, refused⟩ := Bool.and_eq_true_iff.mp refused
  exact ⟨json, records, assembled, valid, of_decide_eq_true refused⟩

end ThemeRecords

end StyleTokens
