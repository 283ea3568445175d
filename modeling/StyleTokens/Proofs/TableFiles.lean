import StyleTokens.Proofs.KeptFindings
import StyleTokens.Proofs.LoadedFiles
import StyleTokens.Proofs.NestedTables

namespace StyleTokens

theorem Doc.entriesJson_of_nodup {α : Type} {name : α → String} {value : α → Doc} {xs : List α}
    (distinct : (xs.map name).Nodup) (json : ∀ x ∈ xs, (value x).IsJson) :
    Doc.EntriesJson (xs.map fun x => (.text (name x), value x)) := by
  refine entriesJson_of_distinct (distinct_of_nodup distinct) ?_
  rintro _ hp
  obtain ⟨x, hx, rfl⟩ := List.mem_map.mp hp
  exact ⟨⟨name x, rfl⟩, json x hx⟩

theorem Doc.object_map {α : Type} (name : α → String) (value : α → Doc) (xs : List α) :
    Doc.object (xs.map fun x => (name x, value x)) = .mapping (xs.map fun x => (.text (name x), value x)) := by
  rw [Doc.object, List.map_map]
  rfl

theorem Token.isJson_toRecord (t : Token) : t.toRecord.IsJson := by
  have value : (Doc.scalar t.value.toScalar).IsJson := by
    cases t.value <;> trivial
  have distinct : RecordKey.type ≠ RecordKey.value ∧ RecordKey.type ≠ RecordKey.collection ∧
      RecordKey.value ≠ RecordKey.collection := by decide
  obtain ⟨typeValue, typeSource, valueSource⟩ := distinct
  unfold Token.toRecord
  split
  · split
    · exact ⟨⟨_, rfl⟩, by simp [Ordered.contains, Scalar.text_beq, typeValue.symm], trivial, ⟨_, rfl⟩, rfl, value,
        trivial⟩
    · exact ⟨⟨_, rfl⟩, by simp [Ordered.contains, Scalar.text_beq, typeValue.symm, typeSource.symm], trivial,
        ⟨_, rfl⟩, by simp [Ordered.contains, Scalar.text_beq, valueSource.symm], value, ⟨_, rfl⟩, rfl, trivial,
        trivial⟩
  · exact ⟨⟨_, rfl⟩, by simp [Ordered.contains, Scalar.text_beq, typeValue.symm], trivial, ⟨_, rfl⟩, rfl, value,
      trivial⟩

theorem Mode.isJson_toDoc (m : Mode) : m.toDoc.IsJson := by
  rw [Mode.toDoc, Doc.object_map]
  exact Doc.entriesJson_of_nodup m.tokens.distinct fun t _ => t.isJson_toRecord

theorem Theme.isJson_toDoc (t : Theme) : t.toDoc.IsJson := by
  rw [Theme.toDoc, Doc.object_map]
  exact Doc.entriesJson_of_nodup t.modes.distinct fun m _ => m.isJson_toDoc

theorem Table.isJson_toDoc (t : Table) : t.toDoc.IsJson := by
  rw [Table.toDoc, Doc.object_map]
  exact Doc.entriesJson_of_nodup t.themes.distinct fun theme _ => theme.isJson_toDoc

/-- Every token with a collection has one with a name. -/
def Table.NamedCollections (t : Table) : Prop :=
  ∀ theme ∈ t.themes.items, ∀ m ∈ theme.modes.items, ∀ token ∈ m.tokens.items, token.collection ≠ some ""

theorem Token.ofRecord_toRecord {t : Token} (named : t.collection ≠ some "") :
    Token.ofRecord (.text t.name) t.toRecord = .ok t := by
  refine Token.ofRecord_ok_iff.mpr ⟨_, rfl, rfl, ?_⟩
  cases hc : t.collection with
  | none =>
    simp [Doc.get?, Ordered.find?, Scalar.text_beq, RecordKey.type, RecordKey.value, RecordKey.collection,
      Token.checkCollection]
  | some c =>
    have filled : c ≠ "" := fun he => named (he ▸ hc)
    simp [Doc.get?, Ordered.find?, Scalar.text_beq, RecordKey.type, RecordKey.value, RecordKey.collection,
      Token.checkCollection, filled]

theorem forall₂_entries {α : Type} {name : α → String} {value : α → Doc} {read : Scalar → Doc → Except TableFault α}
    {xs : List α} (reads : ∀ x ∈ xs, read (.text (name x)) (value x) = .ok x) :
    List.Forall₂ (fun p x => read p.1 p.2 = .ok x) (xs.map fun x => (.text (name x), value x)) xs := by
  rw [List.forall₂_map_left_iff]
  exact List.forall₂_same.mpr reads

theorem Mode.ofDoc_toDoc {m : Mode} (named : ∀ t ∈ m.tokens.items, t.collection ≠ some "") :
    Mode.ofDoc (.text m.name) m.toDoc = .ok m := by
  rw [Mode.toDoc, Doc.object_map, Mode.ofDoc_ok_iff (distinct_of_nodup m.tokens.distinct)]
  exact ⟨rfl, forall₂_entries fun t ht => Token.ofRecord_toRecord (named t ht)⟩

theorem Theme.ofDoc_toDoc {t : Theme}
    (named : ∀ m ∈ t.modes.items, ∀ token ∈ m.tokens.items, token.collection ≠ some "") :
    Theme.ofDoc (.text t.name) t.toDoc = .ok t := by
  rw [Theme.toDoc, Doc.object_map, Theme.ofDoc_ok_iff (distinct_of_nodup t.modes.distinct)]
  exact ⟨rfl, forall₂_entries fun m hm => Mode.ofDoc_toDoc (named m hm)⟩

theorem Table.ofDoc_toDoc {t : Table} (named : t.NamedCollections) : Table.ofDoc t.toDoc = .ok t := by
  rw [Table.toDoc, Doc.object_map, Table.ofDoc, Table.ofEntries_ok_iff (distinct_of_nodup t.themes.distinct)]
  exact forall₂_entries fun theme hm => Theme.ofDoc_toDoc (named theme hm)

theorem Roster.mem_of_mem_ofList {α : Type} {name : α → String} {xs : List α} {x : α}
    (h : x ∈ (Roster.ofList xs : Roster α name).items) : x ∈ xs := by
  have put : ∀ (x y : α) (ys : List α), x ∈ putByName name y ys → x = y ∨ x ∈ ys := by
    intro x y ys
    induction ys with
    | nil => simp [putByName]
    | cons z rest ih =>
      unfold putByName
      split
      · exact fun hx => (List.mem_cons.mp hx).imp_right (List.mem_cons_of_mem z)
      · intro hx
        rcases List.mem_cons.mp hx with rfl | hx
        · exact .inr (by simp)
        · exact (ih hx).imp_right (List.mem_cons_of_mem z)
  have all : ∀ (ys : List α) (r : Roster α name), x ∈ (ys.foldl Roster.put r).items → x ∈ r.items ∨ x ∈ ys := by
    intro ys
    induction ys with
    | nil => exact fun r hx => .inl hx
    | cons y rest ih =>
      intro r hx
      rcases ih (r.put y) hx with hx | hx
      · rcases put x y r.items hx with rfl | hx
        · exact .inr (by simp)
        · exact .inl hx
      · exact .inr (List.mem_cons_of_mem y hx)
  exact (all xs .empty h).resolve_left (by simp [Roster.empty])

/-- Every token of a table comes from a record in the entries of which the table is made. -/
theorem Table.exists_record {entries : List (Scalar × Doc)} {t : Table} (h : Table.ofEntries entries = .ok t)
    {theme : Theme} (htheme : theme ∈ t.themes.items) {m : Mode} (hm : m ∈ theme.modes.items) {token : Token}
    (htoken : token ∈ m.tokens.items) :
    ∃ p ∈ entries, p.1 = .text theme.name ∧ ∃ modes, p.2 = .mapping modes ∧ ∃ q ∈ modes,
      ∃ tokens, q.2 = .mapping tokens ∧ ∃ r ∈ tokens, Token.ofRecord r.1 r.2 = .ok token := by
  obtain ⟨themes, made, built⟩ := except_bind_ok_iff.mp h
  cases built
  obtain ⟨p, hp, hth⟩ := exists_of_forall₂_right (mapM_ok_iff.mp made) (Roster.mem_of_mem_ofList htheme)
  obtain ⟨modes, ms, hd, name, modesMade, hms⟩ := Theme.ofDoc_ok hth
  obtain ⟨q, hq, hmode⟩ := exists_of_forall₂_right modesMade (Roster.mem_of_mem_ofList (hms ▸ hm))
  obtain ⟨tokens, ts, hd', -, tokensMade, hts⟩ := Mode.ofDoc_ok hmode
  obtain ⟨r, hr, hrecord⟩ := exists_of_forall₂_right tokensMade (Roster.mem_of_mem_ofList (hts ▸ htoken))
  exact ⟨p, hp, name, modes, hd, q, hq, tokens, hd', r, hr, hrecord⟩

/-- What a run makes of collections has the collection's name at every token. -/
theorem Collections.collection_of_kept {collection : Scalar} {content : Doc} {modes : List (Scalar × Doc)}
    (held : (keepCollection collection content).modesIn = .mapping modes) {q : Scalar × Doc} (hq : q ∈ modes)
    {tokens : List (Scalar × Doc)} (ht : q.2 = .mapping tokens) {r : Scalar × Doc} (hr : r ∈ tokens)
    {token : Token} (made : Token.ofRecord r.1 r.2 = .ok token) :
    Token.checkCollection (some (.scalar collection)) = .ok token.collection := by
  obtain ⟨_, sources, _, _, rfl⟩ := exists_modes_of_keepCollection held
  obtain ⟨source, _, rfl⟩ := List.mem_map.mp hq
  obtain ⟨entries, hs⟩ : ∃ entries, source.2 = .mapping entries := by
    cases hs : source.2 with
    | mapping entries => exact ⟨entries, rfl⟩
    | _ =>
      simp only [hs] at ht
      cases ht
  obtain ⟨kept, hk, all⟩ := exists_carried collection entries
  simp only [hs] at ht
  cases hk.symm.trans ht
  obtain ⟨c, _, _, record, hd, _, _, named⟩ := exists_of_forall₂_right all hr
  obtain ⟨record', hd', _, _, _, checked⟩ := Token.ofRecord_ok_iff.mp made
  cases hd.symm.trans hd'
  rwa [named] at checked

/-- The records of a run are those of its collections as they are kept, or the single one of its tree. -/
theorem ThemeRecords.assemble_cases {d : Doc} {format : String} {theme : Option String} {modes : List String}
    {records : ThemeRecords} (h : (ThemeRecords.assemble d format theme modes).result = .ok records) :
    (∃ docs, d = .list docs ∧ List.Forall₂ Collections.KeptFrom docs records) ∨
      ∃ name, records = Nested.themeRecord d name modes := by
  unfold ThemeRecords.assemble at h
  split at h
  next => cases h
  next =>
    split at h
    next => cases h
    next kept normal =>
      cases d with
      | list docs =>
        cases h
        exact .inl ⟨docs, rfl, Collections.keepItems_ok_iff.mp normal⟩
      | _ => cases normal
  next =>
    split at h
    next => cases h
    next name _ =>
      simp only [Traced.result_bind, except_bind_ok_iff] at h
      obtain ⟨flat, flattened, _, _, same⟩ := h
      obtain ⟨-, rfl⟩ := Nested.flatten_ok flattened
      cases same
      exact .inr ⟨name, Nested.ofFlat_eq _ _ _⟩

theorem Nested.collection_of_entry {ls : List Leaf} {modes : List String} {q : Scalar × Doc}
    (hq : q ∈ modeEntries ls modes) {tokens : List (Scalar × Doc)} (ht : q.2 = .mapping tokens)
    {r : Scalar × Doc} (hr : r ∈ tokens) {token : Token} (made : Token.ofRecord r.1 r.2 = .ok token) :
    token.collection = none := by
  obtain ⟨_, _, rfl⟩ := mem_modeEntries_iff.mp hq
  cases ht
  obtain ⟨l, _, _, record⟩ := Ordered.exists_survives_of_mem_ofList hr
  obtain ⟨entries, hd, _, _, _, checked⟩ := Token.ofRecord_ok_iff.mp made
  cases record.trans hd
  obtain ⟨_, _, unnamed⟩ := get?_shortRecord l
  rw [unnamed] at checked
  exact (Except.ok.inj checked).symm

/-- The tokens of a table that a run builds have no collection, or the name of their theme for it. -/
theorem Pipeline.Builds.collection_eq {d : Doc} {request : Request} {records : ThemeRecords} {t : Table}
    (h : Pipeline.Builds d request records t) {theme : Theme} (htheme : theme ∈ t.themes.items) {m : Mode}
    (hm : m ∈ theme.modes.items) {token : Token} (htoken : token ∈ m.tokens.items) :
    token.collection = none ∨ token.collection = some theme.name := by
  obtain ⟨assembled, valid, made, -⟩ := h
  obtain ⟨-, shapes⟩ := ThemeRecords.isValid_iff.mp valid
  rw [Table.ofRecords_of_shapes shapes, except_mapError_ok_iff] at made
  obtain ⟨p, hp, name, modes, hmodes, q, hq, tokens, ht, r, hr, record⟩ :=
    Table.exists_record made htheme hm htoken
  obtain ⟨source, survives, same, content⟩ := Ordered.exists_survives_of_mem_ofList hp
  have key : source.1 = .text theme.name := Scalar.eq_text_of_beq (name ▸ same)
  rw [hmodes] at content
  -- an export by collections writes the collection into every entry, a tree into none
  rcases ThemeRecords.assemble_cases assembled with ⟨docs, -, kept⟩ | ⟨theme', rfl⟩
  · obtain ⟨item, _, content', _, _, hs⟩ := exists_of_forall₂_right kept survives.mem
    have checked := Collections.collection_of_kept (hs ▸ content) hq ht hr record
    rw [key] at checked
    exact .inr (Except.ok.inj checked).symm
  · rw [List.mem_singleton.mp survives.mem, Nested.modesIn_content] at content
    exact .inl (Nested.collection_of_entry (Doc.mapping.inj content ▸ hq) ht hr record)

theorem Pipeline.Builds.namedCollections {d : Doc} {request : Request} {records : ThemeRecords} {t : Table}
    (h : Pipeline.Builds d request records t) : t.NamedCollections := by
  intro theme htheme m hm token htoken empty
  rcases h.collection_eq htheme hm htoken with none | some
  · rw [none] at empty
    cases empty
  · rw [some] at empty
    exact theme.named (Option.some.inj empty)

namespace Source

variable {path : Path}

/-- The table of a successful run, written to a file by itself, is read back from the file as it was. -/
theorem loadTable_of_write {selector : String} {d : Doc} {request : Request} {generate log : Bool} {o : Outcome}
    {t : Table} (run : (Pipeline.run selector d request generate log).result = .ok o) (built : o.table? = some t)
    {after : FileTree} {directory : Path} {filename : String} {written : Traced Stop (List Path)}
    (write : Output.write tree directory [Bundle.tableArtifact filename t] = (after, written))
    (ok : written.result = .ok [path]) (json : isYaml path = false) :
    loadTable after path = .ok t := by
  obtain ⟨records, builds⟩ := Pipeline.exists_builds_of_table? run built
  obtain ⟨clean, here⟩ := Output.status_of_write write ok
  have loaded : load after path = .ok t.toDoc := load_printed clean here json t.isJson_toDoc
  have reads := Table.ofDoc_toDoc builds.namedCollections
  rw [Table.toDoc, Doc.object_map] at loaded reads
  have made : Table.ofEntries (t.themes.items.map fun theme => (.text theme.name, theme.toDoc)) = .ok t := reads
  simp only [loadTable, loaded, bind, Except.bind, made]
  rfl

/-- A collection with a value of each kind, and texts that need escapes. -/
def assortedCollection : Doc :=
  .list [.object [("brand \"one\"", .object [("modes", .object [
    ("light", .object [
      ("whole", .object [("$type", .text "float"), ("$value", .scalar (.int (-9007199254740993)))]),
      ("same", .object [("$type", .text "float"), ("$value", .scalar (.double (.ofInt 1)))]),
      ("endless", .object [("$type", .text "float"), ("$value", .scalar (.double (.infinity true)))]),
      ("nothing", .object [("$type", .text "float"), ("$value", .scalar (.double .nan))]),
      ("flag", .object [("$type", .text "string"), ("$value", .scalar (.bool true))]),
      ("text", .object [("$type", .text "string"), ("$value", .text "a\r\n\t\\é😀")])]),
    ("dark", .object [])])])]]

theorem loadTable_of_write_assorted : ∃ o t after written,
    (Pipeline.run ":root" assortedCollection ⟨"figma", none, []⟩ false true).result = .ok o ∧
      o.table? = some t ∧
      Output.write (.bare ["work"]) (.ofString "output") [Bundle.tableArtifact Bundle.tableFilename t]
        = (after, written) ∧
      written.result = .ok [.ofString "output/tokens-flattened.json"] ∧
      loadTable after (.ofString "output/tokens-flattened.json") = .ok t := by
  have ran : (Pipeline.run ":root" assortedCollection ⟨"figma", none, []⟩ false true).result.toOption.any
      (fun o => o.table?.any fun t =>
        (Output.write (.bare ["work"]) (.ofString "output")
          [Bundle.tableArtifact Bundle.tableFilename t]).2.result.toOption.any
            fun paths => paths = [.ofString "output/tokens-flattened.json"]) = true := by decide +kernel
  obtain ⟨o, ho, made⟩ := exists_ok_of_any ran
  obtain ⟨t, ht, made⟩ := (Option.any_eq_true _ _).mp made
  obtain ⟨paths, written, same⟩ := exists_ok_of_any made
  rw [of_decide_eq_true same] at written
  exact ⟨o, t, _, _, ho, ht, rfl, written, loadTable_of_write ho ht rfl written (by decide +kernel)⟩

end Source

end StyleTokens
