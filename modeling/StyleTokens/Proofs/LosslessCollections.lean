import StyleTokens.Proofs.TableFiles

namespace StyleTokens

theorem eraseDups_sublist (names : List String) : names.eraseDups.Sublist names := by
  induction names using List.reverseRecOn with
  | nil => exact .slnil
  | append_singleton names n ih =>
    rw [eraseDups_concat]
    split
    next => exact ih.trans (List.sublist_append_left names [n])
    next => exact ih.append (.refl [n])

theorem eraseDups_of_nodup {names : List String} (h : names.Nodup) : names.eraseDups = names := by
  induction names using List.reverseRecOn with
  | nil => rfl
  | append_singleton names n ih =>
    obtain ⟨distinct, _, apart⟩ := List.nodup_append.mp h
    have fresh : n ∉ names := fun hn => apart n hn n (by simp) rfl
    rw [eraseDups_concat, if_neg fresh, ih distinct]

namespace Collections

def keysOf : Doc → List Scalar
  | .mapping entries => Ordered.keys entries
  | _ => []

def allKeys : Doc → List Scalar
  | .list items => items.flatMap keysOf
  | _ => []

/-- The first key of an item is a name. -/
def NamedBy (item : Doc) (name : String) : Prop :=
  ∃ content rest, item = .mapping ((.text name, content) :: rest)

/-- Every key of a document has a theme of its own in a table, and the report counts them. -/
structure Lossless (d : Doc) (t : Table) (report : Report) : Prop where
  kept : ∀ key ∈ allKeys d, ∃ name ∈ t.themeNames, key = .text name
  apart : (allKeys d).Nodup
  counted : t.themeNames.length = (allKeys d).length
  reported : report.themes = t.themeNames.length

section Names

variable {items : List Doc} {names : List String}

theorem keysOf_of_namedBy {item : Doc} {name : String} (h : NamedBy item name) :
    ∃ more, keysOf item = .text name :: more := by
  obtain ⟨content, rest, rfl⟩ := h
  exact ⟨Ordered.keys rest, rfl⟩

theorem names_sublist_keys (h : List.Forall₂ NamedBy items names) :
    (names.map Scalar.text).Sublist (items.flatMap keysOf) := by
  induction h with
  | nil => exact .slnil
  | @cons item name items names named _ ih =>
    obtain ⟨more, hk⟩ := keysOf_of_namedBy named
    rw [List.map_cons, List.flatMap_cons, hk, List.cons_append]
    exact .cons_cons _ (ih.trans (List.sublist_append_right more _))

/-- Objects with a single key each have their names for keys, and no others have. -/
theorem keys_eq_names_iff (h : List.Forall₂ NamedBy items names) :
    items.flatMap keysOf = names.map Scalar.text ↔ ∀ item ∈ items, (keysOf item).length = 1 := by
  induction h with
  | nil => simp
  | @cons item name items names named all ih =>
    obtain ⟨more, hk⟩ := keysOf_of_namedBy named
    rw [List.forall_mem_cons, ← ih, List.flatMap_cons, List.map_cons, hk, List.cons_append, List.cons.injEq]
    constructor
    · intro same
      -- more keys here would make the keys of the rest fewer than its names
      have fewer := congrArg List.length same.2
      have enough := (names_sublist_keys all).length_le
      rw [List.length_append] at fewer
      have none : more = [] := List.length_eq_zero_iff.mp (by omega)
      rw [none] at same ⊢
      exact ⟨rfl, same.2⟩
    · intro single
      have none : more = [] := by simpa using single.1
      rw [none]
      exact ⟨rfl, single.2⟩

end Names

theorem namedBy_of_kept {items : List Doc} {records : ThemeRecords} (kept : List.Forall₂ KeptFrom items records)
    (texts : ∀ r ∈ records, r.1 = .text r.1.message) :
    List.Forall₂ NamedBy items (records.map fun r => r.1.message) := by
  induction kept with
  | nil => exact .nil
  | @cons item r items records from_item _ ih =>
    obtain ⟨first, later⟩ := List.forall_mem_cons.mp texts
    obtain ⟨content, rest, hi, _⟩ := from_item
    exact .cons ⟨content, rest, first ▸ hi⟩ (ih later)

end Collections

theorem Table.names_of_ofRecords {records : ThemeRecords} {t : Table}
    (held : ∀ r ∈ records, ∃ modes, r.2.modesIn = .mapping modes) (made : Table.ofRecords records.toDocs = .ok t) :
    (∀ r ∈ records, r.1 = .text r.1.message) ∧
      t.themeNames = (records.map fun r => r.1.message).eraseDups := by
  rw [Table.ofRecords_eq held, except_mapError_ok_iff] at made
  have all := (Table.ofEntries_ok_iff (Ordered.distinct_ofList _)).mp made
  have texts : ∀ r ∈ records, r.1 = .text r.1.message := by
    intro r hr
    obtain ⟨last, survives, same⟩ : ∃ last, Survives Prod.fst records last ∧ (last.1 == r.1) = true :=
      exists_survives hr
    obtain ⟨key, hm, hk⟩ : ∃ key,
        (key, last.2.modesIn) ∈ Ordered.ofList (records.map fun r => (r.1, r.2.modesIn)) ∧
          (key == last.1) = true := Ordered.exists_mem_ofList_of_survives survives
    -- the key of a theme is a text, and only a text is the same key as a text
    obtain ⟨theme, _, ho⟩ := exists_of_forall₂_left all hm
    have named : key = .text theme.name := Theme.name_of_ofDoc ho
    have text : (r.1 == .text theme.name) = true := BEq.symm (named ▸ BEq.trans hk same)
    rw [Scalar.eq_text_of_beq text]
    rfl
  refine ⟨texts, ?_⟩
  have pairs : (records.map fun r => (r.1, r.2.modesIn)) =
      records.map fun r => (Scalar.text r.1.message, r.2.modesIn) :=
    List.map_congr_left fun r hr => by rw [← texts r hr]
  rw [pairs] at all
  exact names_of_ofList (all.imp fun p theme ho => Theme.name_of_ofDoc ho)

theorem Validation.themes_document {d : Doc} (valid : (Validation.document d).isValid = true) :
    (Validation.document d).themes = Validation.themeCount d :=
  if_pos valid

namespace Collections

/-- The themes of a table of collections are the first keys of the objects; a name that comes again makes no
theme of its own, but the report counts its object too. -/
theorem names_of_buildTable {d : Doc} {theme : Option String} {modes : List String} {log : Bool} {t : Table}
    {report : Report} (built : (Pipeline.buildTable d ⟨"figma", theme, modes⟩ log).result = .ok (t, report)) :
    ∃ items names, d = .list items ∧ List.Forall₂ NamedBy items names ∧ t.themeNames = names.eraseDups ∧
      report.themes = items.length := by
  obtain ⟨records, assembled, valid, made, _, rfl⟩ := Pipeline.buildTable_ok_iff.mp built
  have held : ∀ r ∈ records, ∃ modes, r.2.modesIn = .mapping modes := by
    intro r hr
    obtain ⟨modes, shape⟩ := (ThemeRecords.isValid_iff.mp valid).2 r hr
    exact ⟨modes, shape.held⟩
  obtain ⟨texts, named⟩ := Table.names_of_ofRecords held made
  have normal := assemble_ok_iff.mp assembled
  cases d with
  | list items =>
    have kept : List.Forall₂ KeptFrom items records := keepItems_ok_iff.mp normal
    refine ⟨items, _, rfl, namedBy_of_kept kept texts, named, ?_⟩
    calc ((Validation.document records.toDoc).merge (Validation.references t)).themes
        = Validation.themeCount records.toDoc := Validation.themes_document valid
      _ = records.length := List.length_map _
      _ = items.length := kept.length_eq.symm
  | _ => cases normal

theorem lossless_iff_of_names {items : List Doc} {names : List String} {t : Table} {report : Report}
    (named : List.Forall₂ NamedBy items names) (themes : t.themeNames = names.eraseDups)
    (reported : report.themes = items.length) :
    Lossless (.list items) t report ↔ (∀ item ∈ items, (keysOf item).length = 1) ∧ names.Nodup := by
  have sub := names_sublist_keys named
  rw [← keys_eq_names_iff named]
  constructor
  · intro lossless
    -- the table has at most as many themes as there are names, and the document at least as many keys
    have few := (eraseDups_sublist names).length_le
    have counted := lossless.counted
    rw [themes] at counted
    have all : (names.map Scalar.text).length = (items.flatMap keysOf).length := by
      have most := sub.length_le
      simp only [allKeys] at counted
      rw [List.length_map] at most ⊢
      omega
    have distinct : (names.map Scalar.text).Nodup := lossless.apart.sublist sub
    exact ⟨(sub.eq_of_length all).symm, distinct.of_map⟩
  · rintro ⟨keys, distinct⟩
    rw [eraseDups_of_nodup distinct] at themes
    refine ⟨?_, ?_, ?_, ?_⟩
    · intro key hkey
      rw [allKeys, keys] at hkey
      obtain ⟨name, hn, rfl⟩ := List.mem_map.mp hkey
      exact ⟨name, themes ▸ hn, rfl⟩
    · rw [allKeys, keys]
      exact distinct.map fun _ _ => Scalar.text.inj
    · rw [allKeys, keys, themes, List.length_map]
    · rw [reported, themes, named.length_eq]

/-- A run over collections that succeeds keeps all of them exactly if each object has a single key and no name
comes twice; its themes are the names that stand first in the objects, each once. -/
theorem lossless_iff {selector : String} {d : Doc} {theme : Option String} {modes : List String}
    {generate log : Bool} {o : Outcome} {t : Table}
    (run : (Pipeline.run selector d ⟨"figma", theme, modes⟩ generate log).result = .ok o)
    (built : o.table? = some t) :
    ∃ items names report, d = .list items ∧ List.Forall₂ NamedBy items names ∧
      (Pipeline.buildTable d ⟨"figma", theme, modes⟩ log).result = .ok (t, report) ∧
      t.themeNames = names.eraseDups ∧ report.themes = items.length ∧
      (Lossless d t report ↔ (∀ item ∈ items, (keysOf item).length = 1) ∧ names.Nodup) := by
  have builds := Pipeline.exists_builds_of_table? run built
  have makes : ∃ report, (Pipeline.buildTable d ⟨"figma", theme, modes⟩ log).result = .ok (t, report) :=
    Pipeline.exists_buildTable_iff.mpr builds
  obtain ⟨report, made⟩ := makes
  obtain ⟨items, names, rfl, named, themes, reported⟩ := names_of_buildTable made
  exact ⟨items, names, report, rfl, named, made, themes, reported,
    lossless_iff_of_names named themes reported⟩

/-- A content with the modes that a theme must have, both without tokens. -/
def bareContent : Doc :=
  .object [("modes", .object [("light", .object []), ("dark", .object [])])]

def separateCollections : Doc := .list [.object [("a", bareContent)], .object [("b", bareContent)]]

theorem lossless_separateCollections : ∃ o t report,
    (Pipeline.run ":root" separateCollections ⟨"figma", none, []⟩ true true).result = .ok o ∧
      o.table? = some t ∧
      (Pipeline.buildTable separateCollections ⟨"figma", none, []⟩ true).result = .ok (t, report) ∧
      Lossless separateCollections t report := by
  have ran : (Pipeline.run ":root" separateCollections ⟨"figma", none, []⟩ true true).result.toOption.any
      (fun o => o.table?.isSome) = true := by decide +kernel
  obtain ⟨o, ho, some⟩ := exists_ok_of_any ran
  obtain ⟨t, ht⟩ := Option.isSome_iff_exists.mp some
  obtain ⟨items, names, report, listed, named, made, _, _, lossless⟩ := lossless_iff ho ht
  refine ⟨o, t, report, ho, ht, made, lossless.mpr ?_⟩
  cases listed
  obtain _ | ⟨⟨_, _, first⟩, _ | ⟨⟨_, _, second⟩, _ | _⟩⟩ := named
  cases first
  cases second
  exact ⟨by decide, by decide⟩

def pairedCollections : Doc := .list [.object [("a", bareContent), ("b", bareContent)]]

/-- A run succeeds over an object with two collections and loses the second. -/
theorem lossy_paired : ∃ o t report,
    (Pipeline.run ":root" pairedCollections ⟨"figma", none, []⟩ true true).result = .ok o ∧ o.table? = some t ∧
      (Pipeline.buildTable pairedCollections ⟨"figma", none, []⟩ true).result = .ok (t, report) ∧
      ¬ Lossless pairedCollections t report := by
  have fewer : (Pipeline.run ":root" pairedCollections ⟨"figma", none, []⟩ true true).result.toOption.any
      (fun o => o.table?.any fun t => t.themeNames.length < (allKeys pairedCollections).length) = true := by
    decide +kernel
  obtain ⟨o, ho, table⟩ := exists_ok_of_any fewer
  obtain ⟨t, ht, less⟩ := (Option.any_eq_true _ _).mp table
  have makes : ∃ report, (Pipeline.buildTable pairedCollections ⟨"figma", none, []⟩ true).result = .ok (t, report) :=
    Pipeline.exists_buildTable_iff.mpr (Pipeline.exists_builds_of_table? ho ht)
  obtain ⟨report, made⟩ := makes
  refine ⟨o, t, report, ho, ht, made, ?_⟩
  intro lossless
  exact (of_decide_eq_true less).ne lossless.counted

end Collections

end StyleTokens
