import StyleTokens.Proofs.BuiltTables
import StyleTokens.Proofs.JsonDocuments

namespace StyleTokens

namespace Collections

/-- An entry of a mode that is an object with a type and a value. -/
structure Carried where
  name : Scalar
  type : Doc
  value : Doc

/-- The type and the value that an entry carries, if it has both. -/
def carried? (p : Scalar × Doc) : Option Carried :=
  match p.2 with
  | .mapping entries =>
    match Doc.get? entries RecordKey.type, Doc.get? entries RecordKey.value with
    | some type, some value => some ⟨p.1, type, value⟩
    | _, _ => none
  | _ => none

/-- The entries of a mode that carry a type and a value, in order. -/
def carried : Doc → List Carried
  | .mapping entries => entries.filterMap carried?
  | _ => []

/-- A collection: its name and its modes. -/
structure Item where
  name : String
  modes : List (Scalar × Doc)

namespace Item

/-- The first key of a document is the name of a collection, and its modes stand in the object there. -/
def Reads (i : Item) (d : Doc) : Prop :=
  ∃ content rest, d = .mapping ((.text i.name, .mapping content) :: rest) ∧
    Doc.get? content ExportKey.modes = some (.mapping i.modes)

/-- What every collection must fulfil, also one that is replaced later. -/
structure WellFormed (i : Item) : Prop where
  required : ∀ m ∈ requiredModes, ∃ d, Doc.get? i.modes m = some d ∧ d.isNull = false
  objects : ∀ p ∈ i.modes, ∃ tokens, p.2 = .mapping tokens
  typed : ∀ p ∈ i.modes, ∀ c ∈ carried p.2, Typed c.type c.value

/-- What a collection must fulfil that is not replaced later. -/
structure Buildable (i : Item) : Prop where
  named : ∀ p ∈ i.modes, ∀ c ∈ carried p.2, c.name ≠ .text ""
  acyclic : ∀ p ∈ i.modes, AcyclicBy fun x d => ∃ c ∈ carried p.2, c.name = .text x ∧ c.value = d

end Item

/-- A document that lists collections. -/
def Lists (d : Doc) (items : List Item) : Prop :=
  ∃ docs, d = .list docs ∧ List.Forall₂ Item.Reads items docs

/-- The collections of which a table can be made. -/
structure Accepted (items : List Item) : Prop where
  filled : items ≠ []
  named : ∀ i ∈ items, i.name ≠ ""
  wellFormed : ∀ i ∈ items, i.WellFormed
  buildable : ∀ i, Survives Item.name items i → i.Buildable

/-- A mode of an entry of the modes of a collection. -/
structure ModeFrom (collection : String) (p : Scalar × Doc) (m : Mode) : Prop where
  name : p.1 = .text m.name
  tokens : List.Forall₂ (fun c t => TokenOf c.name c.type c.value (some collection) t) (carried p.2)
    m.tokens.items

/-- A theme of a collection. -/
structure ThemeFrom (i : Item) (t : Theme) : Prop where
  name : t.name = i.name
  modes : List.Forall₂ (ModeFrom i.name) i.modes t.modes.items

/-- A table of collections: one theme for each name, in the order in which the names first come, and each
of the last collection with its name. -/
structure Describes (items : List Item) (t : Table) : Prop where
  names : t.themeNames = (items.map Item.name).eraseDups
  themes : ∀ theme ∈ t.themes.items, ∃ i, Survives Item.name items i ∧ ThemeFrom i theme

/-- An entry as it is kept: under the same name, with the current type, the value and the collection. -/
structure KeptAs (collection : Scalar) (c : Carried) (p : Scalar × Doc) : Prop where
  name : p.1 = c.name
  record : ∃ entries, p.2 = .mapping entries ∧
    Doc.get? entries RecordKey.type = some (currentType c.type) ∧
    Doc.get? entries RecordKey.value = some c.value ∧
    Doc.get? entries RecordKey.collection = some (.scalar collection)

theorem get?_insert (entries : List (Scalar × Doc)) (key k : String) (d : Doc) :
    Doc.get? (Ordered.insert entries (.text key) d) k = if key = k then some d else Doc.get? entries k := by
  simp [Doc.get?, Ordered.find?_insert, Scalar.text_beq]

theorem entryAsKept?_of_carried {collection : Scalar} {p : Scalar × Doc} {c : Carried}
    (h : carried? p = some c) :
    ∃ d, entryAsKept? collection p.2 = some d ∧ KeptAs collection c (p.1, d) := by
  unfold carried? at h
  split at h
  next entries he =>
    split at h
    next type value hty hv =>
      cases h
      rw [he]
      simp only [entryAsKept?, hty, hv]
      refine ⟨_, rfl, rfl, _, rfl, ?_, ?_, ?_⟩
      · simp [get?_insert, RecordKey.type, RecordKey.collection]
      · simp [get?_insert, RecordKey.type, RecordKey.collection, RecordKey.value, ← hv]
      · simp [get?_insert]
    next => cases h
  next => cases h

theorem entryAsKept?_of_not_carried {collection : Scalar} {p : Scalar × Doc}
    (h : carried? p = none) : entryAsKept? collection p.2 = none := by
  unfold carried? at h
  split at h
  next entries he =>
    split at h
    next => cases h
    next incomplete =>
      simp only [he, entryAsKept?]
  next noMapping =>
    unfold entryAsKept?
    split
    next entries he => exact absurd he (noMapping entries)
    next => rfl

/-- What is kept of a mode are its entries with a type and a value, in order. -/
theorem forall₂_kept (collection : Scalar) (entries : List (Scalar × Doc)) :
    List.Forall₂ (KeptAs collection) (carried (.mapping entries))
      (entries.filterMap fun p => (entryAsKept? collection p.2).map fun d => (p.1, d)) := by
  simp only [carried]
  induction entries with
  | nil => exact .nil
  | cons p rest ih =>
    cases h : carried? p with
    | none =>
      have dropped : entryAsKept? collection p.2 = none := entryAsKept?_of_not_carried h
      rw [List.filterMap_cons_none h, List.filterMap_cons_none (by simp [dropped])]
      exact ih
    | some c =>
      obtain ⟨d, hd, kept⟩ : ∃ d, entryAsKept? collection p.2 = some d ∧
          KeptAs collection c (p.1, d) := entryAsKept?_of_carried h
      rw [List.filterMap_cons_some h, List.filterMap_cons_some (b := (p.1, d)) (by simp [hd])]
      exact .cons kept ih

theorem KeptAs.tokenShape_iff {collection : Scalar} {c : Carried} {p : Scalar × Doc}
    (h : KeptAs collection c p) : TokenShape p.2 ↔ Typed c.type c.value := by
  obtain ⟨_, entries, he, hty, hv, _⟩ := h
  rw [he]
  exact StyleTokens.tokenShape_iff hty hv

/-- A kept entry makes a token exactly if the token is of what the entry carries. -/
theorem KeptAs.ofRecord_ok_iff {collection : String} {c : Carried} {p : Scalar × Doc} {t : Token}
    (h : KeptAs (.text collection) c p) :
    Token.ofRecord p.1 p.2 = .ok t ↔ TokenOf c.name c.type c.value (some collection) t := by
  obtain ⟨hn, entries, he, hty, hv, hc⟩ := h
  have named : Token.checkCollection (Doc.get? entries RecordKey.collection) = .ok (some collection) := by
    rw [hc]
    rfl
  rw [hn, he]
  exact ofRecord_ok_iff_of_source hty hv named

/-- The modes of a collection as they are kept. -/
def keptModes (collection : Scalar) (modes : List (Scalar × Doc)) : List (Scalar × Doc) :=
  modes.map fun p => (p.1, keepMode collection p.2)

theorem modesIn_keepCollection {collection : Scalar} {content : List (Scalar × Doc)}
    {modes : List (Scalar × Doc)} (h : Doc.get? content ExportKey.modes = some (.mapping modes)) :
    (keepCollection collection (.mapping content)).modesIn = .mapping (keptModes collection modes) := by
  simp [keepCollection, h, Doc.modesIn, get?_insert, keptModes]

theorem exists_modes_of_keepCollection {collection : Scalar} {content : Doc}
    {kept : List (Scalar × Doc)} (h : (keepCollection collection content).modesIn = .mapping kept) :
    ∃ entries modes, content = .mapping entries ∧
      Doc.get? entries ExportKey.modes = some (.mapping modes) ∧ kept = keptModes collection modes := by
  cases content with
  | mapping entries =>
    cases hg : Doc.get? entries ExportKey.modes with
    | none => simp [keepCollection, hg, Doc.modesIn] at h
    | some d =>
      cases d with
      | mapping modes =>
        rw [modesIn_keepCollection hg] at h
        exact ⟨entries, modes, rfl, hg, (Doc.mapping.inj h).symm⟩
      | _ => simp [keepCollection, hg, Doc.modesIn] at h
  | _ => simp [keepCollection, Doc.modesIn] at h

theorem exists_carried (collection : Scalar) (tokens : List (Scalar × Doc)) :
    ∃ kept, keepMode collection (.mapping tokens) = .mapping kept ∧
      List.Forall₂ (KeptAs collection) (carried (.mapping tokens)) kept :=
  ⟨_, rfl, forall₂_kept collection tokens⟩

theorem isNull_keepMode (collection : Scalar) (d : Doc) : (keepMode collection d).isNull = d.isNull := by
  cases d <;> rfl

/-- The modes are in order as they are kept exactly if the collection is well-formed. -/
theorem Item.themeShape_iff {i : Item} {content : Doc}
    (held : content.modesIn = .mapping (keptModes (.text i.name) i.modes)) :
    ThemeShape content (keptModes (.text i.name) i.modes) ↔ i.WellFormed := by
  have found : ∀ m, Doc.get? (keptModes (.text i.name) i.modes) m =
      (Doc.get? i.modes m).map (keepMode (.text i.name)) :=
    fun m => Ordered.find?_map i.modes (keepMode (.text i.name)) (.text m)
  constructor
  · intro shape
    have object : ∀ p ∈ i.modes, ∃ tokens, keepMode (.text i.name) p.2 = .mapping tokens ∧
        ∀ q ∈ tokens, TokenShape q.2 := by
      intro p hp
      exact shape.tokens _ (List.mem_map_of_mem hp)
    have objects : ∀ p ∈ i.modes, ∃ tokens, p.2 = .mapping tokens := by
      intro p hp
      obtain ⟨_, hk, _⟩ := object p hp
      cases hd : p.2 with
      | mapping tokens => exact ⟨tokens, rfl⟩
      | _ =>
        rw [hd] at hk
        cases hk
    refine ⟨?_, objects, ?_⟩
    · intro m hm
      obtain ⟨c, hc, hn⟩ := shape.required m hm
      rw [found] at hc
      obtain ⟨d, hd, rfl⟩ := Option.map_eq_some_iff.mp hc
      exact ⟨d, hd, isNull_keepMode _ d ▸ hn⟩
    · intro p hp c hc
      obtain ⟨kept, hk, shapes⟩ := object p hp
      obtain ⟨tokens, ht⟩ := objects p hp
      rw [ht] at hk hc
      obtain ⟨_, hk', all⟩ := exists_carried (.text i.name) tokens
      cases hk.symm.trans hk'
      obtain ⟨q, hq, as⟩ := exists_of_forall₂_left all hc
      exact as.tokenShape_iff.mp (shapes q hq)
  · intro wf
    refine ⟨held, ?_, ?_⟩
    · intro m hm
      obtain ⟨d, hd, hn⟩ := wf.required m hm
      refine ⟨keepMode (.text i.name) d, by rw [found, hd]; rfl, ?_⟩
      rw [isNull_keepMode, hn]
    · intro q hq
      obtain ⟨p, hp, rfl⟩ := List.mem_map.mp hq
      obtain ⟨tokens, ht⟩ := wf.objects p hp
      obtain ⟨kept, hk, all⟩ := exists_carried (.text i.name) tokens
      refine ⟨kept, by rw [ht, hk], ?_⟩
      intro q hq
      obtain ⟨c, hc, as⟩ := exists_of_forall₂_right all hq
      exact as.tokenShape_iff.mpr (wf.typed p hp c (ht ▸ hc))

/-- A theme record of a collection: its name, and its modes as they are kept. -/
structure KeptItem (i : Item) (r : Scalar × Doc) : Prop where
  name : r.1 = .text i.name
  modes : r.2.modesIn = .mapping (keptModes (.text i.name) i.modes)

theorem KeptItem.themeShape_iff {i : Item} {r : Scalar × Doc} (h : KeptItem i r) :
    (∃ modes, ThemeShape r.2 modes) ↔ i.WellFormed := by
  constructor
  · intro valid
    obtain ⟨modes, shape⟩ := valid
    cases h.modes.symm.trans shape.held
    exact (Item.themeShape_iff h.modes).mp shape
  · intro wf
    exact ⟨_, (Item.themeShape_iff h.modes).mpr wf⟩

theorem keepItem_of_reads {i : Item} {d : Doc} (h : i.Reads d) (index : Nat) :
    ∃ r, keepItem index d = .ok r ∧ KeptItem i r := by
  obtain ⟨content, rest, rfl, hm⟩ := h
  exact ⟨_, rfl, rfl, modesIn_keepCollection hm⟩

theorem exists_reads_of_keepItem {index : Nat} {d : Doc} {r : Scalar × Doc} {modes : List (Scalar × Doc)}
    (hd : d.IsJson) (h : keepItem index d = .ok r) (held : r.2.modesIn = .mapping modes) :
    ∃ i : Item, i.Reads d ∧ KeptItem i r := by
  unfold keepItem at h
  split at h
  next name content rest =>
    cases h
    obtain ⟨s, rfl⟩ := Doc.EntriesJson.exists_text hd (name, content) (by simp)
    obtain ⟨entries, raw, rfl, hg, rfl⟩ := exists_modes_of_keepCollection held
    exact ⟨⟨s, raw⟩, ⟨entries, rest, rfl, hg⟩, rfl, held⟩
  next => cases h

theorem keepItems_cons_ok_iff {index : Nat} {d : Doc} {rest : List Doc}
    {records : List (Scalar × Doc)} :
    keepItems index (d :: rest) = .ok records ↔
      ∃ r rs, keepItem index d = .ok r ∧ keepItems (index + 1) rest = .ok rs ∧ records = r :: rs := by
  cases hd : keepItem index d with
  | error f => simp [keepItems, hd, bind, Except.bind]
  | ok r =>
    cases hr : keepItems (index + 1) rest with
    | error f => simp [keepItems, hd, hr, bind, Except.bind]
    | ok rs => simp [keepItems, hd, hr, bind, Except.bind, eq_comm]

theorem keepItems_of_reads {items : List Item} {docs : List Doc}
    (h : List.Forall₂ Item.Reads items docs) (index : Nat) :
    ∃ records, keepItems index docs = .ok records ∧ List.Forall₂ KeptItem items records := by
  induction h generalizing index with
  | nil => exact ⟨[], rfl, .nil⟩
  | cons hi _ ih =>
    obtain ⟨r, hr, kept⟩ := keepItem_of_reads hi index
    obtain ⟨rs, hrs, all⟩ := ih (index + 1)
    exact ⟨r :: rs, keepItems_cons_ok_iff.mpr ⟨r, rs, hr, hrs, rfl⟩, .cons kept all⟩

theorem exists_reads_of_keepItems {index : Nat} {docs : List Doc} {records : List (Scalar × Doc)}
    (hd : Doc.AllJson docs) (h : keepItems index docs = .ok records)
    (held : ∀ r ∈ records, ∃ modes, r.2.modesIn = .mapping modes) :
    ∃ items, List.Forall₂ Item.Reads items docs ∧ List.Forall₂ KeptItem items records := by
  induction docs generalizing index records with
  | nil =>
    cases h
    exact ⟨[], .nil, .nil⟩
  | cons d rest ih =>
    obtain ⟨r, rs, hr, hrs, rfl⟩ := keepItems_cons_ok_iff.mp h
    obtain ⟨⟨modes, hm⟩, later⟩ := List.forall_mem_cons.mp held
    obtain ⟨i, hi, kept⟩ := exists_reads_of_keepItem hd.1 hr hm
    obtain ⟨items, his, all⟩ := ih hd.2 hrs later
    exact ⟨i :: items, .cons hi his, .cons kept all⟩

/-- The entries of which a table of collections is made. -/
def themeEntries (items : List Item) : List (Scalar × Doc) :=
  Ordered.ofList (items.map fun i => (.text i.name, .mapping (keptModes (.text i.name) i.modes)))

theorem ofRecords_ok_iff {items : List Item} {records : ThemeRecords} {t : Table}
    (h : List.Forall₂ KeptItem items records) :
    Table.ofRecords records.toDocs = .ok t ↔ Table.ofEntries (themeEntries items) = .ok t := by
  have parts : records.map (fun r => (r.1, r.2.modesIn)) =
      items.map fun i => (.text i.name, .mapping (keptModes (.text i.name) i.modes)) := by
    induction h with
    | nil => rfl
    | cons hi _ ih => simp only [List.map_cons, hi.name, hi.modes, ih]
  have held : ∀ r ∈ records, ∃ modes, r.2.modesIn = .mapping modes := by
    intro r hr
    obtain ⟨i, _, kept⟩ := exists_of_forall₂_right h hr
    exact ⟨_, kept.modes⟩
  rw [Table.ofRecords_eq held, parts, except_mapError_ok_iff]
  rfl

theorem Item.Reads.json {i : Item} {d : Doc} (h : i.Reads d) (hd : d.IsJson) :
    Doc.EntriesJson i.modes := by
  obtain ⟨content, rest, rfl, hm⟩ := h
  have inside : Doc.EntriesJson content :=
    Doc.EntriesJson.isJson hd (.text i.name, .mapping content) (by simp)
  exact inside.get? hm

theorem json_of_reads {docs : List Doc} {items : List Item} (json : Doc.AllJson docs)
    (reads : List.Forall₂ Item.Reads items docs) : ∀ i ∈ items, Doc.EntriesJson i.modes := by
  intro i hi
  obtain ⟨d, hd, read⟩ := exists_of_forall₂_left reads hi
  exact read.json (json.isJson d hd)

theorem distinct_keptModes {collection : Scalar} {modes : List (Scalar × Doc)}
    (h : Ordered.Distinct modes) : Ordered.Distinct (keptModes collection modes) :=
  h.map _ fun _ _ apart => apart

theorem distinct_kept {collection : Scalar} {entries kept : List (Scalar × Doc)}
    (h : Ordered.Distinct entries)
    (hk : keepMode collection (.mapping entries) = .mapping kept) : Ordered.Distinct kept := by
  cases hk
  refine h.filterMap _ ?_
  intro p q apart p' hp q' hq
  obtain ⟨d, _, rfl⟩ := Option.map_eq_some_iff.mp hp
  obtain ⟨e, _, rfl⟩ := Option.map_eq_some_iff.mp hq
  exact apart

/-- A mode as it is kept makes a mode of the table exactly if that has its tokens of what is carried. -/
theorem ofDoc_keepMode_iff {collection : String} {p : Scalar × Doc} {m : Mode}
    (object : ∃ tokens, p.2 = .mapping tokens) (json : p.2.IsJson) :
    Mode.ofDoc p.1 (keepMode (.text collection) p.2) = .ok m ↔ ModeFrom collection p m := by
  obtain ⟨tokens, ht⟩ := object
  rw [ht] at json
  obtain ⟨kept, hk, all⟩ := exists_carried (.text collection) tokens
  have made : List.Forall₂ (fun q t => Token.ofRecord q.1 q.2 = .ok t) kept m.tokens.items ↔
      List.Forall₂ (fun c t => TokenOf c.name c.type c.value (some collection) t)
        (carried (.mapping tokens)) m.tokens.items :=
    forall₂_congr_left all fun _ _ _ as => as.ofRecord_ok_iff
  rw [ht, hk, Mode.ofDoc_ok_iff (distinct_kept (Doc.EntriesJson.distinct json) hk), made]
  constructor
  · intro h
    exact ⟨h.1, ht ▸ h.2⟩
  · intro h
    exact ⟨h.name, ht ▸ h.tokens⟩

theorem ofDoc_keptModes_iff {i : Item} {t : Theme} (wf : i.WellFormed)
    (json : Doc.EntriesJson i.modes) :
    Theme.ofDoc (.text i.name) (.mapping (keptModes (.text i.name) i.modes)) = .ok t ↔ ThemeFrom i t := by
  rw [Theme.ofDoc_ok_iff (distinct_keptModes json.distinct), keptModes, List.forall₂_map_left_iff,
    Scalar.text.injEq]
  have modes : List.Forall₂ (fun p m => Mode.ofDoc p.1 (keepMode (.text i.name) p.2) = .ok m)
      i.modes t.modes.items ↔ List.Forall₂ (ModeFrom i.name) i.modes t.modes.items := by
    have self : List.Forall₂ (fun p q => p = q ∧ p ∈ i.modes) i.modes i.modes :=
      List.forall₂_same.mpr fun _ hp => ⟨rfl, hp⟩
    refine forall₂_congr_left self ?_
    intro p q m h
    obtain ⟨rfl, hp⟩ := h
    exact ofDoc_keepMode_iff (wf.objects p hp) (json.isJson p hp)
  rw [modes]
  constructor
  · intro h
    exact ⟨h.1.symm, h.2⟩
  · intro h
    exact ⟨h.name.symm, h.modes⟩

theorem exists_entry_of_carried {tokens : List (Scalar × Doc)} {c : Carried}
    (h : c ∈ carried (.mapping tokens)) : ∃ q ∈ tokens, c.name = q.1 := by
  obtain ⟨q, hq, hc⟩ := List.mem_filterMap.mp h
  refine ⟨q, hq, ?_⟩
  unfold carried? at hc
  split at hc
  next =>
    split at hc
    next =>
      cases hc
      rfl
    next => cases hc
  next => cases hc

theorem Item.WellFormed.exists_theme {i : Item} (wf : i.WellFormed) (json : Doc.EntriesJson i.modes)
    (named : i.name ≠ "") (tokens : ∀ p ∈ i.modes, ∀ c ∈ carried p.2, c.name ≠ .text "") :
    ∃ t, Theme.ofDoc (.text i.name) (.mapping (keptModes (.text i.name) i.modes)) = .ok t := by
  refine Theme.exists_ofDoc_ok_iff.mpr ⟨⟨i.name, rfl, named⟩, ?_⟩
  intro p' hp'
  obtain ⟨p, hp, rfl⟩ := List.mem_map.mp hp'
  obtain ⟨entries, he⟩ := wf.objects p hp
  have typed := wf.typed p hp
  have filled := tokens p hp
  have inside := json.isJson p hp
  rw [he] at typed filled inside
  obtain ⟨kept, hk, all⟩ := exists_carried (.text i.name) entries
  rw [he, hk]
  refine Mode.exists_ofDoc_ok_iff.mpr ⟨json.exists_text p hp, ?_⟩
  intro q hq
  obtain ⟨c, hc, as⟩ := exists_of_forall₂_right all hq
  obtain ⟨e, hm, hn⟩ := exists_entry_of_carried hc
  obtain ⟨s, hs⟩ := Doc.EntriesJson.exists_text inside e hm
  have text : c.name = .text s := hn.trans hs
  have hne : s ≠ "" := fun he => filled c hc (text.trans (congrArg Scalar.text he))
  obtain ⟨t, ht⟩ := (typed c hc).exists_token hne (some i.name)
  exact ⟨t, as.ofRecord_ok_iff.mpr (text ▸ ht)⟩

/-- The references of a mode are those of the entries that carry its tokens. -/
theorem ModeFrom.acyclic_iff {collection : String} {p : Scalar × Doc} {m : Mode}
    (h : ModeFrom collection p m) :
    m.Acyclic ↔ AcyclicBy fun x d => ∃ c ∈ carried p.2, c.name = .text x ∧ c.value = d := by
  apply Mode.acyclic_iff
  intro x d
  constructor
  · intro held
    obtain ⟨c, hc, hx, rfl⟩ := held
    obtain ⟨t, ht, source⟩ := exists_of_forall₂_left h.tokens hc
    exact ⟨t, ht, Scalar.text.inj (source.name.symm.trans hx), source.value⟩
  · intro held
    obtain ⟨t, ht, rfl, rfl⟩ := held
    obtain ⟨c, hc, source⟩ := exists_of_forall₂_right h.tokens ht
    exact ⟨c, hc, source.name, source.value⟩

theorem ThemeFrom.buildable_iff {i : Item} {t : Theme} (h : ThemeFrom i t) :
    (∀ m ∈ t.modes.items, m.Acyclic) ↔ i.Buildable := by
  constructor
  · intro acyclic
    refine ⟨?_, ?_⟩
    · intro p hp c hc he
      obtain ⟨m, _, mode⟩ := exists_of_forall₂_left h.modes hp
      obtain ⟨u, _, source⟩ := exists_of_forall₂_left mode.tokens hc
      exact u.named (Scalar.text.inj (source.name.symm.trans he))
    · intro p hp
      obtain ⟨m, hm, mode⟩ := exists_of_forall₂_left h.modes hp
      exact mode.acyclic_iff.mp (acyclic m hm)
  · intro buildable m hm
    obtain ⟨p, hp, mode⟩ := exists_of_forall₂_right h.modes hm
    exact mode.acyclic_iff.mpr (buildable.acyclic p hp)

theorem ofName_collections : ExportFormat.ofName "figma" = .ok .collections := by
  simp [ExportFormat.ofName, ExportFormat.ofName?, ExportFormat.name]

theorem assemble_ok_iff {d : Doc} {theme : Option String} {modes : List String} {records : ThemeRecords} :
    (ThemeRecords.assemble d "figma" theme modes).result = .ok records ↔ normalize d = .ok records := by
  unfold ThemeRecords.assemble
  rw [ofName_collections]
  cases h : normalize d with
  | error f => simp
  | ok rs => simp [Except.bind]

/-- The collections of a document are in order: all but what only those must fulfil that are not replaced. -/
theorem assemble_valid_iff {d : Doc} (json : d.IsJson) (theme : Option String) (modes : List String)
    {records : ThemeRecords} :
    ((ThemeRecords.assemble d "figma" theme modes).result = .ok records ∧
      (Validation.document records.toDoc).isValid = true) ↔
      ∃ docs items, d = .list docs ∧ normalize d = .ok records ∧ List.Forall₂ Item.Reads items docs ∧
        List.Forall₂ KeptItem items records ∧ items ≠ [] ∧ ∀ i ∈ items, i.WellFormed := by
  rw [assemble_ok_iff, ThemeRecords.isValid_iff]
  constructor
  · intro h
    obtain ⟨hn, hne, valid⟩ := h
    cases d with
    | list docs =>
      have held : ∀ r ∈ records, ∃ modes, r.2.modesIn = .mapping modes := by
        intro r hr
        obtain ⟨modes, shape⟩ := valid r hr
        exact ⟨modes, shape.held⟩
      obtain ⟨items, reads, kept⟩ := exists_reads_of_keepItems json hn held
      refine ⟨docs, items, rfl, hn, reads, kept, ?_, ?_⟩
      · intro he
        rw [he] at kept
        cases kept
        exact hne rfl
      · intro i hi
        obtain ⟨r, hr, k⟩ := exists_of_forall₂_left kept hi
        exact k.themeShape_iff.mp (valid r hr)
    | _ => cases hn
  · intro h
    obtain ⟨docs, items, rfl, hn, _, kept, hne, wf⟩ := h
    refine ⟨hn, ?_, ?_⟩
    · intro he
      rw [he] at kept
      cases kept
      exact hne rfl
    · intro r hr
      obtain ⟨i, hi, k⟩ := exists_of_forall₂_right kept hr
      exact k.themeShape_iff.mpr (wf i hi)

/-- The table of collections that are in order is as they describe it. -/
theorem describes_of_ofEntries {items : List Item} {t : Table} (wf : ∀ i ∈ items, i.WellFormed)
    (json : ∀ i ∈ items, Doc.EntriesJson i.modes) (h : Table.ofEntries (themeEntries items) = .ok t) :
    Describes items t ∧ ∀ i, Survives Item.name items i → ∃ theme ∈ t.themes.items, ThemeFrom i theme := by
  have all := (Table.ofEntries_ok_iff (Ordered.distinct_ofList _)).mp h
  have made : ∀ {i theme}, Survives Item.name items i →
      Theme.ofDoc (.text i.name) (.mapping (keptModes (.text i.name) i.modes)) = .ok theme →
        ThemeFrom i theme := by
    intro i theme hi ho
    exact (ofDoc_keptModes_iff (wf i hi.mem) (json i hi.mem)).mp ho
  refine ⟨⟨?_, ?_⟩, ?_⟩
  · have named := all.imp fun p theme ho => Theme.name_of_ofDoc ho
    exact names_of_ofList named
  · intro theme hm
    obtain ⟨p, hp, ho⟩ := exists_of_forall₂_right all hm
    obtain ⟨i, hi, rfl⟩ := Ordered.mem_ofList_text.mp hp
    exact ⟨i, hi, made hi ho⟩
  · intro i hi
    obtain ⟨theme, hm, ho⟩ := exists_of_forall₂_left all (Ordered.mem_ofList_text.mpr ⟨i, hi, rfl⟩)
    exact ⟨theme, hm, made hi ho⟩

theorem exists_ofEntries {items : List Item} (accepted : Accepted items)
    (json : ∀ i ∈ items, Doc.EntriesJson i.modes) : ∃ t, Table.ofEntries (themeEntries items) = .ok t := by
  apply Table.exists_ofEntries_ok_iff.mpr
  intro p hp
  obtain ⟨i, hi, rfl⟩ := Ordered.mem_ofList_text.mp hp
  exact (accepted.wellFormed i hi.mem).exists_theme (json i hi.mem) (accepted.named i hi.mem)
    (accepted.buildable i hi).named

/-- Well-formed collections make a table without cycles exactly if they are accepted. -/
theorem exists_acyclic_iff {items : List Item} (filled : items ≠ []) (wf : ∀ i ∈ items, i.WellFormed)
    (json : ∀ i ∈ items, Doc.EntriesJson i.modes) :
    (∃ t, Table.ofEntries (themeEntries items) = .ok t ∧ (Validation.references t).isValid = true) ↔
      Accepted items := by
  simp only [Validation.isValid_references_iff]
  constructor
  · intro h
    obtain ⟨t, ht, acyclic⟩ := h
    obtain ⟨_, made⟩ := describes_of_ofEntries wf json ht
    refine ⟨filled, ?_, wf, ?_⟩
    · intro i hi
      obtain ⟨j, hj, same⟩ : ∃ j, Survives Item.name items j ∧ (j.name == i.name) = true :=
        exists_survives hi
      obtain ⟨theme, _, source⟩ := made j hj
      rw [← beq_iff_eq.mp same, ← source.name]
      exact theme.named
    · intro i hi
      obtain ⟨theme, hm, source⟩ := made i hi
      exact source.buildable_iff.mp (acyclic theme hm)
  · intro accepted
    obtain ⟨t, ht⟩ := exists_ofEntries accepted json
    obtain ⟨described, _⟩ := describes_of_ofEntries wf json ht
    refine ⟨t, ht, ?_⟩
    intro theme hm
    obtain ⟨i, hi, source⟩ := described.themes theme hm
    exact source.buildable_iff.mpr (accepted.buildable i hi)

/-- A run over a JSON document of collections succeeds exactly if they are accepted, and then its table is
as they describe it. -/
theorem run_collections_iff (selector : String) {d : Doc} (json : d.IsJson) (theme : Option String)
    (modes : List String) (generate log : Bool) :
    ((∃ o, (Pipeline.run selector d ⟨"figma", theme, modes⟩ generate log).result = .ok o ∧ o.ok = true) ↔
      ∃ items, Lists d items ∧ Accepted items) ∧
    ∀ o, (Pipeline.run selector d ⟨"figma", theme, modes⟩ generate log).result = .ok o → o.ok = true →
      ∃ items t, Lists d items ∧ o.table? = some t ∧ Describes items t := by
  constructor
  · rw [Pipeline.exists_ok_run_iff]
    constructor
    · intro h
      obtain ⟨records, t, built⟩ := h
      obtain ⟨docs, items, rfl, _, reads, kept, filled, wf⟩ :=
        (assemble_valid_iff json theme modes).mp ⟨built.assembled, built.valid⟩
      refine ⟨items, ⟨docs, rfl, reads⟩, ?_⟩
      exact (exists_acyclic_iff filled wf (json_of_reads json reads)).mp
        ⟨t, (ofRecords_ok_iff kept).mp built.made, built.references⟩
    · intro h
      obtain ⟨items, ⟨docs, rfl, reads⟩, accepted⟩ := h
      obtain ⟨records, hn, kept⟩ := keepItems_of_reads reads 0
      obtain ⟨ha, hv⟩ := (assemble_valid_iff json theme modes).mpr
        ⟨docs, items, rfl, hn, reads, kept, accepted.filled, accepted.wellFormed⟩
      obtain ⟨t, ht, hr⟩ := (exists_acyclic_iff accepted.filled accepted.wellFormed
        (json_of_reads json reads)).mpr accepted
      exact ⟨records, t, ha, hv, (ofRecords_ok_iff kept).mpr ht, hr⟩
  · intro o ho hok
    obtain ⟨records, t, built, table⟩ := Pipeline.exists_builds_of_run ho hok
    obtain ⟨docs, items, rfl, _, reads, kept, _, wf⟩ :=
      (assemble_valid_iff json theme modes).mp ⟨built.assembled, built.valid⟩
    obtain ⟨described, _⟩ := describes_of_ofEntries wf (json_of_reads json reads)
      ((ofRecords_ok_iff kept).mp built.made)
    exact ⟨items, t, ⟨docs, rfl, reads⟩, table, described⟩

/-- One collection with an entry that is kept and one that is left out. -/
def brandCollections : Doc :=
  .list [.object [("brand", .object [("modes", .object [
    ("light", .object [
      ("space", .object [("$type", .text "float"), ("$value", .scalar (.int 4))]),
      ("note", .text "left out")]),
    ("dark", .object [])])])]]

theorem run_brandCollections : brandCollections.IsJson ∧
    (∃ items, Lists brandCollections items ∧ Accepted items) ∧
    ∃ items t, Lists brandCollections items ∧ Describes items t := by
  have json : brandCollections.IsJson := by
    simp [brandCollections, Doc.object, Doc.IsJson, Doc.AllJson, Doc.EntriesJson, Ordered.contains,
      Scalar.text_beq]
  have ran : (Pipeline.run ":root" brandCollections ⟨"figma", none, []⟩ true true).result.toOption.any
      Outcome.ok = true := by decide +kernel
  obtain ⟨o, ho, hok⟩ := exists_ok_of_any ran
  obtain ⟨accepted, described⟩ := run_collections_iff ":root" json none [] true true
  obtain ⟨items, t, lists, _, describes⟩ := described o ho hok
  exact ⟨json, accepted.mp ⟨o, ho, hok⟩, items, t, lists, describes⟩

end Collections

end StyleTokens
