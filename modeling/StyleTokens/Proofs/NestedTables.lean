import StyleTokens.Proofs.BuiltTables
import StyleTokens.Proofs.TreeLeaves

namespace StyleTokens

namespace Nested

/-- The last leaf with this key has this value once its references are shortened. -/
def Holds (d : Doc) (name : String) (value : Doc) : Prop :=
  ∃ l, Remains d l ∧ l.key = .text name ∧ value = shortenReferences l.value

/-- The trees of which a theme can be made. -/
structure Accepted (d : Doc) : Prop where
  named : ∀ l, Remains d l → l.key ≠ .text ""
  typed : ∀ l, Remains d l → Typed l.type l.value
  acyclic : AcyclicBy (Holds d)

/-- A token of the leaf that it comes from. -/
def LeafToken (l : Leaf) (t : Token) : Prop :=
  TokenOf l.key l.type (shortenReferences l.value) none t

/-- The tokens of a tree: one for each key of a leaf, in the order in which the keys first come, and each of
the last leaf with its key. -/
structure TokensOf (d : Doc) (tokens : Roster Token Token.name) : Prop where
  names : ∃ keys : List String, (leaves d).map Leaf.key = keys.map .text ∧ tokens.names = keys.eraseDups
  sources : ∀ t ∈ tokens.items, ∃ l, Remains d l ∧ LeafToken l t

/-- A table of a tree: a single theme that has the same tokens in each of its modes. -/
def Describes (d : Doc) (theme : String) (modes : List String) (t : Table) : Prop :=
  ∃ th tokens, t.themes.items = [th] ∧ th.name = theme ∧ th.modes.names = modes.eraseDups ∧
    (∀ m ∈ th.modes.items, m.tokens = tokens) ∧ TokensOf d tokens

/-- The entries of a mode of a tree. -/
def tokenEntries (ls : List Leaf) : List (Scalar × Doc) :=
  Ordered.ofList (ls.map fun l => (l.key, .mapping (shortRecord l)))

/-- The modes of the theme of a tree. -/
def modeEntries (ls : List Leaf) (modes : List String) : List (Scalar × Doc) :=
  Ordered.ofList (modes.map fun m => (.text m, .mapping (tokenEntries ls)))

theorem ofFlat_eq (ls : List Leaf) (theme : String) (modes : List String) :
    ThemeRecords.ofFlat (shortenRecords RecordKey.value (flatRecords ls)) theme modes =
      [(.text theme, .object [(ExportKey.modes, .mapping (modeEntries ls modes))])] := by
  simp only [ThemeRecords.ofFlat, recordsDoc_shortenRecords]
  rfl

theorem modesIn_content (modes : List (Scalar × Doc)) :
    (Doc.object [(ExportKey.modes, .mapping modes)]).modesIn = .mapping modes := by
  simp [Doc.object, Doc.modesIn, Doc.get?, Ordered.find?]

theorem ofName_nested : ExportFormat.ofName "tokens-studio" = .ok .nested := by
  simp [ExportFormat.ofName, ExportFormat.ofName?, ExportFormat.name]

/-- The records of a tree are those of its flat map, under a theme that has a name. -/
theorem assemble_ok_iff {d : Doc} {theme : Option String} {modes : List String}
    {records : ThemeRecords} :
    (ThemeRecords.assemble d "tokens-studio" theme modes).result = .ok records ↔
      ∃ name flat, theme = some name ∧ name ≠ "" ∧ (flatten d).result = .ok flat ∧
        records = ThemeRecords.ofFlat (shortenRecords RecordKey.value flat) name modes := by
  unfold ThemeRecords.assemble
  rw [ofName_nested]
  cases theme with
  | none => simp
  | some name =>
    by_cases hn : name = ""
    · have unnamed : (some name).filter (· ≠ "") = none := by simp [Option.filter, hn]
      simp only [unnamed]
      simp [hn]
    · have named : (some name).filter (· ≠ "") = some name := by simp [Option.filter, hn]
      simp only [named, Traced.result_bind, except_bind_ok_iff]
      simp [hn, eq_comm]

theorem shortenReferences_scalar_iff {d : Doc} :
    (∃ v : TokenValue, shortenReferences d = .scalar v.toScalar) ↔
      ∃ v : TokenValue, d = .scalar v.toScalar := by
  unfold shortenReferences
  split
  next s => exact iff_of_true ⟨.text (Placeholder.shorten s), rfl⟩ ⟨.text s, rfl⟩
  next => rfl

theorem get?_shortRecord (l : Leaf) :
    Doc.get? (shortRecord l) RecordKey.type = some (currentType l.type) ∧
      Doc.get? (shortRecord l) RecordKey.value = some (shortenReferences l.value) ∧
      Doc.get? (shortRecord l) RecordKey.collection = none := by
  simp [shortRecord, Leaf.recordOf, Doc.get?, Ordered.find?, Scalar.text_beq, RecordKey.type,
    RecordKey.value, RecordKey.collection]

theorem tokenShape_shortRecord_iff {l : Leaf} :
    TokenShape (.mapping (shortRecord l)) ↔ Typed l.type l.value := by
  obtain ⟨hty, hv, _⟩ := get?_shortRecord l
  rw [tokenShape_iff hty hv]
  exact and_congr_right' shortenReferences_scalar_iff

/-- The record of a leaf makes a token exactly if the token is of the leaf. -/
theorem ofRecord_shortRecord_iff {l : Leaf} {t : Token} :
    Token.ofRecord l.key (.mapping (shortRecord l)) = .ok t ↔ LeafToken l t := by
  obtain ⟨hty, hv, hc⟩ := get?_shortRecord l
  have unnamed : Token.checkCollection (Doc.get? (shortRecord l) RecordKey.collection) = .ok none := by
    rw [hc]
    rfl
  exact ofRecord_ok_iff_of_source hty hv unnamed

/-- The key of a leaf if it is a text. -/
def keyText (l : Leaf) : String :=
  match l.key with
  | .text s => s
  | _ => ""

theorem key_of_leaf {d : Doc} (json : d.IsJson) {l : Leaf} (hl : l ∈ leaves d) :
    l.key = .text (keyText l) := by
  obtain ⟨names, hn⟩ := exists_path_of_leaves json hl
  have last : l.key ∈ names.map Scalar.text := hn ▸ List.mem_append_right l.path (List.mem_singleton.mpr rfl)
  obtain ⟨s, _, hs⟩ := List.mem_map.mp last
  simp [keyText, ← hs]

theorem remains_iff {d : Doc} (json : d.IsJson) {l : Leaf} :
    Remains d l ↔ Survives keyText (leaves d) l := by
  have same : ∀ {xs : List Leaf}, (∀ m ∈ xs, m.key = .text (keyText m)) →
      (Survives Leaf.key xs l ↔ Survives keyText xs l) := by
    intro xs texts
    constructor
    · intro h
      obtain ⟨before, after, rfl, ha⟩ := h
      refine ⟨before, after, rfl, ?_⟩
      intro m hm
      have apart := ha m hm
      rwa [texts m (by simp [hm]), texts l (by simp), Scalar.text_beq] at apart
    · intro h
      obtain ⟨before, after, rfl, ha⟩ := h
      refine ⟨before, after, rfl, ?_⟩
      intro m hm
      rw [texts m (by simp [hm]), texts l (by simp), Scalar.text_beq]
      exact ha m hm
  exact same fun m hm => key_of_leaf json hm

theorem tokenEntries_eq {d : Doc} (json : d.IsJson) :
    tokenEntries (leaves d) =
      Ordered.ofList ((leaves d).map fun l => (.text (keyText l), .mapping (shortRecord l))) := by
  unfold tokenEntries
  congr 1
  apply List.map_congr_left
  intro l hl
  rw [key_of_leaf json hl]

theorem mem_tokenEntries_iff {d : Doc} (json : d.IsJson) {p : Scalar × Doc} :
    p ∈ tokenEntries (leaves d) ↔ ∃ l, Remains d l ∧ p = (l.key, .mapping (shortRecord l)) := by
  rw [tokenEntries_eq json, Ordered.mem_ofList_text]
  apply exists_congr
  intro l
  rw [remains_iff json]
  apply and_congr_right
  intro hl
  rw [key_of_leaf json hl.mem]

theorem mem_modeEntries_iff {ls : List Leaf} {modes : List String} {p : Scalar × Doc} :
    p ∈ modeEntries ls modes ↔ ∃ m ∈ modes, p = (.text m, .mapping (tokenEntries ls)) := by
  unfold modeEntries
  rw [Ordered.mem_ofList_text]
  constructor
  · intro h
    obtain ⟨m, hm, hp⟩ := h
    exact ⟨m, hm.mem, hp⟩
  · intro h
    obtain ⟨m, hm, hp⟩ := h
    obtain ⟨n, hn, same⟩ : ∃ n, Survives (fun m => m) modes n ∧ (n == m) = true := exists_survives hm
    obtain rfl := beq_iff_eq.mp same
    exact ⟨_, hn, hp⟩

theorem mem_modeEntries {ls : List Leaf} {modes : List String} {m : String} (hm : m ∈ modes) :
    (.text m, .mapping (tokenEntries ls)) ∈ modeEntries ls modes :=
  mem_modeEntries_iff.mpr ⟨m, hm, rfl⟩

/-- Tokens are made of the entries of a tree. -/
def Makes (d : Doc) (tokens : Roster Token Token.name) : Prop :=
  List.Forall₂ (fun p t => Token.ofRecord p.1 p.2 = .ok t) (tokenEntries (leaves d)) tokens.items

theorem Makes.unique {d : Doc} {tokens others : Roster Token Token.name} (h : Makes d tokens)
    (h' : Makes d others) : others = tokens :=
  Roster.ext_items (Except.ok.inj ((mapM_ok_iff.mpr h').symm.trans (mapM_ok_iff.mpr h)))

theorem Makes.exists_token {d : Doc} {tokens : Roster Token Token.name} (h : Makes d tokens)
    {l : Leaf} (hl : Remains d l) : ∃ t ∈ tokens.items, LeafToken l t := by
  obtain ⟨k, hk, same⟩ : ∃ k, (k, Doc.mapping (shortRecord l)) ∈ tokenEntries (leaves d) ∧
      (k == l.key) = true := Ordered.exists_mem_ofList_of_survives hl
  obtain ⟨t, ht, made⟩ := exists_of_forall₂_left h hk
  obtain rfl : k = .text t.name := Token.name_of_ofRecord made
  have key : l.key = .text t.name := Scalar.eq_text_of_beq (BEq.symm same)
  exact ⟨t, ht, ofRecord_shortRecord_iff.mp (key ▸ made)⟩

theorem Makes.exists_leaf {d : Doc} {tokens : Roster Token Token.name} (h : Makes d tokens)
    {t : Token} (ht : t ∈ tokens.items) : ∃ l, Remains d l ∧ LeafToken l t := by
  obtain ⟨⟨k, r⟩, hp, made⟩ := exists_of_forall₂_right h ht
  obtain ⟨l, hl, same, rfl⟩ := Ordered.exists_survives_of_mem_ofList hp
  obtain rfl : k = .text t.name := Token.name_of_ofRecord made
  have key : l.key = .text t.name := Scalar.eq_text_of_beq same
  exact ⟨l, hl, ofRecord_shortRecord_iff.mp (key ▸ made)⟩

theorem Makes.tokensOf {d : Doc} {tokens : Roster Token Token.name} (h : Makes d tokens)
    (json : d.IsJson) : TokensOf d tokens := by
  refine ⟨⟨(leaves d).map keyText, ?_, ?_⟩, fun t ht => h.exists_leaf ht⟩
  · rw [List.map_map]
    exact List.map_congr_left fun l hl => key_of_leaf json hl
  · have named : List.Forall₂ (fun p t => p.1 = Scalar.text (Token.name t)) (tokenEntries (leaves d))
        tokens.items := List.Forall₂.imp (fun _ _ ht => Token.name_of_ofRecord ht) h
    rw [tokenEntries_eq json] at named
    exact names_of_ofList named

/-- The references of the tokens of a tree are those of its last leaves. -/
theorem Makes.acyclic_iff {d : Doc} {m : Mode} (h : Makes d m.tokens) :
    m.Acyclic ↔ AcyclicBy (Holds d) := by
  apply Mode.acyclic_iff
  intro x v
  constructor
  · intro held
    obtain ⟨l, hl, hx, rfl⟩ := held
    obtain ⟨t, ht, source⟩ := h.exists_token hl
    exact ⟨t, ht, Scalar.text.inj (source.name.symm.trans hx), source.value⟩
  · intro held
    obtain ⟨t, ht, rfl, rfl⟩ := held
    obtain ⟨l, hl, source⟩ := h.exists_leaf ht
    exact ⟨l, hl, source.name, source.value.symm⟩

theorem exists_leafToken {d : Doc} (json : d.IsJson) {l : Leaf} (hl : Remains d l)
    (typed : Typed l.type l.value) (named : l.key ≠ .text "") : ∃ t, LeafToken l t := by
  have text := key_of_leaf json hl.mem
  have filled : keyText l ≠ "" := fun he => named (text.trans (congrArg Scalar.text he))
  have short : Typed l.type (shortenReferences l.value) :=
    ⟨typed.1, shortenReferences_scalar_iff.mpr typed.2⟩
  obtain ⟨t, ht⟩ := short.exists_token filled none
  rw [← text] at ht
  exact ⟨t, ht⟩

/-- The content of a tree has the shape of a theme exactly if both required modes are asked for and the last
leaves have a type and a value. -/
theorem themeShape_iff {d : Doc} (json : d.IsJson) {modes : List String} :
    (∃ ms, ThemeShape (.object [(ExportKey.modes, .mapping (modeEntries (leaves d) modes))]) ms) ↔
      (∀ m ∈ requiredModes, m ∈ modes) ∧ ∀ l, Remains d l → Typed l.type l.value := by
  have held := modesIn_content (modeEntries (leaves d) modes)
  have found : ∀ {m}, m ∈ modes →
      Doc.get? (modeEntries (leaves d) modes) m = some (.mapping (tokenEntries (leaves d))) := by
    intro m hm
    exact Ordered.find?_of_mem (Ordered.distinct_ofList _) (mem_modeEntries hm)
  constructor
  · intro h
    obtain ⟨ms, shape⟩ := h
    cases held.symm.trans shape.held
    have required : ∀ m ∈ requiredModes, m ∈ modes := by
      intro m hm
      obtain ⟨c, hc, _⟩ := shape.required m hm
      obtain ⟨k, hk, same⟩ := Ordered.mem_of_find? hc
      obtain ⟨n, hn, he⟩ := mem_modeEntries_iff.mp hk
      cases he
      rw [Scalar.text_beq] at same
      exact beq_iff_eq.mp same ▸ hn
    refine ⟨required, ?_⟩
    intro l hl
    obtain ⟨tokens, he, shapes⟩ := shape.tokens _ (mem_modeEntries (required _ light_required))
    cases he
    exact tokenShape_shortRecord_iff.mp (shapes _ ((mem_tokenEntries_iff json).mpr ⟨l, hl, rfl⟩))
  · intro h
    obtain ⟨required, typed⟩ := h
    refine ⟨_, held, ?_, ?_⟩
    · intro m hm
      exact ⟨_, found (required m hm), rfl⟩
    · intro p hp
      obtain ⟨m, _, rfl⟩ := mem_modeEntries_iff.mp hp
      refine ⟨_, rfl, ?_⟩
      intro q hq
      obtain ⟨l, hl, rfl⟩ := (mem_tokenEntries_iff json).mp hq
      exact tokenShape_shortRecord_iff.mpr (typed l hl)

/-- A theme is made of a tree exactly if each of its modes is. -/
theorem ofDoc_modeEntries_iff {d : Doc} {name : String} {modes : List String} {th : Theme} :
    Theme.ofDoc (.text name) (.mapping (modeEntries (leaves d) modes)) = .ok th ↔
      name = th.name ∧ List.Forall₂ (fun p m => p.1 = Scalar.text (Mode.name m) ∧ Makes d m.tokens)
        (modeEntries (leaves d) modes) th.modes.items := by
  have distinct : Ordered.Distinct (modeEntries (leaves d) modes) := Ordered.distinct_ofList _
  rw [Theme.ofDoc_ok_iff distinct, Scalar.text.injEq]
  apply and_congr_right'
  have self : List.Forall₂ (fun p q => p = q ∧ q ∈ modeEntries (leaves d) modes)
      (modeEntries (leaves d) modes) (modeEntries (leaves d) modes) :=
    List.forall₂_same.mpr fun _ hp => ⟨rfl, hp⟩
  refine forall₂_congr_left self ?_
  intro p q m h
  obtain ⟨rfl, hp⟩ := h
  obtain ⟨_, _, rfl⟩ := mem_modeEntries_iff.mp hp
  exact Mode.ofDoc_ok_iff (Ordered.distinct_ofList _)

/-- The record under which a tree becomes a theme. -/
def themeRecord (d : Doc) (name : String) (modes : List String) : ThemeRecords :=
  [(.text name, .object [(ExportKey.modes, .mapping (modeEntries (leaves d) modes))])]

theorem isValid_themeRecord_iff {d : Doc} (json : d.IsJson) (name : String) {modes : List String} :
    (Validation.document (themeRecord d name modes).toDoc).isValid = true ↔
      (∀ m ∈ requiredModes, m ∈ modes) ∧ ∀ l, Remains d l → Typed l.type l.value := by
  rw [ThemeRecords.isValid_iff, ← themeShape_iff json]
  simp [themeRecord]

theorem ofRecords_themeRecord_iff {d : Doc} {name : String} {modes : List String} {t : Table} :
    Table.ofRecords (themeRecord d name modes).toDocs = .ok t ↔
      ∃ th, t.themes.items = [th] ∧
        Theme.ofDoc (.text name) (.mapping (modeEntries (leaves d) modes)) = .ok th := by
  have held := modesIn_content (modeEntries (leaves d) modes)
  have shaped : ∀ r ∈ themeRecord d name modes, ∃ ms, r.2.modesIn = .mapping ms := by
    intro r hr
    cases List.mem_singleton.mp hr
    exact ⟨_, held⟩
  have single : Ordered.ofList ((themeRecord d name modes).map fun r => (r.1, r.2.modesIn)) =
      [(.text name, .mapping (modeEntries (leaves d) modes))] := by
    simp only [themeRecord, List.map_cons, List.map_nil, held]
    rfl
  rw [Table.ofRecords_eq shaped, except_mapError_ok_iff, single,
    Table.ofEntries_ok_iff (List.pairwise_singleton _ _), List.forall₂_cons_left_iff]
  simp only [List.forall₂_nil_left_iff]
  constructor
  · intro h
    obtain ⟨th, _, made, rfl, he⟩ := h
    exact ⟨th, he, made⟩
  · intro h
    obtain ⟨th, he, made⟩ := h
    exact ⟨th, [], made, rfl, he⟩

/-- All modes of a theme that is made of a tree have the same tokens. -/
theorem exists_tokens_of_ofDoc {d : Doc} {name : String} {modes : List String} {th : Theme}
    (light : lightMode ∈ modes)
    (h : Theme.ofDoc (.text name) (.mapping (modeEntries (leaves d) modes)) = .ok th) :
    ∃ tokens, Makes d tokens ∧ th.name = name ∧ th.modes.names = modes.eraseDups ∧
      ∀ m ∈ th.modes.items, m.tokens = tokens := by
  obtain ⟨hn, all⟩ := ofDoc_modeEntries_iff.mp h
  obtain ⟨first, _, _, made⟩ := exists_of_forall₂_left all (mem_modeEntries light)
  refine ⟨first.tokens, made, hn.symm, ?_, ?_⟩
  · have names := names_of_ofList (all.imp fun _ _ hm => hm.1)
    simpa [Roster.names] using names
  · intro m hm
    obtain ⟨_, _, _, other⟩ := exists_of_forall₂_right all hm
    exact made.unique other

theorem exists_theme {d : Doc} (json : d.IsJson) (accepted : Accepted d) {name : String}
    (named : name ≠ "") (modes : List String) :
    ∃ th, Theme.ofDoc (.text name) (.mapping (modeEntries (leaves d) modes)) = .ok th := by
  refine Theme.exists_ofDoc_ok_iff.mpr ⟨⟨name, rfl, named⟩, ?_⟩
  intro p hp
  obtain ⟨m, _, rfl⟩ := mem_modeEntries_iff.mp hp
  refine Mode.exists_ofDoc_ok_iff.mpr ⟨⟨m, rfl⟩, ?_⟩
  intro q hq
  obtain ⟨l, hl, rfl⟩ := (mem_tokenEntries_iff json).mp hq
  obtain ⟨t, ht⟩ := exists_leafToken json hl (accepted.typed l hl) (accepted.named l hl)
  exact ⟨t, ofRecord_shortRecord_iff.mpr ht⟩

theorem exists_acyclic_iff {d : Doc} (json : d.IsJson) {name : String} (named : name ≠ "")
    {modes : List String} (light : lightMode ∈ modes) (typed : ∀ l, Remains d l → Typed l.type l.value) :
    (∃ t, Table.ofRecords (themeRecord d name modes).toDocs = .ok t ∧
      (Validation.references t).isValid = true) ↔ Accepted d := by
  simp only [Validation.isValid_references_iff, ofRecords_themeRecord_iff]
  constructor
  · intro h
    obtain ⟨t, ⟨th, items, ho⟩, acyclic⟩ := h
    obtain ⟨hn, all⟩ := ofDoc_modeEntries_iff.mp ho
    obtain ⟨m, hm, _, made⟩ := exists_of_forall₂_left all (mem_modeEntries light)
    refine ⟨?_, typed, made.acyclic_iff.mp (acyclic th (by simp [items]) m hm)⟩
    intro l hl he
    obtain ⟨t, _, source⟩ := made.exists_token hl
    exact t.named (Scalar.text.inj (source.name.symm.trans he))
  · intro accepted
    obtain ⟨th, ho⟩ := exists_theme json accepted named modes
    refine ⟨⟨⟨[th], by simp⟩⟩, ⟨th, rfl, ho⟩, ?_⟩
    intro other hother m hm
    cases List.mem_singleton.mp hother
    obtain ⟨_, all⟩ := ofDoc_modeEntries_iff.mp ho
    obtain ⟨_, _, _, made⟩ := exists_of_forall₂_right all hm
    exact made.acyclic_iff.mpr accepted.acyclic

theorem assemble_json_iff {d : Doc} (json : d.IsJson) {theme : Option String} (modes : List String)
    {records : ThemeRecords} :
    (ThemeRecords.assemble d "tokens-studio" theme modes).result = .ok records ↔
      ∃ name entries, theme = some name ∧ name ≠ "" ∧ d = .mapping entries ∧
        records = themeRecord d name modes := by
  rw [assemble_ok_iff]
  constructor
  · intro h
    obtain ⟨name, flat, ht, hn, hf, rfl⟩ := h
    obtain ⟨⟨entries, hd⟩, rfl⟩ := flatten_ok hf
    exact ⟨name, entries, ht, hn, hd, ofFlat_eq _ _ _⟩
  · intro h
    obtain ⟨name, entries, ht, hn, rfl, rfl⟩ := h
    exact ⟨name, _, ht, hn, flatten_of_json json, (ofFlat_eq _ _ _).symm⟩

/-- A run over a JSON document with a tree succeeds exactly if there is a name for the theme, both required
modes are asked for and the tree is accepted, and then its table is as the tree describes it. -/
theorem run_tree_iff (selector : String) {d : Doc} (json : d.IsJson) (theme : Option String)
    (modes : List String) (generate log : Bool) :
    ((∃ o, (Pipeline.run selector d ⟨"tokens-studio", theme, modes⟩ generate log).result = .ok o ∧
        o.ok = true) ↔
      ∃ name entries, theme = some name ∧ name ≠ "" ∧ d = .mapping entries ∧
        lightMode ∈ modes ∧ darkMode ∈ modes ∧ Accepted d) ∧
    ∀ o, (Pipeline.run selector d ⟨"tokens-studio", theme, modes⟩ generate log).result = .ok o →
      o.ok = true → ∃ name t, theme = some name ∧ o.table? = some t ∧ Describes d name modes t := by
  have both : (∀ m ∈ requiredModes, m ∈ modes) ↔ lightMode ∈ modes ∧ darkMode ∈ modes := by
    simp [requiredModes]
  constructor
  · rw [Pipeline.exists_ok_run_iff]
    constructor
    · intro h
      obtain ⟨records, t, built⟩ := h
      obtain ⟨name, entries, hname, hne, hd, rfl⟩ := (assemble_json_iff json modes).mp built.assembled
      obtain ⟨required, typed⟩ := (isValid_themeRecord_iff json name).mp built.valid
      obtain ⟨light, dark⟩ := both.mp required
      exact ⟨name, entries, hname, hne, hd, light, dark,
        (exists_acyclic_iff json hne light typed).mp ⟨t, built.made, built.references⟩⟩
    · intro h
      obtain ⟨name, entries, hname, hne, hd, light, dark, accepted⟩ := h
      obtain ⟨t, ht, hr⟩ := (exists_acyclic_iff json hne light accepted.typed).mpr accepted
      have hv := (isValid_themeRecord_iff json name).mpr ⟨both.mpr ⟨light, dark⟩, accepted.typed⟩
      have ha := (assemble_json_iff json modes).mpr ⟨name, entries, hname, hne, hd, rfl⟩
      exact ⟨themeRecord d name modes, t, ha, hv, ht, hr⟩
  · intro o ho hok
    obtain ⟨records, t, built, table⟩ := Pipeline.exists_builds_of_run ho hok
    obtain ⟨name, entries, hname, _, _, rfl⟩ := (assemble_json_iff json modes).mp built.assembled
    obtain ⟨required, _⟩ := (isValid_themeRecord_iff json name).mp built.valid
    obtain ⟨th, items, made⟩ := ofRecords_themeRecord_iff.mp built.made
    obtain ⟨tokens, from_leaves, hn, names, same⟩ :=
      exists_tokens_of_ofDoc (required _ light_required) made
    exact ⟨name, t, hname, table, th, tokens, items, hn, names, same, from_leaves.tokensOf json⟩

/-- A tree in which one leaf refers to another. -/
def referringTree : Doc :=
  .object [
    ("color", .object [("blue", .object [("value", .text "#00f"), ("type", .text "color")])]),
    ("background", .object [("value", .text "{color.blue}"), ("type", .text "color")])]

theorem isJson_referringTree : referringTree.IsJson := by
  simp [referringTree, Doc.object, Doc.IsJson, Doc.EntriesJson, Ordered.contains, Scalar.text_beq]

theorem run_referringTree : referringTree.IsJson ∧ Accepted referringTree ∧
    ∃ t, Describes referringTree "brand" ["light", "dark"] t := by
  have ran : (Pipeline.run ":root" referringTree ⟨"tokens-studio", some "brand", ["light", "dark"]⟩ true
      true).result.toOption.any Outcome.ok = true := by decide +kernel
  obtain ⟨o, ho, hok⟩ := exists_ok_of_any ran
  obtain ⟨accepted, described⟩ :=
    run_tree_iff ":root" isJson_referringTree (some "brand") ["light", "dark"] true true
  obtain ⟨_, _, _, _, _, _, _, tree⟩ := accepted.mp ⟨o, ho, hok⟩
  obtain ⟨name, t, hname, _, describes⟩ := described o ho hok
  cases hname
  exact ⟨isJson_referringTree, tree, t, describes⟩

end Nested

end StyleTokens
