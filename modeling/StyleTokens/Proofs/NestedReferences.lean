import StyleTokens.Proofs.NestedTables
import StyleTokens.Proofs.ShortenedPlaceholders

namespace StyleTokens

/-- The text of all keys from the root to a leaf, joined by points. -/
def Leaf.DottedPath (l : Leaf) (b : String) : Prop :=
  ∃ names : List String, l.fullPath = names.map .text ∧ b = String.intercalate "." names

/-- The record of a token in a mode of a theme. -/
def ThemeRecords.record? (records : ThemeRecords) (theme mode : String) (name : Scalar) :
    Option (List (Scalar × Doc)) := do
  let modes ← (← Ordered.find? records (.text theme)).modesIn.entries?
  let tokens ← (← Doc.get? modes mode).entries?
  (← Ordered.find? tokens name).entries?

namespace Nested

/-- A flat map with its references shortened, in every mode of one theme. -/
def assembled (flat : Records) (theme : String) (modes : List String) : ThemeRecords :=
  ThemeRecords.ofFlat (shortenRecords RecordKey.value flat) theme modes

theorem mem_referenceNames_shortenReferences {v : Doc} {y : String} :
    y ∈ referenceNames (shortenReferences v) ↔
      y ≠ "" ∧ ∃ b ∈ referenceNames v, Placeholder.lastPart b = y := by
  unfold shortenReferences
  split
  next s => exact Placeholder.mem_names_shorten
  next noText =>
    have none : referenceNames v = [] := by
      unfold referenceNames
      split
      next s => exact absurd rfl (noText s)
      next => rfl
    simp [none]

theorem dottedPath_iff {l : Leaf} {b : String} :
    l.DottedPath b ↔ ∃ before k, l.path = before.map .text ∧ l.key = .text k ∧
      b = String.intercalate "." (before ++ [k]) := by
  constructor
  · intro h
    obtain ⟨names, hn, rfl⟩ := h
    obtain ⟨before, last, rfl, hb, hl⟩ := List.map_eq_append_iff.mp hn.symm
    obtain ⟨k, rest, rfl, hk, hr⟩ := List.map_eq_cons_iff.mp hl
    cases List.map_eq_nil_iff.mp hr
    exact ⟨before, k, hb.symm, hk.symm, rfl⟩
  · intro h
    obtain ⟨before, k, hb, hk, rfl⟩ := h
    exact ⟨before ++ [k], by simp [Leaf.fullPath, hb, hk], rfl⟩

theorem lastPart_of_dottedPath {l : Leaf} {b k : String} (path : l.DottedPath b)
    (hk : l.key = .text k) (hdot : '.' ∉ k.toList) : Placeholder.lastPart b = k := by
  obtain ⟨before, k', _, hk', rfl⟩ := dottedPath_iff.mp path
  cases hk'.symm.trans hk
  exact Placeholder.lastPart_intercalate before hdot

/-- Every mode has for the key of a last leaf the record of that leaf. -/
theorem record?_assembled {d : Doc} {flat : Records} (h : (flatten d).result = .ok flat) {l : Leaf}
    (hl : Remains d l) (theme : String) {modes : List String} {mode : String} (hm : mode ∈ modes) :
    (assembled flat theme modes).record? theme mode l.key = some (shortRecord l) := by
  obtain ⟨_, rfl⟩ := flatten_ok h
  have content : Ordered.find? (assembled (flatRecords (leaves d)) theme modes) (.text theme) =
      some (.object [(ExportKey.modes, .mapping (modeEntries (leaves d) modes))]) := by
    rw [assembled, ofFlat_eq]
    simp [Ordered.find?]
  have inMode : Doc.get? (modeEntries (leaves d) modes) mode = some (.mapping (tokenEntries (leaves d))) :=
    Ordered.find?_of_mem (Ordered.distinct_ofList _) (mem_modeEntries hm)
  have token : Ordered.find? (tokenEntries (leaves d)) l.key = some (.mapping (shortRecord l)) :=
    Ordered.find?_ofList hl
  simp [ThemeRecords.record?, content, modesIn_content, Doc.entries?, inMode, token]

/-- The record of a leaf refers to what the leaf refers to by a path whose last key has no point. -/
theorem mem_references_of_dottedPath {l m : Leaf} {b k : String} (hb : b ∈ referenceNames l.value)
    (path : m.DottedPath b) (hk : m.key = .text k) (hne : k ≠ "") (hdot : '.' ∉ k.toList) :
    k ∈ referenceNames (shortenReferences l.value) :=
  mem_referenceNames_shortenReferences.mpr ⟨hne, b, hb, lastPart_of_dottedPath path hk hdot⟩

/-- A reference to the dotted path of a last leaf refers to the token of that leaf once the tree is flat, in
every mode; and every JSON object can be made flat. -/
theorem reference_survives (d : Doc) (theme : String) (modes : List String) :
    (∀ entries, d = .mapping entries → d.IsJson → ∃ flat, (flatten d).result = .ok flat) ∧
    ∀ flat, (flatten d).result = .ok flat → ∀ mode ∈ modes, ∀ l m, Remains d l → Remains d m →
      ∀ b ∈ referenceNames l.value, m.DottedPath b → ∀ k, m.key = .text k → k ≠ "" → '.' ∉ k.toList →
        ∃ token target value,
          (assembled flat theme modes).record? theme mode l.key = some token ∧
          Doc.get? token RecordKey.value = some value ∧ k ∈ referenceNames value ∧
          (assembled flat theme modes).record? theme mode (.text k) = some target ∧
          Doc.get? target RecordKey.type = some (currentType m.type) ∧
          Doc.get? target RecordKey.value = some (shortenReferences m.value) := by
  constructor
  · intro entries hd json
    subst hd
    exact ⟨_, flatten_of_json json⟩
  · intro flat h mode hmode l m hl hm b hb path k hk hne hdot
    have target := record?_assembled h hm theme hmode
    rw [hk] at target
    obtain ⟨_, held, _⟩ := get?_shortRecord l
    obtain ⟨type, value, _⟩ := get?_shortRecord m
    exact ⟨shortRecord l, shortRecord m, shortenReferences l.value, record?_assembled h hl theme hmode,
      held, mem_references_of_dottedPath hb path hk hne hdot, target, type, value⟩

theorem leaves_referringTree : leaves referringTree =
    [⟨[.text "color"], .text "blue", .text "color", .text "#00f"⟩,
      ⟨[], .text "background", .text "color", .text "{color.blue}"⟩] := rfl

theorem reference_survives_in_referringTree :
    ∃ flat token value, (flatten referringTree).result = .ok flat ∧
      (assembled flat "brand" ["light", "dark"]).record? "brand" "dark" (.text "background") = some token ∧
      Doc.get? token RecordKey.value = some value ∧ "blue" ∈ referenceNames value := by
  obtain ⟨flattens, survives⟩ := reference_survives referringTree "brand" ["light", "dark"]
  obtain ⟨flat, h⟩ := flattens _ rfl isJson_referringTree
  have background : Remains referringTree ⟨[], .text "background", .text "color", .text "{color.blue}"⟩ :=
    ⟨[_], [], leaves_referringTree, by simp⟩
  have blue : Remains referringTree ⟨[.text "color"], .text "blue", .text "color", .text "#00f"⟩ :=
    ⟨[], [_], leaves_referringTree, by simp [Scalar.text_beq]⟩
  obtain ⟨token, _, value, ht, hv, refers, _⟩ := survives flat h "dark" (by simp) _ _ background blue
    "color.blue" (by decide +kernel) ⟨["color", "blue"], rfl, by decide⟩ "blue" rfl (by decide) (by decide)
  exact ⟨flat, token, value, h, ht, hv, refers⟩

end Nested

end StyleTokens
