import StyleTokens.Proofs.NestedReferences

namespace StyleTokens

/-- The code of the issue for which a run was refused. -/
def refusalCode? (r : Except Fault Outcome) : Option String :=
  match r with
  | .ok o => match o.failure? with
    | some (.rejected issue) => some issue.code
    | _ => none
  | .error _ => none

namespace Nested

/-- One leaf of a tree refers to another one by its dotted path. -/
def Leads (d : Doc) (l m : Leaf) : Prop :=
  l ∈ leaves d ∧ m ∈ leaves d ∧ ∃ b ∈ referenceNames l.value, m.DottedPath b

/-- No leaf of a tree is reached again from itself by references. -/
def PathAcyclic (d : Doc) : Prop := ∀ l, ¬ Relation.TransGen (Leads d) l l

/-- No reference of a last leaf is taken, once it is shortened, for one to a last leaf at another path. -/
def Uncaptured (d : Doc) : Prop :=
  ∀ l m b k, Remains d l → Remains d m → b ∈ referenceNames l.value → m.key = .text k →
    Placeholder.lastPart b = k → m.DottedPath b

theorem pathAcyclic_of_plain_targets {d : Doc}
    (plain : ∀ l m, Leads d l m → referenceNames m.value = []) : PathAcyclic d := by
  intro l loop
  obtain ⟨_, _, last⟩ := Relation.TransGen.tail'_iff.mp loop
  obtain ⟨_, first, _⟩ := Relation.TransGen.head'_iff.mp loop
  obtain ⟨_, _, b, hb, _⟩ := first
  rw [plain _ l last] at hb
  cases hb

theorem leads_of_refersBy {d : Doc} (uncaptured : Uncaptured d) {x y : String}
    (h : RefersBy (Holds d) x y) {l : Leaf} (hl : Remains d l) (hx : l.key = .text x) :
    ∃ m, Remains d m ∧ m.key = .text y ∧ Leads d l m := by
  obtain ⟨⟨_, ⟨l', hl', hx', rfl⟩, hy⟩, _, m, hm, hmy, _⟩ := h
  obtain rfl : l' = l := hl'.eq_of_key hl (by rw [hx', hx, BEq.rfl])
  obtain ⟨_, b, hb, last⟩ := mem_referenceNames_shortenReferences.mp hy
  exact ⟨m, hm, hmy, hl.mem, hm.mem, b, hb, uncaptured _ m b y hl hm hb hmy last⟩

/-- References among the tokens of a tree come from references among its leaves. -/
theorem transGen_leads {d : Doc} (uncaptured : Uncaptured d) {x y : String}
    (h : Relation.TransGen (RefersBy (Holds d)) x y) {l : Leaf} (hl : Remains d l)
    (hx : l.key = .text x) :
    ∃ m, Remains d m ∧ m.key = .text y ∧ Relation.TransGen (Leads d) l m := by
  induction h with
  | single step =>
    obtain ⟨m, hm, hy, leads⟩ := leads_of_refersBy uncaptured step hl hx
    exact ⟨m, hm, hy, .single leads⟩
  | tail _ step ih =>
    obtain ⟨m, hm, hy, before⟩ := ih
    obtain ⟨n, hn, hz, leads⟩ := leads_of_refersBy uncaptured step hm hy
    exact ⟨n, hn, hz, before.tail leads⟩

theorem acyclicBy_holds {d : Doc} (uncaptured : Uncaptured d) (acyclic : PathAcyclic d) :
    AcyclicBy (Holds d) := by
  intro x loop
  have starts : ∃ l, Remains d l ∧ l.key = .text x := by
    cases loop with
    | single step =>
      obtain ⟨⟨_, ⟨l, hl, hx, _⟩, _⟩, _⟩ := step
      exact ⟨l, hl, hx⟩
    | tail _ step =>
      obtain ⟨_, _, l, hl, hx, _⟩ := step
      exact ⟨l, hl, hx⟩
  obtain ⟨l, hl, hx⟩ := starts
  obtain ⟨m, hm, hy, round⟩ := transGen_leads uncaptured loop hl hx
  obtain rfl : m = l := hm.eq_of_key hl (by rw [hx, hy, BEq.rfl])
  exact acyclic m round

/-- If all leaves have keys of their own without points, and every reference is to the path of a leaf, then
none is taken for another. -/
theorem uncaptured_of_distinct_keys {d : Doc}
    (distinct : ∀ l ∈ leaves d, ∀ m ∈ leaves d, l.key = m.key → l = m)
    (dotless : ∀ l ∈ leaves d, ∀ k, l.key = .text k → '.' ∉ k.toList)
    (resolved : ∀ l ∈ leaves d, ∀ b ∈ referenceNames l.value, ∃ m ∈ leaves d, m.DottedPath b) :
    Uncaptured d := by
  intro l m b k hl hm hb hk last
  obtain ⟨n, hn, path⟩ := resolved l hl.mem b hb
  obtain ⟨_, k', _, hk', _⟩ := dottedPath_iff.mp path
  have same : k' = k := (lastPart_of_dottedPath path hk' (dotless n hn k' hk')).symm.trans last
  obtain rfl : n = m := distinct n hn m hm.mem (by rw [hk, hk', same])
  exact path

theorem assemble_ne_rejected (d : Doc) (theme : Option String) (modes : List String) (issue : Issue) :
    (ThemeRecords.assemble d "tokens-studio" theme modes).result ≠ .error (.failure (.rejected issue)) := by
  intro h
  unfold ThemeRecords.assemble at h
  rw [ofName_nested] at h
  simp only at h
  split at h
  next => cases h
  next name _ =>
    cases hf : (flatten d).result with
    | ok flat => simp [hf, Except.bind] at h
    | error stop =>
      simp only [Traced.result_bind, hf, Except.bind, Except.error.injEq] at h
      subst h
      exact flatten_ne_rejected d issue hf

/-- A run over a tree whose leaves do not refer to each other in a circle, and none of whose references is
taken for another, is not refused for a circle. -/
theorem not_refused_for_circle {d : Doc} (uncaptured : Uncaptured d) (acyclic : PathAcyclic d)
    (selector : String) (theme : Option String) (modes : List String) (generate log : Bool) :
    refusalCode? (Pipeline.run selector d ⟨"tokens-studio", theme, modes⟩ generate log).result ≠
      some "CIRCULAR_REFERENCE" := by
  intro h
  unfold refusalCode? at h
  split at h
  next o ho =>
    split at h
    next issue hf =>
      have refused := Pipeline.buildTable_of_failed_run ho hf
      cases ha : (ThemeRecords.assemble d "tokens-studio" theme modes).result with
      | error stop =>
        rw [Pipeline.result_buildTable, ha] at refused
        cases refused
        exact assemble_ne_rejected d theme modes issue ha
      | ok records =>
        obtain ⟨t, ht, th, hth, m, hm, cyclic⟩ :=
          Pipeline.exists_cyclic_of_refused ha refused (Option.some.inj h)
        obtain ⟨name, flat, _, _, hflat, rfl⟩ := assemble_ok_iff.mp ha
        obtain ⟨_, rfl⟩ := flatten_ok hflat
        rw [ofFlat_eq] at ht
        obtain ⟨made, items, ho⟩ := ofRecords_themeRecord_iff.mp ht
        obtain rfl : th = made := by simpa [items] using hth
        obtain ⟨_, all⟩ := ofDoc_modeEntries_iff.mp ho
        obtain ⟨_, _, _, tokens⟩ := exists_of_forall₂_right all hm
        exact cyclic (tokens.acyclic_iff.mpr (acyclicBy_holds uncaptured acyclic))
    next => cases h
  next => cases h

theorem names_color_blue : Placeholder.names "{color.blue}" = ["color.blue"] := by decide +kernel

theorem referenceNames_of_mem_referringTree : ∀ l ∈ leaves referringTree, ∀ b ∈ referenceNames l.value,
    b = "color.blue" ∧ l.key = .text "background" := by
  have plain : Placeholder.names "#00f" = [] := by decide +kernel
  simp [leaves_referringTree, referenceNames, names_color_blue, plain]

theorem uncaptured_referringTree : Uncaptured referringTree := by
  apply uncaptured_of_distinct_keys
  · simp [leaves_referringTree]
  · simp [leaves_referringTree]
  · intro l hl b hb
    obtain ⟨rfl, _⟩ := referenceNames_of_mem_referringTree l hl b hb
    have blue : ⟨[.text "color"], .text "blue", .text "color", .text "#00f"⟩ ∈ leaves referringTree := by
      simp [leaves_referringTree]
    exact ⟨_, blue, ["color", "blue"], rfl, by decide⟩

theorem pathAcyclic_referringTree : PathAcyclic referringTree := by
  apply pathAcyclic_of_plain_targets
  intro l m leads
  obtain ⟨hl, hm, b, hb, path⟩ := leads
  obtain ⟨rfl, _⟩ := referenceNames_of_mem_referringTree l hl b hb
  apply List.eq_nil_iff_forall_not_mem.mpr
  intro c hc
  obtain ⟨_, background⟩ := referenceNames_of_mem_referringTree m hm c hc
  have last := lastPart_of_dottedPath path background (by decide)
  simp [Placeholder.lastPart, Placeholder.lastSegment] at last

theorem not_refused_referringTree : Uncaptured referringTree ∧ PathAcyclic referringTree ∧
    refusalCode? (Pipeline.run ":root" referringTree ⟨"tokens-studio", some "brand", ["light", "dark"]⟩
      true true).result ≠ some "CIRCULAR_REFERENCE" :=
  ⟨uncaptured_referringTree, pathAcyclic_referringTree,
    not_refused_for_circle uncaptured_referringTree pathAcyclic_referringTree ":root" (some "brand")
      ["light", "dark"] true true⟩

/-- A tree with two leaves of one key of which the last refers to the first. -/
def clashingTree : Doc :=
  .object [
    ("b", .object [("x", .object [("value", .text "#fff"), ("type", .text "color")])]),
    ("a", .object [("x", .object [("value", .text "{b.x}"), ("type", .text "color")])])]

theorem leaves_clashingTree : leaves clashingTree =
    [⟨[.text "b"], .text "x", .text "color", .text "#fff"⟩,
      ⟨[.text "a"], .text "x", .text "color", .text "{b.x}"⟩] := rfl

/-- Every reference is to the path of a leaf and none leads back, and still the run is refused: the last leaf
takes the place of the first and its shortened reference is to itself. -/
theorem refused_clashingTree :
    (∀ l ∈ leaves clashingTree, ∀ b ∈ referenceNames l.value, ∃ m ∈ leaves clashingTree, m.DottedPath b) ∧
      PathAcyclic clashingTree ∧
      refusalCode? (Pipeline.run ":root" clashingTree ⟨"tokens-studio", some "brand", ["light", "dark"]⟩
        false true).result = some "CIRCULAR_REFERENCE" := by
  have refers : ∀ l ∈ leaves clashingTree, ∀ b ∈ referenceNames l.value,
      b = "b.x" ∧ l.fullPath = [.text "a", .text "x"] := by
    have plain : Placeholder.names "#fff" = [] := by decide +kernel
    have one : Placeholder.names "{b.x}" = ["b.x"] := by decide +kernel
    simp [leaves_clashingTree, referenceNames, Leaf.fullPath, plain, one]
  refine ⟨?_, ?_, by decide +kernel⟩
  · intro l hl b hb
    obtain ⟨rfl, _⟩ := refers l hl b hb
    have first : ⟨[.text "b"], .text "x", .text "color", .text "#fff"⟩ ∈ leaves clashingTree := by
      simp [leaves_clashingTree]
    exact ⟨_, first, ["b", "x"], rfl, by decide⟩
  · apply pathAcyclic_of_plain_targets
    intro l m leads
    obtain ⟨hl, hm, b, hb, path⟩ := leads
    obtain ⟨rfl, _⟩ := refers l hl b hb
    apply List.eq_nil_iff_forall_not_mem.mpr
    intro c hc
    obtain ⟨_, full⟩ := refers m hm c hc
    obtain ⟨names, hn, joined⟩ := path
    have texts : names.map Scalar.text = ["a", "x"].map Scalar.text := hn.symm.trans full
    have same : names = ["a", "x"] := List.map_injective_iff.mpr (fun _ _ => Scalar.text.inj) texts
    rw [same] at joined
    exact absurd joined (by decide)

end Nested

end StyleTokens
