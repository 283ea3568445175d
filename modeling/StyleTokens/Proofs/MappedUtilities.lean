import StyleTokens.Bundle.Utilities
import StyleTokens.Proofs.LastEntries
import Mathlib.Data.List.Basic

namespace StyleTokens

/-- A part occurs in a text exactly if it stands somewhere in it. -/
theorem occursIn_iff {pattern cs : List Char} : occursIn pattern cs = true ↔ pattern <:+: cs := by
  induction cs with
  | nil => simp [occursIn]
  | cons c rest ih =>
    rw [occursIn, Bool.or_eq_true, List.isPrefixOf_iff_prefix, ih, List.infix_cons_iff]

namespace Utilities

/-- A rule of a group with a token that it may apply to. -/
structure Use where
  group : UtilityGroup
  token : Token
  rule : UtilityRule

/-- The group accepts the token and the name of the token has a keyword of the rule. -/
def Use.applies (u : Use) : Bool := u.group.accepts u.token && u.rule.applies u.token.name

/-- The utility variable that the rule gives to the token. -/
def Use.target (u : Use) : String := u.rule.target (Naming.kebab u.token.name)

/-- The variable of the token. -/
def Use.source (u : Use) : String := Token.variableName u.token.name

/-- The rules that apply to tokens of a mode: group by group, in each token by token, for each rule by rule. -/
def uses (gs : List UtilityGroup) (m : Mode) : List Use :=
  (gs.flatMap fun g => m.tokens.items.flatMap fun t => g.rules.map fun r => ⟨g, t, r⟩).filter Use.applies

/-- A rule of the group gives the utility variable to the token. -/
def Gives (g : UtilityGroup) (target : String) (t : Token) : Prop :=
  g.accepts t = true ∧ ∃ r ∈ g.rules, r.applies t.name = true ∧ r.target (Naming.kebab t.name) = target

section Uses

variable {gs : List UtilityGroup} {g : UtilityGroup} {m : Mode} {u : Use} {target : String} {t : Token}

/-- The rules of a group that apply to a token. -/
def usesOf (g : UtilityGroup) (t : Token) : List Use := (g.rules.map fun r => ⟨g, t, r⟩).filter Use.applies

theorem uses_eq (gs : List UtilityGroup) (m : Mode) :
    uses gs m = gs.flatMap fun g => m.tokens.items.flatMap (usesOf g) := by
  simp only [uses, List.filter_flatMap]
  rfl

theorem mem_usesOf_iff : u ∈ usesOf g t ↔
    u.group = g ∧ u.token = t ∧ u.rule ∈ g.rules ∧ g.accepts t = true ∧ u.rule.applies t.name = true := by
  simp only [usesOf, List.mem_filter, List.mem_map, Use.applies, Bool.and_eq_true]
  constructor
  · rintro ⟨⟨r, hr, rfl⟩, accepted, applied⟩
    exact ⟨rfl, rfl, hr, accepted, applied⟩
  · obtain ⟨g', t', r⟩ := u
    rintro ⟨rfl, rfl, hr, accepted, applied⟩
    exact ⟨⟨r, hr, rfl⟩, accepted, applied⟩

theorem gives_iff : Gives g target t ↔ ∃ u ∈ usesOf g t, u.target = target := by
  constructor
  · rintro ⟨accepted, r, hr, applied, given⟩
    exact ⟨⟨g, t, r⟩, mem_usesOf_iff.mpr ⟨rfl, rfl, hr, accepted, applied⟩, given⟩
  · rintro ⟨⟨g', t', r⟩, hu, given⟩
    obtain ⟨rfl, rfl, hr, accepted, applied⟩ := mem_usesOf_iff.mp hu
    exact ⟨accepted, r, hr, applied, given⟩

theorem gives_of_mem_uses (hu : u ∈ uses [g] m) : Gives g u.target u.token := by
  rw [uses_eq, List.flatMap_singleton] at hu
  obtain ⟨t, -, hu⟩ := List.mem_flatMap.mp hu
  obtain ⟨-, rfl, -⟩ := mem_usesOf_iff.mp hu
  exact gives_iff.mpr ⟨u, hu, rfl⟩

theorem ofToken_eq (g : UtilityGroup) (t : Token) : ofToken g t = (usesOf g t).map fun u => (u.target, u.source) := by
  rw [ofToken, usesOf, List.filter_map, List.map_map]
  cases accepted : g.accepts t with
  | true => simp [Function.comp_def, Use.applies, accepted, Use.target, Use.source, Token.variableName]
  | false => simp [Function.comp_def, Use.applies, accepted]

theorem mapping_eq (gs : List UtilityGroup) (m : Mode) :
    mapping gs m = Ordered.ofList ((uses gs m).map fun u => (u.target, u.source)) := by
  simp only [mapping, occurrences, uses_eq, List.map_flatMap, ofToken_eq]

/-- A utility variable stands for the variable of a token of the mode. -/
theorem exists_token_of_mem {p : String × String} (h : p ∈ mapping gs m) :
    ∃ t ∈ m.tokens.items, p.2 = Token.variableName t.name := by
  rw [mapping_eq] at h
  obtain ⟨u, survives, -, same⟩ := Ordered.exists_survives_of_mem_ofList h
  have used := survives.mem
  rw [uses_eq] at used
  obtain ⟨g, -, used⟩ := List.mem_flatMap.mp used
  obtain ⟨t, ht, used⟩ := List.mem_flatMap.mp used
  obtain ⟨-, rfl, -⟩ := mem_usesOf_iff.mp used
  exact ⟨u.token, ht, same.symm⟩

theorem keys_mapping (gs : List UtilityGroup) (m : Mode) :
    Ordered.keys (mapping gs m) = ((uses gs m).map Use.target).eraseDups := by
  have same : ∀ a b : String, (id a == id b) = (a == b) := fun _ _ => rfl
  have keys := Ordered.keys_ofList_names same Use.target Use.source (uses gs m)
  rw [List.map_id] at keys
  rw [mapping_eq]
  exact keys

theorem nodup_keys_mapping (gs : List UtilityGroup) (m : Mode) : (Ordered.keys (mapping gs m)).Nodup := by
  have distinct := Ordered.distinct_ofList ((uses gs m).map fun u => (u.target, u.source))
  rw [← mapping_eq] at distinct
  exact List.pairwise_map.mpr (distinct.imp fun h => beq_eq_false_iff_ne.mp h)

/-- A utility variable of a group goes by the last token to which the group gives it. -/
theorem mem_mapping_iff {source : String} : (target, source) ∈ mapping [g] m ↔
    ∃ t, LastWith (Gives g target) m.tokens.items t ∧ source = Token.variableName t.name := by
  have same : ∀ a b : String, (id a == id b) = (a == b) := fun _ _ => rfl
  have member : (target, source) ∈ mapping [g] m ↔
      ∃ u, Survives Use.target (m.tokens.items.flatMap (usesOf g)) u ∧ (target, source) = (u.target, u.source) := by
    rw [mapping_eq, uses_eq, List.flatMap_singleton]
    exact Ordered.mem_ofList_names same
  have survivor : ∀ {t}, LastWith (Gives g target) m.tokens.items t → ∃ u, u.token = t ∧ u.target = target ∧
      Survives Use.target (m.tokens.items.flatMap (usesOf g)) u := by
    intro t ht
    have given : Gives g target = fun t => ∃ u ∈ usesOf g t, u.target = target := funext fun t => propext gives_iff
    rw [given] at ht
    obtain ⟨u, hu, at_target, survives⟩ := exists_survives_flatMap ht
    exact ⟨u, (mem_usesOf_iff.mp hu).2.1, at_target, survives⟩
  rw [member]
  constructor
  · rintro ⟨u, hu, same⟩
    obtain ⟨rfl, rfl⟩ := Prod.mk.inj same
    obtain ⟨t, ht, inside⟩ := List.mem_flatMap.mp hu.mem
    obtain ⟨last, hlast⟩ := exists_lastWith ht (gives_iff.mpr ⟨u, inside, rfl⟩)
    obtain ⟨u', rfl, at_target, survives⟩ := survivor hlast
    have one : u' = u := survives.eq_of_key hu (beq_iff_eq.mpr at_target)
    exact ⟨u'.token, hlast, by rw [one]; rfl⟩
  · rintro ⟨t, ht, rfl⟩
    obtain ⟨u, rfl, rfl, survives⟩ := survivor ht
    exact ⟨u, survives, rfl⟩

end Uses

/-- The third character of a utility variable tells its group. -/
theorem third_of_colors {target : String} {t : Token} (h : Gives colors target t) : target.toList[2]? = some 'c' := by
  obtain ⟨-, r, hr, -, rfl⟩ := h
  have all : ∀ r ∈ colors.rules, ∀ n, (r.target n).toList[2]? = some 'c' := by
    simp [colors, String.toList_append]
  exact all r hr _

theorem third_of_spacing {target : String} {t : Token} (h : Gives spacing target t) :
    target.toList[2]? = some 's' ∨ target.toList[2]? = some 'r' := by
  obtain ⟨-, r, hr, -, rfl⟩ := h
  have all : ∀ r ∈ spacing.rules, ∀ n, (r.target n).toList[2]? = some 's' ∨ (r.target n).toList[2]? = some 'r' := by
    simp [spacing, String.toList_append]
  exact all r hr _

theorem not_gives_both {target : String} {t t' : Token} (h : Gives colors target t) : ¬ Gives spacing target t' := by
  intro h'
  have third := third_of_colors h
  rcases third_of_spacing h' with other | other
  · cases third.symm.trans other
  · cases third.symm.trans other

/-- Colors and sizes are mapped apart, the colors first. -/
theorem mapping_groups (m : Mode) : mapping groups m = mapping [colors] m ++ mapping [spacing] m := by
  have whole : uses groups m = uses [colors] m ++ uses [spacing] m := by
    simp [uses_eq, groups]
  rw [mapping_eq, mapping_eq, mapping_eq, whole, List.map_append]
  apply Ordered.ofList_append_of_apart
  intro p hp q hq
  obtain ⟨u, hu, rfl⟩ := List.mem_map.mp hp
  obtain ⟨u', hu', rfl⟩ := List.mem_map.mp hq
  have color : Gives colors u.target u.token := gives_of_mem_uses hu
  have size : Gives spacing u'.target u'.token := gives_of_mem_uses hu'
  rw [beq_eq_false_iff_ne]
  intro (same : u.target = u'.target)
  rw [← same] at size
  exact not_gives_both color size

/-- The tokens that the group for colors accepts. -/
def IsColor (t : Token) : Prop := t.type = "color"

/-- The tokens that the group for sizes accepts. -/
def IsSize (t : Token) : Prop := t.type = "dimension" ∨ "spacing".toList <:+: t.name.toList

/-- The size has a radius in its name. -/
def IsRadius (t : Token) : Prop := IsSize t ∧ "radius".toList <:+: t.name.toList

theorem accepts_colors_iff {t : Token} : colors.accepts t = true ↔ IsColor t :=
  beq_iff_eq

theorem accepts_spacing_iff {t : Token} : spacing.accepts t = true ↔ IsSize t := by
  show (t.type == TokenType.dimension.name || occursIn "spacing".toList t.name.toList) = true ↔ _
  rw [Bool.or_eq_true, beq_iff_eq, occursIn_iff]
  rfl

theorem gives_radius_iff {t : Token} : Gives spacing "--radius-default" t ↔ IsRadius t := by
  rw [Gives, accepts_spacing_iff]
  refine and_congr_right fun _ => ?_
  constructor
  · rintro ⟨r, hr, applied, given⟩
    rcases List.mem_pair.mp hr with rfl | rfl
    · have third := congrArg (fun s : String => s.toList[2]?) given
      simp [String.toList_append] at third
    · obtain ⟨k, hk, occurs⟩ := List.any_eq_true.mp applied
      have within : "radius".toList <:+: k.toList := by
        rcases List.mem_pair.mp hk with rfl | rfl
        · exact List.infix_rfl
        · exact ⟨"border-".toList, [], by decide⟩
      exact within.trans (occursIn_iff.mp occurs)
  · intro occurs
    refine ⟨_, List.mem_pair.mpr (.inr rfl), ?_, rfl⟩
    exact List.any_eq_true.mpr ⟨"radius", by simp, occursIn_iff.mpr occurs⟩

/-- What the rules for colors and sizes make of the tokens of a mode. -/
structure Mapped (m : Mode) (entries : List (String × String)) : Prop where
  colors_accept : ∀ t, colors.accepts t = true ↔ IsColor t
  sizes_accept : ∀ t, spacing.accepts t = true ↔ IsSize t
  distinct : (Ordered.keys entries).Nodup
  /-- A utility variable has the place of the first rule that gives it. -/
  places : Ordered.keys entries = ((uses groups m).map Use.target).eraseDups
  present : ∀ g ∈ groups, ∀ t ∈ m.tokens.items, ∀ r ∈ g.rules, g.accepts t = true → r.applies t.name = true →
    r.target (Naming.kebab t.name) ∈ Ordered.keys entries
  /-- The colors stand before the sizes, and in both parts the last token counts. -/
  parts : ∃ first later, entries = first ++ later ∧
    (∀ target source, (target, source) ∈ first ↔
      ∃ t, LastWith (Gives colors target) m.tokens.items t ∧ source = Token.variableName t.name) ∧
    ∀ target source, (target, source) ∈ later ↔
      ∃ t, LastWith (Gives spacing target) m.tokens.items t ∧ source = Token.variableName t.name
  colored : ∀ target t, Gives colors target t →
    IsColor t ∧ ∀ t', ¬ Gives spacing target t'
  radius : ∀ source, ("--radius-default", source) ∈ entries ↔
    ∃ t, LastWith IsRadius m.tokens.items t ∧ source = Token.variableName t.name

/-- The rules map a mode with the colors first, every variable in its first place and for its last token. -/
theorem mapping_exact (m : Mode) : Mapped m (mapping groups m) where
  colors_accept := fun _ => accepts_colors_iff
  sizes_accept := fun _ => accepts_spacing_iff
  distinct := nodup_keys_mapping groups m
  places := keys_mapping groups m
  present := by
    intro g hg t ht r hr accepted applied
    have used : (⟨g, t, r⟩ : Use) ∈ uses groups m := by
      rw [uses_eq]
      exact List.mem_flatMap.mpr ⟨g, hg, List.mem_flatMap.mpr ⟨t, ht, mem_usesOf_iff.mpr ⟨rfl, rfl, hr, accepted, applied⟩⟩⟩
    rw [keys_mapping, List.mem_eraseDups]
    exact List.mem_map_of_mem used
  parts := ⟨mapping [colors] m, mapping [spacing] m, mapping_groups m, fun _ _ => mem_mapping_iff,
    fun _ _ => mem_mapping_iff⟩
  colored := by
    intro target t given
    exact ⟨accepts_colors_iff.mp given.1, fun _ => not_gives_both given⟩
  radius := by
    intro source
    have radius : Gives spacing "--radius-default" = IsRadius := funext fun _ => propext gives_radius_iff
    rw [mapping_groups, List.mem_append, mem_mapping_iff, mem_mapping_iff, radius]
    refine or_iff_right ?_
    rintro ⟨t, ⟨_, _, _, given, _⟩, _⟩
    exact absurd (third_of_colors given) (by decide)

/-- The last radius has the variable, at the place of the first. -/
example : mapping groups ⟨lightMode, Roster.ofList
    [⟨"radius-sm", "dimension", .int 2, none, by decide⟩, ⟨"spacing-sm", "dimension", .int 4, none, by decide⟩,
      ⟨"border-radius-lg", "dimension", .int 8, none, by decide⟩, ⟨"success", "color", .text "#0f0", none, by decide⟩]⟩ =
    [("--color-success", "--success"), ("--radius-default", "--border-radius-lg"), ("--spacing-sm", "--spacing-sm")] := by
  decide +kernel

end Utilities

end StyleTokens
