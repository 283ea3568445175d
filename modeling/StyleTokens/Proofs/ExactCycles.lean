import StyleTokens.Proofs.ReferenceCycles
import Mathlib.Data.Finset.Dedup
import Mathlib.Data.Set.Card

namespace StyleTokens

namespace Search

variable {graph : List (String × List String)}

/-- The path to the token whose references are followed, the tokens on it, and what is found so far. -/
structure State where
  path : List String
  onPath : Finset String
  found : Search

/-- The state after a cycle is closed at a token of the path. -/
def State.closed (s : State) (ref : String) : State :=
  { s with found := ⟨s.found.cycles ++ [s.path.dropWhile (· != ref) ++ [ref]], s.found.done⟩ }

/-- The state in which the references of one more token are followed. -/
def State.entered (s : State) (ref : String) : State := ⟨s.path ++ [ref], insert ref s.onPath, s.found⟩

/-- The state after all references of the last token of the path are followed. -/
def State.left (s : State) (ref : String) : State :=
  ⟨s.path.dropLast, s.onPath.erase ref, ⟨s.found.cycles, ref :: s.found.done⟩⟩

/-- States reached by following references in turn, without a bound on the depth: the search ends where no
reference is left. -/
inductive Follows (graph : List (String × List String)) : List String → State → State → Prop
  | nil (s : State) : Follows graph [] s s
  | closes {ref rest s after} : ref ∈ s.onPath → ref ∈ s.path → Follows graph rest (s.closed ref) after →
      Follows graph (ref :: rest) s after
  | passes {ref rest s after} : ref ∉ s.onPath → ref ∈ s.found.done → Follows graph rest s after →
      Follows graph (ref :: rest) s after
  | visits {ref refs rest s mid after} : ref ∉ s.onPath → ref ∉ s.found.done → graph.lookup ref = some refs →
      Follows graph refs (s.entered ref) mid → Follows graph rest (mid.left ref) after →
      Follows graph (ref :: rest) s after

theorem Follows.unique {refs : List String} {s a b : State} (h : Follows graph refs s a)
    (h' : Follows graph refs s b) : a = b := by
  induction h generalizing b with
  | nil s =>
    cases h'
    rfl
  | closes on _ _ ih =>
    cases h' with
    | closes _ _ later => exact ih later
    | passes off _ _ => exact absurd on off
    | visits off _ _ _ _ => exact absurd on off
  | passes off known _ ih =>
    cases h' with
    | closes on _ _ => exact absurd on off
    | passes _ _ later => exact ih later
    | visits _ fresh _ _ _ => exact absurd known fresh
  | visits off fresh found _ _ ihin ihout =>
    cases h' with
    | closes on _ _ => exact absurd on off
    | passes _ known _ => exact absurd known fresh
    | visits _ _ found' inner later =>
      cases found.symm.trans found'
      cases ihin inner
      exact ihout later

/-- The state in which a path is followed, with the set of its tokens. -/
def State.along (path : List String) (found : Search) : State := ⟨path, path.toFinset, found⟩

theorem toFinset_concat (path : List String) (ref : String) :
    (path ++ [ref]).toFinset = insert ref path.toFinset := by
  ext x
  simp

theorem State.entered_along (path : List String) (ref : String) (found : Search) :
    (State.along path found).entered ref = State.along (path ++ [ref]) found := by
  rw [along, along, entered, toFinset_concat]

theorem State.left_along {path : List String} {ref : String} (fresh : ref ∉ path) (found : Search) :
    (State.along (path ++ [ref]) found).left ref = State.along path ⟨found.cycles, ref :: found.done⟩ := by
  rw [along, along, left, toFinset_concat, Finset.erase_insert (mt List.mem_toFinset.mp fresh),
    List.dropLast_concat]

theorem exists_lookup {x : String} (h : x ∈ graph.map Prod.fst) : ∃ refs, graph.lookup x = some refs := by
  obtain ⟨p, hp, rfl⟩ := List.mem_map.mp h
  cases hl : graph.lookup p.1 with
  | some refs => exact ⟨refs, rfl⟩
  | none => simpa using List.lookup_eq_none_iff.mp hl p hp

/-- One reference after the other is followed as the search with a bound does it, if that does so for the
references of every token which a path can still be extended by. -/
theorem follows_foldl {fuel : Nat} {path : List String} (distinct : path.Nodup) (inside : path ⊆ graph.map Prod.fst)
    (enough : graph.length < fuel + 1 + path.length)
    (visits : ∀ path name found, path.Nodup → path ⊆ graph.map Prod.fst → graph.length < fuel + path.length →
      name ∈ graph.map Prod.fst → ∃ refs after, graph.lookup name = some refs ∧
        visit graph fuel path name found = ⟨after.cycles, name :: after.done⟩ ∧
        Follows graph refs (.along path found) (.along path after))
    (refs : List String) (known : refs ⊆ graph.map Prod.fst) (found : Search) :
    Follows graph refs (.along path found) (.along path (refs.foldl (follow graph fuel path) found)) := by
  induction refs generalizing found with
  | nil => exact .nil _
  | cons ref rest ih =>
    obtain ⟨here, later⟩ := List.cons_subset.mp known
    rw [List.foldl_cons]
    by_cases onPath : ref ∈ path
    · have closed : follow graph fuel path found ref =
          ⟨found.cycles ++ [path.dropWhile (· != ref) ++ [ref]], found.done⟩ := by
        simp [follow, onPath]
      exact .closes (List.mem_toFinset.mpr onPath) onPath (closed ▸ ih later _)
    · have off : ref ∉ path.toFinset := mt List.mem_toFinset.mp onPath
      by_cases done : ref ∈ found.done
      · have passed : follow graph fuel path found ref = found := by
          simp [follow, onPath, done]
        rw [passed]
        exact .passes off done (ih later found)
      · have longer : (path ++ [ref]).Nodup := by
          simpa [List.nodup_append] using ⟨distinct, fun x hx he => onPath (he ▸ hx)⟩
        have within : path ++ [ref] ⊆ graph.map Prod.fst := by
          exact List.append_subset.mpr ⟨inside, List.cons_subset.mpr ⟨here, List.nil_subset _⟩⟩
        obtain ⟨refs, after, looked, visited, followed⟩ := visits (path ++ [ref]) ref found longer within
          (by simp only [List.length_append, List.length_singleton]; omega) here
        have entered : follow graph fuel path found ref = ⟨after.cycles, ref :: after.done⟩ := by
          simp [follow, onPath, done, visited]
        refine .visits off done looked (State.entered_along path ref found ▸ followed) ?_
        rw [State.left_along onPath, ← entered]
        exact ih later _

/-- A path has no token twice, so the bound of a visit is never reached. -/
theorem follows_visit (closed : ∀ x y, Edge graph x y → y ∈ graph.map Prod.fst) (fuel : Nat)
    (path : List String) (name : String) (found : Search) (distinct : path.Nodup)
    (inside : path ⊆ graph.map Prod.fst) (enough : graph.length < fuel + path.length)
    (known : name ∈ graph.map Prod.fst) :
    ∃ refs after, graph.lookup name = some refs ∧
      visit graph fuel path name found = ⟨after.cycles, name :: after.done⟩ ∧
      Follows graph refs (.along path found) (.along path after) := by
  induction fuel generalizing path name found with
  | zero =>
    -- A path without repetitions is no longer than the graph, so the bound is never used up.
    have bound := (List.subperm_of_subset distinct inside).length_le
    simp only [List.length_map] at bound
    omega
  | succ fuel ih =>
    obtain ⟨refs, looked⟩ := exists_lookup known
    have nodes : refs ⊆ graph.map Prod.fst := by
      intro y hy
      refine closed name y ?_
      rwa [Edge, looked, Option.getD_some]
    refine ⟨refs, refs.foldl (follow graph fuel path) found, looked, ?_, ?_⟩
    · rw [visit_succ, looked, Option.getD_some]
    · exact follows_foldl distinct inside enough ih refs nodes found

theorem foldl_start (roots : List (String × List String)) (found : Search) :
    roots.foldl (start graph) found = (roots.map Prod.fst).foldl (follow graph graph.length []) found := by
  have same : ∀ found p, start graph found p = follow graph graph.length [] found p.1 := by
    intro found p
    simp [start, follow]
  rw [List.foldl_map]
  exact congrArg (fun step => roots.foldl step found) (funext fun found => funext (same found))

end Search

namespace Mode

/-- The search without a bound ends, and it ends with the cycles of the mode. -/
theorem exists_follows (m : Mode) : ∃ done,
    Search.Follows m.graph m.tokenNames (.along [] ⟨[], []⟩) (.along [] ⟨m.cycles, done⟩) := by
  have names : m.graph.map Prod.fst = m.tokenNames := m.names_graph
  have visits := Search.follows_visit (fun _ _ => m.mem_graph_of_edge) m.graph.length
  have whole := Search.follows_foldl List.nodup_nil (List.nil_subset _) (by simp) visits m.tokenNames (by simp [names])
    ⟨[], []⟩
  rw [← names, ← Search.foldl_start] at whole
  exact ⟨_, names ▸ whole⟩

/-- The tokens that a token leads to by one reference or more. -/
def descendants (m : Mode) (x : String) : Set String := { y | Relation.TransGen m.Refers x y }

theorem finite_descendants (m : Mode) (x : String) : (m.descendants x).Finite := by
  refine m.tokenNames.finite_toSet.subset ?_
  intro y hy
  obtain ⟨_, _, _, t, ht, rfl⟩ := Relation.TransGen.tail'_iff.mp hy
  exact List.mem_map_of_mem ht

/-- No token leads back to itself exactly if there is a rank that every reference lowers. -/
theorem acyclic_iff_ranked (m : Mode) :
    m.Acyclic ↔ ∃ rank : String → Nat, ∀ x y, m.Refers x y → rank y < rank x := by
  constructor
  · intro acyclic
    -- The rank is the number of descendants: a reference passes on all of those of its target, and adds the target.
    refine ⟨fun x => (m.descendants x).ncard, ?_⟩
    intro x y step
    refine Set.ncard_lt_ncard ?_ (m.finite_descendants x)
    refine ⟨fun z hz => .head step hz, ?_⟩
    intro back
    exact acyclic y (back (.single step))
  · rintro ⟨rank, lower⟩ x loop
    have down : ∀ {x y}, Relation.TransGen m.Refers x y → rank y < rank x := by
      intro x y h
      induction h with
      | single step => exact lower _ _ step
      | tail _ step ih => exact (lower _ _ step).trans ih
    exact (down loop).false

/-- A walk along references from a token back to it that meets no other token twice. -/
structure SimpleCycle (m : Mode) (c : List String) : Prop where
  long : 2 ≤ c.length
  closed : c.head? = c.getLast?
  distinct : c.dropLast.Nodup
  chain : c.IsChain m.Refers

theorem simpleCycle_of_isCycle {m : Mode} {c : List String} (h : Search.IsCycle m.graph c) : m.SimpleCycle c := by
  obtain ⟨start, rest, rfl, distinct, chain⟩ := h
  refine ⟨by simp, ?_, ?_, ?_⟩
  · rw [List.getLast?_concat]
    rfl
  · rwa [List.dropLast_concat]
  · exact chain.imp fun _ _ => m.edge_graph_iff.mp

theorem simpleCycle_of_mem_cycles {m : Mode} {c : List String} (h : c ∈ m.cycles) : m.SimpleCycle c := by
  have none_found : Search.Genuine m.graph ⟨[], []⟩ := by simp [Search.Genuine]
  exact simpleCycle_of_isCycle (Search.genuine_foldl_start m.graph none_found c h)

/-- The search for cycles ends, finds none exactly if references can only lead down, and finds nothing but
simple cycles. -/
theorem cycles_exact (m : Mode) :
    (∃ done, ∀ after, Search.Follows m.graph m.tokenNames ⟨[], ∅, ⟨[], []⟩⟩ after ↔
      after = ⟨[], ∅, ⟨m.cycles, done⟩⟩) ∧
    (m.cycles = [] ↔ m.Acyclic) ∧
    (m.cycles = [] ↔ ∃ rank : String → Nat, ∀ x y, m.Refers x y → rank y < rank x) ∧
    ∀ c ∈ m.cycles, m.SimpleCycle c := by
  obtain ⟨done, ends⟩ := m.exists_follows
  refine ⟨⟨done, fun after => ⟨fun other => other.unique ends, ?_⟩⟩, m.cycles_eq_nil_iff,
    m.cycles_eq_nil_iff.trans m.acyclic_iff_ranked, fun c => simpleCycle_of_mem_cycles⟩
  rintro rfl
  exact ends

/-- A mode in which two tokens refer to each other, and one of them to a third as well. -/
def circlingMode : Mode :=
  let token (name : String) (value : String) (named : name ≠ "") : Token := ⟨name, "color", .text value, none, named⟩
  ⟨lightMode, Roster.ofList
    [token "a" "{c} {b}" (by decide), token "b" "{a}" (by decide), token "c" "#fff" (by decide)]⟩

theorem cycles_circlingMode : circlingMode.cycles = [["a", "b", "a"]] ∧ circlingMode.SimpleCycle ["a", "b", "a"] ∧
    ¬ circlingMode.Acyclic := by
  have found : circlingMode.cycles = [["a", "b", "a"]] := by decide +kernel
  obtain ⟨_, acyclic, _, simple⟩ := cycles_exact circlingMode
  refine ⟨found, simple _ (by simp [found]), ?_⟩
  rw [← acyclic, found]
  simp

end Mode

end StyleTokens
