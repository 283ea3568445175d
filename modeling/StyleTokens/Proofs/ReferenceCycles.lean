import StyleTokens.Export.Nested
import StyleTokens.Token.References
import Mathlib.Data.List.Chain
import Mathlib.Data.List.Nodup
import Mathlib.Data.List.Perm.Subperm
import Mathlib.Logic.Relation

namespace StyleTokens

variable {graph : List (String × List String)}

/-- One node of a graph leads to another. -/
def Search.Edge (graph : List (String × List String)) (x y : String) : Prop :=
  y ∈ (graph.lookup x).getD []

/-- A walk along edges back to its start that meets no other node twice. -/
def Search.IsCycle (graph : List (String × List String)) (c : List String) : Prop :=
  ∃ start rest, c = start :: rest ++ [start] ∧ (start :: rest).Nodup ∧
    List.IsChain (Search.Edge graph) c

/-- What one reference of the last token of `path` adds to a search. -/
def Search.follow (graph : List (String × List String)) (fuel : Nat) (path : List String)
    (found : Search) (ref : String) : Search :=
  if path.contains ref then
    { found with cycles := found.cycles ++ [path.dropWhile (· != ref) ++ [ref]] }
  else if found.done.contains ref then found
  else Search.visit graph fuel (path ++ [ref]) ref found

theorem Search.visit_succ (fuel : Nat) (path : List String) (name : String) (found : Search) :
    Search.visit graph (fuel + 1) path name found =
      ⟨(((graph.lookup name).getD []).foldl (Search.follow graph fuel path) found).cycles,
        name :: (((graph.lookup name).getD []).foldl (Search.follow graph fuel path) found).done⟩ :=
  rfl

/-- A search never takes back a cycle or a node. -/
structure Search.Grows (before after : Search) : Prop where
  cycles : before.cycles <+: after.cycles
  done : before.done ⊆ after.done

theorem Search.Grows.refl (found : Search) : Search.Grows found found :=
  ⟨List.prefix_rfl, List.Subset.refl _⟩

theorem Search.Grows.trans {a b c : Search} (h : Search.Grows a b) (h' : Search.Grows b c) :
    Search.Grows a c :=
  ⟨h.cycles.trans h'.cycles, List.Subset.trans h.done h'.done⟩

theorem Search.Grows.cycles_eq_nil {a b : Search} (h : Search.Grows a b) (hb : b.cycles = []) :
    a.cycles = [] :=
  List.prefix_nil.mp (hb ▸ h.cycles)

theorem Search.grows_foldl {β : Type} {step : Search → β → Search}
    (hs : ∀ found x, Search.Grows found (step found x)) (xs : List β) (found : Search) :
    Search.Grows found (xs.foldl step found) := by
  induction xs generalizing found with
  | nil => exact .refl found
  | cons x rest ih => exact (hs found x).trans (ih (step found x))

theorem Search.grows_follow {fuel : Nat}
    (visits : ∀ path name found, Search.Grows found (Search.visit graph fuel path name found))
    (path : List String) (found : Search) (ref : String) :
    Search.Grows found (Search.follow graph fuel path found ref) := by
  unfold Search.follow
  split
  · exact ⟨List.prefix_append _ _, List.Subset.refl _⟩
  · split
    · exact .refl found
    · exact visits (path ++ [ref]) ref found

theorem Search.grows_visit (fuel : Nat) (path : List String) (name : String) (found : Search) :
    Search.Grows found (Search.visit graph fuel path name found) := by
  induction fuel generalizing path name found with
  | zero => exact .refl found
  | succ fuel ih =>
    rw [Search.visit_succ]
    have followed := Search.grows_foldl (Search.grows_follow ih path) ((graph.lookup name).getD []) found
    exact ⟨followed.cycles, fun x hx => List.mem_cons_of_mem _ (followed.done hx)⟩

/-- The nodes on the way from a root of a search to the one that is visited. -/
structure Search.Way (graph : List (String × List String)) (path : List String) (name : String) :
    Prop where
  chain : List.IsChain (Search.Edge graph) path
  last : path.getLast? = some name
  nodup : path.Nodup

theorem Search.Way.root (name : String) : Search.Way graph [name] name :=
  ⟨List.isChain_singleton name, rfl, List.nodup_singleton name⟩

theorem Search.Way.extend {path : List String} {name ref : String} (w : Search.Way graph path name)
    (he : Search.Edge graph name ref) (hn : ref ∉ path) : Search.Way graph (path ++ [ref]) ref := by
  refine ⟨?_, by simp, ?_⟩
  · apply List.isChain_append.mpr
    refine ⟨w.chain, List.isChain_singleton ref, ?_⟩
    intro x hx y hy
    have hx' : name = x := by simpa [w.last] using hx
    have hy' : ref = y := by simpa using hy
    rwa [← hx', ← hy']
  · apply List.nodup_append'.mpr
    exact ⟨w.nodup, List.nodup_singleton ref, by simpa using hn⟩

theorem dropWhile_ne_of_mem {path : List String} {ref : String} (h : ref ∈ path) :
    ∃ before rest, path = before ++ ref :: rest ∧ path.dropWhile (· != ref) = ref :: rest := by
  induction path with
  | nil => simp at h
  | cons x xs ih =>
    by_cases hx : x = ref
    · subst hx
      exact ⟨[], xs, rfl, by simp⟩
    · obtain ⟨before, rest, hp, hd⟩ := ih ((List.mem_cons.mp h).resolve_left (Ne.symm hx))
      exact ⟨x :: before, rest, by simp [hp], by simp [hx, hd]⟩

theorem Search.Way.closes {path : List String} {name ref : String} (w : Search.Way graph path name)
    (he : Search.Edge graph name ref) (hm : ref ∈ path) :
    Search.IsCycle graph (path.dropWhile (· != ref) ++ [ref]) := by
  obtain ⟨before, rest, hp, hd⟩ := dropWhile_ne_of_mem hm
  have suffix : ref :: rest <:+ path := ⟨before, hp.symm⟩
  have last : (ref :: rest).getLast? = some name := by
    rw [← w.last, hp, List.getLast?_append_of_ne_nil _ (by simp)]
  refine ⟨ref, rest, by rw [hd], w.nodup.sublist suffix.sublist, ?_⟩
  rw [hd]
  apply List.isChain_append.mpr
  refine ⟨w.chain.suffix suffix, List.isChain_singleton ref, ?_⟩
  intro x hx y hy
  have hx' : name = x := by simpa [last] using hx
  have hy' : ref = y := by simpa using hy
  rwa [← hx', ← hy']

/-- Every cycle of a search is one of the graph. -/
def Search.Genuine (graph : List (String × List String)) (found : Search) : Prop :=
  ∀ c ∈ found.cycles, Search.IsCycle graph c

theorem Search.genuine_follow {fuel : Nat} {path : List String} {name ref : String} {found : Search}
    (visits : ∀ path name found, Search.Way graph path name → Search.Genuine graph found →
      Search.Genuine graph (Search.visit graph fuel path name found))
    (w : Search.Way graph path name) (he : Search.Edge graph name ref)
    (hg : Search.Genuine graph found) :
    Search.Genuine graph (Search.follow graph fuel path found ref) := by
  unfold Search.follow
  split
  next onPath =>
    intro c hc
    rcases List.mem_append.mp hc with hc | hc
    · exact hg c hc
    · rw [List.mem_singleton.mp hc]
      exact w.closes he (List.contains_iff_mem.mp onPath)
  next offPath =>
    split
    · exact hg
    · exact visits _ _ _ (w.extend he fun hm => offPath (List.contains_iff_mem.mpr hm)) hg

theorem Search.genuine_visit (fuel : Nat) {path : List String} {name : String} {found : Search}
    (w : Search.Way graph path name) (hg : Search.Genuine graph found) :
    Search.Genuine graph (Search.visit graph fuel path name found) := by
  induction fuel generalizing path name found with
  | zero => exact hg
  | succ fuel ih =>
    have folded : ∀ refs : List String, (∀ ref ∈ refs, Search.Edge graph name ref) →
        ∀ found, Search.Genuine graph found →
          Search.Genuine graph (refs.foldl (Search.follow graph fuel path) found) := by
      intro refs
      induction refs with
      | nil => exact fun _ _ h => h
      | cons ref rest ihr =>
        intro he found h
        exact ihr (fun r hr => he r (by simp [hr])) _
          (Search.genuine_follow (fun _ _ _ w h => ih w h) w (he ref (by simp)) h)
    rw [Search.visit_succ]
    exact folded _ (fun _ h => h) found hg

/-- The nodes of a list lead only to nodes that come after them in the list. -/
def Search.Settled (graph : List (String × List String)) : List String → Prop
  | [] => True
  | x :: rest => (∀ y, Search.Edge graph x y → y ∈ rest) ∧ Search.Settled graph rest

theorem Search.Settled.acc {done : List String} (h : Search.Settled graph done) {x : String}
    (hx : x ∈ done) : Acc (fun y x => Search.Edge graph x y) x := by
  induction done generalizing x with
  | nil => simp at hx
  | cons z rest ih =>
    obtain ⟨later, hr⟩ := h
    rcases List.mem_cons.mp hx with rfl | hx
    · exact Acc.intro x fun y hy => ih hr (later y hy)
    · exact ih hr hx

theorem Search.settled_follow {fuel : Nat} {path : List String} {name ref : String} {found : Search}
    (visits : ∀ path name found, Search.Way graph path name → path ⊆ graph.map Prod.fst →
      graph.length < fuel + path.length → Search.Settled graph found.done →
      (Search.visit graph fuel path name found).cycles = [] →
      Search.Settled graph (Search.visit graph fuel path name found).done ∧
        name ∈ (Search.visit graph fuel path name found).done)
    (closed : ∀ x y, Search.Edge graph x y → y ∈ graph.map Prod.fst)
    (w : Search.Way graph path name) (inside : path ⊆ graph.map Prod.fst)
    (enough : graph.length < fuel + 1 + path.length) (he : Search.Edge graph name ref)
    (hs : Search.Settled graph found.done)
    (hn : (Search.follow graph fuel path found ref).cycles = []) :
    Search.Settled graph (Search.follow graph fuel path found ref).done ∧
      ref ∈ (Search.follow graph fuel path found ref).done := by
  by_cases onPath : path.contains ref = true
  · simp only [Search.follow, if_pos onPath] at hn
    exact absurd hn (by simp)
  · by_cases known : found.done.contains ref = true
    · simp only [Search.follow, if_neg onPath, if_pos known]
      exact ⟨hs, List.contains_iff_mem.mp known⟩
    · simp only [Search.follow, if_neg onPath, if_neg known] at hn ⊢
      refine visits _ _ _ (w.extend he fun hm => onPath (List.contains_iff_mem.mpr hm)) ?_ ?_ hs hn
      · intro x hx
        rcases List.mem_append.mp hx with hx | hx
        · exact inside hx
        · rw [List.mem_singleton.mp hx]
          exact closed name ref he
      · simp only [List.length_append, List.length_singleton]
        omega

/-- A visit that closes no cycle ends with its node after all that the node leads to. A path has no node
twice, so the fuel is never used up. -/
theorem Search.settled_visit (closed : ∀ x y, Search.Edge graph x y → y ∈ graph.map Prod.fst)
    (fuel : Nat) {path : List String} {name : String} {found : Search}
    (w : Search.Way graph path name) (inside : path ⊆ graph.map Prod.fst)
    (enough : graph.length < fuel + path.length) (hs : Search.Settled graph found.done)
    (hn : (Search.visit graph fuel path name found).cycles = []) :
    Search.Settled graph (Search.visit graph fuel path name found).done ∧
      name ∈ (Search.visit graph fuel path name found).done := by
  induction fuel generalizing path name found with
  | zero =>
    have bound := (List.subperm_of_subset w.nodup inside).length_le
    simp only [List.length_map] at bound
    omega
  | succ fuel ih =>
    have folded : ∀ refs : List String, (∀ ref ∈ refs, Search.Edge graph name ref) →
        ∀ found : Search, Search.Settled graph found.done →
          (refs.foldl (Search.follow graph fuel path) found).cycles = [] →
          Search.Settled graph (refs.foldl (Search.follow graph fuel path) found).done ∧
            ∀ ref ∈ refs, ref ∈ (refs.foldl (Search.follow graph fuel path) found).done := by
      intro refs
      induction refs with
      | nil => exact fun _ _ h _ => ⟨h, by simp⟩
      | cons ref rest ihr =>
        intro he found h hn
        have step : ∀ found r, Search.Grows found (Search.follow graph fuel path found r) :=
          Search.grows_follow (Search.grows_visit fuel) path
        have grows := Search.grows_foldl step rest (Search.follow graph fuel path found ref)
        obtain ⟨first, hm⟩ := Search.settled_follow (fun _ _ _ w i e s n => ih w i e s n) closed w inside
          enough (he ref (by simp)) h (grows.cycles_eq_nil hn)
        obtain ⟨all, hr⟩ := ihr (fun r h => he r (by simp [h])) _ first hn
        refine ⟨all, ?_⟩
        intro r h
        rcases List.mem_cons.mp h with rfl | h
        · exact grows.done hm
        · exact hr r h
    rw [Search.visit_succ] at hn ⊢
    obtain ⟨all, hr⟩ := folded _ (fun _ h => h) found hs hn
    exact ⟨⟨hr, all⟩, by simp⟩

/-- Visits a node unless an earlier visit did. -/
def Search.start (graph : List (String × List String)) (found : Search) (p : String × List String) :
    Search :=
  if found.done.contains p.1 then found else Search.visit graph graph.length [p.1] p.1 found

theorem Search.grows_start (found : Search) (p : String × List String) :
    Search.Grows found (Search.start graph found p) := by
  unfold Search.start
  split
  · exact .refl found
  · exact Search.grows_visit graph.length [p.1] p.1 found

theorem Search.genuine_foldl_start (roots : List (String × List String)) {found : Search}
    (hg : Search.Genuine graph found) :
    Search.Genuine graph (roots.foldl (Search.start graph) found) := by
  induction roots generalizing found with
  | nil => exact hg
  | cons p rest ih =>
    apply ih
    unfold Search.start
    split
    · exact hg
    · exact Search.genuine_visit graph.length (.root p.1) hg

theorem Search.settled_start (closed : ∀ x y, Search.Edge graph x y → y ∈ graph.map Prod.fst)
    {p : String × List String} (hp : p ∈ graph) {found : Search}
    (hs : Search.Settled graph found.done) (hn : (Search.start graph found p).cycles = []) :
    Search.Settled graph (Search.start graph found p).done ∧
      p.1 ∈ (Search.start graph found p).done := by
  by_cases known : found.done.contains p.1 = true
  · simp only [Search.start, if_pos known]
    exact ⟨hs, List.contains_iff_mem.mp known⟩
  · simp only [Search.start, if_neg known] at hn ⊢
    have inside : [p.1] ⊆ graph.map Prod.fst := by
      simpa using List.mem_map_of_mem (f := Prod.fst) hp
    exact Search.settled_visit closed graph.length (.root p.1) inside (by simp) hs hn

theorem Search.settled_foldl_start (closed : ∀ x y, Search.Edge graph x y → y ∈ graph.map Prod.fst)
    (roots : List (String × List String)) (hr : roots ⊆ graph) {found : Search}
    (hs : Search.Settled graph found.done)
    (hn : (roots.foldl (Search.start graph) found).cycles = []) :
    Search.Settled graph (roots.foldl (Search.start graph) found).done ∧
      ∀ p ∈ roots, p.1 ∈ (roots.foldl (Search.start graph) found).done := by
  induction roots generalizing found with
  | nil => exact ⟨hs, by simp⟩
  | cons p rest ih =>
    obtain ⟨hp, hrest⟩ := List.cons_subset.mp hr
    have step : ∀ found q, Search.Grows found (Search.start graph found q) := Search.grows_start
    have grows := Search.grows_foldl step rest (Search.start graph found p)
    obtain ⟨first, hm⟩ := Search.settled_start closed hp hs (grows.cycles_eq_nil hn)
    obtain ⟨all, later⟩ := ih hrest first hn
    refine ⟨all, ?_⟩
    intro q hq
    rcases List.mem_cons.mp hq with rfl | hq
    · exact grows.done hm
    · exact later q hq

theorem transGen_of_isChain {R : String → String → Prop} {rest : List String} {x y : String}
    (h : List.IsChain R (x :: rest ++ [y])) : Relation.TransGen R x y := by
  induction rest generalizing x with
  | nil => exact .single (List.isChain_pair.mp h)
  | cons z rest ih =>
    obtain ⟨hz, hr⟩ := List.isChain_cons_cons.mp h
    exact .head hz (ih hr)

theorem not_transGen_of_acc {R : String → String → Prop} {x : String}
    (h : Acc (fun y x => R x y) x) : ¬ Relation.TransGen R x x := by
  intro loop
  have back : Relation.TransGen (fun y x => R x y) x x := Relation.transGen_swap.mpr loop
  exact h.transGen.recOn (fun _ _ ih hh => ih _ hh hh) back

/-- The search from all nodes in turn finds a cycle exactly if there is one. -/
theorem Search.cycles_foldl_start_eq_nil_iff
    (closed : ∀ x y, Search.Edge graph x y → y ∈ graph.map Prod.fst) :
    (graph.foldl (Search.start graph) ⟨[], []⟩).cycles = [] ↔
      ∀ x, ¬ Relation.TransGen (Search.Edge graph) x x := by
  constructor
  · intro hn x loop
    have none_done : Search.Settled graph (Search.mk [] []).done := trivial
    obtain ⟨hs, all⟩ := Search.settled_foldl_start closed graph (List.Subset.refl _) none_done hn
    have node : x ∈ graph.map Prod.fst := by
      obtain ⟨y, _, hy⟩ := Relation.TransGen.tail'_iff.mp loop
      exact closed y x hy
    obtain ⟨p, hp, rfl⟩ := List.mem_map.mp node
    exact not_transGen_of_acc (hs.acc (all p hp)) loop
  · intro acyclic
    have none_found : Search.Genuine graph ⟨[], []⟩ := by simp [Search.Genuine]
    have genuine := Search.genuine_foldl_start graph none_found
    apply List.eq_nil_iff_forall_not_mem.mpr
    intro c hc
    obtain ⟨start, rest, rfl, _, chain⟩ := genuine c hc
    exact acyclic start (transGen_of_isChain chain)

theorem Roster.contains_iff {α : Type} {name : α → String} {r : Roster α name} {n : String} :
    r.contains n = true ↔ ∃ x ∈ r.items, name x = n := by
  simp [Roster.contains]

/-- One token of a mode refers to another one of the same mode. -/
def Mode.Refers (m : Mode) (x y : String) : Prop :=
  (∃ t ∈ m.tokens.items, t.name = x ∧ y ∈ t.value.references) ∧ ∃ t ∈ m.tokens.items, t.name = y

/-- No token of a mode is reached again from itself by references. -/
def Mode.Acyclic (m : Mode) : Prop := ∀ x, ¬ Relation.TransGen m.Refers x x

theorem lookup_map_of_nodup {items : List Token} {f : Token → List String} {t : Token}
    (hn : (items.map Token.name).Nodup) (ht : t ∈ items) :
    (items.map fun t => (t.name, f t)).lookup t.name = some (f t) := by
  induction items with
  | nil => simp at ht
  | cons u rest ih =>
    obtain ⟨hu, hr⟩ := List.nodup_cons.mp hn
    rcases List.mem_cons.mp ht with rfl | ht
    · simp
    · have apart : (t.name == u.name) = false :=
        beq_eq_false_iff_ne.mpr fun he => hu (he ▸ List.mem_map_of_mem ht)
      simpa [List.lookup_cons, apart] using ih hr ht

theorem exists_mem_of_lookup_map {items : List Token} {f : Token → List String} {x : String}
    {refs : List String} (h : (items.map fun t => (t.name, f t)).lookup x = some refs) :
    ∃ t ∈ items, t.name = x ∧ f t = refs := by
  induction items with
  | nil => simp at h
  | cons u rest ih =>
    by_cases hx : x = u.name
    · exact ⟨u, by simp, hx.symm, by simpa [List.lookup_cons, hx] using h⟩
    · have apart : (x == u.name) = false := beq_eq_false_iff_ne.mpr hx
      obtain ⟨t, ht, hn⟩ := ih (by simpa [List.lookup_cons, apart] using h)
      exact ⟨t, List.mem_cons_of_mem u ht, hn⟩

theorem Mode.edge_graph_iff (m : Mode) {x y : String} :
    Search.Edge m.graph x y ↔ m.Refers x y := by
  constructor
  · intro h
    unfold Search.Edge at h
    cases hl : m.graph.lookup x with
    | none => simp [hl] at h
    | some refs =>
      obtain ⟨t, ht, hx, hr⟩ := exists_mem_of_lookup_map hl
      simp only [hl, Option.getD_some, ← hr, Mode.edges, List.mem_filter] at h
      exact ⟨⟨t, ht, hx, h.1⟩, Roster.contains_iff.mp h.2⟩
  · intro h
    obtain ⟨⟨t, ht, rfl, hy⟩, target⟩ := h
    have hl := lookup_map_of_nodup (f := m.edges) m.tokens.distinct ht
    have he : y ∈ m.edges t := List.mem_filter.mpr ⟨hy, Roster.contains_iff.mpr target⟩
    simpa [Search.Edge, Mode.graph, hl] using he

theorem Mode.names_graph (m : Mode) : m.graph.map Prod.fst = m.tokens.items.map Token.name := by
  simp [Mode.graph]

theorem Mode.mem_graph_of_edge (m : Mode) {x y : String} (h : Search.Edge m.graph x y) :
    y ∈ m.graph.map Prod.fst := by
  obtain ⟨_, t, ht, hy⟩ := m.edge_graph_iff.mp h
  rw [m.names_graph, ← hy]
  exact List.mem_map_of_mem ht

/-- The search for cycles of a mode comes back with none exactly if no token leads back to itself. -/
theorem Mode.cycles_eq_nil_iff (m : Mode) : m.cycles = [] ↔ m.Acyclic := by
  have same : Search.Edge m.graph = m.Refers := by
    funext x y
    exact propext m.edge_graph_iff
  have exact_search := Search.cycles_foldl_start_eq_nil_iff fun _ _ => m.mem_graph_of_edge
  rw [same] at exact_search
  exact exact_search

/-- One of the names that hold a document refers to another one of them. -/
def RefersBy (holds : String → Doc → Prop) (x y : String) : Prop :=
  (∃ d, holds x d ∧ y ∈ Nested.referenceNames d) ∧ ∃ d, holds y d

/-- No name that holds a document is reached again from itself by references. -/
def AcyclicBy (holds : String → Doc → Prop) : Prop := ∀ x, ¬ Relation.TransGen (RefersBy holds) x x

theorem TokenValue.referenceNames_toScalar (v : TokenValue) :
    Nested.referenceNames (.scalar v.toScalar) = v.references := by
  cases v <;> rfl

/-- The references of a mode are those of any documents from which its tokens have their values. -/
theorem Mode.acyclic_iff {m : Mode} {holds : String → Doc → Prop}
    (h : ∀ x d, holds x d ↔ ∃ t ∈ m.tokens.items, t.name = x ∧ d = .scalar t.value.toScalar) :
    m.Acyclic ↔ AcyclicBy holds := by
  have same : m.Refers = RefersBy holds := by
    funext x y
    apply propext
    constructor
    · intro hr
      obtain ⟨⟨t, ht, hx, hy⟩, u, hu, hn⟩ := hr
      refine ⟨⟨_, (h x _).mpr ⟨t, ht, hx, rfl⟩, ?_⟩, _, (h y _).mpr ⟨u, hu, hn, rfl⟩⟩
      rwa [TokenValue.referenceNames_toScalar]
    · intro hr
      obtain ⟨⟨d, hd, hy⟩, e, he⟩ := hr
      obtain ⟨t, ht, hx, rfl⟩ := (h x d).mp hd
      obtain ⟨u, hu, hn, _⟩ := (h y e).mp he
      rw [TokenValue.referenceNames_toScalar] at hy
      exact ⟨⟨t, ht, hx, hy⟩, u, hu, hn⟩
  rw [Mode.Acyclic, AcyclicBy, same]

end StyleTokens
