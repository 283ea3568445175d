import StyleTokens.Proofs.ExactCycles
import Mathlib.Data.List.Rotate
import Mathlib.Data.List.TakeWhile

namespace StyleTokens

/-- Two walks that end where they start go round one cycle, perhaps from other tokens of it. -/
def SameCycle (c d : List String) : Prop := List.IsRotated c.dropLast d.dropLast

instance : DecidableRel SameCycle := fun c d => inferInstanceAs (Decidable (List.IsRotated c.dropLast d.dropLast))

namespace Search

variable {graph : List (String × List String)}

/-- The tokens that are followed or done, the ones done last first. -/
def State.order (s : State) : List String := s.path ++ s.found.done

/-- The cycle that a reference of the last token of the path closes. -/
def State.cycleTo (s : State) (ref : String) : List String := s.path.dropWhile (· != ref) ++ [ref]

/-- No token is reached twice, and the cycles run along the order. The order only ever gets tokens put in, so two
cycles of the same tokens are equal at the end. -/
structure State.Sound (s : State) : Prop where
  distinct : s.order.Nodup
  onPath : ∀ x, x ∈ s.onPath ↔ x ∈ s.path
  cycles : ∀ c ∈ s.found.cycles, c.dropLast.Sublist s.order

theorem Follows.path_eq {refs : List String} {s after : State} (h : Follows graph refs s after) :
    after.path = s.path := by
  induction h with
  | nil s => rfl
  | closes _ _ _ ih => exact ih
  | passes _ _ _ ih => exact ih
  | @visits ref _ _ s mid _ _ _ _ _ _ inner outer =>
    rw [outer, State.left, inner, State.entered, List.dropLast_concat]

theorem State.sound_start : (State.along [] ⟨[], []⟩).Sound where
  distinct := List.nodup_nil
  onPath := by simp [State.along]
  cycles := by simp [State.along]

theorem State.Sound.closed {s : State} (hs : s.Sound) (ref : String) : (s.closed ref).Sound := by
  refine ⟨hs.distinct, hs.onPath, ?_⟩
  intro c hc
  rcases List.mem_append.mp hc with hc | hc
  · exact hs.cycles c hc
  · rw [List.mem_singleton.mp hc, List.dropLast_concat]
    exact (List.dropWhile_suffix _).sublist.trans (List.sublist_append_left _ _)

theorem State.order_entered (s : State) (ref : String) : (s.entered ref).order = s.path ++ ref :: s.found.done := by
  simp [State.order, State.entered]

theorem State.sublist_entered (s : State) (ref : String) : s.order.Sublist (s.entered ref).order := by
  rw [State.order_entered]
  exact List.Sublist.append_left (List.sublist_cons_self _ _) _

theorem State.Sound.entered {s : State} (hs : s.Sound) {ref : String} (fresh : ref ∉ s.order) :
    (s.entered ref).Sound := by
  refine ⟨?_, ?_, ?_⟩
  · rw [State.order_entered, List.nodup_middle, List.nodup_cons]
    exact ⟨fresh, hs.distinct⟩
  · intro x
    rw [State.entered, Finset.mem_insert, hs.onPath, List.mem_append, List.mem_singleton, or_comm]
  · intro c hc
    exact (hs.cycles c hc).trans (s.sublist_entered ref)

theorem State.order_left {s mid : State} {ref : String} (path : mid.path = s.path ++ [ref]) :
    (mid.left ref).order = mid.order := by
  simp [State.order, State.left, path]

theorem State.Sound.left {s mid : State} {ref : String} (hm : mid.Sound) (path : mid.path = s.path ++ [ref]) :
    (mid.left ref).Sound := by
  have order := State.order_left path
  refine ⟨order ▸ hm.distinct, ?_, ?_⟩
  · have distinct : (s.path ++ [ref]).Nodup := path ▸ hm.distinct.of_append_left
    have fresh : ref ∉ s.path := fun on => (List.disjoint_of_nodup_append distinct) on (List.mem_singleton_self ref)
    intro x
    rw [State.left, Finset.mem_erase, hm.onPath, path, List.dropLast_concat, List.mem_append, List.mem_singleton]
    constructor
    · rintro ⟨other, on | same⟩
      · exact on
      · exact absurd same other
    · intro on
      exact ⟨fun same => fresh (same ▸ on), .inl on⟩
  · rw [order]
    exact hm.cycles

theorem State.Sound.fresh {s : State} (hs : s.Sound) {ref : String} (off : ref ∉ s.onPath)
    (undone : ref ∉ s.found.done) : ref ∉ s.order := by
  rw [hs.onPath] at off
  simp [State.order, off, undone]

theorem Follows.sound {refs : List String} {s after : State} (h : Follows graph refs s after) (hs : s.Sound) :
    after.Sound ∧ s.order.Sublist after.order := by
  induction h with
  | nil s => exact ⟨hs, .refl _⟩
  | closes _ _ _ ih => exact ih (hs.closed _)
  | passes _ _ _ ih => exact ih hs
  | @visits ref _ _ s mid _ off undone _ inner _ ihin ihout =>
    obtain ⟨hm, more⟩ := ihin (hs.entered (hs.fresh off undone))
    have path : mid.path = s.path ++ [ref] := inner.path_eq
    obtain ⟨ha, later⟩ := ihout (hm.left path)
    rw [State.order_left path] at later
    exact ⟨ha, ((s.sublist_entered ref).trans more).trans later⟩

/-- What a visit of a token leaves as it was. -/
structure Visited (s : State) (ref : String) (mid : State) : Prop where
  fresh : ref ∉ s.order
  entered : (s.entered ref).Sound
  left : (mid.left ref).Sound
  path : (mid.left ref).path = s.path
  kept : (s.entered ref).order.Sublist (mid.left ref).order

theorem State.Sound.visited {s mid : State} {ref : String} {refs : List String} (hs : s.Sound) (off : ref ∉ s.onPath)
    (undone : ref ∉ s.found.done) (inner : Follows graph refs (s.entered ref) mid) : Visited s ref mid := by
  have fresh := hs.fresh off undone
  have path : mid.path = s.path ++ [ref] := inner.path_eq
  obtain ⟨hm, kept⟩ := inner.sound (hs.entered fresh)
  refine ⟨fresh, hs.entered fresh, hm.left path, ?_, ?_⟩
  · rw [State.left, path, List.dropLast_concat]
  · rwa [State.order_left path]

/-- A token that was reached before is not the one that is visited. -/
theorem Visited.known {s mid : State} {ref u : String} (h : Visited s ref mid) (known : u ∈ s.order) :
    u ∈ (s.entered ref).order ∧ (s.entered ref).path.getLast? ≠ some u := by
  refine ⟨(s.sublist_entered ref).subset known, ?_⟩
  rw [State.entered, List.getLast?_concat]
  intro same
  exact h.fresh (Option.some.inj same ▸ known)

section Counts

variable {c walk : List String} {u v : String}

/-- A cycle that the last token of the path closes has that token before its end. -/
theorem State.last_of_cycleTo {s : State} {ref : String} (hc : c = walk ++ [v]) (last : walk.getLast? = some u)
    (same : s.cycleTo ref = c) : s.path.getLast? = some u ∧ ref = v := by
  obtain ⟨walked, closed⟩ := List.append_singleton_inj.mp (same.trans hc)
  refine ⟨?_, closed⟩
  obtain ⟨before, whole⟩ := List.dropWhile_suffix (l := s.path) (· != ref)
  rw [← whole, List.getLast?_append, walked, last]
  rfl

/-- A reference to a token off the path closes nothing. -/
theorem State.cycleTo_ne_of_off {s : State} (hc : c = walk ++ [v]) (last : walk.getLast? = some u)
    (off : v ∉ s.path) : s.cycleTo v ≠ c := by
  intro same
  obtain ⟨walked, -⟩ := List.append_singleton_inj.mp (same.trans hc)
  have none_left : s.path.dropWhile (· != v) = [] := by
    rw [List.dropWhile_eq_nil_iff]
    intro x hx
    exact bne_iff_ne.mpr fun h => off (h ▸ hx)
  rw [← walked, none_left] at last
  cases last

theorem count_closed (s : State) (ref : String) (c : List String) :
    (s.closed ref).found.cycles.count c = s.found.cycles.count c + if s.cycleTo ref = c then 1 else 0 := by
  have added : (s.closed ref).found.cycles = s.found.cycles ++ [s.cycleTo ref] := rfl
  rw [added, List.count_append, List.count_singleton]
  by_cases same : s.cycleTo ref = c <;> simp [same]

/-- After a token is reached, only its own references add a cycle that it closes. -/
theorem Follows.count_of_not_last {refs : List String} {s after : State} (h : Follows graph refs s after) (hs : s.Sound)
    (hc : c = walk ++ [v]) (last : walk.getLast? = some u) (known : u ∈ s.order)
    (elsewhere : s.path.getLast? ≠ some u) : after.found.cycles.count c = s.found.cycles.count c := by
  induction h with
  | nil s => rfl
  | @closes ref rest s _ _ on _ ih =>
    have other : s.cycleTo ref ≠ c := fun same => elsewhere (State.last_of_cycleTo hc last same).1
    rw [ih (hs.closed ref) known elsewhere, count_closed, if_neg other, Nat.add_zero]
  | passes _ _ _ ih => exact ih hs known elsewhere
  | @visits ref refs rest s mid _ off undone _ inner _ ihin ihout =>
    have visit := hs.visited off undone inner
    obtain ⟨within, apart⟩ := visit.known known
    rw [ihout visit.left (visit.kept.subset within) (visit.path ▸ elsewhere)]
    exact ihin visit.entered within apart

/-- The references of the last token of the path add a cycle once for each that closes it. -/
theorem Follows.count_of_last {refs : List String} {s after : State} (h : Follows graph refs s after) (hs : s.Sound)
    (hc : c = walk ++ [v]) (last : walk.getLast? = some u) (here : s.path.getLast? = some u) :
    after.found.cycles.count c = s.found.cycles.count c + if s.cycleTo v = c then refs.count v else 0 := by
  -- a reference off the path does not count, whether its token is done or visited
  have idle : ∀ {s : State} {ref : String} (rest : List String), ref ∉ s.path →
      (if s.cycleTo v = c then (ref :: rest).count v else 0) = if s.cycleTo v = c then rest.count v else 0 := by
    intro s ref rest off
    by_cases same : ref = v
    · rw [if_neg (State.cycleTo_ne_of_off hc last (same ▸ off)), if_neg (State.cycleTo_ne_of_off hc last (same ▸ off))]
    · rw [List.count_cons_of_ne same]
  induction h with
  | nil s => simp
  | @closes ref rest s _ _ on _ ih =>
    have unmoved : (s.closed ref).cycleTo v = s.cycleTo v := rfl
    rw [ih (hs.closed ref) here, count_closed, unmoved]
    by_cases same : ref = v
    · subst same
      rw [List.count_cons_self]
      split <;> omega
    · have other : s.cycleTo ref ≠ c := fun h => same (State.last_of_cycleTo hc last h).2
      rw [if_neg other, List.count_cons_of_ne same, Nat.add_zero]
  | @passes ref rest s _ off _ _ ih =>
    rw [hs.onPath] at off
    rw [ih hs here, idle rest off]
  | @visits ref refs rest s mid _ off undone _ inner _ ihin ihout =>
    have visit := hs.visited off undone inner
    have known : u ∈ s.order := List.mem_append_left _ (List.mem_of_getLast? here)
    obtain ⟨within, apart⟩ := visit.known known
    have inside := inner.count_of_not_last visit.entered hc last within apart
    have unmoved : (mid.left ref).cycleTo v = s.cycleTo v := by rw [State.cycleTo, visit.path, State.cycleTo]
    rw [ihout visit.left (visit.path ▸ here), unmoved, idle rest (fun on => off ((hs.onPath ref).mpr on))]
    exact congrArg (· + _) inside

/-- A cycle is found once for each reference that closes it, since the token that it ends from is visited once. -/
theorem Follows.count_of_fresh {refs : List String} {s after : State} (h : Follows graph refs s after) (hs : s.Sound)
    (hc : c = walk ++ [v]) (last : walk.getLast? = some u) (fresh : u ∉ s.order) (unseen : c ∉ s.found.cycles)
    (seen : c ∈ after.found.cycles) :
    ∃ refs, graph.lookup u = some refs ∧ after.found.cycles.count c = refs.count v := by
  have elsewhere : ∀ {s : State}, u ∉ s.order → s.path.getLast? ≠ some u := by
    intro s fresh here
    exact fresh (List.mem_append_left _ (List.mem_of_getLast? here))
  induction h with
  | nil s => exact absurd seen unseen
  | @closes ref rest s _ _ _ _ ih =>
    refine ih (hs.closed ref) fresh ?_ seen
    intro there
    rcases List.mem_append.mp there with there | there
    · exact unseen there
    · exact elsewhere fresh (State.last_of_cycleTo hc last (List.mem_singleton.mp there).symm).1
  | passes _ _ _ ih => exact ih hs fresh unseen seen
  | @visits ref refs rest s mid after off undone looked inner outer ihin ihout =>
    have visit := hs.visited off undone inner
    have apart : (mid.left ref).path.getLast? ≠ some u := visit.path ▸ elsewhere fresh
    have rest_adds_none : u ∈ (mid.left ref).order →
        after.found.cycles.count c = mid.found.cycles.count c := fun known =>
      outer.count_of_not_last visit.left hc last known apart
    by_cases here : ref = u
    · subst here
      have reached : ref ∈ (s.entered ref).order := by simp [State.order_entered]
      have inside : mid.found.cycles.count c =
          s.found.cycles.count c + if (s.entered ref).cycleTo v = c then refs.count v else 0 :=
        inner.count_of_last visit.entered hc last (List.getLast?_concat ..)
      have all := rest_adds_none (visit.kept.subset reached)
      rw [inside, List.count_eq_zero_of_not_mem unseen, Nat.zero_add] at all
      split at all
      next => exact ⟨refs, looked, all⟩
      next => exact absurd seen (List.count_eq_zero.mp all)
    · have outside : u ∉ (s.entered ref).order := by
        rw [State.order_entered]
        simpa [State.order, Ne.symm here] using fresh
      by_cases within : c ∈ mid.found.cycles
      · obtain ⟨refs', looked', inside⟩ := ihin visit.entered outside unseen within
        have along : c.dropLast.Sublist (mid.left ref).order := visit.left.cycles c within
        have known : u ∈ (mid.left ref).order := by
          refine along.subset (List.mem_of_getLast? ?_)
          rw [hc, List.dropLast_concat, last]
        exact ⟨refs', looked', (rest_adds_none known).trans inside⟩
      · by_cases known : u ∈ (mid.left ref).order
        · have none_there := (rest_adds_none known).trans (List.count_eq_zero_of_not_mem within)
          exact absurd seen (List.count_eq_zero.mp none_there)
        · exact ihout visit.left known within seen

end Counts

end Search

namespace Mode

variable {m : Mode} {c d : List String}

/-- A token closes a walk by a reference to where it starts. -/
def ClosedBy (m : Mode) (c : List String) (t : Token) (ref : String) : Prop :=
  t ∈ m.tokens.items ∧ [t.name, ref] <:+ c

/-- The reported cycles run along one order of the tokens. -/
theorem exists_order (m : Mode) : ∃ order : List String, order.Nodup ∧ ∀ c ∈ m.cycles, c.dropLast.Sublist order := by
  obtain ⟨done, follows⟩ := m.exists_follows
  obtain ⟨sound, -⟩ := follows.sound Search.State.sound_start
  exact ⟨_, sound.distinct, sound.cycles⟩

theorem SimpleCycle.exists_walk (h : m.SimpleCycle c) :
    ∃ walk u v, c = walk ++ [v] ∧ walk.head? = some v ∧ walk.getLast? = some u := by
  have filled : c ≠ [] := List.ne_nil_of_length_pos (by have := h.long; omega)
  have whole := List.dropLast_append_getLast filled
  have some_walk : c.dropLast ≠ [] := by
    apply List.ne_nil_of_length_pos
    have := h.long
    rw [List.length_dropLast]
    omega
  refine ⟨c.dropLast, c.dropLast.getLast some_walk, c.getLast filled, whole.symm, ?_, ?_⟩
  · have start : c.head? = c.dropLast.head? := by
      conv_lhs => rw [← whole]
      rw [List.head?_append_of_ne_nil _ some_walk]
    rw [← start, h.closed, List.getLast?_eq_some_getLast filled]
  · exact List.getLast?_eq_some_getLast some_walk

theorem SimpleCycle.eq_of_dropLast (hc : m.SimpleCycle c) (hd : m.SimpleCycle d) (same : c.dropLast = d.dropLast) :
    c = d := by
  obtain ⟨walk, _, v, rfl, first, -⟩ := hc.exists_walk
  obtain ⟨walk', _, v', rfl, first', -⟩ := hd.exists_walk
  rw [List.dropLast_concat, List.dropLast_concat] at same
  subst same
  rw [Option.some.inj (first.symm.trans first')]

theorem sameCycle_iff (hc : c ∈ m.cycles) (hd : d ∈ m.cycles) : SameCycle c d ↔ c = d := by
  constructor
  · intro same
    obtain ⟨order, distinct, along⟩ := m.exists_order
    have equal := (distinct.perm_iff_eq_of_sublist (along c hc) (along d hd)).mp same.perm
    exact (simpleCycle_of_mem_cycles hc).eq_of_dropLast (simpleCycle_of_mem_cycles hd) equal
  · rintro rfl
    exact List.IsRotated.refl _

theorem SimpleCycle.refers_of_suffix (h : m.SimpleCycle c) {u v : String} (ends : [u, v] <:+ c) : m.Refers u v :=
  List.isChain_pair.mp (h.chain.suffix ends)

theorem SimpleCycle.exists_closedBy (h : m.SimpleCycle c) : ∃ t ref, m.ClosedBy c t ref := by
  obtain ⟨walk, u, v, rfl, -, last⟩ := h.exists_walk
  obtain ⟨before, rfl⟩ := List.getLast?_eq_some_iff.mp last
  have ends : [u, v] <:+ before ++ [u] ++ [v] := ⟨before, by simp⟩
  obtain ⟨⟨t, ht, named, -⟩, -⟩ := h.refers_of_suffix ends
  exact ⟨t, v, ht, named ▸ ends⟩

theorem count_of_closedBy {t : Token} {ref : String} (h : c ∈ m.cycles) (closed : m.ClosedBy c t ref) :
    m.cycles.count c = t.value.references.count ref := by
  obtain ⟨ht, ends⟩ := closed
  obtain ⟨-, target⟩ := (simpleCycle_of_mem_cycles h).refers_of_suffix ends
  obtain ⟨before, whole⟩ := ends
  have hc : c = (before ++ [t.name]) ++ [ref] := by rw [← whole]; simp
  obtain ⟨done, follows⟩ := m.exists_follows
  have nowhere : t.name ∉ (Search.State.along [] ⟨[], []⟩).order := List.not_mem_nil
  obtain ⟨refs, looked, count⟩ := follows.count_of_fresh Search.State.sound_start hc (List.getLast?_concat ..) nowhere
    List.not_mem_nil h
  have edges : m.graph.lookup t.name = some (m.edges t) := lookup_map_of_nodup m.tokens.distinct ht
  cases looked.symm.trans edges
  exact count.trans (List.count_filter (Roster.contains_iff.mpr target))

/-- A cycle is reported once for each placeholder that closes it, so each is reported once exactly if no token closes
one by two placeholders. -/
theorem cycles_once_iff (m : Mode) :
    (∀ c ∈ m.cycles, (∃ t ref, m.ClosedBy c t ref) ∧ ∀ t ref, m.ClosedBy c t ref →
      m.cycles.countP (fun d => SameCycle c d) = t.value.references.count ref) ∧
    (m.cycles.Pairwise (fun c d => ¬ SameCycle c d) ↔
      ∀ c ∈ m.cycles, ∀ t ref, m.ClosedBy c t ref → t.value.references.count ref = 1) := by
  constructor
  · intro c hc
    refine ⟨(simpleCycle_of_mem_cycles hc).exists_closedBy, fun t ref closed => ?_⟩
    rw [← count_of_closedBy hc closed, List.count]
    refine List.countP_congr fun d hd => ?_
    rw [decide_eq_true_iff, sameCycle_iff hc hd, beq_iff_eq, eq_comm]
  · have apart : m.cycles.Pairwise (fun c d => ¬ SameCycle c d) ↔ m.cycles.Nodup :=
      List.Pairwise.iff_of_mem fun hc hd => not_congr (sameCycle_iff hc hd)
    rw [apart, List.nodup_iff_count_eq_one]
    refine forall₂_congr fun c hc => ?_
    constructor
    · intro once t ref closed
      rw [← count_of_closedBy hc closed, once]
    · intro once
      obtain ⟨t, ref, closed⟩ := (simpleCycle_of_mem_cycles hc).exists_closedBy
      rw [count_of_closedBy hc closed, once t ref closed]

/-- A token that refers to itself twice. -/
def echoingMode : Mode := ⟨lightMode, Roster.ofList [⟨"echo", "color", .text "{echo} {echo}", none, by decide⟩]⟩

/-- One cycle is reported twice. -/
theorem cycles_echoingMode : echoingMode.cycles = [["echo", "echo"], ["echo", "echo"]] ∧
    ¬ echoingMode.cycles.Pairwise (fun c d => ¬ SameCycle c d) := by
  have found : echoingMode.cycles = [["echo", "echo"], ["echo", "echo"]] := by decide +kernel
  refine ⟨found, ?_⟩
  rw [found]
  decide

end Mode

end StyleTokens
