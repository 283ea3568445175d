import StyleTokens.FileTree
import StyleTokens.Proofs.RecordedTables
import Mathlib.Data.List.Infix

namespace StyleTokens

namespace Path

/-- The places that a path leads through, from where it starts to where it ends. -/
def stops (working : Place) (p : Path) : List Place :=
  p.parts.inits.map fun parts => resolve working ⟨p.anchor, parts⟩

variable {working place : Place} {p : Path}

theorem mem_stops : place ∈ p.stops working ↔ ∃ parts, parts <+: p.parts ∧ resolve working ⟨p.anchor, parts⟩ = place := by
  simp [stops]

theorem resolve_mem_stops : p.resolve working ∈ p.stops working :=
  mem_stops.mpr ⟨p.parts, List.prefix_rfl, rfl⟩

theorem stops_subset {anchor : Anchor} {front parts : List String} (h : front <+: parts) :
    stops working ⟨anchor, front⟩ ⊆ stops working ⟨anchor, parts⟩ := by
  intro place hp
  obtain ⟨before, hb, he⟩ := mem_stops.mp hp
  exact mem_stops.mpr ⟨before, hb.trans h, he⟩

end Path

namespace FileTree

variable {t mid after : FileTree} {p : Path} {place : Place}

theorem enter_ok {part : String} {next : Place} (h : t.enter place part = .ok next) :
    t.node? place = some .directory ∧ next = Path.follow place part := by
  unfold enter at h
  split at h
  next => cases h
  next => cases h
  next here =>
    refine ⟨here, ?_⟩
    unfold Path.follow
    split at h
    next up =>
      cases h
      rw [if_pos up]
    next down =>
      split at h
      next => cases h
      next =>
        cases h
        rw [if_neg down]

theorem foldlM_enter_ok {parts : List String} {start : Place} (h : parts.foldlM t.enter start = .ok place) :
    place = parts.foldl Path.follow start ∧
      ∀ front, front <+: parts → front ≠ parts → t.node? (front.foldl Path.follow start) = some .directory := by
  induction parts generalizing start with
  | nil =>
    refine ⟨(Except.ok.inj h).symm, ?_⟩
    intro front before other
    exact absurd (List.prefix_nil.mp before) other
  | cons part rest ih =>
    rw [List.foldlM_cons] at h
    obtain ⟨next, entered, later⟩ := except_bind_ok_iff.mp h
    obtain ⟨here, rfl⟩ := enter_ok entered
    obtain ⟨ends, passed⟩ := ih later
    refine ⟨ends, ?_⟩
    intro front before other
    cases front with
    | nil => exact here
    | cons first front =>
      obtain ⟨rfl, further⟩ := List.cons_prefix_cons.mp before
      exact passed front further fun same => other (congrArg _ same)

/-- A path that can be followed leads where its text says, and all it leads through before are directories. -/
theorem locate_ok (h : t.locate p = .ok place) :
    place = p.resolve t.working ∧ ∀ stop ∈ p.stops t.working, stop = place ∨ t.node? stop = some .directory := by
  unfold locate at h
  split at h
  next => cases h
  next =>
    obtain ⟨ends, passed⟩ := foldlM_enter_ok h
    refine ⟨ends, ?_⟩
    intro stop hs
    obtain ⟨front, before, rfl⟩ := Path.mem_stops.mp hs
    by_cases all : front = p.parts
    · left
      rw [ends, all]
      rfl
    · exact .inr (passed front before all)

/-- All that a path leads through are directories, and so is what it leads to. -/
def Passable (t : FileTree) (p : Path) : Prop := ∀ stop ∈ p.stops t.working, t.node? stop = some .directory

/-- From a tree to a later one files are written at some places, and missing directories are made at others.
All else is as it was. -/
structure Grows (files directories : List Place) (t after : FileTree) : Prop where
  working : after.working = t.working
  kept : ∀ place, t.node? place = some .directory → after.node? place = some .directory
  changed : ∀ place, after.node? place ≠ t.node? place → place ∈ files ∨
    t.node? place = none ∧ after.node? place = some .directory ∧ place ∈ directories

namespace Grows

variable {files files' directories directories' : List Place}

theorem refl (files directories : List Place) (t : FileTree) : Grows files directories t t :=
  ⟨rfl, fun _ h => h, fun _ h => absurd rfl h⟩

theorem trans (h : Grows files directories t mid) (h' : Grows files directories mid after) :
    Grows files directories t after := by
  refine ⟨h'.working.trans h.working, fun place hp => h'.kept place (h.kept place hp), ?_⟩
  intro place differs
  by_cases same : mid.node? place = t.node? place
  · rw [← same] at differs ⊢
    exact h'.changed place differs
  · rcases h.changed place same with written | ⟨missing, made, on⟩
    · exact .inl written
    · exact .inr ⟨missing, h'.kept place made, on⟩

theorem mono (h : Grows files directories t after) (hf : files ⊆ files') (hd : directories ⊆ directories') :
    Grows files' directories' t after := by
  refine ⟨h.working, h.kept, ?_⟩
  intro place differs
  rcases h.changed place differs with written | ⟨missing, made, on⟩
  · exact .inl (hf written)
  · exact .inr ⟨missing, made, hd on⟩

theorem passable (h : Grows files directories t after) (open_ : t.Passable p) : after.Passable p := by
  intro stop hs
  rw [h.working] at hs
  exact h.kept stop (open_ stop hs)

/-- Files elsewhere are as they were, and there are no new ones. -/
theorem file_iff (h : Grows files directories t after) (other : place ∉ files) {content : ByteArray} :
    after.node? place = some (.file content) ↔ t.node? place = some (.file content) := by
  by_cases same : after.node? place = t.node? place
  · rw [same]
  · rcases h.changed place same with written | ⟨missing, made, -⟩
    · exact absurd written other
    · simp [missing, made]

theorem foldlM_enter (h : Grows files directories t after) {parts : List String} {start : Place}
    (followed : parts.foldlM t.enter start = .ok place) : parts.foldlM after.enter start = .ok place := by
  induction parts generalizing start with
  | nil => exact followed
  | cons part rest ih =>
    rw [List.foldlM_cons] at followed ⊢
    obtain ⟨next, entered, later⟩ := except_bind_ok_iff.mp followed
    have here := (enter_ok entered).1
    have same : after.enter start part = .ok next := by
      rw [← entered, enter, enter, h.kept start here, here]
    rw [same]
    exact ih later

/-- A path leads the same way later. -/
theorem locate (h : Grows files directories t after) (located : t.locate p = .ok place) :
    after.locate p = .ok place := by
  unfold FileTree.locate at located ⊢
  split at located
  next => cases located
  next fits =>
    have start : p.origin after.working = p.origin t.working := by rw [h.working]
    rw [if_neg fits, start]
    exact h.foldlM_enter located

end Grows

theorem node?_root (t : FileTree) : t.node? [] = some .directory := rfl

theorem ne_root_of_missing (h : t.node? place = none) : place ≠ [] := by
  rintro rfl
  cases h

theorem grows_set_directory (missing : t.node? place = none) {directories : List Place} (on : place ∈ directories) :
    Grows [] directories t (t.set place .directory) := by
  have inside : place ≠ [] := ne_root_of_missing missing
  have after : ∀ q, (t.set place .directory).node? q = if place = q then some .directory else t.node? q := by
    intro q
    rw [node?_set]
    split
    next root => simp [root, node?_root]
    next => rfl
  refine ⟨rfl, ?_, ?_⟩
  · intro q hq
    rw [after, hq, ite_self]
  · intro q differs
    rw [after] at differs ⊢
    split at differs
    next same =>
      subst same
      exact .inr ⟨missing, if_pos rfl, on⟩
    next => exact absurd rfl differs

theorem grows_set_file {content : ByteArray} (free : t.node? place ≠ some .directory) (directories : List Place) :
    Grows [place] directories t (t.set place (.file content)) := by
  have apart : ∀ q, q ≠ place → (t.set place (.file content)).node? q = t.node? q := by
    intro q hq
    rw [node?_set, if_neg (Ne.symm hq)]
    split
    next root => rw [root, node?_root]
    next => rfl
  refine ⟨rfl, ?_, ?_⟩
  · intro q hq
    have other : q ≠ place := by
      rintro rfl
      exact free hq
    rw [apart q other, hq]
  · intro q differs
    by_cases same : q = place
    · exact .inl (by simp [same])
    · exact absurd (apart q same) differs

theorem makeDirectory_ok (h : t.makeDirectory p = .ok after) :
    Grows [] (p.stops t.working) t after ∧ after.Passable p := by
  obtain ⟨place, located, made⟩ := except_bind_ok_iff.mp h
  obtain ⟨rfl, passed⟩ := locate_ok located
  split at made
  next => cases made
  next missing =>
    cases made
    have grows := grows_set_directory missing Path.resolve_mem_stops
    refine ⟨grows, ?_⟩
    intro stop hs
    rcases passed stop hs with rfl | directory
    · have inside := ne_root_of_missing missing
      rw [node?_set, if_neg inside, if_pos rfl]
    · exact grows.kept stop directory

theorem passable_of_status (h : t.status p = .ok .directory) : t.Passable p := by
  obtain ⟨place, located, found⟩ := except_bind_ok_iff.mp h
  obtain ⟨rfl, passed⟩ := locate_ok located
  have ends : t.node? (p.resolve t.working) = some .directory := by
    split at found
    next here => rw [here, Except.ok.inj found]
    next => cases found
  intro stop hs
  rcases passed stop hs with rfl | directory
  · exact ends
  · exact directory

theorem passable_of_settled {e : SystemError} (h : t.settled p e = .ok ()) : t.Passable p := by
  unfold settled at h
  split at h
  next found =>
    unfold hasDirectory leadsTo at found
    split at found
    next => cases found
    next =>
      split at found
      next node here =>
        have same : node = .directory := by simpa using found
        exact passable_of_status (same ▸ here)
      next => cases found
      next => cases found
      next => cases found
  next => cases h
  next => cases h

/-- Making a directory and those above it makes only missing directories that its path leads through, also if
it ends with an error. If it does not, the path is open. -/
theorem ensureParts_grows {anchor : Anchor} {parts : List String} {r : Except Fault Unit}
    (h : ensureParts anchor parts t = (after, r)) :
    Grows [] (Path.stops t.working ⟨anchor, parts.reverse⟩) t after ∧
      (r = .ok () → after.Passable ⟨anchor, parts.reverse⟩) := by
  induction parts generalizing t after r with
  | nil =>
    rw [ensureParts] at h
    split at h
    next made hm =>
      cases h
      obtain ⟨grows, passable⟩ := makeDirectory_ok hm
      exact ⟨grows, fun _ => passable⟩
    next =>
      cases h
      exact ⟨.refl _ _ _, nofun⟩
    next =>
      cases h
      exact ⟨.refl _ _ _, passable_of_settled⟩
  | cons part rest ih =>
    have above : Path.stops t.working ⟨anchor, rest.reverse⟩ ⊆ Path.stops t.working ⟨anchor, (part :: rest).reverse⟩ :=
      Path.stops_subset (by simp)
    rw [ensureParts] at h
    split at h
    next made hm =>
      cases h
      obtain ⟨grows, passable⟩ := makeDirectory_ok hm
      exact ⟨grows, fun _ => passable⟩
    next =>
      split at h
      next mid fault hmid =>
        cases h
        exact ⟨(ih hmid).1.mono (fun _ => id) above, nofun⟩
      next mid hmid =>
        have first := (ih hmid).1.mono (fun _ => id) above
        split at h
        next made hm =>
          cases h
          obtain ⟨grows, passable⟩ := makeDirectory_ok hm
          rw [first.working] at grows
          exact ⟨first.trans grows, fun _ => passable⟩
        next =>
          cases h
          exact ⟨first, nofun⟩
        next =>
          cases h
          exact ⟨first, passable_of_settled⟩
    next =>
      cases h
      exact ⟨.refl _ _ _, passable_of_settled⟩

theorem ensureDirectory_grows {r : Except Fault Unit} (h : t.ensureDirectory p = (after, r)) :
    Grows [] (p.stops t.working) t after ∧ (r = .ok () → after.Passable p) := by
  have made := ensureParts_grows h
  rwa [List.reverse_reverse] at made

theorem write_ok {content : ByteArray} (h : t.write p content = .ok after) :
    t.node? (p.resolve t.working) ≠ some .directory ∧
      after = t.set (p.resolve t.working) (.file content) := by
  obtain ⟨place, located, put⟩ := except_bind_ok_iff.mp h
  obtain ⟨rfl, -⟩ := locate_ok located
  split at put
  next => cases put
  next free => exact ⟨free, (Except.ok.inj put).symm⟩

theorem status_ok_iff {node : Node} : t.status p = .ok node ↔
    t.locate p = .ok (p.resolve t.working) ∧ t.node? (p.resolve t.working) = some node := by
  unfold status
  cases located : t.locate p with
  | error e => simp [bind, Except.bind]
  | ok place =>
    obtain ⟨rfl, -⟩ := locate_ok located
    cases here : t.node? (p.resolve t.working) <;> simp [here, bind, Except.bind]

/-- A path to a file leads to it later, unless it was written. -/
theorem Grows.status {files directories : List Place} {content : ByteArray} (h : Grows files directories t after)
    (there : t.status p = .ok (.file content)) (other : p.resolve t.working ∉ files) :
    after.status p = .ok (.file content) := by
  obtain ⟨located, here⟩ := status_ok_iff.mp there
  rw [status_ok_iff, h.working]
  exact ⟨h.locate located, (h.file_iff other).mpr here⟩

/-- What is written to a path is what the path leads to. -/
theorem status_write {content : ByteArray} (h : t.write p content = .ok after) :
    after.status p = .ok (.file content) := by
  obtain ⟨place, located, -⟩ := except_bind_ok_iff.mp h
  obtain ⟨rfl, -⟩ := locate_ok located
  obtain ⟨free, rfl⟩ := write_ok h
  have inside : p.resolve t.working ≠ [] := by
    intro root
    rw [root] at free
    exact free rfl
  refine status_ok_iff.mpr ⟨(grows_set_file free []).locate located, ?_⟩
  have here := node?_set t (p.resolve t.working) (p.resolve t.working) (.file content)
  rwa [if_neg inside, if_pos rfl] at here

end FileTree

end StyleTokens
