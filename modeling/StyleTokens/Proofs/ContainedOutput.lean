import StyleTokens.Output
import StyleTokens.Proofs.FollowedPaths

namespace StyleTokens

namespace Path

variable {working place : Place} {p : Path}

theorem foldl_follow_of_plain {parts : List String} (plain : up ∉ parts) (start : Place) :
    parts.foldl follow start = start ++ parts := by
  induction parts generalizing start with
  | nil => simp
  | cons part rest ih =>
    obtain ⟨first, later⟩ := not_or.mp (mt List.mem_cons.mpr plain)
    have step : follow start part = start ++ [part] := if_neg (Ne.symm first)
    rw [List.foldl_cons, step, ih later, List.append_assoc, List.singleton_append]

/-- A path without a step up only leads through what its end lies in. -/
theorem prefix_of_mem_stops (plain : up ∉ p.parts) (h : place ∈ p.stops working) :
    place <+: p.resolve working := by
  obtain ⟨front, before, rfl⟩ := mem_stops.mp h
  have start : origin working ⟨p.anchor, front⟩ = p.origin working := rfl
  have front_plain : up ∉ front := fun hm => plain (before.subset hm)
  rw [resolve, resolve, foldl_follow_of_plain front_plain, foldl_follow_of_plain plain, start]
  exact (List.prefix_append_right_inj _).mpr before

theorem parts_child_subset {directory : Path} {name part : String} (h : part ∈ (directory.child name).parts) :
    part ∈ directory.parts ∨ part ∈ (ofString name).parts := by
  unfold child join at h
  split at h
  next => exact List.mem_append.mp h
  next => exact .inr h

end Path

namespace Output

open FileTree (Grows Passable)

/-- The places of the files of artifacts. -/
def places (working : Place) (directory : Path) (artifacts : List Artifact) : List Place :=
  artifacts.map fun a => (directory.child a.path).resolve working

/-- The places that lie on the ways to the files of artifacts. -/
def ways (working : Place) (directory : Path) (artifacts : List Artifact) : List Place :=
  artifacts.flatMap fun a => (directory.child a.path).parent.stops working

/-- A place that is not the output directory, does not lie in it, and in which it does not lie. -/
def Elsewhere (working : Place) (directory : Path) (place : Place) : Prop :=
  ¬ directory.resolve working <+: place ∧ ¬ place <+: directory.resolve working

/-- Between two trees nothing elsewhere differs. -/
def Contained (directory : Path) (t after : FileTree) : Prop :=
  ∀ place, Elsewhere t.working directory place → after.node? place = t.node? place

variable {t after : FileTree} {directory path : Path} {artifacts : List Artifact}

theorem target_ok {name : String} (h : target t directory name = .ok path) :
    path = directory.child name ∧ directory.resolve t.working <+: path.resolve t.working := by
  unfold target at h
  dsimp only at h
  split at h
  next => cases h
  next =>
    split at h
    next below =>
      cases h
      obtain ⟨begins, -⟩ := Bool.and_eq_true_iff.mp below
      exact ⟨rfl, List.isPrefixOf_iff_prefix.mp begins⟩
    next => cases h

theorem targets_ok {found : List (Path × Artifact)} (h : targets t directory artifacts = .ok found) :
    found = artifacts.map (fun a => (directory.child a.path, a)) ∧
      ∀ a ∈ artifacts, directory.resolve t.working <+: (directory.child a.path).resolve t.working := by
  have all := mapM_ok_iff.mp h
  have each : ∀ {a : Artifact} {f : Path × Artifact},
      (target t directory a.path).map (fun path => (path, a)) = .ok f →
        f = (directory.child a.path, a) ∧
          directory.resolve t.working <+: (directory.child a.path).resolve t.working := by
    intro a f hf
    cases ht : target t directory a.path with
    | error stop =>
      rw [ht] at hf
      cases hf
    | ok path =>
      rw [ht] at hf
      cases hf
      obtain ⟨rfl, begins⟩ := target_ok ht
      exact ⟨rfl, begins⟩
  constructor
  · rw [← List.forall₂_eq_eq_eq, List.forall₂_map_right_iff]
    exact all.flip.imp fun _ _ hf => (each hf).1
  · intro a ha
    obtain ⟨f, _, hf⟩ := exists_of_forall₂_left all ha
    exact (each hf).2

/-- The targets are refused for the first artifact whose target is. -/
theorem targets_error_iff {stop : Stop} :
    targets t directory artifacts = .error stop ↔
      ∃ before a after, artifacts = before ++ a :: after ∧
        (∀ b ∈ before, ∃ path, target t directory b.path = .ok path) ∧ target t directory a.path = .error stop := by
  have ok : ∀ a : Artifact, (∃ f, (target t directory a.path).map (fun path => (path, a)) = .ok f) ↔
      ∃ path, target t directory a.path = .ok path := by
    intro a
    cases target t directory a.path <;> simp [Except.map]
  have error : ∀ a : Artifact, (target t directory a.path).map (fun path => (path, a)) = .error stop ↔
      target t directory a.path = .error stop := by
    intro a
    cases target t directory a.path <;> simp [Except.map]
  unfold targets
  rw [mapM_error_iff]
  simp only [ok, error]

/-- Writing ends with what the targets are refused for and leaves the tree as it was; once there are targets it
ends with no failure. -/
theorem write_cases {run : Traced Stop (List Path)} (h : write t directory artifacts = (after, run)) :
    (∃ stop, targets t directory artifacts = .error stop ∧ after = t ∧ run.result = .error stop) ∨
      ∃ found, targets t directory artifacts = .ok found ∧
        (run.result = .ok (found.map Prod.fst) ∨ ∃ fault, run.result = .error (.fault fault)) := by
  unfold write at h
  split at h
  next stop refused =>
    cases h
    exact .inl ⟨stop, refused, rfl, rfl⟩
  next found hfound =>
    cases h
    refine .inr ⟨found, hfound, ?_⟩
    rw [Traced.result_bind, Traced.result_mapError]
    cases (placeAll found t).2.result with
    | ok _ => exact .inl rfl
    | error fault => exact .inr ⟨fault, rfl⟩

theorem place_grows {a : Artifact} {r : Except Fault Unit} (h : place path a t = (after, r)) :
    Grows [path.resolve t.working] (path.parent.stops t.working) t after ∧
      (r = .ok () → after.Passable path.parent) := by
  unfold place at h
  split at h
  next mid fault made =>
    cases h
    exact ⟨(FileTree.ensureDirectory_grows made).1.mono (List.nil_subset _) (fun _ => id), nofun⟩
  next mid made =>
    obtain ⟨grows, passable⟩ := FileTree.ensureDirectory_grows made
    have first : Grows [path.resolve t.working] (path.parent.stops t.working) t mid :=
      grows.mono (List.nil_subset _) fun _ => id
    split at h
    next written put =>
      cases h
      obtain ⟨free, rfl⟩ := FileTree.write_ok put
      rw [first.working] at free ⊢
      have second : Grows [path.resolve t.working] (path.parent.stops t.working) mid
          (mid.set (path.resolve t.working) (.file a.content.toUTF8)) := FileTree.grows_set_file free _
      exact ⟨first.trans second, fun _ => second.passable (passable rfl)⟩
    next =>
      cases h
      exact ⟨first, nofun⟩

/-- Files that are written one by one make a tree grow as each of them does, also if one of them fails. -/
theorem placeAll_grows {found : List (Path × Artifact)} {run : Traced Fault Unit}
    (h : placeAll found t = (after, run)) :
    Grows (found.map fun f => f.1.resolve t.working) (found.flatMap fun f => f.1.parent.stops t.working) t after ∧
      (run.result = .ok () → ∀ f ∈ found, after.Passable f.1.parent) := by
  induction found generalizing t after run with
  | nil =>
    cases h
    exact ⟨.refl _ _ _, fun _ f hf => by cases hf⟩
  | cons f rest ih =>
    obtain ⟨path, a⟩ := f
    rw [placeAll] at h
    split at h
    next mid fault placed =>
      cases h
      obtain ⟨grows, -⟩ := place_grows placed
      refine ⟨grows.mono (by simp) (by simp), ?_⟩
      intro ok
      cases ok
    next mid placed =>
      obtain ⟨grows, passable⟩ := place_grows placed
      have first : Grows (((path, a) :: rest).map fun f => f.1.resolve t.working)
          (((path, a) :: rest).flatMap fun f => f.1.parent.stops t.working) t mid :=
        grows.mono (by simp) (by simp)
      cases hlater : placeAll rest mid with
      | mk last later =>
        rw [hlater] at h
        cases h
        obtain ⟨second, open_⟩ := ih hlater
        rw [first.working] at second
        refine ⟨first.trans (second.mono (by simp) (by simp)), ?_⟩
        intro ok
        rw [Traced.result_bind, Traced.result_note] at ok
        exact List.forall_mem_cons.mpr ⟨second.passable (passable rfl), open_ ok⟩

/-- Writing makes a tree grow by the files of its artifacts and by missing directories on the ways to them. It
leaves the tree as it was unless all its files belong below the output directory. If no error ends it, all on
these ways are directories. -/
theorem write_grows {run : Traced Stop (List Path)} (h : write t directory artifacts = (after, run)) :
    Grows (places t.working directory artifacts) (ways t.working directory artifacts) t after ∧
      (after = t ∨
        ∀ a ∈ artifacts, directory.resolve t.working <+: (directory.child a.path).resolve t.working) ∧
      ∀ paths, run.result = .ok paths →
        ∀ place ∈ ways t.working directory artifacts, after.node? place = some .directory := by
  unfold write at h
  split at h
  next =>
    cases h
    exact ⟨.refl _ _ _, .inl rfl, fun _ ok => by cases ok⟩
  next found hfound =>
    obtain ⟨rfl, below⟩ := targets_ok hfound
    cases placed : placeAll (artifacts.map fun a => (directory.child a.path, a)) t with
    | mk last done =>
      rw [placed] at h
      cases h
      obtain ⟨grows, passable⟩ := placeAll_grows placed
      rw [List.map_map, List.flatMap_map] at grows
      refine ⟨grows, .inr below, ?_⟩
      intro paths ok place hp
      obtain ⟨a, ha, on⟩ := List.mem_flatMap.mp hp
      rw [Traced.result_bind, Traced.result_mapError] at ok
      obtain ⟨_, ended, _⟩ := except_bind_ok_iff.mp ok
      have open_ := passable (except_mapError_ok_iff.mp ended) _ (List.mem_map_of_mem ha)
      rw [← grows.working] at on
      exact open_ place on

/-- What lies on a way without a step up is the output directory, lies in it, or is what it lies in. -/
theorem not_elsewhere_of_plain {working place : Place} {a : Artifact} (outer : Path.up ∉ directory.parts)
    (inner : Path.up ∉ (Path.ofString a.path).parts)
    (below : directory.resolve working <+: (directory.child a.path).resolve working)
    (h : place ∈ (directory.child a.path).parent.stops working) : ¬ Elsewhere working directory place := by
  have plain : Path.up ∉ (directory.child a.path).parts := by
    intro hu
    rcases Path.parts_child_subset hu with hu | hu
    · exact outer hu
    · exact inner hu
  have begins : (directory.child a.path).parent.parts <+: (directory.child a.path).parts := List.dropLast_prefix _
  have before := Path.prefix_of_mem_stops plain (Path.stops_subset begins h)
  rintro ⟨outside, apart⟩
  rcases List.prefix_or_prefix_of_prefix below before with inside | above
  · exact outside inside
  · exact apart above

/-- Outside the output directory writing only makes missing directories on the ways to its files. If no error
ends it, nothing elsewhere differs exactly if no directory is missing there on these ways; and if no path has a
step up, nothing elsewhere ever differs. -/
theorem contained_iff {run : Traced Stop (List Path)} (h : write t directory artifacts = (after, run)) :
    (∀ place, ¬ directory.resolve t.working <+: place → after.node? place ≠ t.node? place →
      t.node? place = none ∧ after.node? place = some .directory ∧ place ∈ ways t.working directory artifacts) ∧
    (∀ paths, run.result = .ok paths → (Contained directory t after ↔
      ∀ place ∈ ways t.working directory artifacts, Elsewhere t.working directory place →
        t.node? place = some .directory)) ∧
    (Path.up ∉ directory.parts → (∀ a ∈ artifacts, Path.up ∉ (Path.ofString a.path).parts) →
      Contained directory t after) := by
  obtain ⟨grows, refused_or_below, ended⟩ := write_grows h
  have outside : ∀ place, ¬ directory.resolve t.working <+: place → after.node? place ≠ t.node? place →
      t.node? place = none ∧ after.node? place = some .directory ∧ place ∈ ways t.working directory artifacts := by
    intro place out differs
    rcases grows.changed place differs with file | made
    · rcases refused_or_below with rfl | below
      · exact absurd rfl differs
      · obtain ⟨a, ha, rfl⟩ := List.mem_map.mp file
        exact absurd (below a ha) out
    · exact made
  refine ⟨outside, ?_, ?_⟩
  · intro paths ok
    constructor
    · intro contained place on away
      rw [← contained place away]
      exact ended paths ok place on
    · intro there place away
      by_contra differs
      obtain ⟨missing, -, on⟩ := outside place away.1 differs
      rw [there place on away] at missing
      cases missing
  · intro outer inner place away
    by_contra differs
    obtain ⟨-, -, on⟩ := outside place away.1 differs
    obtain ⟨a, ha, hp⟩ := List.mem_flatMap.mp on
    rcases refused_or_below with rfl | below
    · exact differs rfl
    · exact not_elsewhere_of_plain outer (inner a ha) (below a ha) hp away

/-- A file that stands beside the output directory. -/
def besideTree : FileTree := (FileTree.bare ["work"]).put ["work", "notes"] (.file "kept".toUTF8)

def plainArtifacts : List Artifact := [⟨"brand/light/css/tokens.css", ":root"⟩, ⟨"index.js", "export"⟩]

theorem contained_plainArtifacts : ∃ after paths,
    write besideTree (.ofString "output") plainArtifacts = (after, paths) ∧
      Path.up ∉ (Path.ofString "output").parts ∧ (∀ a ∈ plainArtifacts, Path.up ∉ (Path.ofString a.path).parts) ∧
      after.node? ["work", "output", "index.js"] = some (.file "export".toUTF8) ∧
      Elsewhere ["work"] (.ofString "output") ["work", "notes"] ∧
      after.node? ["work", "notes"] = some (.file "kept".toUTF8) := by
  have outer : Path.up ∉ (Path.ofString "output").parts := by decide +kernel
  have inner : ∀ a ∈ plainArtifacts, Path.up ∉ (Path.ofString a.path).parts := by decide +kernel
  have away : Elsewhere ["work"] (.ofString "output") ["work", "notes"] := by
    unfold Elsewhere
    decide +kernel
  have kept : besideTree.node? ["work", "notes"] = some (.file "kept".toUTF8) := by decide +kernel
  obtain ⟨-, -, contained⟩ := contained_iff (rfl : write besideTree (.ofString "output") plainArtifacts = (_, _))
  refine ⟨_, _, rfl, outer, inner, by decide +kernel, away, ?_⟩
  rw [contained outer inner _ away, kept]

/-- A path that leaves the output directory and comes back makes a directory beside it. -/
theorem uncontained_return : ¬ Contained (.ofString "output") (.bare ["work"])
    (write (.bare ["work"]) (.ofString "output") [⟨"../side/../output/index.js", "export"⟩]).1 := by
  intro contained
  have away : Elsewhere ["work"] (.ofString "output") ["work", "side"] := by
    unfold Elsewhere
    decide +kernel
  have same := contained ["work", "side"] away
  have missing : (FileTree.bare ["work"]).node? ["work", "side"] = none := by decide +kernel
  have made : (write (.bare ["work"]) (.ofString "output")
      [⟨"../side/../output/index.js", "export"⟩]).1.node? ["work", "side"] = some .directory := by decide +kernel
  rw [missing, made] at same
  cases same

end Output

end StyleTokens
