import StyleTokens.Proofs.ContainedOutput

namespace StyleTokens

namespace Output

open FileTree (Grows)

variable {t after : FileTree} {directory path : Path} {artifacts : List Artifact}

theorem status_of_place {a : Artifact} (h : place path a t = (after, .ok ())) :
    after.status path = .ok (.file a.content.toUTF8) := by
  unfold place at h
  split at h
  next => cases h
  next =>
    split at h
    next put =>
      cases h
      exact FileTree.status_write put
    next => cases h

/-- Of the files that are written one by one, those stand at their paths that are the last with their target. -/
theorem status_of_placeAll {found : List (Path × Artifact)} {run : Traced Fault Unit}
    (h : placeAll found t = (after, run)) (ok : run.result = .ok ()) {f : Path × Artifact}
    (last : Survives (fun f => f.1.resolve t.working) found f) :
    after.status f.1 = .ok (.file f.2.content.toUTF8) := by
  induction found generalizing t after run with
  | nil => exact absurd last.mem List.not_mem_nil
  | cons g rest ih =>
    obtain ⟨goal, a⟩ := g
    rw [placeAll] at h
    split at h
    next =>
      cases h
      cases ok
    next mid placed =>
      cases later : placeAll rest mid with
      | mk end_ run' =>
        rw [later] at h
        cases h
        rw [Traced.result_bind, Traced.result_note] at ok
        have working : mid.working = t.working := (place_grows placed).1.working
        obtain ⟨before, more, cut, apart⟩ := last
        cases before with
        | nil =>
          -- the file that was just written is kept by those that come later
          obtain ⟨rfl, rfl⟩ := List.cons.inj cut
          have grows := (placeAll_grows later).1
          refine grows.status (status_of_place placed) ?_
          intro again
          obtain ⟨b, hb, same⟩ := List.mem_map.mp again
          have other := apart b hb
          rw [working] at same
          simp [same] at other
        | cons first before =>
          obtain ⟨rfl, rfl⟩ := List.cons.inj cut
          refine ih later ok ⟨before, more, rfl, ?_⟩
          rwa [working]

theorem exists_target {found : List (Path × Artifact)} (h : targets t directory artifacts = .ok found) {a : Artifact}
    (ha : a ∈ artifacts) : ∃ path, target t directory a.path = .ok path := by
  obtain ⟨_, made⟩ := exists_mapM_ok_iff.mp ⟨found, h⟩ a ha
  obtain ⟨path, fine, -⟩ := except_map_ok_iff.mp made
  exact ⟨path, fine⟩

theorem written_of_write {run : Traced Stop (List Path)} {paths : List Path}
    (h : write t directory artifacts = (after, run)) (ok : run.result = .ok paths) :
    (∀ a ∈ artifacts, ∃ path, target t directory a.path = .ok path) ∧
      paths = artifacts.map (fun a => directory.child a.path) ∧
      ∀ a, Survives (fun a : Artifact => (directory.child a.path).resolve t.working) artifacts a →
        after.status (directory.child a.path) = .ok (.file a.content.toUTF8) := by
  unfold write at h
  split at h
  next =>
    cases h
    cases ok
  next found hfound =>
    obtain ⟨rfl, -⟩ := targets_ok hfound
    cases placed : placeAll (artifacts.map fun a => (directory.child a.path, a)) t with
    | mk final done =>
      rw [placed] at h
      cases h
      rw [Traced.result_bind, Traced.result_mapError] at ok
      obtain ⟨_, ended, answer⟩ := except_bind_ok_iff.mp ok
      refine ⟨fun a ha => exists_target hfound ha, ?_, ?_⟩
      · simpa [Function.comp_def] using (Except.ok.inj answer).symm
      · intro a survives
        have last : Survives (fun f : Path × Artifact => f.1.resolve t.working)
            (artifacts.map fun a => (directory.child a.path, a)) (directory.child a.path, a) :=
          survives_map (fun _ => rfl) survives
        have stands := status_of_placeAll placed (except_mapError_ok_iff.mp ended) last
        exact stands

/-- If no error ends the writing, it answers with the paths of its artifacts in order. The last artifact of each
target stands there, also for those who follow its path, and the files that are no targets are the same as before. -/
theorem written_exact {run : Traced Stop (List Path)} {paths : List Path}
    (h : write t directory artifacts = (after, run)) (ok : run.result = .ok paths) :
    paths = artifacts.map (fun a => directory.child a.path) ∧
    (∀ a, Survives (fun a : Artifact => (directory.child a.path).resolve t.working) artifacts a →
      after.node? ((directory.child a.path).resolve t.working) = some (.file a.content.toUTF8) ∧
        after.read (directory.child a.path) = .ok a.content.toUTF8) ∧
    ∀ place ∉ places t.working directory artifacts, ∀ content,
      after.node? place = some (.file content) ↔ t.node? place = some (.file content) := by
  have grows := (write_grows h).1
  obtain ⟨-, answer, written⟩ := written_of_write h ok
  refine ⟨answer, ?_, fun place other content => grows.file_iff other⟩
  intro a last
  have there := written a last
  refine ⟨?_, ?_⟩
  · rw [← grows.working]
    exact (FileTree.status_ok_iff.mp there).2
  · simp [FileTree.read, there, bind, Except.bind]

/-- Artifacts of which the second comes back to the target of the first. -/
def sharedArtifacts : List Artifact := [⟨"a/tokens.css", "1"⟩, ⟨"b/../a/tokens.css", "2"⟩, ⟨"index.js", "é"⟩]

theorem written_sharedArtifacts : ∃ after run paths,
    write besideTree (.ofString "output") sharedArtifacts = (after, run) ∧ run.result = .ok paths ∧
      paths.map Path.text = ["output/a/tokens.css", "output/b/../a/tokens.css", "output/index.js"] ∧
      after.read (.ofString "output/b/../a/tokens.css") = .ok "2".toUTF8 ∧
      after.node? ["work", "output", "a", "tokens.css"] = some (.file "2".toUTF8) ∧
      after.node? ["work", "output", "index.js"] = some (.file "é".toUTF8) ∧
      after.node? ["work", "notes"] = some (.file "kept".toUTF8) := by
  have ok : (write besideTree (.ofString "output") sharedArtifacts).2.result =
      .ok (sharedArtifacts.map fun a => (Path.ofString "output").child a.path) := by decide +kernel
  obtain ⟨-, stands, others⟩ := written_exact (rfl : write besideTree (.ofString "output") sharedArtifacts = (_, _)) ok
  obtain ⟨second, followed⟩ := stands ⟨"b/../a/tokens.css", "2"⟩ ⟨[_], [_], rfl, by decide +kernel⟩
  obtain ⟨third, -⟩ := stands ⟨"index.js", "é"⟩ ⟨[_, _], [], rfl, by simp⟩
  have apart : ["work", "notes"] ∉ places besideTree.working (.ofString "output") sharedArtifacts := by decide +kernel
  have kept : besideTree.node? ["work", "notes"] = some (.file "kept".toUTF8) := by decide +kernel
  exact ⟨_, _, _, rfl, ok, by decide +kernel, followed, second, third, (others _ apart _).mpr kept⟩

end Output

end StyleTokens
