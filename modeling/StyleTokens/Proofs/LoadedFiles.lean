import StyleTokens.Source
import StyleTokens.Proofs.JsonTexts
import StyleTokens.Proofs.WrittenFiles

namespace StyleTokens

namespace Output

variable {tree after : FileTree} {directory path : Path} {a : Artifact} {written : Traced Stop (List Path)}

theorem hasNull_of_target {name : String} (h : target tree directory name = .ok path) : path.hasNull = false := by
  unfold target at h
  dsimp only at h
  split at h
  next => cases h
  next clean =>
    split at h
    next =>
      cases h
      simp only [Bool.or_eq_true, not_or, Bool.not_eq_true] at clean
      exact clean.2
    next => cases h

/-- A single artifact that is written stands at its path. -/
theorem status_of_write (h : write tree directory [a] = (after, written)) (ok : written.result = .ok [path]) :
    path.hasNull = false ∧ after.status path = .ok (.file a.content.toUTF8) := by
  obtain ⟨fine, answer, stands⟩ := written_of_write h ok
  obtain rfl : path = directory.child a.path := by simpa using answer
  obtain ⟨goal, found⟩ := fine a (by simp)
  refine ⟨?_, stands a ⟨[], [], rfl, by simp⟩⟩
  rw [← (target_ok found).1]
  exact hasNull_of_target found

end Output

namespace Source

variable {tree : FileTree} {path : Path}

/-- A printed document is loaded from its file, unless the file's name says that it holds YAML. -/
theorem load_printed {style : Json.Style} {d : Doc} (clean : path.hasNull = false)
    (here : tree.status path = .ok (.file (Json.print style d).toUTF8)) (json : isYaml path = false)
    (hd : d.IsJson) : load tree path = .ok d := by
  have file : tree.hasFile path = .ok true := by
    simp [FileTree.hasFile, FileTree.leadsTo, clean, here]
  have content : tree.read path = .ok (Json.print style d).toUTF8 := by
    simp [FileTree.read, here, bind, Except.bind]
  simp only [load, file, content, Utf8.decode_toUTF8, Json.unifyNewlines_print style hd, parse, json,
    Bool.false_eq_true, if_false, Json.parse_print style hd]
  rfl

end Source

end StyleTokens
