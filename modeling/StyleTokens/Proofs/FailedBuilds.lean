import StyleTokens.Proofs.CheckedSources
import StyleTokens.Proofs.ContainedOutput

namespace StyleTokens

namespace BuildConfig

variable {c : BuildConfig} {t after : FileTree} {generate : Bool} {made : Traced Fault Outcome} {f : Failure}

/-- How a build comes to a failure: its source is not loaded, no table comes of the document, or one of the
files would not lie below the output directory, of which the first counts. -/
inductive Fails (c : BuildConfig) (t : FileTree) (generate : Bool) (f : Failure) : Prop where
  | source (unloaded : c.document t = .error (.failure f))
  | table {d : Doc} (loaded : c.document t = .ok d) (refused : (c.run d generate true).result = .ok (.failed f))
  | target {d : Doc} {table : Table} {before later : List Artifact} {a : Artifact} {warnings : List Issue}
      (loaded : c.document t = .ok d)
      (built : (c.run d generate true).result = .ok (.built table (before ++ a :: later) warnings []))
      (inside : ∀ b ∈ before, ∃ path, Output.target t c.outputDirectory b.path = .ok path)
      (outside : Output.target t c.outputDirectory a.path = .error (.failure f))

theorem make_of_loaded {d : Doc} (loaded : c.document t = .ok d) : c.make t generate = c.run d generate true := by
  simp only [make, loaded]

theorem make_of_unloaded (unloaded : c.document t = .error (.failure f)) :
    (c.make t generate).result = .ok (.failed f) := by
  simp only [make, unloaded]
  rfl

/-- What is delivered of files that all have a target is written or ends with a fault; if a target is refused,
nothing is written. -/
theorem deliver_built {table : Table} {artifacts : List Artifact} {warnings : List Issue} {written : List String}
    (built : made.result = .ok (.built table artifacts warnings written)) :
    (∃ stop, Output.targets t c.outputDirectory artifacts = .error stop ∧ (c.deliver t made).1 = t ∧
      (c.deliver t made).2.result = (unwritten table warnings stop).result) ∨
    (∃ found, Output.targets t c.outputDirectory artifacts = .ok found) ∧
      ∀ o, (c.deliver t made).2.result = .ok o → o.failure? = none := by
  cases writes : Output.write t c.outputDirectory artifacts with
  | mk later writing =>
    simp only [deliver, built, writes, Traced.result_bind]
    rcases Output.write_cases writes with ⟨stop, refused, same, ended⟩ | ⟨found, hfound, ended | ⟨fault, ended⟩⟩
    · refine .inl ⟨stop, refused, same, ?_⟩
      exact Traced.result_recover_error (by simp [ended, Except.bind])
    · refine .inr ⟨⟨found, hfound⟩, ?_⟩
      intro o ho
      simp only [Except.bind, Traced.recover, Traced.result_bind, ended] at ho
      cases ho
      rfl
    · refine .inr ⟨⟨found, hfound⟩, ?_⟩
      intro o ho
      simp only [Except.bind, Traced.recover, Traced.result_bind, ended] at ho
      cases ho

theorem deliver_failed (failed : made.result = .ok (.failed f)) : c.deliver t made = (t, made) := by
  simp only [deliver, failed]

theorem deliver_fault {fault : Fault} (ended : made.result = .error fault) : c.deliver t made = (t, made) := by
  simp only [deliver, ended]

/-- Each cause of a failure is told. -/
theorem failure_of_fails (fails : c.Fails t generate f) :
    ∃ o, (c.deliver t (c.make t generate)).2.result = .ok o ∧ o.failure? = some f := by
  cases fails with
  | source unloaded =>
    have failed : (c.make t generate).result = .ok (.failed f) := make_of_unloaded unloaded
    rw [deliver_failed failed]
    exact ⟨_, failed, rfl⟩
  | table loaded refused =>
    rw [make_of_loaded loaded, deliver_failed refused]
    exact ⟨_, refused, rfl⟩
  | @target d table before later a warnings loaded built inside outside =>
    rw [make_of_loaded loaded]
    have refused := Output.targets_error_iff.mpr ⟨before, a, later, rfl, inside, outside⟩
    rcases deliver_built (c := c) (t := t) built with ⟨stop, stopped, _, ended⟩ | ⟨⟨found, fine⟩, _⟩
    · cases refused.symm.trans stopped
      exact ⟨_, ended, rfl⟩
    · cases refused.symm.trans fine

/-- A build whose files do not all belong below the output directory fails for the first that does not. -/
theorem fails_of_refused {d : Doc} {o : Outcome} (loaded : c.document t = .ok d)
    (ran : (c.run d generate true).result = .ok o) (fine : o.ok = true)
    (refused : Output.targets t c.outputDirectory o.artifacts = .error (.failure f)) : c.Fails t generate f := by
  rcases Pipeline.run_cases c.selector d c.request generate true with
    ⟨table, report, artifacts, _, built⟩ | ⟨g, _, failed⟩ | ⟨fault, _, ended⟩
  · cases ran.symm.trans built
    obtain ⟨before, a, later, rfl, inside, outside⟩ := Output.targets_error_iff.mp refused
    exact .target loaded built inside outside
  · cases ran.symm.trans failed
    cases fine
  · cases ran.symm.trans ended

/-- A failure that is told has one of the causes, and nothing was written before. -/
theorem fails_of_failure {o : Outcome} (h : (c.deliver t (c.make t generate)).2.result = .ok o)
    (hf : o.failure? = some f) :
    c.Fails t generate f ∧ (c.deliver t (c.make t generate)).1 = t ∧ o.written = [] := by
  cases source : c.document t with
  | error stop =>
    cases stop with
    | fault fault =>
      have ended : (c.make t generate).result = .error fault := by
        simp only [make, source]
        rfl
      rw [deliver_fault ended, ended] at h
      cases h
    | failure g =>
      have failed : (c.make t generate).result = .ok (.failed g) := make_of_unloaded source
      rw [deliver_failed failed] at h ⊢
      cases failed.symm.trans h
      cases hf
      exact ⟨.source source, rfl, rfl⟩
  | ok d =>
    rw [make_of_loaded source] at h ⊢
    rcases Pipeline.run_cases c.selector d c.request generate true with
      ⟨table, report, artifacts, _, built⟩ | ⟨g, _, failed⟩ | ⟨fault, _, ended⟩
    · have ran : (c.run d generate true).result = .ok (.built table artifacts report.warnings []) := built
      rcases deliver_built (c := c) (t := t) ran with ⟨stop, refused, same, ended⟩ | ⟨_, fine⟩
      · rw [ended] at h
        cases stop with
        | fault fault => cases h
        | failure g =>
          cases h
          cases hf
          obtain ⟨before, a, later, rfl, inside, outside⟩ := Output.targets_error_iff.mp refused
          exact ⟨.target source ran inside outside, same, rfl⟩
      · rw [fine o h] at hf
        cases hf
    · have ran : (c.run d generate true).result = .ok (.failed g) := failed
      rw [deliver_failed ran] at h ⊢
      cases ran.symm.trans h
      cases hf
      exact ⟨.table source ran, rfl, rfl⟩
    · have ran : (c.run d generate true).result = .error fault := ended
      rw [deliver_fault ran, ran] at h
      cases h

theorem deliver_of_build (h : (if generate then c.build t else c.flatten t) = (after, made)) :
    ∃ run, c.deliver t (c.make t generate) = (after, run) ∧ run.result = made.result := by
  cases generate with
  | false => exact ⟨made, h, rfl⟩
  | true =>
    cases delivered : c.deliver t (c.make t true) with
    | mk later run =>
      simp only [if_true, build, delivered] at h
      obtain ⟨rfl, rfl⟩ := Prod.mk.inj h
      refine ⟨run, rfl, ?_⟩
      rw [Traced.result_bind]
      cases run.result with
      | error fault => rfl
      | ok o => exact (result_noteWritten o).symm

/-- Building or flattening comes to a failure exactly if the source is not loaded, no table comes of it, or a
file does not belong below the output directory. Then the tree is as it was, and nothing counts as written. -/
theorem untouched_of_failed (h : (if generate then c.build t else c.flatten t) = (after, made)) :
    (∀ f, (∃ o, made.result = .ok o ∧ o.failure? = some f) ↔ c.Fails t generate f) ∧
      ∀ o, made.result = .ok o → o.ok = false → after = t ∧ o.written = [] := by
  obtain ⟨run, delivered, result⟩ := deliver_of_build h
  have told : ∀ f, c.Fails t generate f → ∃ o, run.result = .ok o ∧ o.failure? = some f := by
    intro f fails
    have made := failure_of_fails fails
    rwa [delivered] at made
  have caused : ∀ o f, run.result = .ok o → o.failure? = some f →
      c.Fails t generate f ∧ after = t ∧ o.written = [] := by
    intro o f ho hf
    have ran : (c.deliver t (c.make t generate)).2.result = .ok o := by rw [delivered, ho]
    have cause := fails_of_failure ran hf
    rwa [delivered] at cause
  rw [← result]
  refine ⟨fun f => ⟨?_, told f⟩, ?_⟩
  · rintro ⟨o, ho, hf⟩
    exact (caused o f ho hf).1
  · intro o ho failed
    obtain ⟨f, hf⟩ : ∃ f, o.failure? = some f := by
      cases told : o.failure? with
      | some f => exact ⟨f, rfl⟩
      | none => simp [Outcome.ok, told] at failed
    exact (caused o f ho hf).2

/-- A collection whose name leads out of any directory. -/
def straySource : Doc :=
  .list [.object [("../../stray", .object [("modes", .object [("light", .object []), ("dark", .object [])])])]]

def strayBuild : BuildConfig := { standard with source := some (.ofString "stray-tokens.json") }

def strayTree : FileTree :=
  (FileTree.bare ["work"]).put ["work", "stray-tokens.json"]
    (.file (Json.print Json.indented straySource).toUTF8)

theorem untouched_strayTree : ∃ made o,
    strayBuild.build strayTree = (strayTree, made) ∧ made.result = .ok o ∧ o.ok = false ∧ o.written = [] ∧
      o.failure? = some (.outsideOutput "../../stray/light/css/tokens.css" "output") := by
  have json : straySource.IsJson := by
    simp [straySource, Doc.object, Doc.IsJson, Doc.AllJson, Doc.EntriesJson, Ordered.contains, Scalar.text_beq]
  have clean : (Path.ofString "stray-tokens.json").hasNull = false := by decide +kernel
  have ending : Source.isYaml (.ofString "stray-tokens.json") = false := by decide +kernel
  have here : strayTree.status (.ofString "stray-tokens.json")
      = .ok (.file (Json.print Json.indented straySource).toUTF8) := by rfl
  have source : strayBuild.document strayTree = .ok straySource :=
    document_of_source rfl (Source.load_printed clean here ending json)
  have ran : (strayBuild.run straySource true true).result.toOption.any (fun o => o.ok &&
      decide (Output.targets strayTree strayBuild.outputDirectory o.artifacts =
        .error (.failure (.outsideOutput "../../stray/light/css/tokens.css" "output")))) = true := by
    decide +kernel
  obtain ⟨o, ho, made⟩ := exists_ok_of_any ran
  obtain ⟨fine, refused⟩ := Bool.and_eq_true_iff.mp made
  have fails := fails_of_refused source ho fine (of_decide_eq_true refused)
  cases built : strayBuild.build strayTree with
  | mk after made =>
    have either : (if true then strayBuild.build strayTree else strayBuild.flatten strayTree) = (after, made) :=
      (if_pos rfl).trans built
    obtain ⟨told, untouched⟩ := untouched_of_failed either
    obtain ⟨o', ho', hf⟩ := (told _).mpr fails
    have failed : o'.ok = false := by simp [Outcome.ok, hf]
    obtain ⟨rfl, written⟩ := untouched o' ho' failed
    exact ⟨made, o', rfl, ho', failed, written, hf⟩

end BuildConfig

end StyleTokens
