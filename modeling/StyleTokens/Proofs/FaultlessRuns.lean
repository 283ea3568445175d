import StyleTokens.Proofs.RefusedTables
import StyleTokens.Source

namespace StyleTokens

theorem ExportFormat.ofName_nested_iff {format : String} :
    ExportFormat.ofName format = .ok .nested ↔ format = ExportFormat.nested.name := by
  constructor
  · intro h
    unfold ExportFormat.ofName ExportFormat.ofName? at h
    split at h
    next f hf =>
      cases h
      split at hf
      next => cases hf
      next =>
        split at hf
        next same => exact same
        next => cases hf
    next => cases h
  · rintro rfl
    exact Nested.ofName_nested

/-- A key on the way to the leaf is no text. -/
def Leaf.OffText (l : Leaf) : Prop := ∃ k ∈ l.fullPath, ∀ s, k ≠ .text s

namespace Nested

theorem joinPath_cases (position : Nat) (keys : List Scalar) :
    (∃ parts, joinPath position keys = .ok parts) ∧ (∀ k ∈ keys, ∃ s, k = .text s) ∨
      (∃ place kind, joinPath position keys = .error (.unjoinable place kind)) ∧ ∃ k ∈ keys, ∀ s, k ≠ .text s := by
  induction keys generalizing position with
  | nil => exact .inl ⟨⟨[], rfl⟩, by simp⟩
  | cons key rest ih =>
    cases key with
    | text s =>
      rcases ih (position + 1) with ⟨⟨parts, joined⟩, texts⟩ | ⟨⟨place, kind, stopped⟩, k, hk, noText⟩
      · refine .inl ⟨⟨s :: parts, ?_⟩, List.forall_mem_cons.mpr ⟨⟨s, rfl⟩, texts⟩⟩
        rw [joinPath, joined]
        rfl
      · refine .inr ⟨⟨place, kind, ?_⟩, k, List.mem_cons_of_mem _ hk, noText⟩
        rw [joinPath, stopped]
        rfl
    | _ => exact .inr ⟨⟨position, _, rfl⟩, _, List.mem_cons_self, by simp⟩

/-- A leaf comes after a record or a leaf with its key, and its path cannot be written. -/
def Stumbles (flat : Records) (ls : List Leaf) : Prop :=
  ∃ before l after, ls = before ++ l :: after ∧
    (Ordered.contains flat l.key = true ∨ ∃ m ∈ before, (m.key == l.key) = true) ∧ l.OffText

theorem stumbles_cons {flat : Records} {l : Leaf} {rest : List Leaf} :
    Stumbles flat (l :: rest) ↔ (Ordered.contains flat l.key = true ∧ l.OffText) ∨
      Stumbles (Ordered.insert flat l.key l.record) rest := by
  constructor
  · rintro ⟨before, m, after, he, seen, off⟩
    cases before with
    | nil =>
      obtain ⟨rfl, -⟩ := List.cons.inj he
      exact .inl ⟨seen.resolve_right (by simp), off⟩
    | cons first before =>
      obtain ⟨rfl, rfl⟩ := List.cons.inj he
      refine .inr ⟨before, m, after, rfl, ?_, off⟩
      rw [Ordered.contains_insert, Bool.or_eq_true]
      rcases seen with known | ⟨n, hn, same⟩
      · exact .inl (.inr known)
      · rcases List.mem_cons.mp hn with rfl | hn
        · exact .inl (.inl same)
        · exact .inr ⟨n, hn, same⟩
  · rintro (⟨known, off⟩ | ⟨before, m, after, rfl, seen, off⟩)
    · exact ⟨[], l, rest, rfl, .inl known, off⟩
    · refine ⟨l :: before, m, after, rfl, ?_, off⟩
      rw [Ordered.contains_insert, Bool.or_eq_true] at seen
      rcases seen with (same | known) | ⟨n, hn, same⟩
      · exact .inr ⟨l, by simp, same⟩
      · exact .inl known
      · exact .inr ⟨n, List.mem_cons_of_mem l hn, same⟩

theorem putLeaf_cases (flat : Records) (l : Leaf) :
    (putLeaf flat l).result = .ok (Ordered.insert flat l.key l.record) ∧
        ¬ (Ordered.contains flat l.key = true ∧ l.OffText) ∨
      (∃ place kind, (putLeaf flat l).result = .error (.unjoinable place kind)) ∧
        Ordered.contains flat l.key = true ∧ l.OffText := by
  unfold putLeaf
  split
  next known =>
    rcases joinPath_cases 0 l.fullPath with ⟨⟨parts, joined⟩, texts⟩ | ⟨⟨place, kind, stopped⟩, off⟩
    · refine .inl ⟨by simp [noteRepeated, joined, Except.bind], ?_⟩
      rintro ⟨-, k, hk, noText⟩
      obtain ⟨s, hs⟩ := texts k hk
      exact noText s hs
    · exact .inr ⟨⟨place, kind, by simp [noteRepeated, stopped, Except.bind]⟩, known, off⟩
  next fresh => exact .inl ⟨rfl, fun h => fresh h.1⟩

/-- Leaves are all put in, or the first that stumbles ends it. -/
theorem putAll_cases (ls : List Leaf) (flat : Records) :
    (∃ r, putAll ls flat = .ok r) ∧ ¬ Stumbles flat ls ∨
      (∃ place kind, putAll ls flat = .error (.unjoinable place kind)) ∧ Stumbles flat ls := by
  -- the records put in so far stand for the leaves before, so the map varies in the induction
  induction ls generalizing flat with
  | nil => exact .inl ⟨⟨flat, rfl⟩, by rintro ⟨before, l, after, he, -⟩; simp at he⟩
  | cons l rest ih =>
    rw [putAll, stumbles_cons]
    rcases putLeaf_cases flat l with ⟨put, fine⟩ | ⟨⟨place, kind, stopped⟩, off⟩
    · rw [put]
      simpa [fine, Except.bind] using ih (Ordered.insert flat l.key l.record)
    · rw [stopped]
      exact .inr ⟨⟨place, kind, rfl⟩, .inl off⟩

/-- A leaf of the tree comes after one with its key, and a key on the way to it is no text. -/
def Unwritable (d : Doc) : Prop :=
  ∃ before l after, leaves d = before ++ l :: after ∧ (∃ m ∈ before, (m.key == l.key) = true) ∧ l.OffText

theorem stumbles_leaves_iff {d : Doc} : Stumbles [] (leaves d) ↔ Unwritable d := by
  simp [Stumbles, Unwritable, Ordered.contains]

theorem flatten_cases (d : Doc) :
    (∀ fault, (flatten d).result ≠ .error (.fault fault)) ∧ ¬ Unwritable d ∨
      (∃ place kind, (flatten d).result = .error (.fault (.unjoinable place kind))) ∧ Unwritable d := by
  rw [← stumbles_leaves_iff]
  cases d with
  | mapping entries =>
    rw [flatten, Traced.result_mapError, result_walk]
    rcases putAll_cases (leavesIn [] entries) [] with ⟨⟨r, put⟩, fine⟩ | ⟨⟨place, kind, stopped⟩, stumbles⟩
    · refine .inl ⟨?_, fine⟩
      rw [put]
      rintro fault ⟨⟩
    · refine .inr ⟨⟨place, kind, ?_⟩, stumbles⟩
      rw [stopped]
      rfl
  | _ =>
    refine .inl ⟨?_, ?_⟩
    · rintro fault ⟨⟩
    · rintro ⟨before, l, after, he, -⟩
      simp [leaves] at he

end Nested

/-- Only the walk through the tree of a nested export can end with a fault. -/
theorem ThemeRecords.assemble_fault_iff {d : Doc} {format : String} {theme : Option String} {modes : List String}
    {fault : Fault} : (assemble d format theme modes).result = .error (.fault fault) ↔
      format = ExportFormat.nested.name ∧ (∃ name, theme = some name ∧ name ≠ "") ∧
        (Nested.flatten d).result = .error (.fault fault) := by
  rw [← ExportFormat.ofName_nested_iff]
  unfold assemble
  split
  next failure unknown => simp [unknown]
  next known =>
    have other : ExportFormat.ofName format ≠ .ok .nested := by simp [known]
    simp only [other, false_and, iff_false]
    split <;> simp [Except.bind]
  next known =>
    simp only [known, true_and]
    split
    next none =>
      simp only [Option.filter_eq_none_iff] at none
      simp_all
    next name some =>
      have given : ∃ name, theme = .some name ∧ name ≠ "" := by
        obtain ⟨same, filled⟩ := Option.filter_eq_some_iff.mp some
        exact ⟨name, same, by simpa using filled⟩
      simp only [given, true_and, Traced.result_bind]
      cases (Nested.flatten d).result <;> simp [Except.bind]

namespace Pipeline

variable {d : Doc} {request : Request} {log : Bool}

/-- Once the records of a document are there, the making of its table ends with a table or a failure. -/
theorem buildTable_fault_iff {fault : Fault} : (buildTable d request log).result = .error (.fault fault) ↔
    (ThemeRecords.assemble d request.format request.theme request.modes).result = .error (.fault fault) := by
  rw [result_buildTable]
  cases (ThemeRecords.assemble d request.format request.theme request.modes).result with
  | error stop => simp [Except.bind]
  | ok records =>
    refine iff_of_false ?_ (by simp)
    simp only [Except.bind]
    cases checked : (Validation.document (ThemeRecords.toDoc records)).check with
    | error failure => simp [Except.mapError]
    | ok _ =>
      have valid := Report.check_ok_iff.mp checked
      cases made : Table.ofRecords (ThemeRecords.toDocs records) with
      | error stop =>
        obtain ⟨model, vs, rfl⟩ := ThemeRecords.exists_violations_of_error valid made
        simp [Except.mapError]
      | ok t => cases references : (Validation.references t).check <;> simp [references, Except.mapError]

/-- Whatever is asked for, the flattened table is among the files of a run that builds it. -/
theorem artifacts_ne_nil {selector : String} {generate : Bool} {o : Outcome}
    (h : (run selector d request generate log).result = .ok o) (ok : o.failure? = none) : o.artifacts ≠ [] := by
  rcases run_cases selector d request generate log with ⟨t, report, artifacts, hb, hr⟩ | ⟨f, -, hr⟩ | ⟨f, -, hr⟩
  · cases h.symm.trans hr
    cases generate with
    | false =>
      have alone : (run selector d request false log).result =
          .ok (.built t [Bundle.tableArtifact Bundle.tableFilename t] report.warnings []) := by
        simp [run, Traced.recover, hb, Except.bind]
      cases hr.symm.trans alone
      exact List.cons_ne_nil _ _
    | true =>
      cases rest : (Bundle.generated selector t).result with
      | error fault =>
        have stopped : (run selector d request true log).result = .error fault := by
          simp [run, Traced.recover, settle, hb, Bundle.all, rest, Except.bind, Except.mapError]
        cases hr.symm.trans stopped
      | ok files =>
        have first : (run selector d request true log).result =
            .ok (.built t (Bundle.tableArtifact Bundle.tableFilename t :: files) report.warnings []) := by
          simp [run, Traced.recover, hb, Bundle.all, rest, Except.bind, Except.mapError]
        cases hr.symm.trans first
        exact List.cons_ne_nil _ _
  · cases h.symm.trans hr
    cases ok
  · cases h.symm.trans hr

/-- A run ends with a fault exactly if its document is a nested export under a theme with a name, and has a leaf
that replaces another one and is reached by a key that is no text. Any other run ends with an outcome: either
a table and files, or a failure and nothing else. -/
theorem fault_iff_unwritable (selector : String) (d : Doc) (request : Request) (generate log : Bool) :
    ((∃ fault, (run selector d request generate log).result = .error fault) ↔
      request.format = ExportFormat.nested.name ∧ (∃ name, request.theme = some name ∧ name ≠ "") ∧
        Nested.Unwritable d) ∧
    (∀ fault, (run selector d request generate log).result = .error fault →
      ∃ place kind, fault = .unjoinable place kind) ∧
    ∀ o, (run selector d request generate log).result = .ok o →
      (o.failure? = none ∧ (∃ t, o.table? = some t) ∧ o.artifacts ≠ []) ∨
      ((∃ f, o.failure? = some f) ∧ o.table? = none ∧ o.artifacts = [] ∧ o.warnings = []) := by
  have stops : ∀ fault, (run selector d request generate log).result = .error fault ↔
      (buildTable d request log).result = .error (.fault fault) := by
    intro fault
    rcases run_cases selector d request generate log with ⟨t, report, artifacts, hb, hr⟩ | ⟨f, hb, hr⟩ | ⟨f, hb, hr⟩
    all_goals simp [hb, hr]
  have kinds : ∀ fault, (Nested.flatten d).result = .error (.fault fault) →
      Nested.Unwritable d ∧ ∃ place kind, fault = .unjoinable place kind := by
    intro fault h
    rcases Nested.flatten_cases d with ⟨never, -⟩ | ⟨⟨place, kind, stopped⟩, unwritable⟩
    · exact absurd h (never fault)
    · cases h.symm.trans stopped
      exact ⟨unwritable, place, kind, rfl⟩
  simp only [stops, buildTable_fault_iff, ThemeRecords.assemble_fault_iff]
  refine ⟨⟨?_, ?_⟩, ?_, ?_⟩
  · rintro ⟨fault, nested, named, h⟩
    exact ⟨nested, named, (kinds fault h).1⟩
  · rintro ⟨nested, named, unwritable⟩
    rcases Nested.flatten_cases d with ⟨-, writable⟩ | ⟨⟨place, kind, stopped⟩, -⟩
    · exact absurd unwritable writable
    · exact ⟨_, nested, named, stopped⟩
  · rintro fault ⟨-, -, h⟩
    exact (kinds fault h).2
  · intro o ho
    rcases run_cases selector d request generate log with ⟨t, report, artifacts, -, hr⟩ | ⟨f, -, hr⟩ | ⟨f, -, hr⟩
    · have built := artifacts_ne_nil hr rfl
      cases ho.symm.trans hr
      exact .inl ⟨rfl, ⟨t, rfl⟩, built⟩
    · cases ho.symm.trans hr
      exact .inr ⟨⟨f, rfl⟩, rfl, rfl, rfl⟩
    · cases ho.symm.trans hr

theorem outcome_referringTree : ¬ Nested.Unwritable Nested.referringTree ∧ ∃ o,
    (run ":root" Nested.referringTree ⟨"tokens-studio", some "brand", requiredModes⟩ true true).result = .ok o ∧
      o.failure? = none ∧ (∃ t, o.table? = some t) ∧ o.artifacts ≠ [] := by
  have ran : (run ":root" Nested.referringTree ⟨"tokens-studio", some "brand", requiredModes⟩ true
      true).result.toOption.any (fun o => o.failure?.isNone) = true := by decide +kernel
  obtain ⟨o, ho, fine⟩ := exists_ok_of_any ran
  obtain ⟨faults, -, outcomes⟩ := fault_iff_unwritable ":root" Nested.referringTree
    ⟨"tokens-studio", some "brand", requiredModes⟩ true true
  refine ⟨?_, o, ho, ?_⟩
  · intro unwritable
    obtain ⟨fault, h⟩ := faults.mpr ⟨rfl, ⟨"brand", rfl, by decide⟩, unwritable⟩
    cases ho.symm.trans h
  · rcases outcomes o ho with built | ⟨⟨f, hf⟩, -⟩
    · exact built
    · rw [hf] at fine
      cases fine

/-- A source in which two groups have a leaf of one key, and the second group has a number for its name. -/
def numberedSource : String :=
  "a:\n  x:\n    type: color\n    value: blue\n1:\n  x:\n    type: color\n    value: red\n"

def numberedTree : FileTree :=
  (FileTree.bare ["work"]).put ["work", "numbered.yaml"] (.file numberedSource.toUTF8)

/-- A source is loaded, and the run on it ends with a fault. -/
theorem fault_numberedTree : ∃ d, Source.load numberedTree (.ofString "numbered.yaml") = .ok d ∧
    (run ":root" d ⟨"tokens-studio", some "brand", requiredModes⟩ false true).result =
      .error (.unjoinable 0 "int") := by
  have ran : (Source.load numberedTree (.ofString "numbered.yaml")).toOption.any (fun d => decide
      ((run ":root" d ⟨"tokens-studio", some "brand", requiredModes⟩ false true).result.map Outcome.ok =
        .error (.unjoinable 0 "int"))) = true := by decide +kernel
  obtain ⟨d, loaded, ended⟩ := exists_ok_of_any ran
  exact ⟨d, loaded, except_map_error_iff.mp (of_decide_eq_true ended)⟩

end Pipeline

end StyleTokens
