import StyleTokens.BuildConfig
import StyleTokens.Output

namespace StyleTokens

namespace BuildConfig

def document (c : BuildConfig) (t : FileTree) : Except Stop Doc := do
  let path ← (c.sourcePath t).mapError .fault
  Source.load t path

def run (c : BuildConfig) (document : Doc) (generate logWarnings : Bool) : Traced Fault Outcome :=
  Pipeline.run c.selector document c.request generate logWarnings

/-- The outcome of a table that passed the check of its source: the warnings on the source, and after them
those that only the run found. -/
def addWarnings (raw : Report) : Outcome → Traced Fault Outcome
  | .built table artifacts warnings written => do
    let extra := warnings.filter fun w => !raw.warnings.any w.sameSpot
    .notes (extra.map fun w => ⟨.builder, .warning, w.message⟩)
    pure (.built table artifacts (raw.warnings ++ extra) written)
  | outcome => pure outcome

/-- Checks the source and writes nothing. Collections are checked as they were exported, so that entries that
the run would drop are found. -/
def validate (c : BuildConfig) (t : FileTree) : Traced Fault Outcome :=
  match c.document t with
  | .error stop => Pipeline.settle .builder "Validation failed" stop
  | .ok document => match c.format with
    | .nested => c.run document false true
    | .collections => do
      let raw := Validation.document document
      .notes raw.entries
      match raw.check with
      | .error failure => Pipeline.settle .builder "Validation failed" (.failure failure)
      | .ok () =>
        let outcome ← c.run document false false
        addWarnings raw outcome

def make (c : BuildConfig) (t : FileTree) (generate : Bool) : Traced Fault Outcome :=
  match c.document t with
  | .error stop => Pipeline.settle .builder "Build failed" stop
  | .ok document => c.run document generate true

/-- The outcome of a table whose files could not be written. -/
def unwritten (table : Table) (warnings : List Issue) : Stop → Traced Fault Outcome
  | .fault fault => .stop fault
  | .failure failure => do
    .note .builder .error s!"Build failed: {failure.message}"
    pure (.unwritten table warnings failure)

/-- Writes what an outcome holds, if it holds something. -/
def deliver (c : BuildConfig) (t : FileTree) (made : Traced Fault Outcome) :
    FileTree × Traced Fault Outcome :=
  match made.result with
  | .ok (.built table artifacts warnings _) =>
    let (t, writing) := Output.write t c.outputDirectory artifacts
    let written : Traced Stop Outcome := do
      let paths ← writing
      pure (.built table artifacts warnings (paths.map Path.text))
    (t, do
      let _ ← made
      written.recover (unwritten table warnings))
  | _ => (t, made)

/-- Writes the flattened table only. -/
def flatten (c : BuildConfig) (t : FileTree) : FileTree × Traced Fault Outcome :=
  c.deliver t (c.make t false)

/-- Notes how many files were written. -/
def noteWritten (c : BuildConfig) (outcome : Outcome) : Traced Fault Outcome := do
  if outcome.ok then
    .note .builder .info s!"Wrote {outcome.written.length} file(s) to {c.outputDirectory.text}"
  pure outcome

/-- Writes everything. Nothing is written unless the table is valid, all files are generated and all of them
belong below the output directory. -/
def build (c : BuildConfig) (t : FileTree) : FileTree × Traced Fault Outcome :=
  let (t, delivered) := c.deliver t (c.make t true)
  (t, delivered >>= c.noteWritten)

end BuildConfig

namespace Pipeline

/-- The pipeline on a file. -/
def runFile (t : FileTree) (path : Path) (request : Request) (generate : Bool) : Traced Fault Outcome :=
  match Source.load t path with
  | .error stop => settle .pipeline "Token pipeline failed" stop
  | .ok document => run Variables.defaultSelector document request generate true

end Pipeline

end StyleTokens
