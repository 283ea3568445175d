import StyleTokens.Bundle
import StyleTokens.Export.Assembly
import StyleTokens.Validation

namespace StyleTokens

inductive Outcome where
  | built (table : Table) (artifacts : List Artifact) (warnings : List Issue) (written : List String)
  | failed (failure : Failure)
  | unwritten (table : Table) (warnings : List Issue) (failure : Failure)

namespace Outcome

def failure? : Outcome → Option Failure
  | built _ _ _ _ => none
  | failed f => some f
  | unwritten _ _ f => some f

def ok (o : Outcome) : Bool := o.failure?.isNone

def table? : Outcome → Option Table
  | built t _ _ _ => some t
  | failed _ => none
  | unwritten t _ _ => some t

def artifacts : Outcome → List Artifact
  | built _ as _ _ => as
  | _ => []

def warnings : Outcome → List Issue
  | built _ _ ws _ => ws
  | failed _ => []
  | unwritten _ ws _ => ws

def written : Outcome → List String
  | built _ _ _ paths => paths
  | _ => []

def themeNames (o : Outcome) : List String :=
  match o.table? with
  | some t => t.themeNames
  | none => []

end Outcome

/-- How a source document is read: its kind, and the theme and the modes for a nested one. -/
structure Request where
  format : String
  theme : Option String
  modes : List String

namespace Pipeline

/-- The records of a report, unless they are not wanted. -/
def noteWarnings {ε : Type} (wanted : Bool) (r : Report) : Traced ε Unit :=
  .notes (if wanted then r.entries else [])

/-- The table of a document and the warnings on it. -/
def buildTable (document : Doc) (request : Request) (logWarnings : Bool) :
    Traced Stop (Table × Report) := do
  let records ← ThemeRecords.assemble document request.format request.theme request.modes
  let report := Validation.document (ThemeRecords.toDoc records)
  noteWarnings logWarnings report
  Traced.ofExcept (report.check.mapError .failure)
  let table ← .ofExcept (Table.ofRecords (ThemeRecords.toDocs records))
  let references := Validation.references table
  noteWarnings logWarnings references
  Traced.ofExcept (references.check.mapError .failure)
  .note .pipeline .info
    s!"Built token table: {table.themes.size} theme(s), {table.tokenCount} token(s)"
  pure (table, report.merge references)

/-- Notes a failure and makes it the outcome; a fault still stops. -/
def settle (channel : Channel) (what : String) : Stop → Traced Fault Outcome
  | .fault fault => .stop fault
  | .failure failure => do
    .note channel .error s!"{what}: {failure.message}"
    pure (.failed failure)

/-- Runs a document through all stages; without `generate` only the flattened table is made. A failure is part
of the outcome; only a fault stops the run. -/
def run (selector : String) (document : Doc) (request : Request) (generate logWarnings : Bool) :
    Traced Fault Outcome :=
  let built : Traced Stop Outcome := do
    let (table, report) ← buildTable document request logWarnings
    let artifacts ←
      if generate then (Bundle.all selector table).mapError .fault
      else pure [Bundle.tableArtifact Bundle.tableFilename table]
    pure (.built table artifacts report.warnings [])
  built.recover (settle .pipeline "Token pipeline failed")

end Pipeline

end StyleTokens
