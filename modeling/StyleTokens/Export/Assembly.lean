import StyleTokens.Export.Nested
import StyleTokens.Export.Collections

namespace StyleTokens

/-- Themes with their content in order, the common shape of both kinds of exports. -/
abbrev ThemeRecords := List (Scalar × Doc)

namespace ThemeRecords

/-- One mapping with a single key for each theme. -/
def toDocs (records : ThemeRecords) : List Doc :=
  records.map fun p => .mapping [p]

def toDoc (records : ThemeRecords) : Doc := .list records.toDocs

/-- The tokens under one theme, in each of the modes. -/
def ofFlat (tokens : Records) (theme : String) (modes : List String) : ThemeRecords :=
  let content := Nested.recordsDoc tokens
  [(.text theme,
    .object [(ExportKey.modes, .mapping (Ordered.ofList (modes.map fun m => (.text m, content))))])]

/-- The theme records of an export; `theme` and `modes` matter for nested ones only. -/
def assemble (document : Doc) (format : String) (theme : Option String) (modes : List String) :
    Traced Stop ThemeRecords :=
  match ExportFormat.ofName format with
  | .error failure => .stop (.failure failure)
  | .ok .collections =>
    match Collections.normalize document with
    | .error failure => .stop (.failure failure)
    | .ok records => do
      .note .assembler .debug s!"Assembled {records.length} collection(s)"
      pure records
  | .ok .nested =>
    match theme.filter (· ≠ "") with
    | none => .stop (.failure .themeNameRequired)
    | some theme => do
      let flat ← Nested.flatten document
      let tokens := Nested.shortenRecords RecordKey.value flat
      .note .assembler .debug s!"Flattened {tokens.length} token(s) into theme \x27{theme}\x27"
      pure (ofFlat tokens theme modes)

end ThemeRecords

namespace Table

/-- The theme and the modes of a record: what stands at its first key, and the modes in that. -/
def recordParts : Doc → Except Fault (Scalar × Doc)
  | .mapping ((theme, .mapping content) :: _) => match Doc.get? content ExportKey.modes with
    | some modes => .ok (theme, modes)
    | none => .error (.missingKey ExportKey.modes)
  | _ => .error (.badShape "a theme record must be a mapping of mappings")

/-- A fault of a table as a stop: all but a part that is no mapping make the table invalid. -/
def stopOf : TableFault → Stop
  | .notAMapping => .fault (.table .notAMapping)
  | fault => .failure (.invalidTable fault)

/-- The table of theme records; of two records of one theme the last counts, at the place of the first. -/
def ofRecords (records : List Doc) : Except Stop Table :=
  match records.mapM recordParts with
  | .error fault => .error (.fault fault)
  | .ok parts => (ofEntries (Ordered.ofList parts)).mapError stopOf

end Table

end StyleTokens
