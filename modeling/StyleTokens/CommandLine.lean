import StyleTokens.Build
import StyleTokens.CommandLine.Arguments
import StyleTokens.Success

namespace StyleTokens

/-- What the program can do. -/
inductive Task where
  | validate
  | flatten
  | build
  | listBrands
  deriving DecidableEq, Repr

/-- What a run leaves: the number it ends with, its lines of output, and an error. -/
structure Verdict where
  code : Nat
  lines : List String
  complaint : Option String
  deriving DecidableEq, Repr

/-- How the program ends: the arguments asked for no run, or a run came to a verdict. -/
inductive Ending where
  | unstarted (exit : ParserExit)
  | finished (debug : Bool) (verdict : Verdict)

/-- What a run has to know of the file system: what stands at some paths, or the names in a directory. -/
inductive CommandLine.Need where
  | files (paths : List Path)
  | names (directory : Path)
  deriving DecidableEq, Repr

namespace CommandLine

def debug : String := "debug"

def help : List OptionSpec := [⟨"-h", "help", .help⟩, ⟨"--help", "help", .help⟩]

def mainSpecs : List OptionSpec := help ++ [⟨"--debug", debug, .switch⟩]

def brandsSpec : OptionSpec := ⟨"--brands-dir", Setting.brandsDirectory, .value none⟩

/-- The options that say what the source is. -/
def sourceSpecs : List OptionSpec :=
  help ++ [⟨"--brand", Setting.brand, .value none⟩, ⟨"--source", Setting.source, .value none⟩,
    ⟨"--format", Setting.format,
      .value (some [ExportFormat.collections.name, ExportFormat.nested.name])⟩,
    brandsSpec, ⟨"--theme", Setting.theme, .value none⟩]

def writerSpecs : List OptionSpec :=
  sourceSpecs ++ [⟨"--output", Setting.outputDirectory, .value none⟩]

def commands : List (Arguments.Command Task) :=
  [⟨"validate", .validate, sourceSpecs⟩, ⟨"flatten", .flatten, writerSpecs⟩,
    ⟨"build", .build, writerSpecs⟩, ⟨"list", .listBrands, help ++ [brandsSpec]⟩]

def refused (text : String) : Verdict := ⟨1, [], some s!"Error: {text}"⟩

def fine (lines : List String) : Verdict := ⟨0, lines, none⟩

/-- The text of a failure with its place. -/
def failureText (f : Failure) : String :=
  match f.location? with
  | some place => s!"{f.message} ({place.message})"
  | none => f.message

/-- The verdict on an outcome. -/
def verdict (line : Outcome → String) (o : Outcome) : Verdict :=
  match o.failure? with
  | some f => refused (failureText f)
  | none => fine [line o]

/-- Does a task with a configuration that names a source. -/
def perform (task : Task) (c : BuildConfig) (t : FileTree) : FileTree × Traced Fault Verdict :=
  match task with
  | .listBrands => (t, .ofExcept ((Source.brands t c.brandsDirectory).map fine))
  | .validate => (t, do
      let outcome ← c.validate t
      pure (verdict (fun o => Success.valid o.themeNames.length) outcome))
  | .flatten =>
    let (t, run) := c.flatten t
    (t, do
      let outcome ← run
      pure (verdict (fun o => Success.flattened c.format.name (o.written.headD "")) outcome))
  | .build =>
    let (t, run) := c.build t
    (t, do
      let outcome ← run
      pure (verdict (fun o => Success.built o.written.length o.themeNames.length c.outputDirectory.text)
        outcome))

/-- The configuration of an environment and of the values of options. -/
def config (environment : List (String × String)) (values : List (String × String)) :
    Except Fault BuildConfig :=
  BuildConfig.ofEnvironment environment (values.map fun p => (p.1, Doc.text p.2))

/-- What has to be right before a task is done: a task that reads a source needs to know which. -/
def prepare (task : Task) (t : FileTree) (environment : List (String × String))
    (values : List (String × String)) : Except Fault BuildConfig := do
  let c ← config environment values
  if task != .listBrands then
    let _ ← c.sourcePath t
  pure c

/-- Does a task. A wrong value in its preparation is an error of the run; all later faults stop it. -/
def runTask (task : Task) (t : FileTree) (environment : List (String × String))
    (values : List (String × String)) : FileTree × Traced Fault Verdict :=
  match prepare task t environment values with
  | .ok c => perform task c t
  | .error fault =>
    if fault.isWrongValue then (t, pure (refused fault.message)) else (t, .stop fault)

/-- What a run looks at: the files at which a source may lie, or a directory. It looks at nothing if its
arguments or its configuration are wrong. -/
def need (environment : List (String × String)) (arguments : List String) : Need :=
  match Arguments.parse mainSpecs commands arguments with
  | .error _ => .files []
  | .ok (task, given) => match config environment given.values with
    | .error _ => .files []
    | .ok c => if task = .listBrands then .names c.brandsDirectory else .files c.candidates

def run (t : FileTree) (environment : List (String × String)) (arguments : List String) :
    FileTree × Traced Fault Ending :=
  match Arguments.parse mainSpecs commands arguments with
  | .error exit => (t, pure (.unstarted exit))
  | .ok (task, given) =>
    let (t, run) := runTask task t environment given.values
    (t, do
      let verdict ← run
      pure (.finished (given.switches.contains debug) verdict))

/-- An option as the usage shows it. -/
def OptionSpec.usage (spec : OptionSpec) : String :=
  match spec.kind with
  | .help | .switch => s!"[{spec.spelling}]"
  | .value none => s!"[{spec.spelling} {spec.target.toUpper}]"
  | .value (some choices) =>
    let shown := String.intercalate "|" choices
    s!"[{spec.spelling} {shown}]"

/-- The usage: for each command, the options that it takes. -/
def usage : List String :=
  commands.map fun c =>
    let words := mainSpecs.map OptionSpec.usage ++ [c.name] ++ c.specs.map OptionSpec.usage
    String.intercalate " " ("style-tokens" :: words)

/-- Lines of text, each with its end. -/
def unlines (lines : List String) : String := String.join (lines.map fun line => line ++ "\n")

def output (v : Verdict) : String := unlines v.lines

/-- The records of a log that are shown, and the error. -/
def errorOutput (debug : Bool) (log : List Entry) (v : Verdict) : String :=
  unlines (((log.filter fun e => debug || e.level.isLoud).map Entry.line) ++ v.complaint.toList)

end CommandLine

end StyleTokens
