import StyleTokens.Text.Ascii

namespace StyleTokens

/-- What an option does. -/
inductive OptionKind where
  /-- Shows the usage and ends the run. -/
  | help
  /-- Is on or off. -/
  | switch
  /-- Takes a value, perhaps only one of some. -/
  | value (choices : Option (List String))
  deriving DecidableEq, Repr

/-- An option: how it is written, and the name of what it sets. -/
structure OptionSpec where
  spelling : String
  target : String
  kind : OptionKind
  deriving DecidableEq, Repr

/-- Why the arguments ask for no run. -/
inductive ParserExit where
  /-- The usage was asked for. -/
  | shown
  /-- The arguments are wrong. -/
  | refused
  deriving DecidableEq, Repr

/-- The number that a run ends with when its arguments ask for no run. -/
def ParserExit.code : ParserExit → Nat
  | shown => 0
  | refused => 2

namespace Arguments

def begins (start s : String) : Bool := start.toList.isPrefixOf s.toList

/-- What is written into the same argument as an option: nothing, a value behind an equals sign, or letters
behind the one of the option. -/
inductive Rest where
  | nothing
  | value (s : String)
  | letters (cs : List Char)
  deriving DecidableEq

/-- How an argument is read. -/
inductive Reading where
  | plain
  | known (spec : OptionSpec) (rest : Rest)
  | unknown
  /-- The end of the options. -/
  | stop
  deriving DecidableEq

/-- A text cut at its first equals sign. -/
def cutValue (s : String) : String × Rest :=
  let name := s.toList.takeWhile (· != '=')
  match s.toList.drop name.length with
  | [] => (s, .nothing)
  | _ :: value => (String.ofList name, .value (String.ofList value))

/-- A hyphen and digits, perhaps with a point before the last of them. -/
def isNegativeNumber (cs : List Char) : Bool :=
  match cs with
  | '-' :: rest =>
    let whole := rest.takeWhile isDigit
    match rest.drop whole.length with
    | [] => !whole.isEmpty
    | '.' :: more => !more.isEmpty && more.all isDigit
    | _ => false
  | _ => false

/-- The options that a shortened spelling can mean. A single hyphen and a letter can have more letters behind
them. -/
def candidates (specs : List OptionSpec) (s : String) : List (OptionSpec × Rest) :=
  if begins "--" s then
    let (name, rest) := cutValue s
    (specs.filter fun spec => begins name spec.spelling).map fun spec => (spec, rest)
  else
    let short := String.ofList (s.toList.take 2)
    specs.filterMap fun spec =>
      if spec.spelling = short then some (spec, .letters (s.toList.drop 2))
      else if begins s spec.spelling then some (spec, .nothing)
      else none

/-- The option of a full spelling. -/
def spelled? (specs : List OptionSpec) (name : String) : Option OptionSpec :=
  specs.find? fun spec => spec.spelling == name

/-- Reads an argument that is no full spelling; it must not be short for two options. -/
def readShortened (specs : List OptionSpec) (s : String) : Except ParserExit Reading :=
  match candidates specs s with
  | [(spec, rest)] => .ok (.known spec rest)
  | _ :: _ :: _ => .error .refused
  | [] => if isNegativeNumber s.toList || s.toList.contains ' ' then .ok .plain else .ok .unknown

def read (specs : List OptionSpec) (s : String) : Except ParserExit Reading :=
  if !begins "-" s || s == "-" then .ok .plain
  else match spelled? specs s with
    | some spec => .ok (.known spec .nothing)
    | none =>
      let (name, value) := cutValue s
      match spelled? specs name with
      | some spec => .ok (.known spec value)
      | none => readShortened specs s

/-- Arguments with their readings; behind the end of the options all are plain. -/
def readAll (specs : List OptionSpec) : List String → Except ParserExit (List (String × Reading))
  | [] => .ok []
  | s :: rest =>
    if s = "--" then .ok ((s, .stop) :: rest.map fun s => (s, .plain))
    else do
      let reading ← read specs s
      let others ← readAll specs rest
      pure ((s, reading) :: others)

/-- What options say: the values by name, the switches that are on, and whether an argument was left over. -/
structure Given where
  values : List (String × String)
  switches : List String
  leftOver : Bool

namespace Given

def nothing : Given := ⟨[], [], false⟩

def spare (g : Given) : Given := { g with leftOver := true }

def turnOn (g : Given) (name : String) : Given := { g with switches := g.switches ++ [name] }

/-- A name has a value; the last one counts. -/
def set (g : Given) (name value : String) : Given :=
  { g with values := g.values.filter (fun p => p.1 != name) ++ [(name, value)] }

end Given

/-- Letters behind a letter that shows the usage: others are passed over, but no hyphen may come next, and no
equals sign behind the same letter. -/
def helpLetters (letter : Char) : List Char → ParserExit
  | [] => .shown
  | c :: rest =>
    if c = '-' then .refused
    else if c = letter then
      match rest with
      | '=' :: _ => .refused
      | _ => helpLetters letter rest
    else .shown

/-- The end that an option without a value brings about when something is written into its argument. -/
def withRest (spec : OptionSpec) : Rest → ParserExit
  | .letters cs => match spec.kind, spec.spelling.toList with
    | .help, [_, letter] => helpLetters letter cs
    | _, _ => .refused
  | .nothing | .value _ => .refused

/-- Takes a value, if it may be chosen. -/
def take (g : Given) (spec : OptionSpec) (choices : Option (List String)) (value : String) :
    Except ParserExit Given :=
  if choices.all fun names => names.contains value then .ok (g.set spec.target value) else .error .refused

/-- Reads the options of a command, which takes no other arguments. -/
def options : Given → List (String × Reading) → Except ParserExit Given
  | g, [] => .ok g
  | g, (_, .known spec rest) :: others => match spec.kind, rest with
    | .help, .nothing => .error .shown
    | .switch, .nothing => options (g.turnOn spec.target) others
    | .value choices, .nothing => match others with
      | (value, .plain) :: others => do options (← take g spec choices value) others
      | _ => .error .refused
    | .value choices, .value s => do options (← take g spec choices s) others
    | .value choices, .letters cs => do options (← take g spec choices (String.ofList cs)) others
    | .help, rest | .switch, rest => .error (withRest spec rest)
  | g, _ :: others => options g.spare others

/-- A command with the options that it takes. -/
structure Command (α : Type) where
  name : String
  meaning : α
  specs : List OptionSpec

/-- Reads the arguments of a command. Arguments that are left over, before it or behind it, are refused when
all have been read. -/
def command {α : Type} (c : Command α) (before : Given) (rest : List String) :
    Except ParserExit (α × Given) := do
  let given ← options before (← readAll c.specs rest)
  if given.leftOver then .error .refused else .ok (c.meaning, given)

/-- Reads the options before the command, and the command. -/
def commands {α : Type} (known : List (Command α)) : Given → List (String × Reading) →
    Except ParserExit (α × Given)
  | _, [] => .error .refused
  | g, (_, .known spec rest) :: others => match spec.kind, rest with
    | .help, .nothing => .error .shown
    | .switch, .nothing => commands known (g.turnOn spec.target) others
    | _, rest => .error (withRest spec rest)
  | g, (_, .unknown) :: others => commands known g.spare others
  | _, (_, .stop) :: _ => .error .refused
  | g, (s, .plain) :: others => match known.find? fun c => c.name == s with
    | some c => command c g (others.map Prod.fst)
    | none => .error .refused

/-- Reads a command line: options, a command, and the command's options. An option may be shortened as long as
no other one begins like that, and an argument of two hyphens ends the options. -/
def parse {α : Type} (specs : List OptionSpec) (known : List (Command α)) (arguments : List String) :
    Except ParserExit (α × Given) := do
  commands known .nothing (← readAll specs arguments)

end Arguments

end StyleTokens
