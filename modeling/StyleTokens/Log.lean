namespace StyleTokens

/-- How much a record matters. -/
inductive Level where
  | debug
  | info
  | warning
  | error
  deriving DecidableEq, Repr

namespace Level

def label : Level → String
  | debug => "DEBUG"
  | info => "INFO"
  | warning => "WARNING"
  | error => "ERROR"

/-- The record stands out without being asked for. -/
def isLoud : Level → Bool
  | warning | error => true
  | _ => false

end Level

/-- The part of the program that makes a record. -/
inductive Channel where
  | normalizer
  | assembler
  | validator
  | pipeline
  | themes
  | source
  | output
  | builder
  | tools
  deriving DecidableEq, Repr

def Channel.name : Channel → String
  | normalizer => "chuk_mcp_design_tokens.pipeline.normalizer"
  | assembler => "chuk_mcp_design_tokens.pipeline.assembler"
  | validator => "chuk_mcp_design_tokens.pipeline.validator"
  | pipeline => "chuk_mcp_design_tokens.pipeline.runner"
  | themes => "chuk_mcp_design_tokens.generators.tailwind"
  | source => "chuk_mcp_design_tokens.storage.loader"
  | output => "chuk_mcp_design_tokens.storage.writer"
  | builder => "chuk_mcp_design_tokens.builder"
  | tools => "chuk_mcp_design_tokens.tools.tokens"

structure Entry where
  channel : Channel
  level : Level
  text : String
  deriving DecidableEq, Repr

namespace Entry

/-- Level, channel and text, as they are written to a terminal. -/
def line (e : Entry) : String := s!"{e.level.label}:{e.channel.name}:{e.text}"

def summary (e : Entry) : String := s!"{e.level.label} {e.text}"

end Entry

/-- A result, or what stopped the computation, after the records made on the way. -/
structure Traced (ε α : Type) where
  log : List Entry
  result : Except ε α

namespace Traced

variable {ε α β : Type}

def ofExcept (r : Except ε α) : Traced ε α := ⟨[], r⟩

def note (channel : Channel) (level : Level) (text : String) : Traced ε Unit :=
  ⟨[⟨channel, level, text⟩], .ok ()⟩

def notes (entries : List Entry) : Traced ε Unit := ⟨entries, .ok ()⟩

/-- Goes on with the result, and keeps the records of both parts. -/
def bind (x : Traced ε α) (f : α → Traced ε β) : Traced ε β :=
  match x.result with
  | .error e => ⟨x.log, .error e⟩
  | .ok a =>
    let y := f a
    ⟨x.log ++ y.log, y.result⟩

instance : Monad (Traced ε) where
  pure a := ⟨[], .ok a⟩
  bind := bind

def stop (e : ε) : Traced ε α := ⟨[], .error e⟩

/-- Changes what stopped the computation. -/
def mapError {δ : Type} (f : ε → δ) (x : Traced ε α) : Traced δ α := ⟨x.log, x.result.mapError f⟩

def recover {δ : Type} (x : Traced ε α) (f : ε → Traced δ α) : Traced δ α :=
  match x.result with
  | .ok a => ⟨x.log, .ok a⟩
  | .error e =>
    let y := f e
    ⟨x.log ++ y.log, y.result⟩

@[simp] theorem pure_log (a : α) : (pure a : Traced ε α).log = [] := rfl

@[simp] theorem pure_result (a : α) : (pure a : Traced ε α).result = .ok a := rfl

theorem bind_ok {x : Traced ε α} {f : α → Traced ε β} {a : α} (h : x.result = .ok a) :
    x >>= f = ⟨x.log ++ (f a).log, (f a).result⟩ := by
  show bind x f = _
  simp [bind, h]

theorem bind_error {x : Traced ε α} {f : α → Traced ε β} {e : ε} (h : x.result = .error e) :
    x >>= f = ⟨x.log, .error e⟩ := by
  show bind x f = _
  simp [bind, h]

theorem result_recover_error {δ : Type} {x : Traced ε α} {f : ε → Traced δ α} {e : ε}
    (h : x.result = .error e) : (x.recover f).result = (f e).result := by
  simp [recover, h]

/-- The result of a computation in two parts is that of the second on the result of the first. -/
@[simp] theorem result_bind (x : Traced ε α) (f : α → Traced ε β) :
    (x >>= f).result = x.result.bind fun a => (f a).result := by
  cases h : x.result with
  | error e =>
    rw [bind_error h]
    rfl
  | ok a =>
    rw [bind_ok h]
    rfl

@[simp] theorem result_ofExcept (r : Except ε α) : (ofExcept r).result = r := rfl

@[simp] theorem result_notes (entries : List Entry) :
    (notes entries : Traced ε Unit).result = .ok () := rfl

@[simp] theorem result_note (channel : Channel) (level : Level) (text : String) :
    (note channel level text : Traced ε Unit).result = .ok () := rfl

@[simp] theorem result_stop (e : ε) : (stop e : Traced ε α).result = .error e := rfl

@[simp] theorem result_mapError {δ : Type} (f : ε → δ) (x : Traced ε α) :
    (x.mapError f).result = x.result.mapError f := rfl

end Traced

end StyleTokens
