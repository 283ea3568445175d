import StyleTokens.Bundle.Scripts
import StyleTokens.Proofs.LastEntries
import StyleTokens.Proofs.QuotedLiterals
import Mathlib.Data.Set.List

namespace StyleTokens

/-- The text that the literal of a token quotes: its own text, or its number with a unit. -/
def Token.quoted? (t : Token) : Option String :=
  if t.isNumericDimension then some (String.ofList (t.value.plain ++ unit))
  else match t.value with
    | .text s => some s
    | _ => none

/-- The identifier under which a token is exported. -/
def Token.identifier (t : Token) : String := Naming.camel t.name

/-- The line of a token in a module. -/
def Token.exportLine (t : Token) : String :=
  s!"export const {t.identifier} = {String.ofList t.scriptLiteral};\n"

namespace Scripts

open Script

/-- The literals of the three types: a quoted text, a truth value, and what begins like neither. -/
inductive LiteralForm : ScriptType → Option String → List Char → Prop where
  | string (s : String) : LiteralForm .string (some s) (Json.quote true s.toList)
  | boolean (b : Bool) : LiteralForm .boolean none (if b then "true".toList else "false".toList)
  | number {cs : List Char} (other : ∀ c ∈ cs.head?, c ∉ ['"', 't', 'f']) : LiteralForm .number none cs

section LiteralForm

variable {type : ScriptType} {quoted : Option String} {literal : List Char}

theorem LiteralForm.quotes_iff (h : LiteralForm type quoted literal) {s : String} :
    Quotes literal s ↔ quoted = some s := by
  cases h with
  | string s' => rw [quotes_quote_iff, String.toList_inj, Option.some.injEq, eq_comm]
  | boolean b =>
    refine iff_of_false ?_ (by simp)
    rintro ⟨body, same, -⟩
    cases b <;> cases same
  | number other =>
    refine iff_of_false ?_ (by simp)
    rintro ⟨body, rfl, -⟩
    exact other '"' rfl (by simp)

theorem LiteralForm.printable (h : LiteralForm type quoted literal) (string : type = .string) :
    ∀ c ∈ literal, 0x20 ≤ c.toNat ∧ c.toNat ≤ 0x7E := by
  cases h with
  | string s =>
    intro c hc
    obtain ⟨low, high⟩ := Json.shows_quote hc
    exact ⟨low, high rfl⟩
  | boolean b => cases string
  | number other => cases string

/-- What begins like a number is no other literal. -/
theorem LiteralForm.of_numbers (numbers : ∀ c ∈ literal, Json.InNumber c) : LiteralForm .number none literal := by
  have apart : ∀ c ∈ ['"', 't', 'f'], ¬ Json.InNumber c := by simp [Json.InNumber, isDigit]
  exact .number fun c hc other => apart c other (numbers c (List.mem_of_mem_head? hc))

/-- A sign changes nothing, and the names of special doubles begin with capitals. -/
theorem literalForm_double (x : Binary64) : LiteralForm .number none (x.text Json.specialNames) := by
  cases x with
  | nan => exact .number (by simp [Binary64.text, Json.specialNames])
  | infinity negative =>
    cases negative <;> exact .number (by simp [Binary64.text, Json.specialNames])
  | finite negative word =>
    refine .of_numbers fun c hc => ?_
    rcases List.mem_append.mp hc with sign | digit
    · cases negative with
      | true => exact List.mem_singleton.mp sign ▸ .inr (by decide)
      | false => cases sign
    · exact Json.inNumber_wordText digit

theorem literalForm_value (v : TokenValue) :
    LiteralForm (match v with | .text _ => .string | .bool _ => .boolean | _ => .number)
      (match v with | .text s => some s | _ => none) v.literal := by
  cases v with
  | bool b => exact .boolean b
  | int n => exact .of_numbers fun _ => Json.inNumber_intText
  | double x =>
    simp only [TokenValue.literal]
    split
    · exact .of_numbers fun _ => Json.inNumber_intText
    · exact literalForm_double x
  | text s => exact .string s

end LiteralForm

/-- The type and the literal of a token are computed apart and agree. -/
theorem literalForm_token (t : Token) : LiteralForm t.scriptType t.quoted? t.scriptLiteral := by
  unfold Token.scriptType Token.quoted? Token.scriptLiteral
  split
  next =>
    have form := LiteralForm.string (String.ofList (t.value.plain ++ Token.unit))
    rwa [String.toList_ofList] at form
  next => exact literalForm_value t.value

/-- The exported tokens of a mode: of those with one identifier the last, in the place of the first. -/
structure Exported (m : Mode) (ts : List Token) : Prop where
  identifiers : ts.map Token.identifier = (m.tokens.items.map Token.identifier).eraseDups
  last : ∀ t ∈ ts, Survives Token.identifier m.tokens.items t

theorem exists_exported (m : Mode) : ∃ ts, Exported m ts ∧
    exportsOf m = ts.map fun t => (t.identifier, t.scriptLiteral, t.scriptType) := by
  have same : ∀ a b : String, (id a == id b) = (a == b) := fun _ _ => rfl
  have keys := Ordered.keys_ofList_names same Token.identifier (fun t => (t.scriptLiteral, t.scriptType))
    m.tokens.items
  -- every row is that of a last token, so the rows are those of a list of last tokens
  have rows : exportsOf m ∈ Set.range (List.map fun t : { t // Survives Token.identifier m.tokens.items t } =>
      (t.1.identifier, t.1.scriptLiteral, t.1.scriptType)) := by
    rw [Set.range_list_map]
    intro row hrow
    obtain ⟨t, last, rfl⟩ := (Ordered.mem_ofList_names same).mp hrow
    exact ⟨⟨t, last⟩, rfl⟩
  obtain ⟨lasts, whole⟩ := rows
  have whole' : exportsOf m = (lasts.map Subtype.val).map fun t => (t.identifier, t.scriptLiteral, t.scriptType) := by
    rw [← whole, List.map_map]
    rfl
  refine ⟨lasts.map Subtype.val, ⟨?_, ?_⟩, whole'⟩
  · calc (lasts.map Subtype.val).map Token.identifier = Ordered.keys (exportsOf m) := by
          rw [whole', Ordered.keys, List.map_map, List.map_map, List.map_map]
          rfl
      _ = (m.tokens.items.map Token.identifier).eraseDups := by
          rw [← List.map_id (List.eraseDups _)]
          exact keys
  · intro t ht
    obtain ⟨last, -, rfl⟩ := List.mem_map.mp ht
    exact last.2

theorem tokenModule_eq {m : Mode} {ts : List Token}
    (rows : exportsOf m = ts.map fun t => (t.identifier, t.scriptLiteral, t.scriptType)) :
    tokenModule m = header ++ "\n" ++ String.join (ts.map Token.exportLine) := by
  rw [tokenModule, rows, List.map_map]
  rfl

end Scripts

end StyleTokens
