import StyleTokens.Proofs.JsonTexts
import StyleTokens.Proofs.ScriptLexemes

namespace StyleTokens

namespace Script

/-- A literal between double quotes stands for a text. -/
def Quotes (literal : List Char) (s : String) : Prop :=
  ∃ body, literal = '"' :: body ∧ literalUnits? '"' body = some (units s.toList)

variable {escape after more : List Char} {us : List Nat}

/-- The code units of a text are those of no other text. -/
theorem units_inj {cs ds : List Char} (h : units cs = units ds) : cs = ds := by
  induction cs generalizing ds with
  | nil =>
    cases ds with
    | nil => rfl
    | cons d rest =>
      have long := length_le_units (d :: rest)
      rw [← h] at long
      cases long
  | cons c cs ih =>
    cases ds with
    | nil =>
      have long := length_le_units (c :: cs)
      rw [h] at long
      cases long
    | cons d ds =>
      rw [units_cons, units_cons] at h
      -- a pair begins with a surrogate, which is no character, so both texts begin with as many units
      have lowest := Json.not_surrogate c
      have lowest' := Json.not_surrogate d
      rcases Json.codeUnits_spec c with ⟨single, -⟩ | ⟨high, low, pair, first, second, value⟩
      · rcases Json.codeUnits_spec d with ⟨single', -⟩ | ⟨high', low', pair', first', -, -⟩
        · rw [single, single'] at h
          obtain ⟨same, later⟩ := List.cons.inj h
          rw [Char.toNat_inj.mp same, ih later]
        · rw [single, pair'] at h
          obtain ⟨same, -⟩ := List.cons.inj h
          rw [same, first'] at lowest
          cases lowest.1
      · rcases Json.codeUnits_spec d with ⟨single', -⟩ | ⟨high', low', pair', first', second', value'⟩
        · rw [pair, single'] at h
          obtain ⟨same, -⟩ := List.cons.inj h
          rw [← same, first] at lowest'
          cases lowest'.1
        · rw [pair, pair'] at h
          obtain ⟨same, h⟩ := List.cons.inj h
          obtain ⟨same', later⟩ := List.cons.inj h
          have alike : c.toNat = d.toNat := by rw [← value, ← value', same, same']
          rw [Char.toNat_inj.mp alike, ih later]

theorem literalUnits?_escape (h : escape? escape = some (us, after)) :
    literalUnits? '"' ('\\' :: escape) = (literalUnits? '"' after).map (us ++ ·) := by
  rw [literalUnits?.eq_def]
  simp only [if_neg (by decide : ¬ '\\' = '"'), if_true]
  split
  next us' after' read =>
    cases h.symm.trans read
    rfl
  next none => cases h.symm.trans none

theorem escape?_unitEscape {n : Nat} (hn : n < 0x10000) :
    escape? ((Json.unitEscape n).drop 1 ++ more) = some ([n], more) := by
  have first := Json.hexValue?_digitChar (n / 0x1000) (by omega)
  have second := Json.hexValue?_digitChar (n / 0x100 % 16) (by omega)
  have third := Json.hexValue?_digitChar (n / 16 % 16) (by omega)
  have last := Json.hexValue?_digitChar (n % 16) (by omega)
  have value : ((n / 0x1000 * 16 + n / 0x100 % 16) * 16 + n / 16 % 16) * 16 + n % 16 = n := by omega
  have number : hexNumber? [Nat.digitChar (n / 0x1000), Nat.digitChar (n / 0x100 % 16), Nat.digitChar (n / 16 % 16),
      Nat.digitChar (n % 16)] = some n := by
    simp [hexNumber?, first, second, third, last, value]
  have units : pointUnits n = [n] := if_pos hn
  simp [Json.unitEscape, escape?, unicodeEscape?, number, units]

/-- Escapes of code units are read one by one. -/
theorem literalUnits?_unitEscapes {ns : List Nat} (small : ∀ n ∈ ns, n < 0x10000) :
    literalUnits? '"' (ns.flatMap Json.unitEscape ++ more) = (literalUnits? '"' more).map (ns ++ ·) := by
  induction ns with
  | nil => simp
  | cons n rest ih =>
    obtain ⟨first, later⟩ := List.forall_mem_cons.mp small
    have read := literalUnits?_escape
      (escape?_unitEscape first : _ = some ([n], rest.flatMap Json.unitEscape ++ more))
    rw [ih later, Option.map_map] at read
    rw [List.flatMap_cons, List.append_assoc]
    exact read

theorem literalUnits?_escapeChar (ascii : Bool) (c : Char) :
    literalUnits? '"' (Json.escapeChar ascii c ++ more) = (literalUnits? '"' more).map (Json.codeUnits c ++ ·) := by
  unfold Json.escapeChar
  split
  next h => subst h; exact literalUnits?_escape rfl
  split
  next h => subst h; exact literalUnits?_escape rfl
  split
  next h => subst h; exact literalUnits?_escape rfl
  split
  next h => subst h; exact literalUnits?_escape rfl
  split
  next h => subst h; exact literalUnits?_escape rfl
  split
  next h => subst h; exact literalUnits?_escape rfl
  split
  next h => subst h; exact literalUnits?_escape rfl
  split
  next => exact literalUnits?_unitEscapes (Json.codeUnits_lt c)
  next quote backslash feed back _ _ _ _ =>
    exact literalUnits?_cons_of_literal ⟨quote, backslash, feed, back⟩ more

/-- A text quoted as JSON stands for itself in a script. -/
theorem literalUnits?_quoted (ascii : Bool) (cs : List Char) :
    literalUnits? '"' (cs.flatMap (Json.escapeChar ascii) ++ ['"']) = some (units cs) := by
  induction cs with
  | nil => simp [literalUnits?, units]
  | cons c rest ih =>
    rw [List.flatMap_cons, List.append_assoc, literalUnits?_escapeChar, ih]
    rfl

theorem quotes_quote_iff {ascii : Bool} {cs : List Char} {s : String} :
    Quotes (Json.quote ascii cs) s ↔ s.toList = cs := by
  constructor
  · rintro ⟨body, same, read⟩
    have whole : cs.flatMap (Json.escapeChar ascii) ++ ['"'] = body := (List.cons.inj same).2
    rw [← whole, literalUnits?_quoted] at read
    exact (units_inj (Option.some.inj read)).symm
  · rintro rfl
    exact ⟨_, rfl, literalUnits?_quoted ascii _⟩

end Script

end StyleTokens
