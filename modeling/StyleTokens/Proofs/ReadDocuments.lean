import StyleTokens.Proofs.LoadedFiles
import StyleTokens.Proofs.RecordedTables

namespace StyleTokens

namespace Doc

/-- Of members with texts for names an object without repeated keys is made. -/
theorem entriesJson_ofList {pairs : List (Scalar × Doc)} (json : ∀ p ∈ pairs, (∃ s, p.1 = .text s) ∧ p.2.IsJson) :
    EntriesJson (Ordered.ofList pairs) := by
  refine entriesJson_of_distinct (Ordered.distinct_ofList pairs) fun p hp => ⟨?_, ?_⟩
  · obtain ⟨q, hq, same⟩ := List.mem_map.mp (Ordered.key_mem_of_mem_ofList hp)
    exact same ▸ (json q hq).1
  · rw [← List.map_id pairs] at hp
    obtain ⟨q, survives, _, same⟩ := Ordered.exists_survives_of_mem_ofList hp
    exact same ▸ (json q survives.mem).2

end Doc

namespace Json

variable {fuel : Nat} {cs rest : List Char}

theorem isJson_of_number? {s : Scalar} (h : number? cs = some (s, rest)) : (Doc.scalar s).IsJson := by
  unfold number? at h
  repeat' split at h
  all_goals cases h
  all_goals trivial

theorem isJson_of_readScalar {d : Doc} (h : readScalar cs = .ok (d, rest)) : d.IsJson := by
  unfold readScalar at h
  split at h
  next word s found =>
    cases h
    have listed := List.mem_of_find?_eq_some found
    simp only [literals, List.mem_cons, List.not_mem_nil, or_false, Prod.mk.injEq] at listed
    rcases listed with ⟨-, rfl⟩ | ⟨-, rfl⟩ | ⟨-, rfl⟩ | ⟨-, rfl⟩ | ⟨-, rfl⟩ | ⟨-, rfl⟩ <;> trivial
  next =>
    split at h
    next s _ number =>
      cases h
      exact isJson_of_number? number
    next => cases h

-- by induction on the fuel, which the three readers share
mutual

theorem isJson_of_readValue : (fuel : Nat) → {cs rest : List Char} → {d : Doc} →
    readValue fuel cs = .ok (d, rest) → d.IsJson
  | 0, _, _, _, h => nomatch h
  | fuel + 1, cs, rest, d, h => by
    unfold readValue at h
    split at h
    next =>
      obtain ⟨s, _, read⟩ := except_bind_ok_iff.mp h
      cases read
      trivial
    next =>
      split at h
      next =>
        cases h
        trivial
      next =>
        obtain ⟨entries, made, read⟩ := except_bind_ok_iff.mp h
        cases read
        exact Doc.entriesJson_ofList (json_of_readMembers fuel made)
    next =>
      split at h
      next =>
        cases h
        trivial
      next =>
        obtain ⟨items, made, read⟩ := except_bind_ok_iff.mp h
        cases read
        exact allJson_of_readItems fuel made
    next => exact isJson_of_readScalar h

theorem json_of_readMembers : (fuel : Nat) → {cs rest : List Char} → {entries : List (Scalar × Doc)} →
    readMembers fuel cs = .ok (entries, rest) → ∀ p ∈ entries, (∃ s, p.1 = .text s) ∧ p.2.IsJson
  | 0, _, _, _, h => nomatch h
  | fuel + 1, cs, rest, entries, h => by
    obtain ⟨⟨name, after⟩, _, h⟩ := except_bind_ok_iff.mp h
    obtain ⟨⟨d, left⟩, value, h⟩ := except_bind_ok_iff.mp h
    have member : (∃ s, Scalar.text name = .text s) ∧ d.IsJson := ⟨⟨name, rfl⟩, isJson_of_readValue fuel value⟩
    dsimp only at h
    split at h
    next =>
      cases h
      exact List.forall_mem_singleton.mpr member
    next =>
      obtain ⟨entries, more, h⟩ := except_bind_ok_iff.mp h
      cases h
      exact List.forall_mem_cons.mpr ⟨member, json_of_readMembers fuel more⟩
    next => cases h

theorem allJson_of_readItems : (fuel : Nat) → {cs rest : List Char} → {items : List Doc} →
    readItems fuel cs = .ok (items, rest) → Doc.AllJson items
  | 0, _, _, _, h => nomatch h
  | fuel + 1, cs, rest, items, h => by
    obtain ⟨⟨d, left⟩, value, h⟩ := except_bind_ok_iff.mp h
    have item := isJson_of_readValue fuel value
    dsimp only at h
    split at h
    next =>
      cases h
      exact ⟨item, trivial⟩
    next =>
      obtain ⟨items, more, h⟩ := except_bind_ok_iff.mp h
      cases h
      exact ⟨item, allJson_of_readItems fuel more⟩
    next => cases h

end

theorem isJson_of_readText {d : Doc} (h : readText cs = .ok d) : d.IsJson := by
  have document : ∀ cs, readText.readDocument cs = .ok d → d.IsJson := by
    intro cs h
    obtain ⟨⟨d', after⟩, value, h⟩ := except_bind_ok_iff.mp h
    dsimp only at h
    split at h
    next =>
      cases h
      exact isJson_of_readValue _ value
    next => cases h
  unfold readText at h
  split at h
  next =>
    split at h
    next => cases h
    next => exact document _ h
  next => exact document _ h

theorem isJson_of_parse {text : String} {d : Doc} (h : parse text = .ok d) : d.IsJson :=
  isJson_of_readText (except_mapError_ok_iff.mp h)

end Json

/-- The document in a file is JSON, unless the file's name says that it holds YAML. -/
theorem Source.isJson_of_load {tree : FileTree} {path : Path} {d : Doc} (json : isYaml path = false)
    (h : load tree path = .ok d) : d.IsJson := by
  unfold load at h
  repeat' split at h
  next => cases h
  next => cases h
  next => cases h
  next => cases h
  next text _ =>
    rw [parse, json, if_neg Bool.false_ne_true, except_mapError_ok_iff] at h
    exact Json.isJson_of_parse h

end StyleTokens
