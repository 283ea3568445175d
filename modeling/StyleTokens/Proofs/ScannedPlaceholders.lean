import StyleTokens.Proofs.ShortenedPlaceholders
import Mathlib.Data.List.Basic

namespace StyleTokens

namespace Placeholder

/-- A text cut from left to right: a placeholder is taken where one starts, and one character everywhere else. -/
inductive Cuts : List Char → List Piece → Prop
  | nil : Cuts [] []
  | hole {body rest ps} : body ≠ [] → '}' ∉ body → Cuts rest ps →
      Cuts ('{' :: body ++ '}' :: rest) (.hole body :: ps)
  | char {c cs ps} : (∀ body rest, body ≠ [] → '}' ∉ body → c :: cs ≠ '{' :: body ++ '}' :: rest) → Cuts cs ps →
      Cuts (c :: cs) (.char c :: ps)

theorem cuts_pieces (cs : List Char) : Cuts cs (pieces cs) := by
  fun_induction pieces cs with
  | case1 => exact .nil
  | case2 cs body rest hb ih =>
    have inside := not_mem_of_body? hb
    rw [append_of_body? hb]
    exact .hole inside.1 inside.2 ih
  | case3 cs hb ih =>
    refine .char ?_ ih
    intro body rest filled closed he
    have found : body? (body ++ '}' :: rest) = some (body, rest) := body?_append filled closed
    have here : cs = body ++ '}' :: rest := (List.cons.inj he).2
    rw [← here, hb] at found
    cases found
  | case4 c cs hc ih =>
    refine .char ?_ ih
    intro body rest _ _ he
    exact hc (List.cons.inj he).1

theorem Cuts.eq_pieces {cs : List Char} {ps : List Piece} (h : Cuts cs ps) : ps = pieces cs := by
  induction h with
  | nil => simp [pieces]
  | @hole body rest ps filled closed _ ih =>
    have found : body? (body ++ '}' :: rest) = some (body, rest) := body?_append filled closed
    rw [List.cons_append, pieces_open_some found, ih]
  | @char c cs ps noHole _ ih =>
    by_cases hc : c = '{'
    · subst hc
      have none : body? cs = none := by
        cases hb : body? cs with
        | none => rfl
        | some found =>
          have inside := not_mem_of_body? hb
          have here : cs = found.1 ++ '}' :: found.2 := append_of_body? hb
          exact absurd (congrArg ('{' :: ·) here) (noHole found.1 found.2 inside.1 inside.2)
      rw [pieces_open_none none, ih]
    · rw [pieces_cons_of_ne hc, ih]

theorem cuts_iff {cs : List Char} {ps : List Piece} : Cuts cs ps ↔ ps = pieces cs :=
  ⟨Cuts.eq_pieces, fun h => h ▸ cuts_pieces cs⟩

/-- The text of pieces with what `change` makes of the bodies of the placeholders, and all else where it stands. -/
def fill (change : List Char → List Char) (ps : List Piece) : List Char :=
  ps.flatMap fun
    | .char c => [c]
    | .hole body => '{' :: change body ++ ['}']

theorem fill_pieces (cs : List Char) : fill id (pieces cs) = cs := by
  have same : fill id = List.flatMap Piece.text := by
    funext ps
    refine List.flatMap_congr fun p _ => ?_
    cases p <;> rfl
  rw [same, flatMap_text_pieces]

theorem toList_shorten (s : String) : (shorten s).toList = fill lastSegment (pieces s.toList) := by
  rw [shorten, String.toList_ofList]
  refine List.flatMap_congr fun p _ => ?_
  cases p <;> rfl

theorem fill_congr {f g : List Char → List Char} {ps : List Piece} (h : ∀ body ∈ holes ps, f body = g body) :
    fill f ps = fill g ps := by
  refine List.flatMap_congr fun p hp => ?_
  cases p with
  | char c => rfl
  | hole body =>
    have here : body ∈ holes ps := List.mem_filterMap.mpr ⟨.hole body, hp, rfl⟩
    exact congrArg (fun inside => '{' :: inside ++ ['}']) (h body here)

/-- The last segment of a text is what has no point in it and comes after one, or is all there is. -/
theorem lastSegment_eq_iff {cs last : List Char} :
    lastSegment cs = last ↔ '.' ∉ last ∧ (cs = last ∨ ∃ before, cs = before ++ '.' :: last) := by
  constructor
  · rintro rfl
    have whole : cs = (cs.reverse.dropWhile (· ≠ '.')).reverse ++ lastSegment cs := by
      rw [lastSegment, ← List.reverse_append, List.takeWhile_append_dropWhile, List.reverse_reverse]
    refine ⟨?_, ?_⟩
    · intro hm
      rw [lastSegment, List.mem_reverse] at hm
      simpa using List.mem_takeWhile_imp hm
    · cases hd : cs.reverse.dropWhile (· ≠ '.') with
      | nil =>
        rw [hd] at whole
        exact .inl whole
      | cons c rest =>
        have point : c = '.' := by
          have hh := List.head?_dropWhile_not (fun c => decide (c ≠ '.')) cs.reverse
          rw [hd] at hh
          simpa using hh
        rw [hd, point, List.reverse_cons, List.append_assoc] at whole
        exact .inr ⟨rest.reverse, whole⟩
  · rintro ⟨pointless, rfl | ⟨before, rfl⟩⟩
    · exact lastSegment_of_not_mem pointless
    · exact lastSegment_append pointless

theorem point_not_mem_lastPart (b : String) : '.' ∉ (lastPart b).toList := by
  rw [lastPart, String.toList_ofList]
  exact (lastSegment_eq_iff.mp rfl).1

theorem shorten_of_pointless {s : String} (h : ∀ b ∈ names s, '.' ∉ b.toList) : shorten s = s := by
  have same : ∀ body ∈ holes (pieces s.toList), lastSegment body = id body := by
    intro body hb
    have pointless := h (String.ofList body) (List.mem_map_of_mem hb)
    rw [String.toList_ofList] at pointless
    exact lastSegment_eq_iff.mpr ⟨pointless, .inl rfl⟩
  apply String.toList_inj.mp
  rw [toList_shorten, fill_congr same, fill_pieces]

theorem pointless_of_mem_names_shorten {s b : String} (h : b ∈ names (shorten s)) : '.' ∉ b.toList := by
  obtain ⟨_, b', _, rfl⟩ := mem_names_shorten.mp h
  exact point_not_mem_lastPart b'

theorem shorten_eq_self_iff {s : String} : shorten s = s ↔ ∀ b ∈ names s, '.' ∉ b.toList := by
  constructor
  · intro h b hb
    exact pointless_of_mem_names_shorten (h.symm ▸ hb)
  · exact shorten_of_pointless

theorem shorten_shorten (s : String) : shorten (shorten s) = shorten s :=
  shorten_of_pointless fun _ => pointless_of_mem_names_shorten

/-- A text is scanned in one way, and shortened keeps all that stands outside of its placeholders. The placeholders of
the shortened text are the last parts of those of the text that are not empty, a text stays as it is exactly if none of
its placeholders has a point, and no text changes a second time. -/
theorem shorten_exact (s : String) :
    ∃ ps, (∀ qs, Cuts s.toList qs ↔ qs = ps) ∧ names s = (holes ps).map String.ofList ∧
      s.toList = fill id ps ∧ (shorten s).toList = fill lastSegment ps ∧
      names (shorten s) = ((names s).map lastPart).filter (· ≠ "") ∧
      (shorten s = s ↔ ∀ b ∈ names s, '.' ∉ b.toList) ∧
      shorten (shorten s) = shorten s :=
  ⟨pieces s.toList, fun _ => cuts_iff, rfl, (fill_pieces s.toList).symm, toList_shorten s, names_shorten s,
    shorten_eq_self_iff, shorten_shorten s⟩

theorem shorten_strayBraces :
    shorten "{}{a.b} {c.} {d{e.f}}" = "{}{b} {} {f}\x7d" ∧ names "{}{b} {} {f}\x7d" = ["b", "f"] ∧
      shorten "{}{b} {} {f}\x7d" = "{}{b} {} {f}\x7d" := by
  obtain ⟨_, _, _, _, _, found, _, again⟩ := shorten_exact "{}{a.b} {c.} {d{e.f}}"
  have bodies : names "{}{a.b} {c.} {d{e.f}}" = ["a.b", "c.", "d\x7be.f"] := by decide +kernel
  have short : shorten "{}{a.b} {c.} {d{e.f}}" = "{}{b} {} {f}\x7d" := by decide +kernel
  have lasts : (["a.b", "c.", "d\x7be.f"].map lastPart).filter (· ≠ "") = ["b", "f"] := by decide +kernel
  rw [short] at found again
  rw [bodies, lasts] at found
  exact ⟨short, found, again⟩

end Placeholder

end StyleTokens
