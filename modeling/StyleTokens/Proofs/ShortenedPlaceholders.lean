import StyleTokens.Text.Placeholder
import Mathlib.Data.List.TakeWhile

namespace StyleTokens

namespace Placeholder

theorem not_mem_of_body? {cs body rest : List Char} (h : body? cs = some (body, rest)) :
    body ≠ [] ∧ '}' ∉ body := by
  unfold body? at h
  split at h
  next b bs e rest' ht hd =>
    obtain ⟨rfl, rfl⟩ := Prod.mk.inj (Option.some.inj h)
    refine ⟨by simp, fun hm => ?_⟩
    rw [← ht] at hm
    simpa using List.mem_takeWhile_imp hm
  next => cases h

theorem body?_append {body rest : List Char} (hne : body ≠ []) (hb : '}' ∉ body) :
    body? (body ++ '}' :: rest) = some (body, rest) := by
  have inside : ∀ c ∈ body, decide (c ≠ '}') = true := by
    intro c hc
    exact decide_eq_true fun he => hb (he ▸ hc)
  obtain ⟨b, bs, rfl⟩ := List.exists_cons_of_ne_nil hne
  have taken : ((b :: bs) ++ '}' :: rest).takeWhile (fun c => decide (c ≠ '}')) = b :: bs := by
    rw [List.takeWhile_append_of_pos inside]
    simp
  have dropped : ((b :: bs) ++ '}' :: rest).dropWhile (fun c => decide (c ≠ '}')) = '}' :: rest := by
    rw [List.dropWhile_append_of_pos inside]
    simp
  simp only [body?, taken, dropped]

/-- An opening brace starts no placeholder if the closing one comes at once or never. -/
theorem body?_eq_none_iff {cs : List Char} :
    body? cs = none ↔ (∃ rest, cs = '}' :: rest) ∨ '}' ∉ cs := by
  constructor
  · intro h
    by_cases hm : '}' ∈ cs
    · obtain ⟨body, rest, rfl, hb⟩ := List.eq_append_cons_of_mem hm
      cases body with
      | nil => exact Or.inl ⟨rest, rfl⟩
      | cons b bs =>
        rw [body?_append (by simp) hb] at h
        cases h
    · exact Or.inr hm
  · intro h
    match hs : body? cs with
    | none => rfl
    | some (body, rest) =>
      obtain ⟨hne, hb⟩ := not_mem_of_body? hs
      have he := append_of_body? hs
      rcases h with ⟨rest, rfl⟩ | hm
      · obtain ⟨b, bs, rfl⟩ := List.exists_cons_of_ne_nil hne
        rw [← (List.cons.inj he).1] at hb
        simp at hb
      · exact absurd (by rw [he]; simp) hm

theorem pieces_cons_of_ne {c : Char} {cs : List Char} (h : c ≠ '{') :
    pieces (c :: cs) = .char c :: pieces cs := by
  rw [pieces, if_neg h]

theorem pieces_open_some {cs body rest : List Char} (h : body? cs = some (body, rest)) :
    pieces ('{' :: cs) = .hole body :: pieces rest := by
  rw [pieces, if_pos rfl]
  split
  next body' rest' h' =>
    obtain ⟨rfl, rfl⟩ := Prod.mk.inj (Option.some.inj (h'.symm.trans h))
    rfl
  next h' => simp [h] at h'

theorem pieces_open_none {cs : List Char} (h : body? cs = none) :
    pieces ('{' :: cs) = .char '{' :: pieces cs := by
  rw [pieces, if_pos rfl]
  split
  next h' => simp [h] at h'
  next => rfl

theorem pieces_of_not_mem {cs : List Char} (h : '}' ∉ cs) : pieces cs = cs.map Piece.char := by
  induction cs with
  | nil =>
    rw [pieces]
    rfl
  | cons c cs ih =>
    have hcs : '}' ∉ cs := fun hm => h (List.mem_cons_of_mem c hm)
    by_cases hc : c = '{'
    · subst hc
      rw [pieces_open_none (body?_eq_none_iff.mpr (Or.inr hcs)), ih hcs, List.map_cons]
    · rw [pieces_cons_of_ne hc, ih hcs, List.map_cons]

/-- The characters of a text with every placeholder shortened. -/
def shortened (cs : List Char) : List Char := (pieces cs).flatMap fun p => p.shorten.text

/-- A shortened piece as it is found again: two bare braces if nothing is left between them. -/
def Piece.settled : Piece → List Piece
  | .char c => [.char c]
  | .hole body =>
    if lastSegment body = [] then [.char '{', .char '}'] else [.hole (lastSegment body)]

theorem mem_of_mem_lastSegment {cs : List Char} {c : Char} (h : c ∈ lastSegment cs) : c ∈ cs :=
  List.mem_reverse.mp ((List.takeWhile_sublist _).subset (List.mem_reverse.mp h))

theorem shortened_of_not_mem {cs : List Char} (h : '}' ∉ cs) : shortened cs = cs := by
  unfold shortened
  rw [pieces_of_not_mem h, List.flatMap_map]
  exact List.flatMap_singleton' cs

theorem body?_shortened {cs : List Char} (h : body? cs = none) : body? (shortened cs) = none := by
  apply body?_eq_none_iff.mpr
  rcases body?_eq_none_iff.mp h with ⟨rest, rfl⟩ | hm
  · refine Or.inl ⟨shortened rest, ?_⟩
    unfold shortened
    rw [pieces_cons_of_ne (by decide)]
    rfl
  · rw [shortened_of_not_mem hm]
    exact Or.inr hm

/-- Cutting a shortened text finds the shortened pieces again. -/
theorem pieces_shortened (cs : List Char) : pieces (shortened cs) = (pieces cs).flatMap Piece.settled := by
  fun_induction pieces cs with
  | case1 => simp [shortened, pieces]
  | case2 cs body rest hb ih =>
    have hs : shortened ('{' :: cs) = '{' :: (lastSegment body ++ '}' :: shortened rest) := by
      unfold shortened
      rw [pieces_open_some hb]
      simp [Piece.shorten, Piece.text]
    have closed : '}' ∉ lastSegment body := fun hm => (not_mem_of_body? hb).2 (mem_of_mem_lastSegment hm)
    rw [hs, List.flatMap_cons, ← ih]
    by_cases he : lastSegment body = []
    · have bare : body? ('}' :: shortened rest) = none := body?_eq_none_iff.mpr (Or.inl ⟨_, rfl⟩)
      rw [he, List.nil_append, pieces_open_none bare, pieces_cons_of_ne (by decide)]
      simp [Piece.settled, he]
    · rw [pieces_open_some (body?_append he closed)]
      simp [Piece.settled, he]
  | case3 cs hb ih =>
    have hs : shortened ('{' :: cs) = '{' :: shortened cs := by
      unfold shortened
      rw [pieces_open_none hb]
      rfl
    rw [hs, pieces_open_none (body?_shortened hb), ih]
    rfl
  | case4 c cs hc ih =>
    have hs : shortened (c :: cs) = c :: shortened cs := by
      unfold shortened
      rw [pieces_cons_of_ne hc]
      rfl
    rw [hs, pieces_cons_of_ne hc, ih]
    rfl

theorem holes_flatMap_settled (ps : List Piece) :
    holes (ps.flatMap Piece.settled) = ((holes ps).map lastSegment).filter (· ≠ []) := by
  induction ps with
  | nil => rfl
  | cons p rest ih =>
    have split_holes : holes ((p :: rest).flatMap Piece.settled) =
        holes p.settled ++ holes (rest.flatMap Piece.settled) := by
      simp [holes, List.filterMap_append]
    rw [split_holes, ih]
    cases p with
    | char c => rfl
    | hole body =>
      by_cases he : lastSegment body = []
      · simp [Piece.settled, holes, he]
      · simp [Piece.settled, holes, he]

/-- The part of a text after its last point. -/
def lastPart (b : String) : String := String.ofList (lastSegment b.toList)

/-- The placeholders of a shortened text are the last parts of those of the text, without the empty ones. -/
theorem names_shorten (s : String) : names (shorten s) = ((names s).map lastPart).filter (· ≠ "") := by
  have chars : (shorten s).toList = shortened s.toList := String.toList_ofList
  have back : ∀ bodies : List (List Char),
      ((bodies.map lastSegment).filter (· ≠ [])).map String.ofList =
        ((bodies.map String.ofList).map lastPart).filter (· ≠ "") := by
    intro bodies
    induction bodies with
    | nil => rfl
    | cons b rest ih =>
      by_cases he : lastSegment b = []
      · simpa [lastPart, he] using ih
      · simpa [lastPart, he] using ih
  unfold names
  rw [chars, pieces_shortened, holes_flatMap_settled, back]

theorem mem_names_shorten {s y : String} :
    y ∈ names (shorten s) ↔ y ≠ "" ∧ ∃ b ∈ names s, lastPart b = y := by
  rw [names_shorten, List.mem_filter, List.mem_map]
  simp [and_comm]

theorem lastSegment_of_not_mem {cs : List Char} (h : '.' ∉ cs) : lastSegment cs = cs := by
  have all : ∀ c ∈ cs.reverse, decide (c ≠ '.') = true := by
    intro c hc
    exact decide_eq_true fun he => h (he ▸ List.mem_reverse.mp hc)
  rw [lastSegment, List.takeWhile_eq_self_iff.mpr all, List.reverse_reverse]

theorem lastSegment_append {before cs : List Char} (h : '.' ∉ cs) :
    lastSegment (before ++ '.' :: cs) = cs := by
  have all : ∀ c ∈ cs.reverse, decide (c ≠ '.') = true := by
    intro c hc
    exact decide_eq_true fun he => h (he ▸ List.mem_reverse.mp hc)
  have back : (before ++ '.' :: cs).reverse = cs.reverse ++ '.' :: before.reverse := by simp
  rw [lastSegment, back, List.takeWhile_append_of_pos all]
  simp

/-- A path of names joined by points ends in its last name, if that has no point itself. -/
theorem lastPart_intercalate (names : List String) {name : String} (h : '.' ∉ name.toList) :
    lastPart (String.intercalate "." (names ++ [name])) = name := by
  by_cases hn : names = []
  · subst hn
    simp [lastPart, lastSegment_of_not_mem h]
  · have joined : (String.intercalate "." (names ++ [name])).toList =
        (String.intercalate "." names).toList ++ '.' :: name.toList := by
      rw [String.intercalate_append_of_ne_nil hn (by simp), String.intercalate_singleton]
      simp
    rw [lastPart, joined, lastSegment_append h, String.ofList_toList]

end Placeholder

end StyleTokens
