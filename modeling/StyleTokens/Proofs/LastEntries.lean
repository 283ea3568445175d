import StyleTokens.Doc
import Mathlib.Data.List.Induction

namespace StyleTokens

universe u v w x

variable {α : Type u} {κ : Type v} {β : Type w} [BEq κ]

/-- The last thing of a list that has a property. -/
def LastWith (p : α → Prop) (xs : List α) (x : α) : Prop :=
  ∃ before after, xs = before ++ x :: after ∧ p x ∧ ∀ y ∈ after, ¬ p y

theorem exists_lastWith {p : α → Prop} {xs : List α} {x : α} (hx : x ∈ xs) (hp : p x) : ∃ y, LastWith p xs y := by
  induction xs using List.reverseRecOn with
  | nil => cases hx
  | append_singleton xs z ih =>
    by_cases last : p z
    · exact ⟨z, xs, [], rfl, last, by simp⟩
    · have earlier : x ∈ xs := by
        rcases List.mem_append.mp hx with hx | hx
        · exact hx
        · exact absurd (List.mem_singleton.mp hx ▸ hp) last
      obtain ⟨y, before, after, rfl, hy, none_later⟩ := ih earlier
      refine ⟨y, before, after ++ [z], by simp, hy, ?_⟩
      rw [List.forall_mem_append, List.forall_mem_singleton]
      exact ⟨none_later, last⟩

/-- The last thing of a list that has its key. -/
def Survives (key : α → κ) (xs : List α) (x : α) : Prop :=
  ∃ before after, xs = before ++ x :: after ∧ ∀ y ∈ after, (key y == key x) = false

theorem Survives.mem {key : α → κ} {xs : List α} {x : α} (h : Survives key xs x) : x ∈ xs := by
  obtain ⟨before, after, rfl, _⟩ := h
  simp

theorem exists_survives [EquivBEq κ] {key : α → κ} {xs : List α} {x : α} (hx : x ∈ xs) :
    ∃ y, Survives key xs y ∧ (key y == key x) = true := by
  obtain ⟨y, before, after, hs, hy, none_later⟩ := exists_lastWith (p := fun y => (key y == key x) = true) hx BEq.rfl
  refine ⟨y, ⟨before, after, hs, ?_⟩, hy⟩
  intro z hz
  exact Bool.eq_false_iff.mpr fun same => none_later z hz (BEq.trans same hy)

theorem Survives.eq_of_key [EquivBEq κ] {key : α → κ} {xs : List α} {x y : α}
    (hx : Survives key xs x) (hy : Survives key xs y) (hk : (key x == key y) = true) : x = y := by
  obtain ⟨before, after, hs, ha⟩ := hx
  obtain ⟨before', after', hs', ha'⟩ := hy
  rcases List.append_eq_append_iff.mp (hs.symm.trans hs') with ⟨mid, _, hm⟩ | ⟨mid, _, hm⟩
  · cases mid with
    | nil => exact (List.cons.inj hm).1
    | cons z mid =>
      obtain ⟨_, hm⟩ := List.cons.inj hm
      have apart := ha y (by simp [hm])
      rw [BEq.symm hk] at apart
      cases apart
  · cases mid with
    | nil => exact (List.cons.inj hm).1.symm
    | cons z mid =>
      obtain ⟨_, hm⟩ := List.cons.inj hm
      have apart := ha' x (by simp [hm])
      rw [hk] at apart
      cases apart

/-- Things that are rebuilt with the same keys survive together. -/
theorem survives_map {γ : Type x} {key : α → κ} {key' : γ → κ} {f : α → γ} {xs : List α} {x : α}
    (same : ∀ y, key' (f y) = key y) (h : Survives key xs x) : Survives key' (xs.map f) (f x) := by
  obtain ⟨before, after, rfl, ha⟩ := h
  refine ⟨before.map f, after.map f, by simp, ?_⟩
  intro z hz
  obtain ⟨y, hy, rfl⟩ := List.mem_map.mp hz
  rw [same, same]
  exact ha y hy

/-- What lists have last of a key is in the list of the last thing that has any. -/
theorem exists_survives_flatMap [LawfulBEq κ] {key : β → κ} {f : α → List β} {xs : List α} {x : α} {k : κ}
    (h : LastWith (fun x => ∃ y ∈ f x, key y = k) xs x) : ∃ y ∈ f x, key y = k ∧ Survives key (xs.flatMap f) y := by
  obtain ⟨before, after, rfl, ⟨y, hy, rfl⟩, none_later⟩ := h
  obtain ⟨z, ⟨ahead, behind, split, apart⟩, same⟩ : ∃ z, Survives key (f x) z ∧ (key z == key y) = true :=
    exists_survives hy
  have alike : key z = key y := beq_iff_eq.mp same
  refine ⟨z, by simp [split], alike, before.flatMap f ++ ahead, behind ++ after.flatMap f, ?_, ?_⟩
  · simp [split]
  · intro w hw
    rcases List.mem_append.mp hw with hw | hw
    · exact apart w hw
    · obtain ⟨x', hx', hw⟩ := List.mem_flatMap.mp hw
      rw [alike, beq_eq_false_iff_ne]
      exact fun same => none_later x' hx' ⟨w, hw, same⟩

/-- No two pairs have the same key. -/
def Ordered.Distinct (entries : List (κ × β)) : Prop :=
  entries.Pairwise fun p q => (p.1 == q.1) = false

theorem Ordered.union_append (entries ps qs : List (κ × β)) :
    Ordered.union entries (ps ++ qs) = Ordered.union (Ordered.union entries ps) qs :=
  List.foldl_append

theorem Ordered.find?_congr [EquivBEq κ] {entries : List (κ × β)} {k k' : κ} (h : (k == k') = true) :
    Ordered.find? entries k = Ordered.find? entries k' := by
  induction entries with
  | nil => rfl
  | cons p rest ih =>
    have same : (p.1 == k) = (p.1 == k') := BEq.congr_right h
    simp only [Ordered.find?, same, ih]

theorem Ordered.mem_of_find? {entries : List (κ × β)} {k : κ} {v : β}
    (h : Ordered.find? entries k = some v) : ∃ k', (k', v) ∈ entries ∧ (k' == k) = true := by
  induction entries with
  | nil => simp [Ordered.find?] at h
  | cons p rest ih =>
    by_cases hk : (p.1 == k) = true
    · have hv : p.2 = v := by simpa [Ordered.find?, hk] using h
      exact ⟨p.1, by simp [← hv], hk⟩
    · obtain ⟨k', hm, hk'⟩ := ih (by simpa [Ordered.find?, hk] using h)
      exact ⟨k', List.mem_cons_of_mem p hm, hk'⟩

theorem Ordered.find?_of_mem [EquivBEq κ] {entries : List (κ × β)} {p : κ × β}
    (hd : Ordered.Distinct entries) (hp : p ∈ entries) :
    Ordered.find? entries p.1 = some p.2 := by
  induction entries with
  | nil => simp at hp
  | cons q rest ih =>
    obtain ⟨hq, hr⟩ := List.pairwise_cons.mp hd
    rcases List.mem_cons.mp hp with rfl | hp
    · simp [Ordered.find?]
    · simpa [Ordered.find?, hq p hp] using ih hr hp

theorem Ordered.find?_map (entries : List (κ × β)) (f : β → β) (k : κ) :
    Ordered.find? (entries.map fun p => (p.1, f p.2)) k = (Ordered.find? entries k).map f := by
  induction entries with
  | nil => rfl
  | cons p rest ih =>
    by_cases hk : (p.1 == k) = true
    · simp [Ordered.find?, hk]
    · simp [Ordered.find?, hk, ih]

theorem Ordered.map_insert {γ : Type x} (f : β → γ) (entries : List (κ × β)) (key : κ) (value : β) :
    (Ordered.insert entries key value).map (fun p => (p.1, f p.2)) =
      Ordered.insert (entries.map fun p => (p.1, f p.2)) key (f value) := by
  induction entries with
  | nil => rfl
  | cons p rest ih =>
    by_cases hk : (p.1 == key) = true
    · simp [Ordered.insert, hk]
    · simp [Ordered.insert, hk, ih]

/-- The values may be changed before or after pairs are read as a map. -/
theorem Ordered.map_ofList {γ : Type x} (f : β → γ) (pairs : List (κ × β)) :
    (Ordered.ofList pairs).map (fun p => (p.1, f p.2)) =
      Ordered.ofList (pairs.map fun p => (p.1, f p.2)) := by
  have from_any : ∀ entries : List (κ × β), (Ordered.union entries pairs).map (fun p => (p.1, f p.2)) =
      Ordered.union (entries.map fun p => (p.1, f p.2)) (pairs.map fun p => (p.1, f p.2)) := by
    induction pairs with
    | nil => exact fun _ => rfl
    | cons p rest ih =>
      intro entries
      have step := ih (Ordered.insert entries p.1 p.2)
      rw [Ordered.map_insert] at step
      exact step
  exact from_any []

theorem Ordered.key_mem_of_mem_insert {entries : List (κ × β)} {key : κ} {value : β} {p : κ × β}
    (h : p ∈ Ordered.insert entries key value) : p.1 = key ∨ p.1 ∈ Ordered.keys entries := by
  induction entries with
  | nil => exact Or.inl (by simp_all [Ordered.insert])
  | cons q rest ih =>
    have hc : Ordered.keys (q :: rest) = q.1 :: Ordered.keys rest := rfl
    unfold Ordered.insert at h
    split at h
    · rcases List.mem_cons.mp h with rfl | h
      · exact Or.inr (by simp [hc])
      · exact Or.inr (hc ▸ List.mem_cons_of_mem _ (List.mem_map_of_mem h))
    · rcases List.mem_cons.mp h with rfl | h
      · exact Or.inr (by simp [hc])
      · exact (ih h).imp_right fun hm => hc ▸ List.mem_cons_of_mem _ hm

theorem Ordered.distinct_insert [EquivBEq κ] {entries : List (κ × β)} {key : κ} {value : β}
    (hd : Ordered.Distinct entries) : Ordered.Distinct (Ordered.insert entries key value) := by
  induction entries with
  | nil => exact List.pairwise_singleton _ _
  | cons q rest ih =>
    obtain ⟨hq, hr⟩ := List.pairwise_cons.mp hd
    unfold Ordered.insert
    split
    next => exact List.pairwise_cons.mpr ⟨hq, hr⟩
    next hne =>
      refine List.pairwise_cons.mpr ⟨?_, ih hr⟩
      intro p hp
      rcases Ordered.key_mem_of_mem_insert hp with he | hm
      · rw [he]
        exact Bool.eq_false_iff.mpr hne
      · obtain ⟨p', hp', he⟩ := List.mem_map.mp hm
        rw [← he]
        exact hq p' hp'

theorem Ordered.distinct_union [EquivBEq κ] {entries : List (κ × β)} (pairs : List (κ × β))
    (hd : Ordered.Distinct entries) : Ordered.Distinct (Ordered.union entries pairs) := by
  induction pairs generalizing entries with
  | nil => exact hd
  | cons p rest ih => exact ih (Ordered.distinct_insert hd)

theorem Ordered.distinct_ofList [EquivBEq κ] (pairs : List (κ × β)) :
    Ordered.Distinct (Ordered.ofList pairs) :=
  Ordered.distinct_union pairs List.Pairwise.nil

theorem Ordered.insert_append {entries more : List (κ × β)} {key : κ} {value : β}
    (h : ∀ p ∈ entries, (p.1 == key) = false) :
    Ordered.insert (entries ++ more) key value = entries ++ Ordered.insert more key value := by
  induction entries with
  | nil => rfl
  | cons p rest ih =>
    obtain ⟨first, others⟩ := List.forall_mem_cons.mp h
    simp [Ordered.insert, first, ih others]

theorem Ordered.insert_of_absent {entries : List (κ × β)} {key : κ} {value : β}
    (h : ∀ p ∈ entries, (p.1 == key) = false) :
    Ordered.insert entries key value = entries ++ [(key, value)] := by
  have at_end : Ordered.insert (entries ++ []) key value = entries ++ [(key, value)] := Ordered.insert_append h
  rwa [List.append_nil] at at_end

theorem Ordered.union_of_distinct {entries pairs : List (κ × β)}
    (h : Ordered.Distinct (entries ++ pairs)) : Ordered.union entries pairs = entries ++ pairs := by
  induction pairs generalizing entries with
  | nil => simp [Ordered.union]
  | cons p rest ih =>
    have fresh : ∀ q ∈ entries, (q.1 == p.1) = false := fun q hq =>
      (List.pairwise_append.mp h).2.2 q hq p (by simp)
    have next : Ordered.union entries (p :: rest) = Ordered.union (Ordered.insert entries p.1 p.2) rest := rfl
    rw [next, Ordered.insert_of_absent fresh, ih (by simpa using h)]
    simp

/-- Pairs with different keys are a map already. -/
theorem Ordered.ofList_of_distinct {pairs : List (κ × β)} (h : Ordered.Distinct pairs) :
    Ordered.ofList pairs = pairs := by
  have whole : Ordered.Distinct ([] ++ pairs) := h
  exact Ordered.union_of_distinct whole

theorem Ordered.key_mem_of_mem_union {entries pairs : List (κ × β)} {p : κ × β}
    (h : p ∈ Ordered.union entries pairs) : p.1 ∈ Ordered.keys entries ∨ p.1 ∈ Ordered.keys pairs := by
  induction pairs generalizing entries with
  | nil => exact Or.inl (List.mem_map_of_mem h)
  | cons q rest ih =>
    have hc : Ordered.keys (q :: rest) = q.1 :: Ordered.keys rest := rfl
    rcases ih h with hm | hm
    · obtain ⟨p', hp', he⟩ := List.mem_map.mp hm
      rw [← he]
      rcases Ordered.key_mem_of_mem_insert hp' with hk | hk
      · exact Or.inr (by simp [hc, hk])
      · exact Or.inl hk
    · exact Or.inr (by simp [hc, hm])

theorem Ordered.key_mem_of_mem_ofList {pairs : List (κ × β)} {p : κ × β}
    (h : p ∈ Ordered.ofList pairs) : p.1 ∈ Ordered.keys pairs :=
  (Ordered.key_mem_of_mem_union h).resolve_left (by simp [Ordered.keys])

theorem Ordered.union_append_of_apart {entries more pairs : List (κ × β)}
    (apart : ∀ p ∈ entries, ∀ q ∈ pairs, (p.1 == q.1) = false) :
    Ordered.union (entries ++ more) pairs = entries ++ Ordered.union more pairs := by
  induction pairs generalizing more with
  | nil => rfl
  | cons q rest ih =>
    have absent : ∀ p ∈ entries, (p.1 == q.1) = false := fun p hp => apart p hp q (by simp)
    have others : ∀ p ∈ entries, ∀ q ∈ rest, (p.1 == q.1) = false := fun p hp q hq => apart p hp q (by simp [hq])
    calc Ordered.union (entries ++ more) (q :: rest)
        = Ordered.union (Ordered.insert (entries ++ more) q.1 q.2) rest := rfl
      _ = Ordered.union (entries ++ Ordered.insert more q.1 q.2) rest := by rw [Ordered.insert_append absent]
      _ = entries ++ Ordered.union (Ordered.insert more q.1 q.2) rest := ih others

/-- Maps without a common key are put one after the other. -/
theorem Ordered.ofList_append_of_apart [LawfulBEq κ] {ps qs : List (κ × β)}
    (apart : ∀ p ∈ ps, ∀ q ∈ qs, (p.1 == q.1) = false) :
    Ordered.ofList (ps ++ qs) = Ordered.ofList ps ++ Ordered.ofList qs := by
  have separate : ∀ p ∈ Ordered.ofList ps, ∀ q ∈ qs, (p.1 == q.1) = false := by
    intro p hp q hq
    obtain ⟨p', hp', same⟩ := List.mem_map.mp (Ordered.key_mem_of_mem_ofList hp)
    rw [← same]
    exact apart p' hp' q hq
  calc Ordered.ofList (ps ++ qs) = Ordered.union (Ordered.ofList ps ++ []) qs := by
        rw [List.append_nil]
        exact Ordered.union_append [] ps qs
    _ = Ordered.ofList ps ++ Ordered.ofList qs := Ordered.union_append_of_apart separate

theorem Ordered.find?_union_of_absent [EquivBEq κ] {entries pairs : List (κ × β)} {k : κ}
    (h : ∀ p ∈ pairs, (p.1 == k) = false) :
    Ordered.find? (Ordered.union entries pairs) k = Ordered.find? entries k := by
  induction pairs generalizing entries with
  | nil => rfl
  | cons p rest ih =>
    have first := h p (by simp)
    exact (ih fun q hq => h q (by simp [hq])).trans (by simp [Ordered.find?_insert, first])

theorem Ordered.find?_ofList_pairs [EquivBEq κ] {pairs : List (κ × β)} {p : κ × β}
    (h : Survives Prod.fst pairs p) : Ordered.find? (Ordered.ofList pairs) p.1 = some p.2 := by
  obtain ⟨before, after, rfl, ha⟩ := h
  have step : Ordered.ofList (before ++ p :: after) =
      Ordered.union (Ordered.insert (Ordered.union [] before) p.1 p.2) after :=
    Ordered.union_append [] before (p :: after)
  rw [step, Ordered.find?_union_of_absent ha, Ordered.find?_insert]
  simp

section Rows

variable [EquivBEq κ] {key : α → κ} {value : α → β} {xs : List α}

/-- A map has for each key the value of the last thing with it. -/
theorem Ordered.find?_ofList {x : α} (h : Survives key xs x) :
    Ordered.find? (Ordered.ofList (xs.map fun y => (key y, value y))) (key x) = some (value x) :=
  Ordered.find?_ofList_pairs (survives_map (fun _ => rfl) h)

theorem Ordered.exists_survives_of_mem_ofList {q : κ × β}
    (hq : q ∈ Ordered.ofList (xs.map fun y => (key y, value y))) :
    ∃ x, Survives key xs x ∧ (key x == q.1) = true ∧ value x = q.2 := by
  obtain ⟨r, hr, he⟩ := List.mem_map.mp (Ordered.key_mem_of_mem_ofList hq)
  obtain ⟨y, hy, rfl⟩ := List.mem_map.mp hr
  obtain ⟨x, hx, hk⟩ : ∃ x, Survives key xs x ∧ (key x == key y) = true := exists_survives hy
  have same : (key x == q.1) = true := he ▸ hk
  have found := Ordered.find?_of_mem (Ordered.distinct_ofList _) hq
  rw [← Ordered.find?_congr same, Ordered.find?_ofList hx] at found
  exact ⟨x, hx, same, Option.some.inj found⟩

theorem Ordered.exists_mem_ofList_of_survives {x : α} (h : Survives key xs x) :
    ∃ k, (k, value x) ∈ Ordered.ofList (xs.map fun y => (key y, value y)) ∧ (k == key x) = true :=
  Ordered.mem_of_find? (Ordered.find?_ofList h)

end Rows

theorem Ordered.keys_insert [EquivBEq κ] (entries : List (κ × β)) (key : κ) (value : β) :
    Ordered.keys (Ordered.insert entries key value) =
      if Ordered.contains entries key then Ordered.keys entries else Ordered.keys entries ++ [key] := by
  induction entries with
  | nil => rfl
  | cons q rest ih =>
    by_cases hq : (q.1 == key) = true
    · simp [Ordered.insert, Ordered.contains, Ordered.keys, hq]
    · have hc : Ordered.contains (q :: rest) key = Ordered.contains rest key := by
        simp [Ordered.contains, hq]
      have hk : Ordered.keys (Ordered.insert (q :: rest) key value) =
          q.1 :: Ordered.keys (Ordered.insert rest key value) := by
        simp [Ordered.insert, Ordered.keys, hq]
      rw [hk, ih, hc]
      split
      · rfl
      · rfl

theorem Ordered.contains_insert [EquivBEq κ] (entries : List (κ × β)) (key k : κ) (value : β) :
    Ordered.contains (Ordered.insert entries key value) k = (key == k || Ordered.contains entries k) := by
  rw [← Ordered.find?_isSome, ← Ordered.find?_isSome, Ordered.find?_insert]
  cases key == k <;> simp

theorem Ordered.contains_iff {entries : List (κ × β)} {k : κ} :
    Ordered.contains entries k = true ↔ ∃ k' ∈ Ordered.keys entries, (k' == k) = true := by
  simp [Ordered.contains, Ordered.keys]

theorem eraseDups_concat (names : List String) (n : String) :
    (names ++ [n]).eraseDups = if n ∈ names then names.eraseDups else names.eraseDups ++ [n] := by
  rw [List.eraseDups_append]
  by_cases h : n ∈ names
  · simp [List.removeAll, h]
  · simp [List.removeAll, h, List.eraseDups_cons]

section Names

variable {embed : String → κ} (same : ∀ a b, (embed a == embed b) = (a == b))

include same

theorem survives_names_iff {name : α → String} {xs : List α} {x : α} :
    Survives (fun y => embed (name y)) xs x ↔ Survives name xs x := by
  simp only [Survives, same]

variable [EquivBEq κ]

/-- A map by names has its keys in the order in which the names first come. -/
theorem Ordered.keys_ofList_names (name : α → String) (value : α → β) (xs : List α) :
    Ordered.keys (Ordered.ofList (xs.map fun x => (embed (name x), value x))) =
      ((xs.map name).eraseDups).map embed := by
  induction xs using List.reverseRecOn with
  | nil => rfl
  | append_singleton xs x ih =>
    have step : Ordered.ofList ((xs ++ [x]).map fun x => (embed (name x), value x)) =
        Ordered.insert (Ordered.ofList (xs.map fun x => (embed (name x), value x))) (embed (name x)) (value x) := by
      rw [List.map_append]
      exact Ordered.union_append [] _ _
    have seen : Ordered.contains (Ordered.ofList (xs.map fun x => (embed (name x), value x)))
        (embed (name x)) = true ↔ name x ∈ xs.map name := by
      simp [Ordered.contains_iff, ih, same]
    rw [step, Ordered.keys_insert, ih, List.map_append, List.map_singleton, eraseDups_concat]
    by_cases h : name x ∈ xs.map name
    · rw [if_pos (seen.mpr h), if_pos h]
    · rw [if_neg (mt seen.mp h), if_neg h, List.map_append, List.map_singleton]

/-- A map by names has exactly the pairs that are last with their name. -/
theorem Ordered.mem_ofList_names {name : α → String} {value : α → β} {xs : List α} {p : κ × β} :
    p ∈ Ordered.ofList (xs.map fun x => (embed (name x), value x)) ↔
      ∃ x, Survives name xs x ∧ p = (embed (name x), value x) := by
  have named : ∀ {q : κ × β}, q ∈ Ordered.ofList (xs.map fun x => (embed (name x), value x)) →
      ∃ s, q.1 = embed s := by
    intro q hq
    obtain ⟨r, hr, he⟩ := List.mem_map.mp (Ordered.key_mem_of_mem_ofList hq)
    obtain ⟨y, _, rfl⟩ := List.mem_map.mp hr
    exact ⟨name y, he.symm⟩
  constructor
  · intro hp
    obtain ⟨x, hx, hk, hv⟩ := Ordered.exists_survives_of_mem_ofList hp
    obtain ⟨s, hs⟩ := named hp
    rw [hs, same] at hk
    have alike : s = name x := (beq_iff_eq.mp hk).symm
    exact ⟨x, (survives_names_iff same).mp hx, Prod.ext (hs.trans (congrArg embed alike)) hv.symm⟩
  · intro h
    obtain ⟨x, hx, rfl⟩ := h
    obtain ⟨k, hm, hk⟩ : ∃ k,
        (k, value x) ∈ Ordered.ofList (xs.map fun y => (embed (name y), value y)) ∧
          (k == embed (name x)) = true :=
      Ordered.exists_mem_ofList_of_survives ((survives_names_iff same).mpr hx)
    obtain ⟨s, hs⟩ := named hm
    obtain rfl : k = embed s := hs
    have alike : s = name x := beq_iff_eq.mp (same s (name x) ▸ hk)
    rwa [alike] at hm

end Names

/-- A map of texts has its keys in the order in which they first come. -/
theorem Ordered.keys_ofList_text (name : α → String) (value : α → β) (xs : List α) :
    Ordered.keys (Ordered.ofList (xs.map fun x => (Scalar.text (name x), value x))) =
      ((xs.map name).eraseDups).map Scalar.text :=
  Ordered.keys_ofList_names (fun _ _ => Scalar.text_beq) name value xs

/-- A map of texts has exactly the pairs that are last with their key. -/
theorem Ordered.mem_ofList_text {name : α → String} {value : α → β} {xs : List α} {p : Scalar × β} :
    p ∈ Ordered.ofList (xs.map fun x => (Scalar.text (name x), value x)) ↔
      ∃ x, Survives name xs x ∧ p = (.text (name x), value x) :=
  Ordered.mem_ofList_names fun _ _ => Scalar.text_beq

end StyleTokens
