import StyleTokens.Token.Record
import StyleTokens.Proofs.LastEntries
import Mathlib.Data.List.Forall2
import Mathlib.Data.List.Nodup

namespace StyleTokens

section Sequences

variable {ε δ α β : Type} {f : α → Except ε β}

theorem except_bind_ok_iff {x : Except ε α} {b : β} :
    x.bind f = .ok b ↔ ∃ a, x = .ok a ∧ f a = .ok b := by
  cases x <;> simp [Except.bind]

theorem except_mapError_ok_iff {x : Except ε α} {f : ε → δ} {a : α} :
    x.mapError f = .ok a ↔ x = .ok a := by
  cases x <;> simp [Except.mapError]

theorem except_map_ok_iff {x : Except ε α} {g : α → β} {b : β} :
    x.map g = .ok b ↔ ∃ a, x = .ok a ∧ g a = b := by
  cases x <;> simp [Except.map]

theorem except_map_error_iff {x : Except ε α} {g : α → β} {e : ε} : x.map g = .error e ↔ x = .error e := by
  cases x <;> simp [Except.map]

theorem mapM_ok_iff {xs : List α} {ys : List β} :
    xs.mapM f = .ok ys ↔ List.Forall₂ (fun x y => f x = .ok y) xs ys := by
  induction xs generalizing ys with
  | nil =>
    rw [List.mapM_nil, List.forall₂_nil_left_iff]
    exact ⟨fun h => (Except.ok.inj h).symm, fun h => h ▸ rfl⟩
  | cons x rest ih =>
    rw [List.mapM_cons, List.forall₂_cons_left_iff]
    cases hx : f x with
    | error e => simp [bind, Except.bind]
    | ok y =>
      cases hr : rest.mapM f with
      | error e =>
        have none : ∀ zs, ¬ List.Forall₂ (fun x y => f x = .ok y) rest zs := by
          intro zs hz
          rw [← ih, hr] at hz
          cases hz
        simp [bind, Except.bind, none]
      | ok zs =>
        have all : ∀ ws, List.Forall₂ (fun x y => f x = .ok y) rest ws ↔ zs = ws := by
          intro ws
          rw [← ih, hr, Except.ok.injEq]
        simp [bind, Except.bind, pure, Except.pure, all, eq_comm]

theorem exists_mapM_ok_iff {xs : List α} :
    (∃ ys, xs.mapM f = .ok ys) ↔ ∀ x ∈ xs, ∃ y, f x = .ok y := by
  simp only [mapM_ok_iff]
  induction xs with
  | nil => exact ⟨fun _ => by simp, fun _ => ⟨[], .nil⟩⟩
  | cons x rest ih =>
    rw [List.forall_mem_cons, ← ih]
    constructor
    · intro h
      obtain ⟨_, h⟩ := h
      obtain ⟨y, ys, hy, hr, _⟩ := List.forall₂_cons_left_iff.mp h
      exact ⟨⟨y, hy⟩, ys, hr⟩
    · intro h
      obtain ⟨⟨y, hy⟩, ys, hr⟩ := h
      exact ⟨y :: ys, .cons hy hr⟩

/-- Reading many fails with the error of the first one that cannot be read. -/
theorem mapM_error_iff {xs : List α} {e : ε} :
    xs.mapM f = .error e ↔
      ∃ before x after, xs = before ++ x :: after ∧ (∀ y ∈ before, ∃ b, f y = .ok b) ∧ f x = .error e := by
  induction xs with
  | nil =>
    rw [List.mapM_nil]
    constructor
    · intro h
      cases h
    · rintro ⟨before, x, after, he, -⟩
      simp at he
  | cons x rest ih =>
    rw [List.mapM_cons]
    cases hx : f x with
    | error e' =>
      simp only [bind, Except.bind, Except.error.injEq]
      constructor
      · rintro rfl
        exact ⟨[], x, rest, rfl, by simp, hx⟩
      · rintro ⟨before, y, after, he, read, hy⟩
        cases before with
        | nil =>
          obtain ⟨rfl, -⟩ := List.cons.inj he
          exact Except.error.inj (hx.symm.trans hy)
        | cons z before =>
          obtain ⟨rfl, -⟩ := List.cons.inj he
          obtain ⟨b, hb⟩ := read x (by simp)
          cases hx.symm.trans hb
    | ok b =>
      have later : (do let ys ← rest.mapM f; pure (b :: ys) : Except ε (List β)) = .error e ↔
          rest.mapM f = .error e := by
        cases rest.mapM f <;> simp [bind, Except.bind, pure, Except.pure]
      simp only [bind, Except.bind] at later ⊢
      rw [later, ih]
      constructor
      · rintro ⟨before, y, after, rfl, read, hy⟩
        exact ⟨x :: before, y, after, rfl, List.forall_mem_cons.mpr ⟨⟨b, hx⟩, read⟩, hy⟩
      · rintro ⟨before, y, after, he, read, hy⟩
        cases before with
        | nil =>
          obtain ⟨rfl, -⟩ := List.cons.inj he
          cases hx.symm.trans hy
        | cons z before =>
          obtain ⟨rfl, rfl⟩ := List.cons.inj he
          exact ⟨before, y, after, rfl, (List.forall_mem_cons.mp read).2, hy⟩

theorem forall_or_exists_first (P : α → Prop) (xs : List α) :
    (∀ x ∈ xs, P x) ∨ ∃ before x after, xs = before ++ x :: after ∧ (∀ y ∈ before, P y) ∧ ¬ P x := by
  induction xs with
  | nil => exact .inl (by simp)
  | cons x rest ih =>
    by_cases here : P x
    · rcases ih with all | ⟨before, y, after, rfl, fine, off⟩
      · exact .inl (List.forall_mem_cons.mpr ⟨here, all⟩)
      · exact .inr ⟨x :: before, y, after, rfl, List.forall_mem_cons.mpr ⟨here, fine⟩, off⟩
    · exact .inr ⟨[], x, rest, rfl, by simp, here⟩

theorem exists_of_forall₂_left {R : α → β → Prop} {xs : List α} {ys : List β}
    (h : List.Forall₂ R xs ys) {x : α} (hx : x ∈ xs) : ∃ y ∈ ys, R x y := by
  induction h with
  | nil => simp at hx
  | cons hr _ ih =>
    rcases List.mem_cons.mp hx with rfl | hx
    · exact ⟨_, by simp, hr⟩
    · obtain ⟨y, hy, hr⟩ := ih hx
      exact ⟨y, List.mem_cons_of_mem _ hy, hr⟩

theorem exists_of_forall₂_right {R : α → β → Prop} {xs : List α} {ys : List β}
    (h : List.Forall₂ R xs ys) {y : β} (hy : y ∈ ys) : ∃ x ∈ xs, R x y := by
  induction h with
  | nil => simp at hy
  | cons hr _ ih =>
    rcases List.mem_cons.mp hy with rfl | hy
    · exact ⟨_, by simp, hr⟩
    · obtain ⟨x, hx, hr⟩ := ih hy
      exact ⟨x, List.mem_cons_of_mem _ hx, hr⟩

theorem forall₂_congr_left {γ : Type} {K : α → β → Prop} {P : β → γ → Prop} {Q : α → γ → Prop}
    {xs : List α} {ys : List β} {zs : List γ} (h : List.Forall₂ K xs ys)
    (same : ∀ x y z, K x y → (P y z ↔ Q x z)) : List.Forall₂ P ys zs ↔ List.Forall₂ Q xs zs := by
  induction h generalizing zs with
  | nil => simp only [List.forall₂_nil_left_iff]
  | cons hk _ ih => simp only [List.forall₂_cons_left_iff, same _ _ _ hk, ih]

end Sequences

section Rosters

variable {α : Type} {name : α → String}

theorem putByName_of_fresh {x : α} {xs : List α} (h : name x ∉ xs.map name) :
    putByName name x xs = xs ++ [x] := by
  induction xs with
  | nil => rfl
  | cons y rest ih =>
    obtain ⟨hy, hr⟩ := not_or.mp (mt List.mem_cons.mpr h)
    rw [putByName, if_neg (Ne.symm hy), ih hr, List.cons_append]

theorem Roster.items_foldl_put {xs : List α} {r : Roster α name}
    (h : ((r.items ++ xs).map name).Nodup) : (xs.foldl Roster.put r).items = r.items ++ xs := by
  induction xs generalizing r with
  | nil => simp
  | cons x rest ih =>
    have fresh : name x ∉ r.items.map name := by
      rw [List.map_append, List.map_cons] at h
      intro hm
      exact (List.disjoint_of_nodup_append h) hm (by simp)
    have put : (r.put x).items = r.items ++ [x] := putByName_of_fresh fresh
    have moved : (r.put x).items ++ rest = r.items ++ x :: rest := by simp [put]
    rw [List.foldl_cons, ih (moved ▸ h), moved]

/-- Things with distinct names keep their order in a roster. -/
theorem Roster.items_ofList {xs : List α} (h : (xs.map name).Nodup) :
    (Roster.ofList xs : Roster α name).items = xs :=
  Roster.items_foldl_put (r := Roster.empty) h

theorem Roster.ofList_items (r : Roster α name) : Roster.ofList r.items = r :=
  Roster.ext_items (Roster.items_ofList r.distinct)

theorem distinct_of_nodup {value : α → Doc} {xs : List α} (h : (xs.map name).Nodup) :
    Ordered.Distinct (xs.map fun x => (Scalar.text (name x), value x)) := by
  refine List.pairwise_map.mpr ((List.pairwise_map.mp h).imp ?_)
  intro a b differ
  rw [Scalar.text_beq]
  exact beq_eq_false_iff_ne.mpr differ

theorem nodup_of_distinct {entries : List (Scalar × Doc)} {xs : List α}
    (hd : Ordered.Distinct entries)
    (h : List.Forall₂ (fun p x => p.1 = .text (name x)) entries xs) : (xs.map name).Nodup := by
  induction h with
  | nil => simp
  | @cons p x ps xs hp hr ih =>
    obtain ⟨apart, hps⟩ := List.pairwise_cons.mp hd
    refine List.nodup_cons.mpr ⟨?_, ih hps⟩
    intro hm
    obtain ⟨y, hy, he⟩ := List.mem_map.mp hm
    obtain ⟨q, hq, hqy⟩ := exists_of_forall₂_right hr hy
    have differ := apart q hq
    rw [hp, hqy, he, BEq.rfl] at differ
    cases differ

/-- Things that are made of a map of texts have the names in the order in which they first come. -/
theorem names_of_ofList {β : Type} {key : β → String} {value : β → Doc} {ys : List β} {xs : List α}
    (h : List.Forall₂ (fun p x => p.1 = Scalar.text (name x))
      (Ordered.ofList (ys.map fun y => (Scalar.text (key y), value y))) xs) :
    xs.map name = (ys.map key).eraseDups := by
  have keys : ∀ {entries : List (Scalar × Doc)} {ys : List α},
      List.Forall₂ (fun p x => p.1 = .text (name x)) entries ys →
        Ordered.keys entries = (ys.map name).map Scalar.text := by
    intro entries ys hy
    induction hy with
    | nil => rfl
    | cons hp _ ih =>
      simp only [Ordered.keys, List.map_cons, hp] at ih ⊢
      rw [ih]
  have texts : Function.Injective Scalar.text := fun _ _ => Scalar.text.inj
  apply texts.list_map
  rw [← keys h, Ordered.keys_ofList_text]

end Rosters

theorem TokenValue.ofScalar?_eq_some_iff {s : Scalar} {v : TokenValue} :
    TokenValue.ofScalar? s = some v ↔ s = v.toScalar := by
  cases s <;> cases v <;> simp [TokenValue.ofScalar?, TokenValue.toScalar]

theorem Token.checkType_ok_iff {d : Doc} {s : String} :
    Token.checkType d = .ok s ↔ d = .text s := by
  unfold Token.checkType
  split
  next => simp
  next h =>
    constructor
    · intro he
      cases he
    · intro he
      exact absurd he (h s)

theorem Token.checkValue_ok_iff {d : Doc} {v : TokenValue} :
    Token.checkValue d = .ok v ↔ d = .scalar v.toScalar := by
  unfold Token.checkValue
  split
  next s =>
    rw [Doc.scalar.injEq, ← TokenValue.ofScalar?_eq_some_iff]
    cases TokenValue.ofScalar? s <;> simp
  next h =>
    constructor
    · intro he
      cases he
    · intro he
      exact absurd he (h _)

theorem Token.check_ok_iff {name : Scalar} {type value : Doc} {collection : Option Doc} {t : Token} :
    Token.check name type value collection = .ok t ↔
      name = .text t.name ∧ type = .text t.type ∧ value = .scalar t.value.toScalar ∧
        Token.checkCollection collection = .ok t.collection := by
  rw [← Token.checkType_ok_iff, ← Token.checkValue_ok_iff]
  simp only [Token.check]
  split
  next s ty v c hty hv hc =>
    rw [hty, hv, hc]
    split
    next he =>
      constructor
      · intro h
        cases h
      · intro h
        obtain ⟨hs, _⟩ := h
        exact absurd ((Scalar.text.inj hs).symm.trans he) t.named
    next hne =>
      constructor
      · intro h
        cases h
        exact ⟨rfl, rfl, rfl, rfl⟩
      · intro h
        obtain ⟨hs, h1, h2, h3⟩ := h
        cases hs
        cases h1
        cases h2
        cases h3
        rfl
  next h =>
    constructor
    · intro he
      cases he
    · intro h
      obtain ⟨hs, h1, h2, h3⟩ := h
      exact absurd h3 (h _ _ _ _ hs h1 h2)

/-- A record makes a token exactly if it has the type and the value of the token under its name. -/
theorem Token.ofRecord_ok_iff {name : Scalar} {record : Doc} {t : Token} :
    Token.ofRecord name record = .ok t ↔
      ∃ entries, record = .mapping entries ∧ name = .text t.name ∧
        Doc.get? entries RecordKey.type = some (.text t.type) ∧
        Doc.get? entries RecordKey.value = some (.scalar t.value.toScalar) ∧
        Token.checkCollection (Doc.get? entries RecordKey.collection) = .ok t.collection := by
  constructor
  · intro h
    unfold Token.ofRecord at h
    split at h
    next entries =>
      refine ⟨entries, rfl, ?_⟩
      split at h
      next => cases h
      next type hty =>
        split at h
        next => cases h
        next value hv =>
          cases hc : Token.check name type value (Doc.get? entries RecordKey.collection) with
          | error vs =>
            rw [hc] at h
            cases h
          | ok u =>
            rw [hc] at h
            cases h
            obtain ⟨hn, rfl, rfl, hcol⟩ := Token.check_ok_iff.mp hc
            exact ⟨hn, hty, hv, hcol⟩
    next => cases h
  · intro h
    obtain ⟨entries, rfl, hn, hty, hv, hcol⟩ := h
    have hc := Token.check_ok_iff.mpr ⟨hn, rfl, rfl, hcol⟩
    simp only [Token.ofRecord, hty, hv, hc]
    rfl

theorem Token.name_of_ofRecord {name : Scalar} {record : Doc} {t : Token}
    (h : Token.ofRecord name record = .ok t) : name = .text t.name := by
  obtain ⟨_, _, hn, _⟩ := Token.ofRecord_ok_iff.mp h
  exact hn

theorem Mode.ofDoc_ok {name : Scalar} {d : Doc} {m : Mode} (h : Mode.ofDoc name d = .ok m) :
    ∃ entries tokens, d = .mapping entries ∧ name = .text m.name ∧
      List.Forall₂ (fun p t => Token.ofRecord p.1 p.2 = .ok t) entries tokens ∧
      m.tokens = .ofList tokens := by
  unfold Mode.ofDoc at h
  split at h
  next entries =>
    cases hm : entries.mapM fun p => Token.ofRecord p.1 p.2 with
    | error e =>
      rw [hm] at h
      cases h
    | ok tokens =>
      rw [hm] at h
      cases name with
      | text s =>
        cases h
        exact ⟨entries, tokens, rfl, rfl, mapM_ok_iff.mp hm, rfl⟩
      | _ => cases h
  next => cases h

/-- A mapping makes a mode exactly if its entries make the tokens of the mode, in order. -/
theorem Mode.ofDoc_ok_iff {name : Scalar} {entries : List (Scalar × Doc)} {m : Mode}
    (hd : Ordered.Distinct entries) :
    Mode.ofDoc name (.mapping entries) = .ok m ↔
      name = .text m.name ∧
        List.Forall₂ (fun p t => Token.ofRecord p.1 p.2 = .ok t) entries m.tokens.items := by
  constructor
  · intro h
    obtain ⟨_, tokens, he, hn, all, hm⟩ := Mode.ofDoc_ok h
    cases he
    have named := all.imp fun _ _ ht => Token.name_of_ofRecord ht
    rw [hm, Roster.items_ofList (nodup_of_distinct hd named)]
    exact ⟨hn, all⟩
  · intro h
    obtain ⟨rfl, all⟩ := h
    simp only [Mode.ofDoc, mapM_ok_iff.mpr all, bind, Except.bind, Roster.ofList_items]

theorem Mode.exists_ofDoc_ok_iff {name : Scalar} {entries : List (Scalar × Doc)} :
    (∃ m, Mode.ofDoc name (.mapping entries) = .ok m) ↔
      (∃ s, name = .text s) ∧ ∀ p ∈ entries, ∃ t, Token.ofRecord p.1 p.2 = .ok t := by
  rw [← exists_mapM_ok_iff]
  constructor
  · intro h
    obtain ⟨m, h⟩ := h
    obtain ⟨_, tokens, he, hn, all, _⟩ := Mode.ofDoc_ok h
    cases he
    exact ⟨⟨m.name, hn⟩, tokens, mapM_ok_iff.mpr all⟩
  · intro h
    obtain ⟨⟨s, rfl⟩, tokens, all⟩ := h
    exact ⟨⟨s, .ofList tokens⟩, by simp [Mode.ofDoc, all, bind, Except.bind]⟩

theorem Theme.ofDoc_ok {name : Scalar} {d : Doc} {t : Theme} (h : Theme.ofDoc name d = .ok t) :
    ∃ entries modes, d = .mapping entries ∧ name = .text t.name ∧
      List.Forall₂ (fun p m => Mode.ofDoc p.1 p.2 = .ok m) entries modes ∧
      t.modes = .ofList modes := by
  unfold Theme.ofDoc at h
  split at h
  next entries =>
    cases hm : entries.mapM fun p => Mode.ofDoc p.1 p.2 with
    | error e =>
      rw [hm] at h
      cases h
    | ok modes =>
      rw [hm] at h
      cases name with
      | text s =>
        by_cases hs : s = ""
        · simp [bind, Except.bind, hs] at h
        · simp only [bind, Except.bind, hs, dite_false] at h
          cases h
          exact ⟨entries, modes, rfl, rfl, mapM_ok_iff.mp hm, rfl⟩
      | _ => cases h
  next => cases h

theorem Mode.name_of_ofDoc {name : Scalar} {d : Doc} {m : Mode} (h : Mode.ofDoc name d = .ok m) :
    name = .text m.name := by
  obtain ⟨_, _, _, hn, _⟩ := Mode.ofDoc_ok h
  exact hn

theorem Theme.name_of_ofDoc {name : Scalar} {d : Doc} {t : Theme} (h : Theme.ofDoc name d = .ok t) :
    name = .text t.name := by
  obtain ⟨_, _, _, hn, _⟩ := Theme.ofDoc_ok h
  exact hn

/-- A mapping makes a theme exactly if its entries make the modes of the theme, in order. -/
theorem Theme.ofDoc_ok_iff {name : Scalar} {entries : List (Scalar × Doc)} {t : Theme}
    (hd : Ordered.Distinct entries) :
    Theme.ofDoc name (.mapping entries) = .ok t ↔
      name = .text t.name ∧
        List.Forall₂ (fun p m => Mode.ofDoc p.1 p.2 = .ok m) entries t.modes.items := by
  constructor
  · intro h
    obtain ⟨_, modes, he, hn, all, hm⟩ := Theme.ofDoc_ok h
    cases he
    have named := all.imp fun p m hm => Mode.name_of_ofDoc hm
    rw [hm, Roster.items_ofList (nodup_of_distinct hd named)]
    exact ⟨hn, all⟩
  · intro h
    obtain ⟨rfl, all⟩ := h
    simp only [Theme.ofDoc, mapM_ok_iff.mpr all, bind, Except.bind, t.named, dite_false,
      Roster.ofList_items]

theorem Theme.exists_ofDoc_ok_iff {name : Scalar} {entries : List (Scalar × Doc)} :
    (∃ t, Theme.ofDoc name (.mapping entries) = .ok t) ↔
      (∃ s, name = .text s ∧ s ≠ "") ∧ ∀ p ∈ entries, ∃ m, Mode.ofDoc p.1 p.2 = .ok m := by
  rw [← exists_mapM_ok_iff]
  constructor
  · intro h
    obtain ⟨t, h⟩ := h
    obtain ⟨_, modes, he, hn, all, _⟩ := Theme.ofDoc_ok h
    cases he
    exact ⟨⟨t.name, hn, t.named⟩, modes, mapM_ok_iff.mpr all⟩
  · intro h
    obtain ⟨⟨s, rfl, hs⟩, modes, all⟩ := h
    exact ⟨⟨s, .ofList modes, hs⟩, by simp [Theme.ofDoc, all, bind, Except.bind, hs]⟩

/-- Entries make a table exactly if they make its themes, in order. -/
theorem Table.ofEntries_ok_iff {entries : List (Scalar × Doc)} {t : Table}
    (hd : Ordered.Distinct entries) :
    Table.ofEntries entries = .ok t ↔
      List.Forall₂ (fun p th => Theme.ofDoc p.1 p.2 = .ok th) entries t.themes.items := by
  constructor
  · intro h
    cases hm : entries.mapM fun p => Theme.ofDoc p.1 p.2 with
    | error e =>
      simp [Table.ofEntries, hm, bind, Except.bind] at h
    | ok themes =>
      simp only [Table.ofEntries, hm, bind, Except.bind] at h
      cases h
      have all := mapM_ok_iff.mp hm
      have named := all.imp fun p th hth => Theme.name_of_ofDoc hth
      rwa [Roster.items_ofList (nodup_of_distinct hd named)]
  · intro all
    simp only [Table.ofEntries, mapM_ok_iff.mpr all, bind, Except.bind, Roster.ofList_items]

theorem Table.exists_ofEntries_ok_iff {entries : List (Scalar × Doc)} :
    (∃ t, Table.ofEntries entries = .ok t) ↔
      ∀ p ∈ entries, ∃ th, Theme.ofDoc p.1 p.2 = .ok th := by
  rw [← exists_mapM_ok_iff]
  constructor
  · intro h
    obtain ⟨t, h⟩ := h
    cases hm : entries.mapM fun p => Theme.ofDoc p.1 p.2 with
    | error e => simp [Table.ofEntries, hm, bind, Except.bind] at h
    | ok themes => exact ⟨themes, rfl⟩
  · intro h
    obtain ⟨themes, all⟩ := h
    exact ⟨⟨.ofList themes⟩, by simp [Table.ofEntries, all, bind, Except.bind]⟩

end StyleTokens
