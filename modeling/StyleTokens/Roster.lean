namespace StyleTokens

universe u

/-- Replaces the thing of the same name, or adds the new one at the end. -/
def putByName {α : Type u} (name : α → String) (x : α) : List α → List α
  | [] => [x]
  | y :: rest => if name y = name x then x :: rest else y :: putByName name x rest

theorem mem_names_putByName {α : Type u} {name : α → String} {x : α} {xs : List α} {n : String} :
    n ∈ (putByName name x xs).map name ↔ n ∈ xs.map name ∨ n = name x := by
  induction xs with
  | nil => simp [putByName]
  | cons y rest ih =>
    by_cases h : name y = name x
    · simp only [putByName, h, if_true, List.map_cons, List.mem_cons]
      constructor
      · rintro (h' | h')
        · exact Or.inl (Or.inl h')
        · exact Or.inl (Or.inr h')
      · rintro ((h' | h') | h')
        · exact Or.inl h'
        · exact Or.inr h'
        · exact Or.inl h'
    · simp only [putByName, h, if_false, List.map_cons, List.mem_cons, ih, or_assoc]

theorem nodup_putByName {α : Type u} {name : α → String} {x : α} {xs : List α}
    (hn : (xs.map name).Nodup) : ((putByName name x xs).map name).Nodup := by
  induction xs with
  | nil => simp [putByName]
  | cons y rest ih =>
    obtain ⟨hy, hr⟩ := List.nodup_cons.mp hn
    by_cases h : name y = name x
    · simp only [putByName, h, if_true, List.map_cons]
      exact List.nodup_cons.mpr ⟨h ▸ hy, hr⟩
    · simp only [putByName, h, if_false, List.map_cons]
      refine List.nodup_cons.mpr ⟨fun hm => ?_, ih hr⟩
      exact (mem_names_putByName.mp hm).elim hy h

/-- Things with distinct names, in the order in which the names first came. -/
structure Roster (α : Type u) (name : α → String) where
  items : List α
  distinct : (items.map name).Nodup

namespace Roster

variable {α : Type u} {name : α → String}

def empty : Roster α name := ⟨[], by simp⟩

/-- Replaces the thing of the same name, or adds the new one at the end. -/
def put (r : Roster α name) (x : α) : Roster α name :=
  ⟨putByName name x r.items, nodup_putByName r.distinct⟩

def ofList (xs : List α) : Roster α name :=
  xs.foldl put empty

def get? (r : Roster α name) (n : String) : Option α :=
  r.items.find? fun x => name x == n

def names (r : Roster α name) : List String :=
  r.items.map name

def contains (r : Roster α name) (n : String) : Bool :=
  r.items.any fun x => name x == n

def size (r : Roster α name) : Nat :=
  r.items.length

theorem ext_items {r s : Roster α name} (h : r.items = s.items) : r = s := by
  cases r
  cases s
  cases h
  rfl

instance [DecidableEq α] : DecidableEq (Roster α name) := fun r s =>
  if h : r.items = s.items then isTrue (ext_items h) else isFalse fun hh => h (hh ▸ rfl)

end Roster

end StyleTokens
