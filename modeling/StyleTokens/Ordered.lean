namespace StyleTokens

universe u v

namespace Ordered

variable {κ : Type u} {β : Type v} [BEq κ]

/-- The value of the first pair with the key. -/
def find? : List (κ × β) → κ → Option β
  | [], _ => none
  | (k, v) :: rest, key => if k == key then some v else find? rest key

def contains (entries : List (κ × β)) (key : κ) : Bool :=
  entries.any fun p => p.1 == key

/-- A known key takes the new value where it stands; a new key goes to the end. -/
def insert : List (κ × β) → κ → β → List (κ × β)
  | [], key, value => [(key, value)]
  | (k, v) :: rest, key, value =>
    if k == key then (k, value) :: rest else (k, v) :: insert rest key value

/-- Inserts the pairs of the second list into the first, one by one. -/
def union (entries pairs : List (κ × β)) : List (κ × β) :=
  pairs.foldl (fun acc p => insert acc p.1 p.2) entries

/-- One pair for each distinct key, at the place of its first pair, with the value of its last. -/
def ofList (pairs : List (κ × β)) : List (κ × β) :=
  union [] pairs

def keys (entries : List (κ × β)) : List κ :=
  entries.map Prod.fst

theorem find?_isSome (entries : List (κ × β)) (key : κ) :
    (find? entries key).isSome = contains entries key := by
  induction entries with
  | nil => rfl
  | cons p rest ih =>
    obtain ⟨k, v⟩ := p
    by_cases h : k == key <;> simp_all [find?, contains]

theorem find?_insert [EquivBEq κ] (entries : List (κ × β)) (key k : κ) (value : β) :
    find? (insert entries key value) k = if key == k then some value else find? entries k := by
  induction entries with
  | nil => rfl
  | cons p rest ih =>
    obtain ⟨k', v'⟩ := p
    by_cases h : k' == key
    · have same : (k' == k) = (key == k) := BEq.congr_left h
      by_cases hk : key == k <;> simp [insert, find?, h, same, hk]
    · simp only [insert, h, Bool.false_eq_true, if_false, find?, ih]
      by_cases hk : k' == k
      · have other : ¬ (key == k) = true := fun hh => h (BEq.trans hk (BEq.symm hh))
        simp [hk, other]
      · simp [hk]

end Ordered

end StyleTokens
