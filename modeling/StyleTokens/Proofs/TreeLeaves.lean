import StyleTokens.Export.Nested
import StyleTokens.Proofs.JsonDocuments

namespace StyleTokens

namespace Nested

mutual

/-- The leaves at or below a document that stands at a key. -/
def leavesAt (path : List Scalar) (key : Scalar) : Doc → List Leaf
  | .mapping entries => match Leaf.parts? entries with
    | some (type, value) => [⟨path, key, type, value⟩]
    | none => leavesIn (path ++ [key]) entries
  | _ => []

/-- The leaves below the entries of a mapping, depth first. -/
def leavesIn (path : List Scalar) : List (Scalar × Doc) → List Leaf
  | [] => []
  | (key, child) :: rest =>
    (if isSkipped key then [] else leavesAt path key child) ++ leavesIn path rest

end

/-- The leaves of a tree, depth first. -/
def leaves : Doc → List Leaf
  | .mapping entries => leavesIn [] entries
  | _ => []

/-- A leaf of a tree that no later leaf with its key replaces. -/
def Remains (d : Doc) (l : Leaf) : Prop := Survives Leaf.key (leaves d) l

/-- The flat map after some leaves are put in one by one. -/
def putAll : List Leaf → Records → Except Fault Records
  | [], flat => .ok flat
  | l :: rest, flat => (putLeaf flat l).result.bind (putAll rest)

theorem putAll_append (ls ms : List Leaf) (flat : Records) :
    putAll (ls ++ ms) flat = (putAll ls flat).bind (putAll ms) := by
  induction ls generalizing flat with
  | nil => rfl
  | cons l rest ih =>
    rw [List.cons_append, putAll, putAll]
    cases h : (putLeaf flat l).result with
    | error fault => rfl
    | ok next => exact ih next

mutual

theorem result_walkAt (path : List Scalar) (key : Scalar) (d : Doc) (flat : Records) :
    (walkAt path key d flat).result = putAll (leavesAt path key d) flat := by
  cases d with
  | mapping entries =>
    rw [walkAt, leavesAt]
    cases h : Leaf.parts? entries with
    | none => exact result_walk (path ++ [key]) entries flat
    | some p =>
      simp only [putAll]
      cases (putLeaf flat ⟨path, key, p.1, p.2⟩).result <;> rfl
  | _ => rfl

/-- Walking a tree comes to the same as putting in its leaves in the order in which they are listed. -/
theorem result_walk (path : List Scalar) (entries : List (Scalar × Doc)) (flat : Records) :
    (walk path entries flat).result = putAll (leavesIn path entries) flat := by
  cases entries with
  | nil => rfl
  | cons p rest =>
    rw [walk, leavesIn, putAll_append]
    cases hs : isSkipped p.1 with
    | true => exact result_walk path rest flat
    | false =>
      rw [if_neg (by simp), if_neg (by simp), Traced.result_bind, result_walkAt path p.1 p.2 flat]
      congr 1
      funext next
      exact result_walk path rest next

end

theorem joinPath_text (position : Nat) (names : List String) :
    joinPath position (names.map .text) = .ok names := by
  induction names generalizing position with
  | nil => rfl
  | cons s rest ih =>
    simp only [List.map_cons, joinPath, ih]
    rfl

theorem putLeaf_ok {flat r : Records} {l : Leaf} (h : (putLeaf flat l).result = .ok r) :
    r = Ordered.insert flat l.key l.record := by
  unfold putLeaf at h
  split at h
  next =>
    rw [Traced.result_bind] at h
    cases hn : (noteRepeated l).result with
    | error fault =>
      rw [hn] at h
      cases h
    | ok _ =>
      rw [hn] at h
      exact (Except.ok.inj h).symm
  next => exact (Except.ok.inj h).symm

theorem exists_putLeaf {l : Leaf} {names : List String} (h : l.fullPath = names.map .text)
    (flat : Records) : ∃ r, (putLeaf flat l).result = .ok r := by
  unfold putLeaf
  split
  next => simp [noteRepeated, h, joinPath_text, Except.bind]
  next => exact ⟨_, rfl⟩

theorem putAll_ok {ls : List Leaf} {flat r : Records} (h : putAll ls flat = .ok r) :
    r = Ordered.union flat (ls.map fun l => (l.key, l.record)) := by
  induction ls generalizing flat with
  | nil => exact (Except.ok.inj h).symm
  | cons l rest ih =>
    rw [putAll] at h
    cases hl : (putLeaf flat l).result with
    | error fault =>
      rw [hl] at h
      cases h
    | ok next =>
      rw [hl] at h
      rw [ih h, putLeaf_ok hl]
      rfl

theorem exists_putAll {ls : List Leaf} (h : ∀ l ∈ ls, ∃ names : List String, l.fullPath = names.map .text)
    (flat : Records) : ∃ r, putAll ls flat = .ok r := by
  induction ls generalizing flat with
  | nil => exact ⟨flat, rfl⟩
  | cons l rest ih =>
    obtain ⟨⟨names, hn⟩, later⟩ := List.forall_mem_cons.mp h
    obtain ⟨next, hl⟩ := exists_putLeaf hn flat
    rw [putAll, hl]
    exact ih later next

/-- The records of leaves by key: at the place of the first leaf with the key, with the content of the
last. -/
def flatRecords (ls : List Leaf) : Records := Ordered.ofList (ls.map fun l => (l.key, l.record))

theorem flatten_ok {d : Doc} {flat : Records} (h : (flatten d).result = .ok flat) :
    (∃ entries, d = .mapping entries) ∧ flat = flatRecords (leaves d) := by
  unfold flatten at h
  split at h
  next entries =>
    rw [Traced.result_mapError, result_walk] at h
    cases hp : putAll (leavesIn [] entries) [] with
    | error fault =>
      rw [hp] at h
      cases h
    | ok r =>
      rw [hp] at h
      cases h
      exact ⟨⟨entries, rfl⟩, putAll_ok hp⟩
  next => cases h

theorem flatten_ne_rejected (d : Doc) (issue : Issue) :
    (flatten d).result ≠ .error (.failure (.rejected issue)) := by
  intro h
  unfold flatten at h
  split at h
  next entries =>
    rw [Traced.result_mapError] at h
    cases hw : (walk [] entries []).result with
    | ok flat =>
      rw [hw] at h
      cases h
    | error fault =>
      rw [hw] at h
      cases h
  next => cases h

mutual

theorem exists_path_of_leavesAt {path : List Scalar} {key : Scalar} {d : Doc} {l : Leaf}
    (texts : ∃ names : List String, path ++ [key] = names.map .text) (json : d.IsJson)
    (hl : l ∈ leavesAt path key d) : ∃ names : List String, l.fullPath = names.map .text := by
  cases d with
  | mapping entries =>
    rw [leavesAt] at hl
    cases hp : Leaf.parts? entries with
    | some p =>
      rw [hp] at hl
      cases List.mem_singleton.mp hl
      exact texts
    | none =>
      rw [hp] at hl
      exact exists_path_of_leavesIn texts json hl
  | _ => cases hl

/-- All keys on the way to a leaf of a JSON document are texts. -/
theorem exists_path_of_leavesIn {path : List Scalar} {entries : List (Scalar × Doc)} {l : Leaf}
    (texts : ∃ names : List String, path = names.map .text) (json : Doc.EntriesJson entries)
    (hl : l ∈ leavesIn path entries) : ∃ names : List String, l.fullPath = names.map .text := by
  cases entries with
  | nil => cases hl
  | cons p rest =>
    obtain ⟨⟨s, hs⟩, _, hd, hr⟩ := json
    rw [leavesIn] at hl
    rcases List.mem_append.mp hl with hl | hl
    · split at hl
      next => cases hl
      next =>
        obtain ⟨names, hn⟩ := texts
        exact exists_path_of_leavesAt ⟨names ++ [s], by simp [hn, hs]⟩ hd hl
    · exact exists_path_of_leavesIn texts hr hl

end

/-- Every JSON object can be flattened. -/
theorem flatten_of_json {entries : List (Scalar × Doc)} (json : Doc.EntriesJson entries) :
    (flatten (.mapping entries)).result = .ok (flatRecords (leaves (.mapping entries))) := by
  have paths : ∀ l ∈ leavesIn [] entries, ∃ names : List String, l.fullPath = names.map .text :=
    fun l hl => exists_path_of_leavesIn ⟨[], rfl⟩ json hl
  obtain ⟨r, hr⟩ := exists_putAll paths []
  have walked : (flatten (.mapping entries)).result = .ok r := by
    rw [flatten, Traced.result_mapError, result_walk, hr]
    rfl
  rw [walked, (flatten_ok walked).2]

theorem exists_path_of_leaves {d : Doc} (json : d.IsJson) {l : Leaf} (hl : l ∈ leaves d) :
    ∃ names : List String, l.fullPath = names.map .text := by
  cases d with
  | mapping entries => exact exists_path_of_leavesIn ⟨[], rfl⟩ json hl
  | _ => cases hl

/-- The entries of the record of a leaf with its references shortened. -/
def shortRecord (l : Leaf) : List (Scalar × Doc) := Leaf.recordOf l.type (shortenReferences l.value)

theorem shorten_recordOf (type value : Doc) :
    Ordered.insert (Leaf.recordOf type value) (.text RecordKey.value)
        (shortenReferences ((Doc.get? (Leaf.recordOf type value) RecordKey.value).getD .null)) =
      Leaf.recordOf type (shortenReferences value) := by
  simp [Leaf.recordOf, Doc.get?, Ordered.find?, Ordered.insert, Scalar.text_beq, RecordKey.type, RecordKey.value]

/-- The flat map of leaves as a document after its references are shortened. -/
theorem recordsDoc_shortenRecords (ls : List Leaf) :
    recordsDoc (shortenRecords RecordKey.value (flatRecords ls)) =
      .mapping (Ordered.ofList (ls.map fun l => (l.key, .mapping (shortRecord l)))) := by
  have record : ∀ l : Leaf, Ordered.insert l.record (.text RecordKey.value)
      (shortenReferences ((Doc.get? l.record RecordKey.value).getD .null)) = shortRecord l :=
    fun l => shorten_recordOf l.type l.value
  have moved := Ordered.map_ofList (fun r => Doc.mapping (Ordered.insert r (.text RecordKey.value)
    (shortenReferences ((Doc.get? r RecordKey.value).getD .null)))) (ls.map fun l => (l.key, l.record))
  simp only [List.map_map, Function.comp_def, record] at moved
  simp only [recordsDoc, shortenRecords, flatRecords, List.map_map, Function.comp_def]
  exact congrArg Doc.mapping moved

end Nested

end StyleTokens
