import StyleTokens.Proofs.BuiltTables
import StyleTokens.Proofs.FollowedPaths
import StyleTokens.Source

namespace StyleTokens

namespace Path

/-- The two parts of a name are the whole name. -/
theorem cut_append (name : String) : (cut name).1 ++ (cut name).2 = name := by
  have whole := List.takeWhile_append_dropWhile (p := (· != '.')) (l := name.toList.reverse)
  have later : name.toList.reverse.drop (name.toList.reverse.takeWhile (· != '.')).length =
      name.toList.reverse.dropWhile (· != '.') := by
    conv_lhs => enter [2]; rw [← whole]
    exact List.drop_left
  unfold cut
  dsimp only
  rw [later]
  split
  next point before found =>
    split
    next => simp
    next =>
      have dot : point = '.' := by
        have first := List.head?_dropWhile_not (· != '.') name.toList.reverse
        rw [found] at first
        simpa using first
      rw [found, dot] at whole
      have chars := congrArg List.reverse whole
      rw [List.reverse_reverse, List.reverse_append, List.reverse_cons] at chars
      apply String.toList_inj.mp
      simpa using chars
  next => simp

theorem pieces_of_not_mem {cs : List Char} (h : '/' ∉ cs) : pieces cs = [cs] := by
  induction cs with
  | nil => rfl
  | cons c rest ih =>
    rw [List.mem_cons, not_or] at h
    rw [pieces, if_neg (Ne.symm h.1), ih h.2]

theorem anchorOf_of_not_mem {cs : List Char} (h : '/' ∉ cs) : anchorOf cs = .working := by
  have none : cs.takeWhile (· == '/') = [] := by
    cases cs with
    | nil => rfl
    | cons c rest =>
      rw [List.mem_cons, not_or] at h
      exact List.takeWhile_cons_of_neg (by simpa using Ne.symm h.1)
  rw [anchorOf, none]
  rfl

/-- A text that can be the name of a file: one part of a path, and none that leads elsewhere. -/
structure IsFileName (name : String) : Prop where
  slash : '/' ∉ name.toList
  null : '\x00' ∉ name.toList
  filled : name ≠ ""
  here : name ≠ "."
  above : name ≠ up

instance (name : String) : Decidable (IsFileName name) :=
  decidable_of_iff ('/' ∉ name.toList ∧ '\x00' ∉ name.toList ∧ name ≠ "" ∧ name ≠ "." ∧ name ≠ up)
    ⟨fun ⟨slash, null, filled, here, above⟩ => ⟨slash, null, filled, here, above⟩,
      fun h => ⟨h.slash, h.null, h.filled, h.here, h.above⟩⟩

theorem child_of_fileName {p : Path} {name : String} (h : IsFileName name) :
    p.child name = ⟨p.anchor, p.parts ++ [name]⟩ := by
  have filled : name.toList ≠ [] := fun he => h.filled (String.toList_inj.mp he)
  have here : name.toList ≠ ['.'] := fun he => h.here (String.toList_inj.mp he)
  simp [child, join, ofString, anchorOf_of_not_mem h.slash, pieces_of_not_mem h.slash, filled, here]

theorem hasNull_child {p : Path} {name : String} (h : IsFileName name) : (p.child name).hasNull = p.hasNull := by
  simp [hasNull, child_of_fileName h, h.null]

end Path

namespace FileTree

variable {directory : Path} {name : String}

/-- A name is short enough to be looked up in a directory. -/
def Fits (directory : Path) (name : String) : Prop :=
  name.utf8ByteSize ≤ partLimit ∧ (directory.child name).text.utf8ByteSize ≤ pathLimit

instance : Decidable (Fits directory name) := inferInstanceAs (Decidable (_ ∧ _))

/-- A path leads to a directory. -/
structure Opens (t : FileTree) (directory : Path) (place : Place) : Prop where
  clean : directory.hasNull = false
  located : t.locate directory = .ok place
  here : t.node? place = some .directory

variable {t : FileTree} {place : Place}

theorem locate_child (opens : t.Opens directory place) (h : Path.IsFileName name) :
    t.locate (directory.child name) = if Fits directory name then .ok (place ++ [name]) else .error .nameTooLong := by
  have reached : directory.parts.foldlM t.enter (directory.origin t.working) = .ok place := by
    have located := opens.located
    unfold locate at located
    split at located
    next => cases located
    next => exact located
  have entered : t.enter place name = if partLimit < name.utf8ByteSize then .error .nameTooLong
      else .ok (place ++ [name]) := by
    simp only [enter, opens.here, if_neg h.above]
  have followed : (directory.child name).parts.foldlM t.enter ((directory.child name).origin t.working) =
      t.enter place name := by
    rw [Path.child_of_fileName h, List.foldlM_append]
    simp only [Path.origin] at reached ⊢
    rw [reached]
    exact bind_pure (t.enter place name)
  rw [locate, followed, entered]
  by_cases whole : (directory.child name).text.utf8ByteSize ≤ pathLimit
  · by_cases part : name.utf8ByteSize ≤ partLimit
    · rw [if_neg (Nat.not_lt.mpr whole), if_neg (Nat.not_lt.mpr part), if_pos ⟨part, whole⟩]
    · rw [if_neg (Nat.not_lt.mpr whole), if_pos (Nat.not_le.mp part), if_neg fun fits => part fits.1]
  · rw [if_pos (Nat.not_le.mp whole), if_neg fun fits => whole fits.2]

/-- What is asked of a name in a directory is asked of what stands there, if the name is short enough. -/
theorem leadsTo_child (opens : t.Opens directory place) (h : Path.IsFileName name) (test : Node → Bool) :
    t.leadsTo test (directory.child name) =
      if Fits directory name then .ok ((t.node? (place ++ [name])).any test) else .error .nameTooLong := by
  have clean : ¬ (directory.child name).hasNull = true := by simp [Path.hasNull_child h, opens.clean]
  rw [leadsTo, if_neg clean, status, locate_child opens h]
  by_cases fits : Fits directory name
  · rw [if_pos fits, if_pos fits]
    cases found : t.node? (place ++ [name]) <;> simp [found, bind, Except.bind]
  · rw [if_neg fits, if_neg fits]
    rfl

/-- The names in a tree are such as files can have. -/
def WellNamed (t : FileTree) : Prop := ∀ entry ∈ t.nodes, ∀ part ∈ entry.1, Path.IsFileName part

instance (t : FileTree) : Decidable t.WellNamed :=
  inferInstanceAs (Decidable (∀ entry ∈ t.nodes, ∀ part ∈ entry.1, Path.IsFileName part))

/-- A name is looked up in a directory, and this is what stands there. -/
def Finds (t : FileTree) (directory : Path) (place : Place) (name : String) (found : Option Node) : Prop :=
  Fits directory name ∧ t.node? (place ++ [name]) = found

instance (t : FileTree) (found : Option Node) : Decidable (t.Finds directory place name found) :=
  inferInstanceAs (Decidable (_ ∧ _))

/-- Of the names the first that stands for something stands for this, and those before it can be looked up. -/
def Meets (t : FileTree) (directory : Path) (place : Place) (names : List String) (node : Node) : Prop :=
  ∃ before name after, names = before ++ name :: after ∧ (∀ n ∈ before, t.Finds directory place n none) ∧
    t.Finds directory place name (some node)

/-- All of the names can be looked up, and nothing is found. -/
def Misses (t : FileTree) (directory : Path) (place : Place) (names : List String) : Prop :=
  ∀ name ∈ names, t.Finds directory place name none

/-- One of the names is too long, and nothing is found under those before it. -/
def Breaks (t : FileTree) (directory : Path) (place : Place) (names : List String) : Prop :=
  ∃ before name after, names = before ++ name :: after ∧ (∀ n ∈ before, t.Finds directory place n none) ∧
    ¬ Fits directory name

theorem meets_or_misses_or_breaks (t : FileTree) (directory : Path) (place : Place) (names : List String) :
    (∃ node, t.Meets directory place names node) ∨ t.Misses directory place names ∨ t.Breaks directory place names := by
  induction names with
  | nil => exact .inr (.inl nofun)
  | cons first rest ih =>
    by_cases fits : Fits directory first
    · cases found : t.node? (place ++ [first]) with
      | some node => exact .inl ⟨node, [], first, rest, rfl, nofun, fits, found⟩
      | none =>
        have absent : t.Finds directory place first none := ⟨fits, found⟩
        rcases ih with
          ⟨node, before, name, after, rfl, passed, there⟩ | missing | ⟨before, name, after, rfl, passed, long⟩
        · exact .inl ⟨node, first :: before, name, after, rfl, List.forall_mem_cons.mpr ⟨absent, passed⟩, there⟩
        · exact .inr (.inl (List.forall_mem_cons.mpr ⟨absent, missing⟩))
        · exact .inr (.inr ⟨first :: before, name, after, rfl, List.forall_mem_cons.mpr ⟨absent, passed⟩, long⟩)
    · exact .inr (.inr ⟨[], first, rest, rfl, nofun, fits⟩)

theorem leadsTo_of_finds (opens : t.Opens directory place) (h : Path.IsFileName name) {found : Option Node}
    (there : t.Finds directory place name found) (test : Node → Bool) :
    t.leadsTo test (directory.child name) = .ok (found.any test) := by
  rw [leadsTo_child opens h, if_pos there.1, there.2]

end FileTree

namespace Source

variable {t : FileTree} {directory : Path} {place : Place} {b : String}

/-- The name of the source of a brand, with an ending. -/
def fileName (brand ending : String) : String := s!"{brand}{label}{ending}"

/-- The names under which the source of a brand is looked up. -/
def fileNames (brand : String) : List String := endings.map (fileName brand)

theorem candidates_eq (directory : Path) (b : String) : candidates directory b = (fileNames b).map directory.child := by
  rw [fileNames, List.map_map]
  rfl

theorem toList_fileName (b ending : String) :
    (fileName b ending).toList = b.toList ++ label.toList ++ ending.toList := by
  simp [fileName, toString]

theorem isFileName_fileName {ending other : String} (h : Path.IsFileName (fileName b ending)) (ho : other ∈ endings) :
    Path.IsFileName (fileName b other) := by
  have lettered : 't' ∈ (fileName b other).toList := by
    rw [toList_fileName]
    exact List.mem_append_left _ (List.mem_append_right _ (by decide))
  have apart : ∀ text : String, 't' ∉ text.toList → fileName b other ≠ text := by
    rintro _ none rfl
    exact none lettered
  have keeps : ∀ c, (∀ part ∈ label :: endings, c ∉ part.toList) → c ∉ (fileName b ending).toList →
      c ∉ (fileName b other).toList := by
    intro c clean outside
    simp only [toList_fileName, List.mem_append, not_or] at outside ⊢
    exact ⟨outside.1, clean other (List.mem_cons_of_mem _ ho)⟩
  exact ⟨keeps '/' (by decide) h.slash, keeps '\x00' (by decide) h.null, apart _ (by decide), apart _ (by decide),
    apart _ (by decide)⟩

theorem brandOf?_eq_some {name : String} (h : brandOf? name = some b) :
    ∃ ending, String.ofList (lower ending.toList) ∈ endings ∧ name = fileName b ending := by
  unfold brandOf? at h
  dsimp only at h
  split at h
  next both =>
    obtain ⟨known, labelled⟩ := Bool.and_eq_true_iff.mp both
    obtain ⟨front, whole⟩ := List.isSuffixOf_iff_suffix.mp labelled
    refine ⟨(Path.cut name).2, List.contains_iff_mem.mp known, ?_⟩
    have stripped : b.toList = front := by
      rw [← Option.some.inj h, stripLabel, dropEnding, if_pos labelled, ← whole]
      simp
    apply String.toList_inj.mp
    rw [toList_fileName, stripped, whole, ← String.toList_append, Path.cut_append]
  next => cases h

theorem opens_of_names {names : List String} (there : t.has directory = .ok true)
    (read : t.names directory = .ok names) : ∃ place, t.Opens directory place ∧
      names = t.nodes.filterMap fun n => if n.1.dropLast = place then n.1.getLast? else none := by
  have clean : directory.hasNull = false := by
    unfold FileTree.has FileTree.leadsTo at there
    split at there
    next => cases there
    next clean => exact Bool.eq_false_iff.mpr clean
  obtain ⟨place, located, read⟩ := except_bind_ok_iff.mp read
  split at read
  next => cases read
  next => cases read
  next here => exact ⟨place, ⟨clean, located, here⟩, (Except.ok.inj read).symm⟩

/-- A brand that is listed comes from an entry of the directory. -/
theorem exists_entry {bs : List String} (named : t.WellNamed) (listed : brands t directory = .ok bs) (hb : b ∈ bs) :
    ∃ place ending node, t.Opens directory place ∧ String.ofList (lower ending.toList) ∈ endings ∧
      t.node? (place ++ [fileName b ending]) = some node ∧ Path.IsFileName (fileName b ending) := by
  obtain ⟨present, there, listed⟩ := except_bind_ok_iff.mp listed
  cases present with
  | false =>
    cases listed
    cases hb
  | true =>
    obtain ⟨names, read, listed⟩ := except_bind_ok_iff.mp listed
    obtain ⟨place, opens, rfl⟩ := opens_of_names (except_mapError_ok_iff.mp there) (except_mapError_ok_iff.mp read)
    cases listed
    rw [List.mem_mergeSort, List.mem_eraseDups] at hb
    obtain ⟨name, hname, made⟩ := List.mem_filterMap.mp hb
    obtain ⟨entry, hentry, last⟩ := List.mem_filterMap.mp hname
    obtain ⟨ending, known, rfl⟩ := brandOf?_eq_some made
    split at last
    next inside =>
      -- The entry may be listed twice; what stands at its place is the first of its nodes.
      have whole : entry.1 = place ++ [fileName b ending] := by
        rw [← inside, List.dropLast_append_getLast? _ last]
      have there : (t.node? (place ++ [fileName b ending])).isSome = true := by
        rw [FileTree.node?, if_neg (by simp), Ordered.find?_isSome, Ordered.contains, List.any_eq_true]
        exact ⟨entry, hentry, by simp [whole]⟩
      obtain ⟨node, found⟩ := Option.isSome_iff_exists.mp there
      exact ⟨place, ending, node, opens, known, found, named entry hentry _ (by simp [whole])⟩
    next => cases last

/-- The source of a brand is taken from a path that leads to this, or to nothing. -/
def Resolves (t : FileTree) (directory : Path) (b : String) (found : Option Node) : Prop :=
  ∃ path, brandPath t directory b = .ok path ∧ ∀ test, t.leadsTo test path = .ok (found.any test)

section Resolves

variable (opens : t.Opens directory place) (named : ∀ n ∈ fileNames b, Path.IsFileName n)
include opens

/-- The look-up passes over names that lead to nothing. -/
theorem firstPresent_append {before rest : List String} (named : ∀ n ∈ before, Path.IsFileName n)
    (passed : ∀ n ∈ before, t.Finds directory place n none) :
    firstPresent t ((before ++ rest).map directory.child) = firstPresent t (rest.map directory.child) := by
  induction before with
  | nil => rfl
  | cons first before ih =>
    rw [List.forall_mem_cons] at named passed
    have absent : t.has (directory.child first) = .ok false := FileTree.leadsTo_of_finds opens named.1 passed.1 _
    rw [List.cons_append, List.map_cons, firstPresent, absent]
    exact ih named.2 passed.2

include named

theorem resolves_of_meets {node : Node} (h : t.Meets directory place (fileNames b) node) :
    Resolves t directory b (some node) := by
  obtain ⟨before, name, after, whole, passed, there⟩ := h
  rw [whole, List.forall_mem_append, List.forall_mem_cons] at named
  have leads := FileTree.leadsTo_of_finds opens named.2.1 there
  have present : t.has (directory.child name) = .ok true := leads _
  have first : firstPresent t (candidates directory b) = .ok (some (directory.child name)) := by
    rw [candidates_eq, whole, firstPresent_append opens named.1 passed, List.map_cons, firstPresent, present]
  exact ⟨directory.child name, by rw [brandPath, first]; rfl, leads⟩

theorem resolves_of_misses (h : t.Misses directory place (fileNames b)) : Resolves t directory b none := by
  have first : firstPresent t (candidates directory b) = .ok none := by
    rw [candidates_eq, ← List.append_nil (fileNames b), firstPresent_append opens named h]
    rfl
  have standard : fileName b (endings.headD "") ∈ fileNames b := List.mem_map_of_mem (by decide)
  exact ⟨brandFile directory b (endings.headD ""), by rw [brandPath, first]; rfl,
    FileTree.leadsTo_of_finds opens (named _ standard) (h _ standard)⟩

theorem brandPath_of_breaks (h : t.Breaks directory place (fileNames b)) :
    ∃ path, brandPath t directory b = .error (.system .nameTooLong path) := by
  obtain ⟨before, name, after, whole, passed, long⟩ := h
  rw [whole, List.forall_mem_append, List.forall_mem_cons] at named
  have stuck : t.has (directory.child name) = .error .nameTooLong := by
    rw [FileTree.has, FileTree.leadsTo_child opens named.2.1, if_neg long]
  have first : firstPresent t (candidates directory b) =
      .error (.system .nameTooLong (directory.child name).text) := by
    rw [candidates_eq, whole, firstPresent_append opens named.1 passed, List.map_cons, firstPresent, stuck]
  exact ⟨(directory.child name).text, by rw [brandPath, first]; rfl⟩

/-- The names lead to something, to nothing, or to no answer. -/
theorem resolves_cases :
    (∃ node, t.Meets directory place (fileNames b) node ∧ Resolves t directory b (some node)) ∨
      (t.Misses directory place (fileNames b) ∧ Resolves t directory b none) ∨
      (t.Breaks directory place (fileNames b) ∧
        ∃ path, brandPath t directory b = .error (.system .nameTooLong path)) := by
  rcases t.meets_or_misses_or_breaks directory place (fileNames b) with ⟨node, meets⟩ | misses | breaks
  · exact .inl ⟨node, meets, resolves_of_meets opens named meets⟩
  · exact .inr (.inl ⟨misses, resolves_of_misses opens named misses⟩)
  · exact .inr (.inr ⟨breaks, brandPath_of_breaks opens named breaks⟩)

end Resolves

theorem result_loadBrand (t : FileTree) (directory : Path) (b : String) :
    (loadBrand t directory b).result = (do load t (← (brandPath t directory b).mapError .fault)) := by
  simp only [loadBrand, Traced.result_bind, Traced.result_ofExcept, Traced.result_note]
  rfl

theorem parse_ne_sourceNotFound (path : Path) (text missing : String) :
    parse path text ≠ .error (.failure (.sourceNotFound missing)) := by
  unfold parse
  split
  next => split <;> nofun
  next => cases Json.parse text <;> nofun

/-- A file is found, whatever it holds. -/
theorem load_of_hasFile {path : Path} (file : t.hasFile path = .ok true) (missing : String) :
    load t path ≠ .error (.failure (.sourceNotFound missing)) := by
  unfold load
  rw [file]
  dsimp only
  split
  next => nofun
  next =>
    split
    next => nofun
    next => exact parse_ne_sourceNotFound _ _ _

section

variable {found : Option Node} (h : Resolves t directory b found)
include h

theorem hasFile_iff_of_resolves : (∃ path, brandPath t directory b = .ok path ∧ t.hasFile path = .ok true) ↔
    found.any (· != .directory) = true := by
  obtain ⟨path, taken, leads⟩ := h
  have asked : t.hasFile path = .ok (found.any (· != .directory)) := leads _
  constructor
  · rintro ⟨path', taken', file⟩
    cases taken.symm.trans taken'
    exact Except.ok.inj (asked.symm.trans file)
  · intro file
    exact ⟨path, taken, file ▸ asked⟩

theorem notFound_iff_of_resolves :
    (∃ text, (loadBrand t directory b).result = .error (.failure (.sourceNotFound text))) ↔
      found.any (· != .directory) = false := by
  obtain ⟨path, taken, leads⟩ := h
  have asked : t.hasFile path = .ok (found.any (· != .directory)) := leads _
  have same : (loadBrand t directory b).result = load t path := by
    rw [result_loadBrand, taken]
    rfl
  rw [same]
  constructor
  · rintro ⟨text, lost⟩
    refine Bool.eq_false_iff.mpr fun file => ?_
    exact load_of_hasFile (file ▸ asked) text lost
  · intro none
    rw [none] at asked
    exact ⟨path.text, by rw [load, asked]⟩

end

section

variable (opens : t.Opens directory place) (named : ∀ n ∈ fileNames b, Path.IsFileName n)
include opens named

theorem hasFile_iff_meets : (∃ path, brandPath t directory b = .ok path ∧ t.hasFile path = .ok true) ↔
    ∃ content, t.Meets directory place (fileNames b) (.file content) := by
  constructor
  · intro file
    rcases resolves_cases opens named with ⟨node, meets, resolves⟩ | ⟨_, resolves⟩ | ⟨_, _, stuck⟩
    · cases node with
      | directory => cases (hasFile_iff_of_resolves resolves).mp file
      | file content => exact ⟨content, meets⟩
    · cases (hasFile_iff_of_resolves resolves).mp file
    · obtain ⟨_, taken, _⟩ := file
      cases taken.symm.trans stuck
  · rintro ⟨content, meets⟩
    exact (hasFile_iff_of_resolves (resolves_of_meets opens named meets)).mpr rfl

theorem notFound_iff_misses :
    (∃ text, (loadBrand t directory b).result = .error (.failure (.sourceNotFound text))) ↔
      t.Misses directory place (fileNames b) ∨ t.Meets directory place (fileNames b) .directory := by
  constructor
  · intro lost
    rcases resolves_cases opens named with ⟨node, meets, resolves⟩ | ⟨misses, _⟩ | ⟨_, _, stuck⟩
    · cases node with
      | directory => exact .inr meets
      | file content => cases (notFound_iff_of_resolves resolves).mp lost
    · exact .inl misses
    · obtain ⟨_, lost⟩ := lost
      rw [result_loadBrand, stuck] at lost
      cases lost
  · rintro (misses | meets)
    · exact (notFound_iff_of_resolves (resolves_of_misses opens named misses)).mpr rfl
    · exact (notFound_iff_of_resolves (resolves_of_meets opens named meets)).mpr rfl

theorem fault_iff_breaks :
    (∃ fault, brandPath t directory b = .error fault) ↔ t.Breaks directory place (fileNames b) := by
  constructor
  · rintro ⟨_, stuck⟩
    rcases resolves_cases opens named with ⟨_, _, _, taken, _⟩ | ⟨_, _, taken, _⟩ | ⟨breaks, _⟩
    · cases taken.symm.trans stuck
    · cases taken.symm.trans stuck
    · exact breaks
  · intro breaks
    obtain ⟨_, stuck⟩ := brandPath_of_breaks opens named breaks
    exact ⟨_, stuck⟩

end

theorem isFileName_of_mem {ending : String} (h : Path.IsFileName (fileName b ending)) :
    ∀ n ∈ fileNames b, Path.IsFileName n := by
  intro n hn
  obtain ⟨other, ho, rfl⟩ := List.mem_map.mp hn
  exact isFileName_fileName h ho

/-- What becomes of a brand that a directory lists is decided by what stands under its name with the known
endings, in small letters: the list itself says only that some entry has the name with such an ending in any
letters. -/
theorem listed_resolves_iff {bs : List String} (named : t.WellNamed) (listed : brands t directory = .ok bs)
    (hb : b ∈ bs) : ∃ place, t.Opens directory place ∧
      (∃ ending node, String.ofList (lower ending.toList) ∈ endings ∧
        t.node? (place ++ [fileName b ending]) = some node) ∧
      ((∃ path, brandPath t directory b = .ok path ∧ t.hasFile path = .ok true) ↔
        ∃ content, t.Meets directory place (fileNames b) (.file content)) ∧
      ((∃ text, (loadBrand t directory b).result = .error (.failure (.sourceNotFound text))) ↔
        t.Misses directory place (fileNames b) ∨ t.Meets directory place (fileNames b) .directory) ∧
      ((∃ fault, brandPath t directory b = .error fault) ↔ t.Breaks directory place (fileNames b)) := by
  obtain ⟨place, ending, node, opens, known, there, plain⟩ := exists_entry named listed hb
  have names := isFileName_of_mem plain
  exact ⟨place, opens, ⟨ending, node, known, there⟩, hasFile_iff_meets opens names, notFound_iff_misses opens names,
    fault_iff_breaks opens names⟩

/-- A tree with the file `brands/acme-tokens.yml`. -/
def acmeTree : FileTree :=
  (FileTree.bare ["work"]).put ["work", "brands", "acme-tokens.yml"] (.file "[]".toUTF8)

theorem listed_resolves_acme : ∃ bs, acmeTree.WellNamed ∧ brands acmeTree (.ofString "brands") = .ok bs ∧ "acme" ∈ bs ∧
    ∃ path, brandPath acmeTree (.ofString "brands") "acme" = .ok path ∧ acmeTree.hasFile path = .ok true := by
  have named : acmeTree.WellNamed := by decide +kernel
  have ran : (brands acmeTree (.ofString "brands")).toOption.any (fun bs => "acme" ∈ bs) = true := by decide +kernel
  have located : acmeTree.locate (.ofString "brands") = .ok ["work", "brands"] := by decide +kernel
  obtain ⟨bs, listed, among⟩ := exists_ok_of_any ran
  have hb : "acme" ∈ bs := of_decide_eq_true among
  obtain ⟨place, opens, _, found, _⟩ := listed_resolves_iff named listed hb
  obtain rfl : place = ["work", "brands"] := Except.ok.inj (opens.located.symm.trans located)
  refine ⟨bs, named, listed, hb, found.mpr ⟨"[]".toUTF8, ?_⟩⟩
  exact ⟨["acme-tokens.json", "acme-tokens.yaml"], "acme-tokens.yml", [], by decide +kernel, by decide +kernel,
    by decide +kernel⟩

/-- A tree with the file `brands/acme-tokens.JSON`. -/
def capitalTree : FileTree :=
  (FileTree.bare ["work"]).put ["work", "brands", "acme-tokens.JSON"] (.file "[]".toUTF8)

/-- A brand is listed, and its source is not found. -/
theorem unresolved_capitals : ∃ bs path, brands capitalTree (.ofString "brands") = .ok bs ∧ "acme" ∈ bs ∧
    brandPath capitalTree (.ofString "brands") "acme" = .ok path ∧ capitalTree.hasFile path = .ok false ∧
    (loadBrand capitalTree (.ofString "brands") "acme").result = .error (.failure (.sourceNotFound path.text)) := by
  have ran : (brands capitalTree (.ofString "brands")).toOption.any (fun bs => "acme" ∈ bs) = true := by
    decide +kernel
  obtain ⟨bs, listed, among⟩ := exists_ok_of_any ran
  have taken : brandPath capitalTree (.ofString "brands") "acme" = .ok (.ofString "brands/acme-tokens.json") := by
    decide +kernel
  have none : capitalTree.hasFile (.ofString "brands/acme-tokens.json") = .ok false := by decide +kernel
  refine ⟨bs, _, listed, of_decide_eq_true among, taken, none, ?_⟩
  rw [result_loadBrand, taken]
  simp only [load, none, bind, Except.bind, Except.mapError]

end Source

end StyleTokens
