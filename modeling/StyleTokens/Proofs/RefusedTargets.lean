import StyleTokens.Proofs.ContainedOutput
import Mathlib.Data.List.DropRight
import Mathlib.Logic.Relation

namespace StyleTokens

namespace Path

/-- The segments of a text between its slashes. -/
def segments (s : String) : List String := (pieces s.toList).map String.ofList

/-- Where a text starts as a path. -/
def startOf (working : Place) (s : String) : Place := if s.toList.head? = some '/' then [] else working

/-- A segment that names something in a directory. -/
def IsName (segment : String) : Prop := segment ≠ "" ∧ segment ≠ "." ∧ segment ≠ up

/-- An empty segment is taken out, or a point, or a name together with the step up right after it. -/
inductive Shortens : List String → List String → Prop where
  | empty (front back : List String) : Shortens (front ++ "" :: back) (front ++ back)
  | point (front back : List String) : Shortens (front ++ "." :: back) (front ++ back)
  | turn (front back : List String) {name : String} (proper : IsName name) :
    Shortens (front ++ name :: up :: back) (front ++ back)

/-- Segments that are followed from a start lead to a place. Shortened they are steps up and then names; each step
takes one part off the start while it has some, and the names are added to what is left. -/
def Leads (start : Place) (segments : List String) (place : Place) : Prop :=
  ∃ ups names, Relation.ReflTransGen Shortens segments (List.replicate ups up ++ names) ∧
    (∀ name ∈ names, IsName name) ∧ place = start.rdrop ups ++ names

/-- A segment that is followed; one that says nothing leads nowhere else. -/
def advance (place : Place) (segment : String) : Place :=
  if segment = "" ∨ segment = "." then place else follow place segment

variable {start place : Place} {names ss ss' : List String}

theorem advance_name {name : String} (h : IsName name) : advance place name = place ++ [name] := by
  obtain ⟨filled, here, above⟩ := h
  rw [advance, if_neg (not_or.mpr ⟨filled, here⟩), follow, if_neg above]

theorem advance_up : advance place up = place.dropLast := by
  rw [advance, if_neg (by decide), follow, if_pos rfl]

theorem foldl_advance_of_shortens (h : Shortens ss ss') (start : Place) :
    ss.foldl advance start = ss'.foldl advance start := by
  cases h with
  | empty front back => simp [advance]
  | point front back => simp [advance]
  | turn front back proper =>
    rw [List.foldl_append, List.foldl_append, List.foldl_cons, List.foldl_cons, advance_name proper, advance_up,
      List.dropLast_concat]

theorem foldl_advance_names (h : ∀ name ∈ names, IsName name) (start : Place) :
    names.foldl advance start = start ++ names := by
  induction names generalizing start with
  | nil => simp
  | cons name rest ih =>
    obtain ⟨first, later⟩ := List.forall_mem_cons.mp h
    rw [List.foldl_cons, advance_name first, ih later, List.append_assoc, List.singleton_append]

theorem foldl_advance_ups (ups : Nat) (start : Place) :
    (List.replicate ups up).foldl advance start = start.rdrop ups := by
  induction ups generalizing start with
  | zero => simp
  | succ ups ih =>
    have shorter : start.dropLast.length - ups = start.length - (ups + 1) := by
      rw [List.length_dropLast]
      omega
    rw [List.replicate_succ, List.foldl_cons, advance_up, ih, List.rdrop, List.rdrop, shorter,
      List.dropLast_eq_take, List.take_take]
    congr 1
    omega

theorem Shortens.append (h : Shortens ss ss') (more : List String) : Shortens (ss ++ more) (ss' ++ more) := by
  cases h with
  | empty front back => simpa using Shortens.empty front (back ++ more)
  | point front back => simpa using Shortens.point front (back ++ more)
  | turn front back proper => simpa using Shortens.turn front (back ++ more) proper

/-- Segments can be shortened until they are steps up and then names. -/
theorem exists_shortened (ss : List String) : ∃ ups names,
    Relation.ReflTransGen Shortens ss (List.replicate ups up ++ names) ∧ ∀ name ∈ names, IsName name := by
  induction ss using List.reverseRecOn with
  | nil => exact ⟨0, [], .refl, by simp⟩
  | append_singleton ss segment ih =>
    obtain ⟨ups, names, shortened, proper⟩ := ih
    have front : Relation.ReflTransGen Shortens (ss ++ [segment]) (List.replicate ups up ++ names ++ [segment]) :=
      shortened.lift (· ++ [segment]) fun _ _ h => h.append [segment]
    by_cases filled : segment = ""
    · subst filled
      exact ⟨ups, names, front.tail (by simpa using Shortens.empty (List.replicate ups up ++ names) []), proper⟩
    by_cases here : segment = "."
    · subst here
      exact ⟨ups, names, front.tail (by simpa using Shortens.point (List.replicate ups up ++ names) []), proper⟩
    by_cases above : segment = up
    · subst above
      -- a step up takes the last name with it, or joins the steps before it
      rcases List.eq_nil_or_concat names with rfl | ⟨names, name, rfl⟩
      · refine ⟨ups + 1, [], ?_, proper⟩
        simpa [List.replicate_succ'] using front
      · rw [List.concat_eq_append] at front proper
        obtain ⟨others, last⟩ := List.forall_mem_append.mp proper
        refine ⟨ups, names, front.tail ?_, others⟩
        simpa using Shortens.turn (List.replicate ups up ++ names) [] (last name (by simp))
    · refine ⟨ups, names ++ [segment], by simpa using front, ?_⟩
      exact List.forall_mem_append.mpr ⟨proper, by simpa using ⟨filled, here, above⟩⟩

/-- Segments lead to exactly one place, however they are shortened. -/
theorem leads_iff : Leads start ss place ↔ place = ss.foldl advance start := by
  have ends : ∀ {ups : Nat} {names : List String},
      Relation.ReflTransGen Shortens ss (List.replicate ups up ++ names) → (∀ name ∈ names, IsName name) →
        ss.foldl advance start = start.rdrop ups ++ names := by
    intro ups names shortened proper
    have same : ∀ {ss' : List String}, Relation.ReflTransGen Shortens ss ss' →
        ss.foldl advance start = ss'.foldl advance start := by
      intro ss' h
      induction h with
      | refl => rfl
      | tail _ step ih => exact ih.trans (foldl_advance_of_shortens step start)
    rw [same shortened, List.foldl_append, foldl_advance_ups, foldl_advance_names proper]
  constructor
  · rintro ⟨ups, names, shortened, proper, rfl⟩
    exact (ends shortened proper).symm
  · rintro rfl
    obtain ⟨ups, names, shortened, proper⟩ := exists_shortened ss
    exact ⟨ups, names, shortened, proper, ends shortened proper⟩

theorem anchor_ofString_iff {s : String} : (ofString s).anchor = .working ↔ s.toList.head? ≠ some '/' := by
  unfold ofString anchorOf
  cases s.toList with
  | nil => simp
  | cons c rest =>
    by_cases slash : c = '/'
    · simp only [slash, List.takeWhile_cons, beq_self_eq_true, if_true, List.length_cons, List.head?_cons]
      constructor
      · intro h
        split at h <;> simp_all
      · intro h
        exact absurd rfl h
    · simp [slash]

theorem origin_ofString (working : Place) (s : String) : (ofString s).origin working = startOf working s := by
  unfold origin startOf
  by_cases rooted : s.toList.head? = some '/'
  · rw [if_pos rooted]
    split
    next none => exact absurd rooted (anchor_ofString_iff.mp none)
    next => rfl
  · rw [if_neg rooted, anchor_ofString_iff.mpr rooted]

theorem foldl_parts (start : Place) (s : String) :
    (ofString s).parts.foldl follow start = (segments s).foldl advance start := by
  have step : ∀ (place : Place) (piece : List Char),
      (if (piece != [] && piece != ['.']) = true then follow place (String.ofList piece) else place) =
        advance place (String.ofList piece) := by
    intro place piece
    have empty : String.ofList piece = "" ↔ piece = [] := @String.ofList_inj piece []
    have point : String.ofList piece = "." ↔ piece = ['.'] := @String.ofList_inj piece ['.']
    by_cases he : piece = [] <;> by_cases hp : piece = ['.'] <;> simp [advance, empty, point, he, hp]
  simp only [ofString, segments, List.foldl_map, List.foldl_filter, step]

theorem mem_pieces {c : Char} (h : c ≠ '/') {cs : List Char} : (∃ piece ∈ pieces cs, c ∈ piece) ↔ c ∈ cs := by
  induction cs with
  | nil => simp [pieces]
  | cons d rest ih =>
    rw [List.mem_cons, ← ih]
    by_cases slash : d = '/'
    · subst slash
      simp [pieces, h]
    · cases hr : pieces rest with
      | nil => simp [pieces, slash, hr]
      | cons piece more => simp [pieces, slash, hr, or_assoc]

theorem hasNull_ofString {s : String} : (ofString s).hasNull = true ↔ '\x00' ∈ s.toList := by
  rw [← mem_pieces (by decide : '\x00' ≠ '/')]
  simp only [hasNull, ofString, List.any_map, List.any_eq_true, List.mem_filter, Function.comp, String.toList_ofList,
    List.contains_iff_mem]
  constructor
  · rintro ⟨piece, ⟨there, -⟩, null⟩
    exact ⟨piece, there, null⟩
  · rintro ⟨piece, there, null⟩
    refine ⟨piece, ⟨there, ?_⟩, null⟩
    have filled : piece ≠ [] := List.ne_nil_of_mem null
    have other : piece ≠ ['.'] := by
      rintro rfl
      simp at null
    simp [filled, other]

end Path

namespace Output

/-- The name of an artifact leads to a place below a directory, or by itself if it starts at the root. -/
def Leads (working : Place) (directory name : String) (place : Place) : Prop :=
  if name.toList.head? = some '/' then Path.Leads [] (Path.segments name) place
  else Path.Leads (Path.startOf working directory) (Path.segments directory ++ Path.segments name) place

/-- The name of an artifact leads to the output directory itself or to a place that is not in it. -/
def Escapes (working : Place) (directory name : String) : Prop :=
  ∃ root place, Path.Leads (Path.startOf working directory) (Path.segments directory) root ∧
    Leads working directory name place ∧ ¬ ∃ below, below ≠ [] ∧ place = root ++ below

/-- There is no null character in the name of the output directory or of an artifact. -/
def Clean (directory : String) (artifacts : List Artifact) : Prop :=
  '\x00' ∉ directory.toList ∧ ∀ a ∈ artifacts, '\x00' ∉ a.path.toList

variable {t after : FileTree} {working place root : Place} {directory name : String} {artifacts : List Artifact}

theorem leads_iff : Leads working directory name place ↔
    place = ((Path.ofString directory).child name).resolve working := by
  unfold Leads Path.child Path.join
  by_cases rooted : name.toList.head? = some '/'
  · have start : (Path.ofString name).origin working = [] := by
      rw [Path.origin_ofString, Path.startOf, if_pos rooted]
    rw [if_pos rooted, Path.leads_iff]
    split
    next none => exact absurd rooted (Path.anchor_ofString_iff.mp none)
    next => rw [Path.resolve, start, Path.foldl_parts]
  · have origin : (⟨(Path.ofString directory).anchor, (Path.ofString directory).parts ++ (Path.ofString name).parts⟩ :
        Path).origin working = Path.startOf working directory := Path.origin_ofString working directory
    rw [if_neg rooted, Path.leads_iff, Path.anchor_ofString_iff.mpr rooted, Path.resolve, origin, List.foldl_append,
      List.foldl_append, Path.foldl_parts, Path.foldl_parts]

theorem leads_root_iff : Path.Leads (Path.startOf working directory) (Path.segments directory) root ↔
    root = (Path.ofString directory).resolve working := by
  rw [Path.leads_iff, Path.resolve, Path.origin_ofString, Path.foldl_parts]

theorem isBelow_iff : isBelow place root = true ↔ ∃ below, below ≠ [] ∧ place = root ++ below := by
  rw [isBelow, Bool.and_eq_true, List.isPrefixOf_iff_prefix, bne_iff_ne]
  constructor
  · rintro ⟨⟨below, rfl⟩, other⟩
    refine ⟨below, ?_, rfl⟩
    rintro rfl
    exact other (List.append_nil root)
  · rintro ⟨below, filled, rfl⟩
    exact ⟨List.prefix_append root below, by simpa using filled⟩

theorem escapes_iff : Escapes working directory name ↔
    ¬ isBelow (((Path.ofString directory).child name).resolve working)
      ((Path.ofString directory).resolve working) = true := by
  simp [Escapes, leads_root_iff, leads_iff, isBelow_iff]

theorem hasNull_child {p : Path} {name : String} :
    (p.hasNull || (p.child name).hasNull) = true ↔ p.hasNull = true ∨ '\x00' ∈ name.toList := by
  rw [← Path.hasNull_ofString]
  unfold Path.child Path.join
  split
  next => simp [Path.hasNull]
  next => simp

/-- The target of an artifact is refused for where it leads only if no name has a null character. -/
theorem target_failure_iff {f : Failure} : target t (.ofString directory) name = .error (.failure f) ↔
    ('\x00' ∉ directory.toList ∧ '\x00' ∉ name.toList) ∧ Escapes t.working directory name ∧
      f = .outsideOutput name (Path.ofString directory).text := by
  unfold target
  rw [← not_or, ← Path.hasNull_ofString, ← hasNull_child, escapes_iff]
  dsimp only
  split
  next null => simp [null]
  next clean =>
    split
    next inside => simp [inside]
    next outside => simp [clean, outside, eq_comm]

theorem exists_target_iff : (∃ path, target t (.ofString directory) name = .ok path) ↔
    ('\x00' ∉ directory.toList ∧ '\x00' ∉ name.toList) ∧ ¬ Escapes t.working directory name := by
  unfold target
  rw [← not_or, ← Path.hasNull_ofString, ← hasNull_child, escapes_iff]
  dsimp only
  split
  next null => simp [null]
  next clean =>
    split
    next inside => simp [clean, inside]
    next outside => simp [outside]

/-- The writing ends with a failure exactly if the targets are refused with it. -/
theorem failure_iff {output : Path} {run : Traced Stop (List Path)} {f : Failure}
    (h : write t output artifacts = (after, run)) :
    run.result = .error (.failure f) ↔ targets t output artifacts = .error (.failure f) := by
  rcases write_cases h with ⟨stop, refused, -, ended⟩ | ⟨found, fine, ended | ⟨fault, ended⟩⟩
  · simp [refused, ended]
  · simp [fine, ended]
  · simp [fine, ended]

theorem targets_failure_iff {f : Failure} : targets t (.ofString directory) artifacts = .error (.failure f) ↔
    ∃ before a later, artifacts = before ++ a :: later ∧ Clean directory (before ++ [a]) ∧
      (∀ b ∈ before, ¬ Escapes t.working directory b.path) ∧ Escapes t.working directory a.path ∧
      f = .outsideOutput a.path (Path.ofString directory).text := by
  rw [targets_error_iff]
  simp only [exists_target_iff, target_failure_iff]
  constructor
  · rintro ⟨before, a, later, rfl, fine, ⟨clean, named⟩, out, cause⟩
    refine ⟨before, a, later, rfl, ⟨clean, ?_⟩, fun b hb => (fine b hb).2, out, cause⟩
    exact List.forall_mem_append.mpr ⟨fun b hb => (fine b hb).1.2, by simpa using named⟩
  · rintro ⟨before, a, later, rfl, ⟨clean, named⟩, inside, out, cause⟩
    obtain ⟨others, last⟩ := List.forall_mem_append.mp named
    exact ⟨before, a, later, rfl, fun b hb => ⟨⟨clean, others b hb⟩, inside b hb⟩, ⟨clean, last a (by simp)⟩, out, cause⟩

theorem Clean.mono {fewer : List Artifact} (h : Clean directory artifacts) (sub : fewer ⊆ artifacts) :
    Clean directory fewer :=
  ⟨h.1, fun a ha => h.2 a (sub ha)⟩

/-- One of the first artifacts is the first that leads elsewhere. -/
theorem exists_failure_of_escapes {before later : List Artifact} {a : Artifact}
    (clean : Clean directory (before ++ [a])) (out : Escapes t.working directory a.path) :
    ∃ f, targets t (.ofString directory) (before ++ a :: later) = .error (.failure f) := by
  rcases forall_or_exists_first (fun b : Artifact => ¬ Escapes t.working directory b.path) (before ++ [a]) with
    none | ⟨front, b, back, cut, inside, first⟩
  · exact absurd out (none a (by simp))
  · have whole : before ++ a :: later = front ++ b :: (back ++ later) := by
      rw [← List.cons_append, ← List.append_assoc, ← cut, List.append_assoc, List.singleton_append]
    have sub : front ++ [b] ⊆ before ++ [a] := by
      rw [cut]
      simp
    exact ⟨_, targets_failure_iff.mpr ⟨front, b, back ++ later, whole, clean.mono sub, inside, not_not.mp first, rfl⟩⟩

/-- Writing ends with a failure exactly if an artifact leads elsewhere and no name up to its own has a null
character. The failure tells the first such artifact, and the tree is as it was. -/
theorem refused_exact {run : Traced Stop (List Path)} (h : write t (.ofString directory) artifacts = (after, run)) :
    ((∃ f, run.result = .error (.failure f)) ↔ ∃ before a later, artifacts = before ++ a :: later ∧
      Clean directory (before ++ [a]) ∧ Escapes t.working directory a.path) ∧
    (Clean directory artifacts →
      ((∃ f, run.result = .error (.failure f)) ↔ ∃ a ∈ artifacts, Escapes t.working directory a.path)) ∧
    ∀ f, run.result = .error (.failure f) → after = t ∧ f.kind = .schemaViolation ∧
      ∃ before a later, artifacts = before ++ a :: later ∧ (∀ b ∈ before, ¬ Escapes t.working directory b.path) ∧
        Escapes t.working directory a.path ∧ f = .outsideOutput a.path (Path.ofString directory).text ∧
        f.location? = if a.path = "" then none else some (.text a.path) := by
  have refused_iff : (∃ f, run.result = .error (.failure f)) ↔ ∃ before a later, artifacts = before ++ a :: later ∧
      Clean directory (before ++ [a]) ∧ Escapes t.working directory a.path := by
    constructor
    · rintro ⟨f, ended⟩
      obtain ⟨before, a, later, cut, clean, -, out, -⟩ := targets_failure_iff.mp ((failure_iff h).mp ended)
      exact ⟨before, a, later, cut, clean, out⟩
    · rintro ⟨before, a, later, rfl, clean, out⟩
      obtain ⟨f, refused⟩ := exists_failure_of_escapes clean out
      exact ⟨f, (failure_iff h).mpr refused⟩
  refine ⟨refused_iff, ?_, ?_⟩
  · intro clean
    rw [refused_iff]
    constructor
    · rintro ⟨before, a, later, rfl, -, out⟩
      exact ⟨a, by simp, out⟩
    · rintro ⟨a, ha, out⟩
      obtain ⟨before, later, rfl⟩ := List.append_of_mem ha
      exact ⟨before, a, later, rfl, clean.mono (by simp), out⟩
  · intro f ended
    have refused := (failure_iff h).mp ended
    obtain ⟨before, a, later, cut, -, inside, out, rfl⟩ := targets_failure_iff.mp refused
    have same : after = t := by
      rw [write, refused] at h
      exact (Prod.mk.inj h).1.symm
    have place : (Failure.outsideOutput a.path (Path.ofString directory).text).location? =
        if a.path = "" then none else some (.text a.path) := by
      by_cases blank : a.path = "" <;> simp [Failure.location?, Scalar.isBlankValue, blank]
    exact ⟨same, rfl, before, a, later, cut, inside, out, rfl, place⟩

/-- A directory with a way in and out, and artifacts that lie below it, that leave it and come back, that lie beside
it under a longer name, and that are the directory itself. -/
def strayDirectory : String := "in/.././out"

def strayArtifacts : List Artifact :=
  [⟨"a/../b/tokens.css", "1"⟩, ⟨"../../work/out/index.js", "2"⟩, ⟨"../out-old/index.js", "3"⟩, ⟨"/work/out", "4"⟩]

theorem refused_strayArtifacts : ∃ after run f,
    write (.bare ["work"]) (.ofString strayDirectory) strayArtifacts = (after, run) ∧
      Clean strayDirectory strayArtifacts ∧ (∃ a ∈ strayArtifacts, Escapes ["work"] strayDirectory a.path) ∧
      run.result = .error (.failure f) ∧ after = .bare ["work"] ∧
      ∃ a ∈ strayArtifacts, Escapes ["work"] strayDirectory a.path ∧ a.path = "../out-old/index.js" ∧
        f.location? = some (.text a.path) := by
  obtain ⟨-, refused_iff, told⟩ :=
    refused_exact (rfl : write (.bare ["work"]) (.ofString strayDirectory) strayArtifacts = (_, _))
  have clean : Clean strayDirectory strayArtifacts := by
    unfold Clean
    decide +kernel
  have stopped : (write (.bare ["work"]) (.ofString strayDirectory) strayArtifacts).2.result =
      .error (.failure (.outsideOutput "../out-old/index.js" "in/../out")) := by rfl
  obtain ⟨same, -, before, a, later, cut, -, out, cause, place⟩ := told _ stopped
  obtain ⟨named, -⟩ := Failure.outsideOutput.inj cause
  have there : a ∈ strayArtifacts := by
    rw [cut]
    simp
  rw [if_neg (by simp [← named])] at place
  exact ⟨_, _, _, rfl, clean, (refused_iff clean).mp ⟨_, stopped⟩, stopped, same, a, there, out, named.symm, place⟩

/-- A name with a null character ends the writing before a later artifact is refused for where it leads. -/
theorem not_refused_nullArtifacts :
    ¬ ((∃ f, (write (.bare ["work"]) (.ofString "out") [⟨"a\x00b", "1"⟩, ⟨"../ab", "2"⟩]).2.result =
        .error (.failure f)) ↔
      ∃ a ∈ [(⟨"a\x00b", "1"⟩ : Artifact), ⟨"../ab", "2"⟩], Escapes ["work"] "out" a.path) := by
  intro refused_iff
  obtain ⟨f, ended⟩ := refused_iff.mpr ⟨⟨"../ab", "2"⟩, by simp, escapes_iff.mpr (by decide +kernel)⟩
  have stopped : (write (.bare ["work"]) (.ofString "out") [⟨"a\x00b", "1"⟩, ⟨"../ab", "2"⟩]).2.result =
      .error (.fault .nullCharacter) := by rfl
  rw [stopped] at ended
  cases ended

end Output

end StyleTokens
