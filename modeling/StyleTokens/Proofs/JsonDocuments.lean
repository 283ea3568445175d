import StyleTokens.Proofs.LastEntries

namespace StyleTokens

namespace Doc

theorem AllJson.isJson {ds : List Doc} (h : AllJson ds) : ∀ d ∈ ds, d.IsJson := by
  induction ds with
  | nil => simp
  | cons d rest ih =>
    obtain ⟨hd, hr⟩ := h
    exact List.forall_mem_cons.mpr ⟨hd, ih hr⟩

theorem EntriesJson.isJson {entries : List (Scalar × Doc)} (h : EntriesJson entries) :
    ∀ p ∈ entries, p.2.IsJson := by
  induction entries with
  | nil => simp
  | cons p rest ih =>
    obtain ⟨_, _, hd, hr⟩ := h
    exact List.forall_mem_cons.mpr ⟨hd, ih hr⟩

theorem EntriesJson.exists_text {entries : List (Scalar × Doc)} (h : EntriesJson entries) :
    ∀ p ∈ entries, ∃ s, p.1 = .text s := by
  induction entries with
  | nil => simp
  | cons p rest ih =>
    obtain ⟨hk, _, _, hr⟩ := h
    exact List.forall_mem_cons.mpr ⟨hk, ih hr⟩

/-- No object of a JSON document has a key twice. -/
theorem EntriesJson.distinct {entries : List (Scalar × Doc)} (h : EntriesJson entries) :
    Ordered.Distinct entries := by
  induction entries with
  | nil => exact List.Pairwise.nil
  | cons p rest ih =>
    obtain ⟨_, hc, _, hr⟩ := h
    refine List.pairwise_cons.mpr ⟨?_, ih hr⟩
    intro q hq
    have other : (q.1 == p.1) = false := by
      unfold Ordered.contains at hc
      simpa using List.any_eq_false.mp hc q hq
    exact Bool.eq_false_iff.mpr fun he => Bool.eq_false_iff.mp other (BEq.symm he)

theorem entriesJson_of_distinct {entries : List (Scalar × Doc)} (distinct : Ordered.Distinct entries)
    (json : ∀ p ∈ entries, (∃ s, p.1 = .text s) ∧ p.2.IsJson) : EntriesJson entries := by
  induction entries with
  | nil => trivial
  | cons p rest ih =>
    obtain ⟨apart, others⟩ := List.pairwise_cons.mp distinct
    obtain ⟨⟨key, value⟩, later⟩ := List.forall_mem_cons.mp json
    refine ⟨key, ?_, value, ih others later⟩
    refine List.any_eq_false.mpr fun q hq same => ?_
    exact Bool.eq_false_iff.mp (apart q hq) (BEq.symm same)

theorem EntriesJson.get? {entries : List (Scalar × Doc)} (h : EntriesJson entries) {key : String}
    {d : Doc} (hg : Doc.get? entries key = some d) : d.IsJson := by
  obtain ⟨k, hm, _⟩ := Ordered.mem_of_find? hg
  exact h.isJson (k, d) hm

end Doc

end StyleTokens
