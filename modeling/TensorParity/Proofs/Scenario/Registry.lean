import TensorParity.Proofs.Except
import TensorParity.Scenario.Registry

/-!
What makes scenarios a registry. The check walks over the scenarios with the names before each, and
accepts exactly the lists whose names differ, whose names are not empty and whose scenarios have a
primary axis each. Names differ if they are spelled differently as case names; a name that is spelled
so stays as it is.
-/
namespace TensorParity

namespace Text

/-- Characters of case names stay so when they are spelled as one. -/
theorem isCaseChar_caseChar (c : Char) : isCaseChar (caseChar c) = true := by
  unfold caseChar
  split
  · rename_i hcase
    by_cases hupper : c.isUpper = true
    · have halpha : c.toLower.isAlpha = true := by
        rw [Char.isAlpha_toLower_eq_isAlpha, Char.isAlpha, hupper, Bool.true_or]
      simp [isCaseChar, Char.isAlphanum, halpha]
    · rwa [Char.toLower_eq_of_not_isUpper hupper]
  · decide

/-- No other character stands in a case name. -/
theorem caseChar_ne {other : Char} (hother : isCaseChar other = false) (c : Char) :
    caseChar c ≠ other := by
  rintro rfl
  rw [isCaseChar_caseChar] at hother
  cases hother

theorem caseChar_caseChar (c : Char) : caseChar (caseChar c) = caseChar c := by
  have hlower : (caseChar c).toLower = caseChar c := by
    unfold caseChar
    split
    · exact Char.toLower_toLower_eq_toLower c
    · decide
  conv_lhs => rw [caseChar, if_pos (isCaseChar_caseChar c), hlower]

theorem caseName_caseName (s : String) : caseName (caseName s) = caseName s := by
  rw [caseName, caseName, String.toList_ofList, List.map_map]
  congr 2
  funext c
  exact caseChar_caseChar c

end Text

namespace Registry

variable {scenarios : List Scenario} {s : Scenario} {seen seen' : List String}

/-- What is asked of scenarios that are to be a registry. -/
structure Acceptable (scenarios : List Scenario) : Prop where
  named : ∀ s ∈ scenarios, s.canonicalName ≠ ""
  distinct : (scenarios.map Scenario.canonicalName).Nodup
  primary : ∀ s ∈ scenarios, ∃ axis ∈ s.axes, axis.isPrimary = true

theorem checkScenario_eq_ok_iff : checkScenario seen s = .ok seen' ↔
    (s.canonicalName ≠ "" ∧ s.canonicalName ∉ seen ∧ s.hasPrimaryAxis = true) ∧
      seen' = s.canonicalName :: seen := by
  dsimp only [checkScenario]
  by_cases hname : s.canonicalName = ""
  · simp [hname]
  rw [if_neg hname]
  by_cases hseen : s.canonicalName ∈ seen
  · simp [hseen]
  rw [if_neg hseen]
  by_cases haxis : s.hasPrimaryAxis = true
  · simp [hname, hseen, haxis, eq_comm]
  · simp [haxis]

/-- A walk accepts scenarios whose names differ from each other and from those before. -/
theorem foldlM_checkScenario_eq_ok_iff :
    (∃ seen', scenarios.foldlM checkScenario seen = .ok seen') ↔
      (scenarios.map Scenario.canonicalName).Nodup ∧
        ∀ s ∈ scenarios,
          s.canonicalName ≠ "" ∧ s.canonicalName ∉ seen ∧ s.hasPrimaryAxis = true := by
  induction scenarios generalizing seen with
  | nil => exact ⟨fun _ => ⟨.nil, nofun⟩, fun _ => ⟨seen, rfl⟩⟩
  | cons s rest ih =>
    -- the first step only adds a name to those that the rest must differ from
    have hstep : (∃ seen', (s :: rest).foldlM checkScenario seen = .ok seen') ↔
        (s.canonicalName ≠ "" ∧ s.canonicalName ∉ seen ∧ s.hasPrimaryAxis = true) ∧
          ∃ seen', rest.foldlM checkScenario (s.canonicalName :: seen) = .ok seen' := by
      simp only [List.foldlM_cons, bind_eq_ok, checkScenario_eq_ok_iff]
      constructor
      · rintro ⟨seen', next, ⟨hs, rfl⟩, hrest⟩
        exact ⟨hs, seen', hrest⟩
      · rintro ⟨hs, seen', hrest⟩
        exact ⟨seen', _, ⟨hs, rfl⟩, hrest⟩
    rw [hstep, ih, List.map_cons, List.nodup_cons, List.forall_mem_cons]
    constructor
    · rintro ⟨hs, hdistinct, hrest⟩
      refine ⟨⟨fun hmem => ?_, hdistinct⟩, hs, fun s' hs' => ?_⟩
      · obtain ⟨s', hs', hsame⟩ := List.mem_map.mp hmem
        exact (hrest s' hs').2.1 (hsame ▸ List.mem_cons_self)
      · obtain ⟨hname, hnew, haxis⟩ := hrest s' hs'
        exact ⟨hname, fun hmem => hnew (List.mem_cons_of_mem _ hmem), haxis⟩
    · rintro ⟨⟨hfresh, hdistinct⟩, hs, hrest⟩
      refine ⟨hs, hdistinct, fun s' hs' => ?_⟩
      obtain ⟨hname, hnew, haxis⟩ := hrest s' hs'
      refine ⟨hname, fun hmem => ?_, haxis⟩
      rcases List.mem_cons.mp hmem with hsame | hmem
      · exact hfresh (hsame ▸ List.mem_map_of_mem hs')
      · exact hnew hmem

theorem check_eq_ok_iff : check scenarios = .ok () ↔ Acceptable scenarios := by
  have hcheck : check scenarios = .ok () ↔
      ∃ seen', scenarios.foldlM checkScenario [] = .ok seen' := by
    simp only [check, bind_eq_ok]
    exact ⟨fun ⟨seen', hfold, _⟩ => ⟨seen', hfold⟩, fun ⟨seen', hfold⟩ => ⟨seen', hfold, rfl⟩⟩
  rw [hcheck, foldlM_checkScenario_eq_ok_iff]
  simp only [Scenario.hasPrimaryAxis, List.any_eq_true, List.not_mem_nil, not_false_eq_true,
    true_and]
  exact ⟨fun ⟨hdistinct, hall⟩ => ⟨fun s hs => (hall s hs).1, hdistinct, fun s hs => (hall s hs).2⟩,
    fun h => ⟨h.distinct, fun s hs => ⟨h.named s hs, h.primary s hs⟩⟩⟩

/-- A registry has the scenarios that it was made of. -/
theorem ofScenarios_eq_ok_iff {r : Registry} :
    ofScenarios scenarios = .ok r ↔ r.scenarios = scenarios := by
  constructor
  · intro h
    unfold ofScenarios at h
    split at h
    · rw [← Except.ok.inj h]
    · cases h
  · rintro rfl
    unfold ofScenarios
    split
    · rfl
    · rename_i hrefused
      rw [r.valid] at hrefused
      cases hrefused

theorem exists_ofScenarios_iff :
    (∃ r, ofScenarios scenarios = .ok r) ↔ Acceptable scenarios := by
  simp only [ofScenarios_eq_ok_iff, ← check_eq_ok_iff]
  constructor
  · rintro ⟨r, rfl⟩
    exact r.valid
  · exact fun hvalid => ⟨⟨scenarios, hvalid⟩, rfl⟩

theorem acceptable (r : Registry) : Acceptable r.scenarios := check_eq_ok_iff.mp r.valid

/-- Scenarios are selected in the order of the registry. -/
theorem sublist_of_select {r : Registry} {names : List String} {selected : List Scenario}
    (h : r.select names = .ok selected) : selected.Sublist r.scenarios := by
  unfold select at h
  split at h
  · obtain rfl := Except.ok.inj h
    exact .refl _
  · obtain ⟨wanted, -, h⟩ := bind_eq_ok.mp h
    obtain rfl := Except.ok.inj h
    exact List.filter_sublist

end Registry

end TensorParity
