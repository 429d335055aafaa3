import TensorParity.Proofs.Scenario.Registry
import TensorParity.Scenario.Builtin

/-!
Scenarios by name. The registry looks a name up by its spelling and then selects by the name it has
itself; as it has each spelling once, this selects exactly the scenarios spelled like one of the
names. So neither order nor repetition nor spelling of the names matters, except that the first name
that no scenario has is the one that is reported.
-/
namespace TensorParity

namespace Registry

variable {r : Registry} {names names' : List String} {name known : String}
  {selected selected' : List Scenario} {s s' : Scenario} {e : UnknownScenario}

/-- Some scenario has the name, however it is spelled. -/
def Knows (r : Registry) (name : String) : Prop :=
  ∃ s ∈ r.scenarios, s.canonicalName = Text.caseName name

/-- The scenarios that are named, each once and in the order of the registry; without names, all. -/
structure Selects (r : Registry) (names : List String) (selected : List Scenario) : Prop where
  ordered : selected.Sublist r.scenarios
  once : (selected.map Scenario.canonicalName).Nodup
  mem_iff : ∀ s, s ∈ selected ↔
    s ∈ r.scenarios ∧ (names = [] ∨ s.canonicalName ∈ names.map Text.caseName)

theorem eq_of_canonicalName (hs : s ∈ r.scenarios) (hs' : s' ∈ r.scenarios)
    (h : s.canonicalName = s'.canonicalName) : s = s' :=
  List.inj_on_of_nodup_map r.acceptable.distinct hs hs' h

section Names

theorem find?_eq_some_iff :
    r.find? name = some s ↔ s ∈ r.scenarios ∧ s.canonicalName = Text.caseName name := by
  unfold find?
  constructor
  · intro h
    have hspelled := List.find?_some h
    exact ⟨List.mem_of_find?_eq_some h, of_decide_eq_true hspelled⟩
  · rintro ⟨hs, hspelled⟩
    cases hfind : r.scenarios.find? fun s => decide (s.canonicalName = Text.caseName name) with
    | none => exact absurd (decide_eq_true hspelled) (List.find?_eq_none.mp hfind s hs)
    | some s' =>
      have hspelled' := List.find?_some hfind
      rw [eq_of_canonicalName (List.mem_of_find?_eq_some hfind) hs
        ((of_decide_eq_true hspelled').trans hspelled.symm)]

theorem find?_eq_none_iff : r.find? name = none ↔ ¬r.Knows name := by
  rw [Option.eq_none_iff_forall_not_mem]
  simp only [Option.mem_def, find?_eq_some_iff, Knows, not_exists]

/-- A name leads to the name of the scenario that is spelled like it. -/
theorem resolve_eq_ok_iff :
    r.resolve name = .ok known ↔
      ∃ s ∈ r.scenarios, s.canonicalName = Text.caseName name ∧ s.name = known := by
  have hresolve : r.resolve name = .ok known ↔ ∃ s, r.find? name = some s ∧ s.name = known := by
    unfold resolve
    cases r.find? name <;> simp
  simp only [hresolve, find?_eq_some_iff, and_assoc]

theorem exists_resolve_iff : (∃ known, r.resolve name = .ok known) ↔ r.Knows name := by
  simp only [resolve_eq_ok_iff, Knows]
  constructor
  · rintro ⟨_, s, hs, hspelled, _⟩
    exact ⟨s, hs, hspelled⟩
  · rintro ⟨s, hs, hspelled⟩
    exact ⟨s.name, s, hs, hspelled, rfl⟩

theorem resolve_eq_error_iff :
    r.resolve name = .error e ↔ ¬r.Knows name ∧ e = ⟨name, r.names⟩ := by
  rw [← find?_eq_none_iff]
  unfold resolve
  cases r.find? name <;> simp [eq_comm]

end Names

/-- Parts of a list without repetition are equal if they have the same members. -/
theorem eq_of_sublists {α : Type} {all as bs : List α} (hall : all.Nodup)
    (has : as.Sublist all) (hbs : bs.Sublist all) (hmem : ∀ a, a ∈ as ↔ a ∈ bs) : as = bs := by
  -- an element that only one of the parts takes would have to be among the later ones as well
  induction has generalizing bs with
  | slnil => exact (List.sublist_nil.mp hbs).symm
  | @cons as all a has ih =>
    obtain ⟨hnew, hall⟩ := List.nodup_cons.mp hall
    cases hbs with
    | cons _ hbs => exact ih hall hbs hmem
    | cons_cons _ _ => exact absurd (has.subset ((hmem a).mpr List.mem_cons_self)) hnew
  | @cons_cons as all a has ih =>
    obtain ⟨hnew, hall⟩ := List.nodup_cons.mp hall
    cases hbs with
    | cons _ hbs => exact absurd (hbs.subset ((hmem a).mp List.mem_cons_self)) hnew
    | @cons_cons bs _ _ hbs =>
      refine congrArg (a :: ·) (ih hall hbs fun b => ?_)
      by_cases hb : b = a
      · subst hb
        exact iff_of_false (fun h => hnew (has.subset h)) fun h => hnew (hbs.subset h)
      · simpa [hb] using hmem b

theorem Selects.unique (h : r.Selects names selected) (h' : r.Selects names selected') :
    selected = selected' := by
  have hdistinct : r.scenarios.Nodup := r.acceptable.distinct.of_map _
  exact eq_of_sublists hdistinct h.ordered h'.ordered fun s =>
    (h.mem_iff s).trans (h'.mem_iff s).symm

/-- The names that a registry has for names are those of the scenarios spelled like them. -/
theorem mem_wanted_iff {wanted : List String} (h : names.mapM r.resolve = .ok wanted)
    (hs : s ∈ r.scenarios) : s.name ∈ wanted ↔ s.canonicalName ∈ names.map Text.caseName := by
  constructor
  · intro hwanted
    obtain ⟨name, hname, hresolve⟩ := mapM_mem h _ hwanted
    obtain ⟨s', -, hspelled, hsame⟩ := resolve_eq_ok_iff.mp hresolve
    have hcanonical : s.canonicalName = s'.canonicalName := by
      rw [Scenario.canonicalName, Scenario.canonicalName, hsame]
    rw [hcanonical, hspelled]
    exact List.mem_map_of_mem hname
  · intro hnamed
    obtain ⟨name, hname, hspelled⟩ := List.mem_map.mp hnamed
    obtain ⟨known, hknown, hresolve⟩ := mapM_result h name hname
    obtain ⟨s', hs', hspelled', rfl⟩ := resolve_eq_ok_iff.mp hresolve
    rwa [eq_of_canonicalName hs hs' (hspelled.symm.trans hspelled'.symm)]

/-- Names that the registry knows select the scenarios spelled like them. -/
theorem exists_select (hknown : ∀ name ∈ names, r.Knows name) :
    ∃ selected, r.select names = .ok selected ∧ r.Selects names selected := by
  unfold select
  by_cases hnone : names = []
  · subst hnone
    exact ⟨r.scenarios, rfl, .refl _, r.acceptable.distinct, by simp⟩
  · have hsome : names.isEmpty = false := by simpa using hnone
    obtain ⟨wanted, hwanted⟩ := mapM_total fun name hname =>
      exists_resolve_iff.mpr (hknown name hname)
    simp only [hsome, hwanted, ok_bind]
    refine ⟨_, rfl, List.filter_sublist, ?_, fun s => ?_⟩
    · exact r.acceptable.distinct.sublist (List.filter_sublist.map _)
    · rw [List.mem_filter, decide_eq_true_iff]
      refine and_congr_right fun hs => ?_
      rw [mem_wanted_iff hwanted hs]
      exact (or_iff_right hnone).symm

/-- The first name that no scenario has is reported, with the names of the registry. -/
theorem select_eq_error_iff :
    r.select names = .error e ↔ ∃ before name after, names = before ++ name :: after ∧
      (∀ known ∈ before, r.Knows known) ∧ ¬r.Knows name ∧ e = ⟨name, r.names⟩ := by
  have hwalk : r.select names = .error e ↔ names.mapM r.resolve = .error e := by
    unfold select
    cases names with
    | nil => simp [pure, Except.pure]
    | cons name names => simp [bind_eq_error, pure, Except.pure]
  rw [hwalk, mapM_eq_error_iff]
  simp only [exists_resolve_iff, resolve_eq_error_iff]

theorem select_eq_ok_iff :
    r.select names = .ok selected ↔
      (∀ name ∈ names, r.Knows name) ∧ r.Selects names selected := by
  constructor
  · intro h
    have hknown : ∀ name ∈ names, r.Knows name := by
      intro name hname
      have hsome : ¬names.isEmpty = true := by simpa using List.ne_nil_of_mem hname
      rw [select, if_neg hsome] at h
      obtain ⟨wanted, hwanted, -⟩ := bind_eq_ok.mp h
      exact exists_resolve_iff.mp (mapM_step hwanted name hname)
    obtain ⟨selected', hselect, hselects⟩ := exists_select hknown
    rw [h] at hselect
    obtain rfl := Except.ok.inj hselect
    exact ⟨hknown, hselects⟩
  · rintro ⟨hknown, hselects⟩
    obtain ⟨selected', hselect, hselects'⟩ := exists_select hknown
    rw [hselect, hselects.unique hselects']

/-- Which scenarios are known and selected depends on how the names are spelled as file names. -/
theorem selects_congr (hsame : ∀ spelling,
    spelling ∈ names.map Text.caseName ↔ spelling ∈ names'.map Text.caseName) :
    ((∀ name ∈ names, r.Knows name) ∧ r.Selects names selected) ↔
      (∀ name ∈ names', r.Knows name) ∧ r.Selects names' selected := by
  have hknows (names : List String) : (∀ name ∈ names, r.Knows name) ↔
      ∀ spelling ∈ names.map Text.caseName, ∃ s ∈ r.scenarios, s.canonicalName = spelling := by
    rw [List.forall_mem_map]
    rfl
  have hempty : names = [] ↔ names' = [] := by
    rw [← List.map_eq_nil_iff (f := Text.caseName) (l := names),
      ← List.map_eq_nil_iff (f := Text.caseName) (l := names'), List.eq_nil_iff_forall_not_mem,
      List.eq_nil_iff_forall_not_mem]
    exact forall_congr' fun spelling => not_congr (hsame spelling)
  have hselects : r.Selects names selected ↔ r.Selects names' selected := by
    constructor <;> rintro ⟨hordered, honce, hmem⟩ <;> refine ⟨hordered, honce, ?_⟩
    · simpa only [hempty, hsame] using hmem
    · simpa only [hempty, hsame] using hmem
  rw [hknows, hknows, hselects]
  simp only [hsame]

/-- Names are refused exactly if some name is that of no scenario, and the first such name is
reported; else they select the scenarios spelled like them. So lists of names with the same spellings
select the same, and a spelling is its own spelling. -/
theorem select_by_spelling (r : Registry) (names : List String) :
    (∀ e, r.select names = .error e ↔ ∃ before name after, names = before ++ name :: after ∧
      (∀ known ∈ before, r.Knows known) ∧ ¬r.Knows name ∧ e = ⟨name, r.names⟩) ∧
    (∀ selected, r.select names = .ok selected ↔
      (∀ name ∈ names, r.Knows name) ∧ r.Selects names selected) ∧
    (∀ names' : List String, (∀ spelling,
        spelling ∈ names.map Text.caseName ↔ spelling ∈ names'.map Text.caseName) →
      ∀ selected, r.select names = .ok selected ↔ r.select names' = .ok selected) ∧
    r.select [] = .ok r.scenarios ∧
    ∀ name, Text.caseName (Text.caseName name) = Text.caseName name := by
  refine ⟨fun e => select_eq_error_iff, fun selected => select_eq_ok_iff,
    fun names' hsame selected => ?_, rfl, Text.caseName_caseName⟩
  rw [select_eq_ok_iff, select_eq_ok_iff, selects_congr hsame]

theorem select_by_spelling_builtin :
    builtin.select ["deform_conv2d_with_mask", "F_Batch_Norm"] =
        .ok [Scenario.batchNorm, Scenario.withMask] ∧
      builtin.select ["F Batch/Norm", "Deform_Conv2d_With_Mask", "f_batch_norm"] =
        .ok [Scenario.batchNorm, Scenario.withMask] := by
  have hselect : builtin.select ["deform_conv2d_with_mask", "F_Batch_Norm"] =
      .ok [Scenario.batchNorm, Scenario.withMask] := rfl
  have hspelled : ["deform_conv2d_with_mask", "F_Batch_Norm"].map Text.caseName =
      ["deform_conv2d_with_mask", "f_batch_norm"] := by decide +kernel
  have hrespelled :
      ["F Batch/Norm", "Deform_Conv2d_With_Mask", "f_batch_norm"].map Text.caseName =
        ["f_batch_norm", "deform_conv2d_with_mask", "f_batch_norm"] := by decide +kernel
  refine ⟨hselect, ((select_by_spelling builtin _).2.2.1 _ (fun spelling => ?_) _).mp hselect⟩
  rw [hspelled, hrespelled]
  simp only [List.mem_cons, List.not_mem_nil, or_false]
  rw [or_left_comm, or_self]

end Registry

end TensorParity
