import TensorParity.CommandLine.Run
import TensorParity.Proofs.File.System
import TensorParity.Proofs.Scenario.Selection

/-!
What an argument list asks for. A list is read as the groups that spell it, or it breaks off at an
option without its value or at an argument that is no option. The order of the groups plays no part
as long as those of one option that takes a single value keep theirs: the last of these counts, and
the scenarios are selected as a set.
-/
namespace TensorParity.CommandLine

/-- The values of an option, in the order in which they stand. -/
def valuesOf (option : ValueOption) (gs : List Group) : List String :=
  gs.filterMap fun
    | .value given text => if given = option then some text else none
    | .switch _ => none

/-- The same groups in another order. Those of one option keep theirs, unless the option may be given
several times. -/
structure Reordered (gs gs' : List Group) : Prop where
  perm : gs.Perm gs'
  values : ∀ option : ValueOption, option ≠ .scenario → valuesOf option gs = valuesOf option gs'

/-- What is left of an argument list where no group can be read. -/
inductive Stuck : List String → UsageError → Prop where
  | missingValue (option : ValueOption) : Stuck [option.flag] (.missingValue option)
  | unknown {argument : String} (rest : List String)
      (hvalue : ∀ option : ValueOption, option.flag ≠ argument)
      (hswitch : ∀ option : Switch, option.flag ≠ argument) :
      Stuck (argument :: rest) (.unknown argument)

/-- An argument list spells groups, to its end or up to where it is stuck. -/
def Spelled (arguments : List String) : Prop :=
  (∃ gs : List Group, arguments = gs.flatMap Group.arguments) ∨
    ∃ (gs : List Group) (rest : List String) (e : UsageError),
      arguments = gs.flatMap Group.arguments ++ rest ∧ Stuck rest e

section Reading

theorem ValueOption.ofFlag?_flag (option : ValueOption) : ofFlag? option.flag = some option := by
  cases option <;> decide

theorem Switch.ofFlag?_flag (option : Switch) : ofFlag? option.flag = some option := by
  cases option <;> decide

/-- No switch looks like an option with a value. -/
theorem ValueOption.ofFlag?_switch (option : Switch) : ofFlag? option.flag = none := by
  cases option <;> decide

theorem ValueOption.ofFlag?_eq_some {text : String} {option : ValueOption}
    (h : ofFlag? text = some option) : option.flag = text := by
  simpa using List.find?_some h

theorem ValueOption.ofFlag?_eq_none {text : String} :
    ofFlag? text = none ↔ ∀ option : ValueOption, option.flag ≠ text := by
  have hall (option : ValueOption) : option ∈ all := by cases option <;> decide
  simp [ofFlag?, hall]

theorem Switch.ofFlag?_eq_some {text : String} {option : Switch}
    (h : ofFlag? text = some option) : option.flag = text := by
  simpa using List.find?_some h

theorem Switch.ofFlag?_eq_none {text : String} :
    ofFlag? text = none ↔ ∀ option : Switch, option.flag ≠ text := by
  have hall (option : Switch) : option ∈ all := by cases option <;> decide
  simp [ofFlag?, hall]

/-- A value is never taken for an option, whatever it looks like. -/
theorem groups_value (option : ValueOption) (text : String) (rest : List String) :
    groups (option.flag :: text :: rest) =
      (do return .value option text :: (← groups rest)) := by
  rw [groups.eq_def]
  simp only [option.ofFlag?_flag]

theorem groups_switch (option : Switch) (rest : List String) :
    groups (option.flag :: rest) = (do return .switch option :: (← groups rest)) := by
  rw [groups.eq_def]
  simp only [ValueOption.ofFlag?_switch, option.ofFlag?_flag]

/-- Groups are read one after the other. -/
theorem groups_append (gs : List Group) (rest : List String) :
    groups (gs.flatMap Group.arguments ++ rest) = (gs ++ ·) <$> groups rest := by
  induction gs with
  | nil => simp
  | cons g gs ih =>
    rw [List.flatMap_cons, List.append_assoc]
    cases g with
    | value option text =>
      rw [Group.arguments, List.cons_append, List.cons_append, List.nil_append, groups_value, ih]
      cases groups rest <;> rfl
    | switch option =>
      rw [Group.arguments, List.cons_append, List.nil_append, groups_switch, ih]
      cases groups rest <;> rfl

theorem groups_arguments (gs : List Group) : groups (gs.flatMap Group.arguments) = .ok gs := by
  have h := groups_append gs []
  rw [List.append_nil] at h
  rw [h]
  simp [groups, Functor.map, Except.map]

theorem groups_stuck {rest : List String} {e : UsageError} (h : Stuck rest e) :
    groups rest = .error e := by
  cases h with
  | missingValue option =>
    rw [groups.eq_def]
    simp only [option.ofFlag?_flag]
  | unknown rest hvalue hswitch =>
    rw [groups.eq_def]
    simp only [ValueOption.ofFlag?_eq_none.mpr hvalue, Switch.ofFlag?_eq_none.mpr hswitch]

/-- What is read first stands before the groups of the rest. -/
theorem Spelled.cons (g : Group) {rest : List String} (h : Spelled rest) :
    Spelled (g.arguments ++ rest) := by
  rcases h with ⟨gs, rfl⟩ | ⟨gs, rest', e, rfl, hstuck⟩
  · exact .inl ⟨g :: gs, List.flatMap_cons.symm⟩
  · exact .inr ⟨g :: gs, rest', e, by rw [List.flatMap_cons, List.append_assoc], hstuck⟩

theorem spelled (arguments : List String) : Spelled arguments := by
  fun_induction groups arguments with
  | case1 => exact .inl ⟨[], rfl⟩
  | case2 argument option text rest hvalue ih =>
    rw [← ValueOption.ofFlag?_eq_some hvalue]
    exact ih.cons (.value option text)
  | case3 argument option hvalue =>
    rw [← ValueOption.ofFlag?_eq_some hvalue]
    exact .inr ⟨[], _, _, rfl, .missingValue option⟩
  | case4 argument option rest hswitch hvalue ih =>
    rw [← Switch.ofFlag?_eq_some hswitch]
    exact ih.cons (.switch option)
  | case5 argument rest hswitch hvalue =>
    exact .inr ⟨[], _, _, rfl, .unknown rest (ValueOption.ofFlag?_eq_none.mp hvalue)
      (Switch.ofFlag?_eq_none.mp hswitch)⟩

end Reading

section Choices

variable {gs gs' : List Group} {option : ValueOption}

/-- Of values given one after the other the last counts, and every scenario is kept. -/
theorem ofGroups_eq (gs : List Group) :
    Options.ofGroups gs =
      { backend := (valuesOf .backend gs).getLast?.getD "process"
        scenarios := valuesOf .scenario gs
        workDir := (valuesOf .workDir gs).getLast?.map Path.mk
        output := (valuesOf .output gs).getLast?.map Path.mk
        report := (valuesOf .report gs).getLast?.map Path.mk
        keepArtifacts := decide (.switch .keepArtifacts ∈ gs)
        list := decide (.switch .list ∈ gs)
        fullReport := decide (.switch .fullReport ∈ gs) } := by
  induction gs using List.reverseRecOn with
  | nil => rfl
  | append_singleton gs g ih =>
    have hlast : Options.ofGroups (gs ++ [g]) = (Options.ofGroups gs).apply g := by
      rw [Options.ofGroups, List.foldl_append]
      rfl
    rw [hlast, ih]
    cases g with
    | value option text => cases option <;> simp [Options.apply, valuesOf]
    | switch option => cases option <;> simp [Options.apply, valuesOf]

theorem Reordered.scenarios_perm (h : Reordered gs gs') :
    (valuesOf .scenario gs).Perm (valuesOf .scenario gs') :=
  h.perm.filterMap _

/-- Reordered groups ask for the same but for the order of the scenarios. -/
theorem Reordered.ofGroups_eq (h : Reordered gs gs') :
    Options.ofGroups gs' = { Options.ofGroups gs with scenarios := valuesOf .scenario gs' } := by
  simp only [CommandLine.ofGroups_eq, h.perm.mem_iff, h.values .backend (by decide),
    h.values .workDir (by decide), h.values .output (by decide), h.values .report (by decide)]

end Choices

section Programs

variable {host : Host} {r : Registry} {env : Environment} {now : Nat} {fs : FileSystem}
  {names names' : List String} {o : Options} {e : UsageError}

/-- Names in another order select the same. -/
theorem select_perm (h : names.Perm names') (selected : List Scenario) :
    r.select names = .ok selected ↔ r.select names' = .ok selected := by
  rw [Registry.select_eq_ok_iff, Registry.select_eq_ok_iff]
  exact Registry.selects_congr fun spelling => (h.map _).mem_iff

/-- A run depends on the scenarios that are selected. Where none can be, it is refused before it
does anything. -/
theorem outcome_run_of_select (hselect : ∀ selected,
      r.select names = .ok selected ↔ r.select names' = .ok selected) (backend : Backend)
    (s : Settings) (fs : FileSystem) :
    (r.run names backend s).outcome fs = (r.run names' backend s).outcome fs ∨
      ∃ e e', r.select names = .error e ∧ r.select names' = .error e' ∧
        (r.run names backend s).outcome fs = (.error (.selection e), fs) ∧
        (r.run names' backend s).outcome fs = (.error (.selection e'), fs) := by
  simp only [Registry.run, FileAction.outcome_bind, FileAction.outcome_ofResult]
  cases hnames : r.select names with
  | ok selected =>
    rw [(hselect selected).mp hnames]
    exact .inl rfl
  | error e =>
    cases hnames' : r.select names' with
    | ok selected =>
      rw [(hselect selected).mpr hnames'] at hnames
      cases hnames
    | error e' => exact .inr ⟨e, e', rfl, rfl, rfl, rfl⟩

/-- The suite is run alike, or refused for a name that no scenario has. -/
theorem outcome_runSuite_of_select (hselect : ∀ selected,
      r.select o.scenarios = .ok selected ↔ r.select names' = .ok selected) (host : Host)
    (s : Settings) (fs : FileSystem) :
    (runSuite host r s o).outcome fs = (runSuite host r s { o with scenarios := names' }).outcome fs ∨
      ∃ e e', r.select o.scenarios = .error e ∧ r.select names' = .error e' ∧
        (runSuite host r s o).outcome fs = (.error (.suite (.selection e)), fs) ∧
        (runSuite host r s { o with scenarios := names' }).outcome fs =
          (.error (.suite (.selection e')), fs) := by
  simp only [runSuite, FileAction.outcome_bind, FileAction.outcome_ofResult]
  cases BackendKind.parse o.backend with
  | error e => exact .inl rfl
  | ok kind =>
    simp only [Except.mapError]
    cases s.backend host kind with
    | error e => exact .inl rfl
    | ok backend =>
      simp only [FileAction.outcome_adapt]
      rcases outcome_run_of_select hselect backend s fs with hsame | ⟨e, e', he, he', hrun, hrun'⟩
      · rw [hsame]
        exact .inl rfl
      · rw [hrun, hrun']
        exact .inr ⟨e, e', he, he', rfl, rfl⟩

/-- A run is told by what is performed. -/
theorem run_congr {arguments arguments' : List String}
    (h : (perform host Registry.builtin env now arguments).outcome fs =
      (perform host Registry.builtin env now arguments').outcome fs) :
    (run host env now arguments).run fs = (run host env now arguments').run fs := by
  rw [FileAction.outcome, FileAction.outcome] at h
  rw [run, run, StateT.run_bind, StateT.run_bind, h]

theorem run_of_refused {arguments : List String} {failure : CommandError}
    (h : (perform host Registry.builtin env now arguments).outcome fs = (.error failure, fs)) :
    (run host env now arguments).run fs = (refused failure, fs) := by
  rw [FileAction.outcome] at h
  rw [run, StateT.run_bind, h]
  rfl

/-- Nothing but the arguments is looked at before they are read to the end. -/
theorem outcome_perform_stuck {rest : List String} (gs : List Group) (h : Stuck rest e) :
    (perform host r env now (gs.flatMap Group.arguments ++ rest)).outcome fs =
      (.error (.usage e), fs) := by
  rw [perform, FileAction.outcome_bind, FileAction.outcome_ofResult, Options.parse, groups_append,
    groups_stuck h]
  rfl

theorem outcome_perform_groups (gs : List Group) :
    (perform host r env now (gs.flatMap Group.arguments)).outcome fs =
      if (Options.ofGroups gs).list then (.ok ⟨0, printed (scenarioList r), ""⟩, fs)
      else (runSuite host r (settings env now (Options.ofGroups gs)) (Options.ofGroups gs)).outcome
        fs := by
  rw [perform, FileAction.outcome_bind, FileAction.outcome_ofResult, Options.parse,
    groups_arguments]
  dsimp only [Except.map, Except.mapError]
  split <;> rfl

/-- Reordered groups are performed alike, or refused for names that no scenario has. -/
theorem Reordered.outcome_perform {gs gs' : List Group} (h : Reordered gs gs') (host : Host)
    (r : Registry) (env : Environment) (now : Nat) (fs : FileSystem) :
    (perform host r env now (gs.flatMap Group.arguments)).outcome fs =
        (perform host r env now (gs'.flatMap Group.arguments)).outcome fs ∨
      ∃ e e', r.select (valuesOf .scenario gs) = .error e ∧
        r.select (valuesOf .scenario gs') = .error e' ∧
        (perform host r env now (gs.flatMap Group.arguments)).outcome fs =
          (.error (.suite (.selection e)), fs) ∧
        (perform host r env now (gs'.flatMap Group.arguments)).outcome fs =
          (.error (.suite (.selection e')), fs) := by
  have hscenarios : (Options.ofGroups gs).scenarios = valuesOf .scenario gs := by
    rw [CommandLine.ofGroups_eq]
  have hselect (selected : List Scenario) : r.select (Options.ofGroups gs).scenarios =
      .ok selected ↔ r.select (valuesOf .scenario gs') = .ok selected := by
    rw [hscenarios]
    exact select_perm h.scenarios_perm selected
  rw [outcome_perform_groups, outcome_perform_groups, h.ofGroups_eq]
  split
  · exact .inl rfl
  · have hrun := outcome_runSuite_of_select hselect host (settings env now (Options.ofGroups gs)) fs
    rwa [hscenarios] at hrun

end Programs

/-- A program is asked for what the groups of its arguments say. Of the values of one option the last
counts, every scenario does, and a switch counts wherever it stands. Groups in another order ask for
the same and select the same scenarios in the same order, so the program does the same, unless two
names are unknown and the order decides which of them is reported. Every list of arguments spells
groups, or it breaks off at one that has no value or is no option, and then the program is refused
before it does anything. -/
theorem run_by_groups (host : Host) (env : Environment) (now : Nat) :
    (∀ gs : List Group, Options.parse (gs.flatMap Group.arguments) =
      .ok { backend := (valuesOf .backend gs).getLast?.getD "process"
            scenarios := valuesOf .scenario gs
            workDir := (valuesOf .workDir gs).getLast?.map Path.mk
            output := (valuesOf .output gs).getLast?.map Path.mk
            report := (valuesOf .report gs).getLast?.map Path.mk
            keepArtifacts := decide (.switch .keepArtifacts ∈ gs)
            list := decide (.switch .list ∈ gs)
            fullReport := decide (.switch .fullReport ∈ gs) }) ∧
    (∀ gs gs' : List Group, Reordered gs gs' →
      (∃ o, Options.parse (gs.flatMap Group.arguments) = .ok o ∧
        Options.parse (gs'.flatMap Group.arguments) =
          .ok { o with scenarios := valuesOf .scenario gs' } ∧
        ∀ selected, Registry.builtin.select o.scenarios = .ok selected ↔
          Registry.builtin.select (valuesOf .scenario gs') = .ok selected) ∧
      ∀ fs, (run host env now (gs.flatMap Group.arguments)).run fs =
          (run host env now (gs'.flatMap Group.arguments)).run fs ∨
        ∃ name ∈ valuesOf .scenario gs, ∃ name' ∈ valuesOf .scenario gs',
          ¬Registry.builtin.Knows name ∧ ¬Registry.builtin.Knows name' ∧
          (run host env now (gs.flatMap Group.arguments)).run fs =
            (refused (.suite (.selection ⟨name, Registry.builtin.names⟩)), fs) ∧
          (run host env now (gs'.flatMap Group.arguments)).run fs =
            (refused (.suite (.selection ⟨name', Registry.builtin.names⟩)), fs)) ∧
    (∀ arguments : List String, (∃ gs : List Group, arguments = gs.flatMap Group.arguments) ∨
      ∃ (gs : List Group) (rest : List String) (e : UsageError),
        arguments = gs.flatMap Group.arguments ++ rest ∧ Stuck rest e) ∧
    ∀ (gs : List Group) (rest : List String) (e : UsageError), Stuck rest e →
      ∀ fs, (run host env now (gs.flatMap Group.arguments ++ rest)).run fs =
        (refused (.usage e), fs) := by
  have hparse (gs : List Group) : Options.parse (gs.flatMap Group.arguments) =
      .ok (Options.ofGroups gs) := by
    rw [Options.parse, groups_arguments]
    rfl
  -- the name that is reported is one of those asked for
  have hunknown {gs : List Group} {e : UnknownScenario}
      (h : Registry.builtin.select (valuesOf .scenario gs) = .error e) :
      ∃ name ∈ valuesOf .scenario gs, ¬Registry.builtin.Knows name ∧
        e = ⟨name, Registry.builtin.names⟩ := by
    obtain ⟨before, name, after, hnames, -, hname, rfl⟩ := Registry.select_eq_error_iff.mp h
    exact ⟨name, by simp [hnames], hname, rfl⟩
  refine ⟨fun gs => ?_, fun gs gs' h => ⟨?_, fun fs => ?_⟩, spelled,
    fun gs rest e h fs => ?_⟩
  · rw [hparse, ofGroups_eq]
  · refine ⟨Options.ofGroups gs, hparse gs, ?_, fun selected => ?_⟩
    · rw [hparse, h.ofGroups_eq]
    · rw [ofGroups_eq]
      exact select_perm h.scenarios_perm selected
  · rcases h.outcome_perform host Registry.builtin env now fs with
      hsame | ⟨e, e', he, he', hrun, hrun'⟩
    · exact .inl (run_congr hsame)
    · obtain ⟨name, hmem, hname, rfl⟩ := hunknown he
      obtain ⟨name', hmem', hname', rfl⟩ := hunknown he'
      exact .inr ⟨name, hmem, name', hmem', hname, hname', run_of_refused hrun,
        run_of_refused hrun'⟩
  · exact run_of_refused (outcome_perform_stuck gs h)

/-- Groups whose values look like options, one of which is given twice. -/
def confusing : List Group :=
  [.value .output "--list", .value .scenario "F Batch Norm", .value .backend "--backend",
    .switch .keepArtifacts, .value .scenario "deform_conv2d_with_mask", .value .backend "loopback"]

/-- The same groups; the two back ends keep their order. -/
def confusingToo : List Group :=
  [.value .scenario "deform_conv2d_with_mask", .value .backend "--backend", .switch .keepArtifacts,
    .value .backend "loopback", .value .scenario "F Batch Norm", .value .output "--list"]

/-- Runs no commands. -/
def commandless : Host where
  run _ _ := .error .notFound

/-- The two lists of arguments make the program do the same, and a last option without its value
makes it do nothing. -/
theorem run_confusing :
    (run commandless (fun _ => none) 0 (confusing.flatMap Group.arguments)).run {} =
        (run commandless (fun _ => none) 0 (confusingToo.flatMap Group.arguments)).run {} ∧
      (run commandless (fun _ => none) 0
          (confusing.flatMap Group.arguments ++ ["--report"])).run {} =
        (refused (.usage (.missingValue .report)), {}) := by
  have hreordered : Reordered confusing confusingToo := by
    refine ⟨by decide, fun option hoption => ?_⟩
    cases option with
    | scenario => exact absurd rfl hoption
    | _ => rfl
  have hknown : ∀ name ∈ valuesOf .scenario confusing, ∃ s ∈ Registry.builtin.scenarios,
      s.canonicalName = Text.caseName name := by decide +kernel
  obtain ⟨-, horder, -, hstuck⟩ := run_by_groups commandless (fun _ => none) 0
  refine ⟨?_, hstuck confusing _ _ (.missingValue .report) {}⟩
  rcases (horder _ _ hreordered).2 {} with hsame | ⟨name, hname, -, -, hunknown, -⟩
  · exact hsame
  · exact absurd (hknown name hname) hunknown

end TensorParity.CommandLine
