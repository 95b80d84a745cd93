/-
What a list of arguments means.

* `apply_of_sets`, `apply_of_misuses`, `apply_of_not_addressed` : what one argument does, by
  its form;
* `foldlM_apply` : what a list of arguments without a misuse does, from any options;
* `meaning_of_arguments` : the first misuse is reported; without one, the last setting of each
  option counts.

Design notes: the forms of arguments are said as texts here, not by splitting them. An
argument that assigns a value to a key has the text key, equals sign, value or, for the empty
value, the key alone; keys have no equals sign, so this is the split at the first one, and
values may have more of them.
-/
import FixedInit.Options
import Mathlib.Data.List.Basic
import Mathlib.Data.List.TakeWhile

namespace FixedInit.Options

/-! ### Forms of arguments -/

/-- An argument is the option name with a text behind it, once its leading dashes are
removed. -/
def Says (argument rest : String) : Prop :=
  argument.toList.dropWhile (· == '-') = (optionName ++ rest).toList

/-- An argument is meant for the pass. -/
def Addressed (argument : String) : Prop :=
  ∃ rest, Says argument rest

/-- An argument gives a value to a key. -/
def Assigns (argument key value : String) : Prop :=
  Says argument ("-" ++ key ++ "=" ++ value) ∨ Says argument ("-" ++ key) ∧ value = ""

/-- What one argument sets. -/
inductive Setting
  | enable
  | policy (value : ErrorPolicy)
  | factoryField (name : String)

/-- The options with one of them set. -/
def Setting.applyTo (options : Options) : Setting → Options
  | .enable => { options with enabled := true }
  | .policy value => { options with policy := value }
  | .factoryField name => { options with factoryField := name }

/-- Two settings of one option, of which the later one counts. -/
def Setting.Rivals : Setting → Setting → Prop
  | .policy _, .policy _ => True
  | .factoryField _, .factoryField _ => True
  | _, _ => False

/-- A well-formed argument, and what it sets. -/
inductive Sets (argument : String) : Setting → Prop
  | enable (h : Says argument "") : Sets argument .enable
  | abort (h : Says argument "-on-parse-error=abort") : Sets argument (.policy .abort)
  | skip (h : Says argument "-on-parse-error=skip") : Sets argument (.policy .skip)
  | factoryField {name : String} (h : Says argument ("-factory-field=" ++ name))
      (some_name : name ≠ "") :
      Sets argument (.factoryField name)

/-- An argument that is meant for the pass and not well formed, and the failure that reports
it. -/
inductive Misuses (argument : String) : OptionError → Prop
  | policy {value : String} (h : Assigns argument "on-parse-error" value)
      (not_abort : value ≠ "abort") (not_skip : value ≠ "skip") :
      Misuses argument (.invalidValue "on-parse-error" value)
  | factoryField (h : Assigns argument "factory-field" "") :
      Misuses argument (.invalidValue "factory-field" "")
  | unknown (addressed : Addressed argument) (not_alone : ¬ Says argument "")
      (no_policy : ∀ value, ¬ Assigns argument "on-parse-error" value)
      (no_name : ∀ value, ¬ Assigns argument "factory-field" value) :
      Misuses argument (.unknownOption (String.ofList (argument.toList.dropWhile (· == '-'))))

/-- An argument that is meant for the pass and sets nothing. -/
def IllFormed (argument : String) : Prop :=
  Addressed argument ∧ ¬ ∃ setting, Sets argument setting

/-- The value of the last argument that sets an option, or the default if there is none. -/
def LastSet {α : Type} (arguments : List String) (option : α → Setting)
    (default value : α) : Prop :=
  (∃ before argument after, arguments = before ++ argument :: after ∧
    Sets argument (option value) ∧
    ∀ later ∈ after, ∀ other, ¬ Sets later (option other)) ∨
  (∀ argument ∈ arguments, ∀ other, ¬ Sets argument (option other)) ∧ value = default

/-! ### One argument -/

variable {argument : String}

theorem behind_name_eq_none (h : ¬ Addressed argument) :
    List.isPrefixOf? optionName.toList (argument.toList.dropWhile (· == '-')) = none := by
  rw [Option.eq_none_iff_forall_ne_some]
  intro rest found
  refine h ⟨String.ofList rest, ?_⟩
  rw [Says, String.toList_append, String.toList_ofList]
  exact (List.isPrefixOf?_eq_some_iff_append_eq.mp found).symm

theorem apply_of_not_addressed (h : ¬ Addressed argument) (options : Options) :
    options.apply argument = .ok options := by
  rw [apply, behind_name_eq_none h]

theorem behind_name_eq_some {rest : String} (h : Says argument rest) :
    List.isPrefixOf? optionName.toList (argument.toList.dropWhile (· == '-')) =
      some rest.toList := by
  rw [List.isPrefixOf?_eq_some_iff_append_eq, h, String.toList_append]

theorem splitSetting_key {key : String} (plain : '=' ∉ key.toList) :
    splitSetting key.toList = (key, "") := by
  have all : ∀ c ∈ key.toList, (c != '=') = true := fun c hc => by
    simpa using fun same : c = '=' => plain (same ▸ hc)
  rw [splitSetting, List.takeWhile_eq_self_iff.mpr all, List.dropWhile_eq_nil_iff.mpr all]
  simp

theorem splitSetting_assign {key : String} (plain : '=' ∉ key.toList) (value : List Char) :
    splitSetting (key.toList ++ '=' :: value) = (key, String.ofList value) := by
  have all : ∀ c ∈ key.toList, (c != '=') = true := fun c hc => by
    simpa using fun same : c = '=' => plain (same ▸ hc)
  rw [splitSetting, List.takeWhile_append_of_pos all, List.dropWhile_append_of_pos all]
  simp

/-- A dash with anything behind it assigns a value to a key, as it is split. -/
theorem assigns_of_split {setting : List Char} {key value : String}
    (h : Says argument (String.ofList ('-' :: setting)))
    (split : splitSetting setting = (key, value)) :
    Assigns argument key value := by
  rw [splitSetting, Prod.mk.injEq] at split
  obtain ⟨rfl, rfl⟩ := split
  have parts := List.takeWhile_append_dropWhile (p := (· != '=')) (l := setting)
  cases rest : setting.dropWhile (· != '=') with
  | nil =>
    refine .inr ⟨?_, by simp⟩
    rw [rest, List.append_nil] at parts
    rw [parts]
    have text : String.ofList ('-' :: setting) = "-" ++ String.ofList setting :=
      String.toList_inj.mp (by simp)
    exact text ▸ h
  | cons c value =>
    -- what stopped the key is an equals sign
    have stopped : c = '=' := by
      have first := List.head?_dropWhile_not (· != '=') setting
      rw [rest] at first
      simpa using first
    refine .inl ?_
    rw [rest, stopped] at parts
    have text : String.ofList ('-' :: setting) =
        "-" ++ String.ofList (setting.takeWhile (· != '=')) ++ "=" ++ String.ofList value :=
      String.toList_inj.mp (by simpa using parts.symm)
    exact text ▸ h

/-- An argument that assigns a value to a key is applied by that key and that value. -/
theorem apply_of_assigns {key value : String} (plain : '=' ∉ key.toList)
    (h : Assigns argument key value) (options : Options) :
    options.apply argument =
      options.set (String.ofList (argument.toList.dropWhile (· == '-'))) key value := by
  rcases h with h | ⟨h, rfl⟩
  · have text : ("-" ++ key ++ "=" ++ value).toList =
        '-' :: (key.toList ++ '=' :: value.toList) := by
      simp
    rw [apply, behind_name_eq_some h, text]
    simp only [splitSetting_assign plain, String.ofList_toList]
  · have text : ("-" ++ key).toList = '-' :: key.toList := by simp
    rw [apply, behind_name_eq_some h, text]
    simp only [splitSetting_key plain]

theorem set_policy (options : Options) (argument value : String) :
    options.set argument "on-parse-error" value =
      (ErrorPolicy.parse value).map fun policy => { options with policy := policy } := by
  rw [set, if_pos (show "on-parse-error" = ErrorPolicy.key from rfl)]

theorem set_factoryField (options : Options) (argument value : String) :
    options.set argument "factory-field" value =
      if value = "" then .error (.invalidValue "factory-field" value)
      else .ok { options with factoryField := value } := by
  rw [set, if_neg (show "factory-field" ≠ ErrorPolicy.key by decide),
    if_pos (show "factory-field" = factoryKey from rfl)]

/-- A key that is neither of the two is unknown. -/
theorem set_unknown {key : String} (no_policy : key ≠ "on-parse-error")
    (no_name : key ≠ "factory-field") (options : Options) (argument value : String) :
    options.set argument key value = .error (.unknownOption argument) := by
  rw [set, if_neg (show key ≠ ErrorPolicy.key from no_policy),
    if_neg (show key ≠ factoryKey from no_name)]

theorem sets_enable_iff : Sets argument .enable ↔ Says argument "" := by
  constructor
  · rintro ⟨h⟩
    exact h
  · exact Sets.enable

theorem sets_policy_iff {policy : ErrorPolicy} :
    Sets argument (.policy policy) ↔ Assigns argument "on-parse-error" policy.text := by
  have abort : "-on-parse-error=abort" = "-" ++ "on-parse-error" ++ "=" ++ "abort" := by
    decide
  have skip : "-on-parse-error=skip" = "-" ++ "on-parse-error" ++ "=" ++ "skip" := by decide
  constructor
  · rintro (_ | h | h)
    · exact .inl (abort ▸ h)
    · exact .inl (skip ▸ h)
  · rintro (h | ⟨-, no_value⟩)
    · cases policy with
      | abort => exact .abort (abort ▸ h)
      | skip => exact .skip (skip ▸ h)
    · cases policy with
      | abort => exact absurd no_value (by decide)
      | skip => exact absurd no_value (by decide)

theorem sets_factoryField_iff {name : String} :
    Sets argument (.factoryField name) ↔
      Assigns argument "factory-field" name ∧ name ≠ "" := by
  have text : "-factory-field=" = "-" ++ "factory-field" ++ "=" := by decide
  constructor
  · rintro (_ | _ | _ | ⟨h, some_name⟩)
    rw [text] at h
    exact ⟨.inl h, some_name⟩
  · rintro ⟨h | ⟨-, rfl⟩, some_name⟩
    · rw [← text] at h
      exact .factoryField h some_name
    · exact absurd rfl some_name

theorem apply_of_sets {setting : Setting} (h : Sets argument setting) (options : Options) :
    options.apply argument = .ok (setting.applyTo options) := by
  cases setting with
  | enable =>
    rw [apply, behind_name_eq_some (sets_enable_iff.mp h), String.toList_empty]
    rfl
  | policy value =>
    rw [apply_of_assigns (by decide) (sets_policy_iff.mp h), set_policy,
      ErrorPolicy.parse_text]
    rfl
  | factoryField name =>
    obtain ⟨h, some_name⟩ := sets_factoryField_iff.mp h
    rw [apply_of_assigns (by decide) h, set_factoryField, if_neg some_name]
    rfl

theorem apply_of_misuses {failure : OptionError} (h : Misuses argument failure)
    (options : Options) :
    options.apply argument = .error failure := by
  cases h with
  | policy h not_abort not_skip =>
    rw [apply_of_assigns (by decide) h, set_policy, ErrorPolicy.parse, if_neg not_abort,
      if_neg not_skip]
    rfl
  | factoryField h => rw [apply_of_assigns (by decide) h, set_factoryField, if_pos rfl]
  | unknown addressed not_alone no_policy no_name =>
    obtain ⟨rest, h⟩ := addressed
    rw [apply, behind_name_eq_some h]
    split
    · rename_i unaddressed
      cases unaddressed
    · rename_i alone
      exact absurd (String.toList_eq_nil_iff.mp (Option.some.inj alone) ▸ h) not_alone
    · rename_i setting dash
      generalize split : splitSetting setting = pair
      obtain ⟨key, value⟩ := pair
      have text : rest = String.ofList ('-' :: setting) := by
        rw [← Option.some.inj dash, String.ofList_toList]
      have assigned := assigns_of_split (text ▸ h) split
      exact set_unknown (fun same => no_policy value (same ▸ assigned))
        (fun same => no_name value (same ▸ assigned)) _ _ _
    · rfl

/-- Every argument is foreign, sets something or is a misuse. -/
theorem sets_or_misuses (h : Addressed argument) :
    (∃ setting, Sets argument setting) ∨ ∃ failure, Misuses argument failure := by
  by_cases alone : Says argument ""
  · exact .inl ⟨_, .enable alone⟩
  by_cases policy : ∃ value, Assigns argument "on-parse-error" value
  · obtain ⟨value, assigned⟩ := policy
    by_cases abort : value = ErrorPolicy.abort.text
    · exact .inl ⟨_, sets_policy_iff.mpr (abort ▸ assigned)⟩
    by_cases skip : value = ErrorPolicy.skip.text
    · exact .inl ⟨_, sets_policy_iff.mpr (skip ▸ assigned)⟩
    exact .inr ⟨_, .policy assigned abort skip⟩
  by_cases name : ∃ value, Assigns argument "factory-field" value
  · obtain ⟨value, assigned⟩ := name
    by_cases empty : value = ""
    · exact .inr ⟨_, .factoryField (empty ▸ assigned)⟩
    · exact .inl ⟨_, sets_factoryField_iff.mpr ⟨assigned, empty⟩⟩
  exact .inr ⟨_, .unknown h alone (not_exists.mp policy) (not_exists.mp name)⟩

theorem addressed_of_misuses {failure : OptionError} (h : Misuses argument failure) :
    Addressed argument := by
  have assigned {key value : String} (h : Assigns argument key value) : Addressed argument :=
    h.elim (fun h => ⟨_, h⟩) fun h => ⟨_, h.1⟩
  cases h with
  | policy h _ _ => exact assigned h
  | factoryField h => exact assigned h
  | unknown addressed _ _ _ => exact addressed

/-- What is not well formed is what is reported when it is applied. -/
theorem illFormed_iff : IllFormed argument ↔ ∃ failure, Misuses argument failure := by
  refine ⟨fun h => (sets_or_misuses h.1).resolve_left h.2, ?_⟩
  rintro ⟨failure, misuses⟩
  refine ⟨addressed_of_misuses misuses, ?_⟩
  rintro ⟨setting, sets⟩
  have same := (apply_of_misuses misuses standard).symm.trans (apply_of_sets sets standard)
  cases same

theorem Setting.eq_of_applyTo {a b : Setting}
    (h : ∀ options, a.applyTo options = b.applyTo options) :
    a = b := by
  have from_none := h ⟨false, .abort, ""⟩
  have from_all := h ⟨true, .skip, "all"⟩
  cases a <;> cases b <;> simp_all [applyTo]

/-- An argument sets one thing only. -/
theorem eq_of_sets {a b : Setting} (ha : Sets argument a) (hb : Sets argument b) : a = b := by
  refine Setting.eq_of_applyTo fun options => ?_
  exact Except.ok.inj ((apply_of_sets ha options).symm.trans (apply_of_sets hb options))

theorem addressed_of_sets {setting : Setting} (h : Sets argument setting) :
    Addressed argument := by
  cases h with
  | enable h => exact ⟨_, h⟩
  | abort h => exact ⟨_, h⟩
  | skip h => exact ⟨_, h⟩
  | factoryField h _ => exact ⟨_, h⟩

/-! ### A list of arguments -/

section

variable {α : Type} {option : α → Setting} {default value : α} {arguments : List String}

theorem LastSet.none : LastSet [] option default default :=
  .inr ⟨by simp, rfl⟩

/-- An argument that sets the option takes the place of the default. -/
theorem LastSet.cons_of_sets {set : α}
    (sets : Sets argument (option set)) (h : LastSet arguments option set value) :
    LastSet (argument :: arguments) option default value := by
  rcases h with ⟨before, last, after, rfl, h, none_after⟩ | ⟨none_set, rfl⟩
  · exact .inl ⟨argument :: before, last, after, rfl, h, none_after⟩
  · exact .inl ⟨[], argument, arguments, rfl, sets, none_set⟩

theorem LastSet.cons_of_not_sets (not_set : ∀ other, ¬ Sets argument (option other))
    (h : LastSet arguments option default value) :
    LastSet (argument :: arguments) option default value := by
  rcases h with ⟨before, last, after, rfl, h, none_after⟩ | ⟨none_set, rfl⟩
  · exact .inl ⟨argument :: before, last, after, rfl, h, none_after⟩
  · exact .inr ⟨List.forall_mem_cons.mpr ⟨not_set, none_set⟩, rfl⟩

end

/-- What a list of arguments without a misuse does to any options. -/
theorem foldlM_apply {arguments : List String}
    (well_formed : ∀ argument ∈ arguments, ¬ IllFormed argument) (options : Options) :
    ∃ later, arguments.foldlM apply options = .ok later ∧
      (later.enabled = true ↔ options.enabled = true ∨ ∃ argument ∈ arguments,
        Sets argument .enable) ∧
      LastSet arguments .policy options.policy later.policy ∧
      LastSet arguments .factoryField options.factoryField later.factoryField := by
  induction arguments generalizing options with
  | nil => exact ⟨options, rfl, by simp, .none, .none⟩
  | cons argument arguments ih =>
    obtain ⟨here, rest⟩ := List.forall_mem_cons.mp well_formed
    simp only [List.foldlM_cons, List.exists_mem_cons_iff]
    by_cases addressed : Addressed argument
    · obtain ⟨setting, sets⟩ : ∃ setting, Sets argument setting :=
        Classical.not_not.mp fun none => here ⟨addressed, none⟩
      -- what the argument sets replaces the default of the rest, and it sets nothing else
      obtain ⟨later, run, enabled, policy, name⟩ := ih rest (setting.applyTo options)
      rw [apply_of_sets sets]
      refine ⟨later, run, ?_⟩
      cases setting with
      | enable =>
        refine ⟨by simp [enabled, Setting.applyTo, sets], ?_, ?_⟩
        · exact .cons_of_not_sets (fun _ other => nomatch eq_of_sets sets other) policy
        · exact .cons_of_not_sets (fun _ other => nomatch eq_of_sets sets other) name
      | policy value =>
        have not_enable : ¬ Sets argument .enable :=
          fun other => nomatch eq_of_sets sets other
        refine ⟨by simp [enabled, Setting.applyTo, not_enable], .cons_of_sets sets policy, ?_⟩
        exact .cons_of_not_sets (fun _ other => nomatch eq_of_sets sets other) name
      | factoryField value =>
        have not_enable : ¬ Sets argument .enable :=
          fun other => nomatch eq_of_sets sets other
        refine ⟨by simp [enabled, Setting.applyTo, not_enable], ?_, .cons_of_sets sets name⟩
        exact .cons_of_not_sets (fun _ other => nomatch eq_of_sets sets other) policy
    · have sets_nothing (setting : Setting) : ¬ Sets argument setting :=
        fun sets => addressed (addressed_of_sets sets)
      obtain ⟨later, run, enabled, policy, name⟩ := ih rest options
      rw [apply_of_not_addressed addressed]
      exact ⟨later, run, by simp [enabled, sets_nothing],
        .cons_of_not_sets (fun _ => sets_nothing _) policy,
        .cons_of_not_sets (fun _ => sets_nothing _) name⟩

/-- The first misuse is what is reported. -/
theorem ofArguments_of_misuses {before : List String} {bad : String} {failure : OptionError}
    (well_formed : ∀ argument ∈ before, ¬ IllFormed argument) (misuses : Misuses bad failure)
    (after : List String) : ofArguments (before ++ bad :: after) = .error failure := by
  obtain ⟨options, run, -⟩ := foldlM_apply well_formed { standard with enabled := false }
  rw [ofArguments, List.foldlM_append, run]
  show List.foldlM apply options (bad :: after) = .error failure
  rw [List.foldlM_cons, apply_of_misuses misuses]
  rfl

theorem exists_first_illFormed {arguments : List String}
    (h : ∃ argument ∈ arguments, IllFormed argument) :
    ∃ before bad after, arguments = before ++ bad :: after ∧
      (∀ argument ∈ before, ¬ IllFormed argument) ∧ IllFormed bad := by
  classical
  obtain ⟨bad, found⟩ : ∃ bad, arguments.find? (decide <| IllFormed ·) = some bad := by
    rw [← Option.isSome_iff_exists, List.find?_isSome]
    simpa using h
  obtain ⟨illFormed, before, after, split, none_before⟩ :=
    List.find?_eq_some_iff_append.mp found
  exact ⟨before, bad, after, split, by simpa using none_before, by simpa using illFormed⟩

theorem Setting.applyTo_comm {a b : Setting} (h : ¬ a.Rivals b) (options : Options) :
    a.applyTo (b.applyTo options) = b.applyTo (a.applyTo options) := by
  cases a with
  | enable => cases b <;> rfl
  | policy value => cases b with
    | policy other => exact absurd trivial h
    | _ => rfl
  | factoryField name => cases b with
    | factoryField other => exact absurd trivial h
    | _ => rfl

/-- **What a list of arguments means.** It is refused exactly if an argument that is meant for
the pass is not well formed, and then the first such argument is reported. Otherwise the pass
is enabled if an argument says so, and the last setting of each other option counts. Arguments
that are not meant for the pass have no effect wherever they stand, and settings of different
options may be exchanged. -/
theorem meaning_of_arguments :
    (∀ arguments failure, ofArguments arguments = .error failure ↔
      ∃ before bad after, arguments = before ++ bad :: after ∧
        (∀ argument ∈ before, ¬ IllFormed argument) ∧ IllFormed bad ∧ Misuses bad failure) ∧
    (∀ arguments, (∀ argument ∈ arguments, ¬ IllFormed argument) →
      ∃ options, ofArguments arguments = .ok options ∧
        (options.enabled = true ↔ ∃ argument ∈ arguments, Says argument "") ∧
        LastSet arguments .policy .abort options.policy ∧
        LastSet arguments .factoryField "DATATYPE_FACTORY" options.factoryField) ∧
    (∀ before foreign after, ¬ Addressed foreign →
      ofArguments (before ++ foreign :: after) = ofArguments (before ++ after)) ∧
    ∀ before a b after s t, Sets a s → Sets b t → ¬ s.Rivals t →
      ofArguments (before ++ a :: b :: after) = ofArguments (before ++ b :: a :: after) := by
  refine ⟨fun arguments failure => ?_, fun arguments well_formed => ?_, ?_, ?_⟩
  · constructor
    · intro refused
      by_cases some_bad : ∃ argument ∈ arguments, IllFormed argument
      · obtain ⟨before, bad, after, rfl, well_formed, illFormed⟩ :=
          exists_first_illFormed some_bad
        obtain ⟨cause, misuses⟩ := illFormed_iff.mp illFormed
        rw [ofArguments_of_misuses well_formed misuses] at refused
        cases refused
        exact ⟨before, bad, after, rfl, well_formed, illFormed, misuses⟩
      · have well_formed : ∀ argument ∈ arguments, ¬ IllFormed argument := by
          simpa using some_bad
        obtain ⟨options, run, -⟩ :=
          foldlM_apply well_formed { standard with enabled := false }
        cases run.symm.trans refused
    · rintro ⟨before, bad, after, rfl, well_formed, -, misuses⟩
      exact ofArguments_of_misuses well_formed misuses after
  · obtain ⟨options, run, enabled, policy, name⟩ :=
      foldlM_apply well_formed { standard with enabled := false }
    refine ⟨options, run, ?_, policy, name⟩
    simpa [sets_enable_iff] using enabled
  · intro before foreign after foreigner
    exact ofArguments_ignored (behind_name_eq_none foreigner) before after
  · intro before a b after s t sets_a sets_b no_rivals
    have exchanged (options : Options) :
        List.foldlM apply options (a :: b :: after) =
          List.foldlM apply options (b :: a :: after) := by
      simp only [List.foldlM_cons, apply_of_sets sets_a, apply_of_sets sets_b]
      exact congrArg (List.foldlM apply · after) (Setting.applyTo_comm no_rivals options).symm
    simp only [ofArguments, List.foldlM_append]
    exact congrArg _ (funext exchanged)

/-- Of two policies the later one counts, with an argument between them that is not meant for
the pass. -/
theorem later_policy_counts :
    let arguments :=
      ["--Xfixed-value-on-parse-error=abort", "-verbose", "Xfixed-value-on-parse-error=skip"]
    (∀ argument ∈ arguments, ¬ IllFormed argument) ∧
      ofArguments arguments = .ok ⟨false, .skip, "DATATYPE_FACTORY"⟩ ∧
      LastSet arguments .policy .abort .skip := by
  intro arguments
  have foreign : ¬ Addressed "-verbose" := by
    rintro ⟨rest, h⟩
    rw [Says, String.toList_append] at h
    exact absurd (List.cons.inj h).1 (by decide)
  have well_formed : ∀ argument ∈ arguments, ¬ IllFormed argument := by
    refine List.forall_mem_cons.mpr ⟨fun h => h.2 ⟨_, .abort ?_⟩, List.forall_mem_cons.mpr
      ⟨fun h => foreign h.1, List.forall_mem_singleton.mpr fun h => h.2 ⟨_, .skip ?_⟩⟩⟩
    · rw [Says]
      decide
    · rw [Says]
      decide
  obtain ⟨options, run, -, policy, -⟩ := meaning_of_arguments.2.1 arguments well_formed
  have evaluated : ofArguments arguments = .ok ⟨false, .skip, "DATATYPE_FACTORY"⟩ := by decide
  cases run.symm.trans evaluated
  exact ⟨well_formed, evaluated, policy⟩

end FixedInit.Options
