import Mathlib.Data.List.Basic
import SchemaCompiler.Config

/-! Which environment a setting comes from. An environment is used up when it is applied, so of the
names in a list only those count that there is an environment for, each where it first comes
(`Config.effective`). The overrides of these are applied one after the other
(`Config.withEnvironments_eq`), and every setting is what the last of them says that says anything
about it, or else what it was (`Config.foldl_override`). -/
namespace SchemaCompiler

variable {α : Type}

/-- What the last of the overrides says that says anything. -/
def lastSetting (setting : EnvironmentOverride → Option α) (changes : List EnvironmentOverride) :
    Option α :=
  (changes.filterMap setting).getLast?

private theorem lastSetting_cons (setting : EnvironmentOverride → Option α)
    (change : EnvironmentOverride) (later : List EnvironmentOverride) :
    lastSetting setting (change :: later) = (lastSetting setting later).or (setting change) := by
  unfold lastSetting
  cases said : setting change with
  | none => rw [List.filterMap_cons_none said, Option.or_none]
  | some value =>
    rw [List.filterMap_cons_some said, List.getLast?_cons]
    cases (later.filterMap setting).getLast? <;> rfl

/-- What is found among entries whose values were changed. -/
private theorem Entries.get?_map {β γ : Type} [DecidableEq α] (change : α → β → γ) (key : α)
    (entries : List (α × β)) :
    get? key (entries.map fun entry => (entry.1, change entry.1 entry.2)) =
      (get? key entries).map (change key) := by
  induction entries with
  | nil => rfl
  | cons entry rest ih =>
    rw [List.map_cons, get?, get?]
    by_cases same : entry.1 = key
    · rw [if_pos same, if_pos same, same, Option.map_some]
    · rw [if_neg same, if_neg same, ih]

namespace Config

variable (config : Config) (names : List String)

/-- The names that have an effect, in order: those of environments, each where it first comes. -/
def effective : List String :=
  (names.filter fun name => config.environments.contains name).eraseDups

/-- The overrides that are applied, in order. -/
def overrides : List EnvironmentOverride :=
  (config.effective names).filterMap config.environments.get?

/-- Settings after environments were applied whose names are given, each once. -/
structure Overridden (before : Config) (applied : List String) (changes : List EnvironmentOverride)
    (after : Config) : Prop where
  rawPrefix : ∀ name, (after.group name).rawPrefix =
    (lastSetting (fun change => (change.groups.get? name).bind GroupOverride.rawPrefix) changes).or
      (before.group name).rawPrefix
  autoKey : ∀ name, (after.group name).autoKey =
    (lastSetting (fun change => (change.groups.get? name).bind GroupOverride.autoKey) changes).getD
      (before.group name).autoKey
  /-- Groups that were not there come last, in the order in which they are first mentioned. -/
  groups : after.groups.keys = before.groups.keys ++
    ((changes.flatMap fun change => change.groups.keys).filter (· ∉ before.groups.keys)).eraseDups
  indexes : after.indexes = (lastSetting EnvironmentOverride.indexes changes).getD before.indexes
  logLevel : after.debug.logLevel =
    (lastSetting (fun change => change.debug.bind DebugConfig.logLevel) changes).or
      before.debug.logLevel
  logFormat : after.debug.logFormat =
    (lastSetting (fun change => change.debug.bind DebugConfig.logFormat) changes).or
      before.debug.logFormat
  environments : after.environments.entries =
    before.environments.entries.filter fun entry => entry.1 ∉ applied

/-! ## One override -/

/-- Each group that is mentioned is changed once, since it is mentioned once. -/
theorem foldl_groups (groups : OrderedMap String GroupConfig)
    {entries : List (String × GroupOverride)} (distinct : (entries.map Prod.fst).Nodup) :
    entries.foldl (fun groups entry =>
        groups.insert entry.1 (entry.2.apply ((groups.get? entry.1).getD {}))) groups =
      groups.insertAll (entries.map fun entry =>
        (entry.1, entry.2.apply ((groups.get? entry.1).getD {}))) := by
  induction entries generalizing groups with
  | nil => rfl
  | cons entry rest ih =>
    obtain ⟨fresh, distinct⟩ := List.nodup_cons.1 distinct
    rw [List.foldl_cons, ih _ distinct, List.map_cons]
    unfold OrderedMap.insertAll
    rw [List.foldl_cons]
    congr 1
    refine List.map_congr_left fun other listed => ?_
    have unlike : entry.1 ≠ other.1 := fun same => fresh (same ▸ List.mem_map_of_mem listed)
    rw [OrderedMap.get?_insert, if_neg unlike]

private theorem groups_override (change : EnvironmentOverride) :
    (config.override change).groups = config.groups.insertAll
      (change.groups.entries.map fun entry => (entry.1, entry.2.apply (config.group entry.1))) :=
  foldl_groups config.groups change.groups.distinct

/-- A group that is mentioned is changed, from the defaults if it was not there. -/
theorem group_override (change : EnvironmentOverride) (name : String) :
    (config.override change).group name =
      ((change.groups.get? name).map fun mentioned => mentioned.apply (config.group name)).getD
        (config.group name) := by
  have distinct : ((change.groups.entries.map fun entry =>
      (entry.1, entry.2.apply (config.group entry.1))).map Prod.fst).Nodup := by
    rw [List.map_map]
    exact change.groups.distinct
  rw [group, groups_override, OrderedMap.get?_insertAll _ distinct,
    Entries.get?_map fun name mentioned => GroupOverride.apply mentioned (config.group name)]
  change ((change.groups.get? name).map _ |>.or _).getD _ = _
  cases change.groups.get? name <;> rfl

/-- Groups that were not there come after those that were. -/
theorem keys_override (change : EnvironmentOverride) :
    (config.override change).groups.keys =
      config.groups.keys ++ change.groups.keys.filter (· ∉ config.groups.keys) := by
  have same : (change.groups.entries.map fun entry =>
      (entry.1, entry.2.apply (config.group entry.1))).map Prod.fst = change.groups.keys := by
    rw [List.map_map]
    rfl
  have distinct := same ▸ change.groups.keys_nodup
  rw [groups_override, OrderedMap.keys_insertAll _ distinct, same]

/-! ## Overrides in a row -/

/-- What each override says or else leaves is what the last of them says, or else what it was. -/
theorem foldl_override (view : Config → Option α) {setting : EnvironmentOverride → Option α}
    (step : ∀ config change, view (override config change) = (setting change).or (view config))
    (changes : List EnvironmentOverride) :
    view (changes.foldl override config) = (lastSetting setting changes).or (view config) := by
  induction changes generalizing config with
  | nil => rfl
  | cons change later ih => rw [List.foldl_cons, ih, step, lastSetting_cons, Option.or_assoc]

private theorem foldl_override_getD (view : Config → α) {setting : EnvironmentOverride → Option α}
    (step : ∀ config change, view (override config change) = (setting change).getD (view config))
    (changes : List EnvironmentOverride) :
    view (changes.foldl override config) = (lastSetting setting changes).getD (view config) := by
  have wrapped (config : Config) (change : EnvironmentOverride) :
      (some ∘ view) (override config change) = (setting change).or ((some ∘ view) config) := by
    rw [Function.comp, Function.comp, step, Option.or_some]
  have last := config.foldl_override (some ∘ view) wrapped changes
  rw [Function.comp, Function.comp, Option.or_some] at last
  exact Option.some.inj last

private theorem eraseDups_of_nodup {names : List String} (distinct : names.Nodup) :
    names.eraseDups = names := by
  induction names with
  | nil => rfl
  | cons name rest ih =>
    obtain ⟨fresh, distinct⟩ := List.nodup_cons.1 distinct
    have others : rest.filter (fun other => !other == name) = rest :=
      List.filter_eq_self.2 fun other listed => by
        simpa using fun same : other = name => fresh (same ▸ listed)
    rw [List.eraseDups_cons, others, ih distinct]

/-- Groups come in the order in which they are first mentioned. -/
private theorem keys_foldl_override (changes : List EnvironmentOverride) :
    (changes.foldl override config).groups.keys = config.groups.keys ++
      ((changes.flatMap fun change => change.groups.keys).filter
        (· ∉ config.groups.keys)).eraseDups := by
  induction changes generalizing config with
  | nil => simp
  | cons change later ih =>
    have distinct := (List.filter_sublist (p := (· ∉ config.groups.keys))).nodup
      change.groups.keys_nodup
    rw [List.foldl_cons, ih, keys_override, List.append_assoc, List.flatMap_cons,
      List.filter_append, List.eraseDups_append, eraseDups_of_nodup distinct, List.removeAll,
      List.filter_filter]
    congr 3
    refine List.filter_congr fun name _ => ?_
    by_cases known : name ∈ config.groups.keys <;> simp [known]

/-! ## Environments in a row -/

/-- Overrides have nothing to do with the environments that are left. -/
private theorem foldl_override_environments (changes : List EnvironmentOverride)
    (environments : OrderedMap String EnvironmentOverride) :
    changes.foldl override { config with environments } =
      { changes.foldl override config with environments } := by
  induction changes generalizing config with
  | nil => rfl
  | cons change later ih => exact ih (config.override change)

variable {config names} in
private theorem effective_cons_unknown {name : String}
    (unknown : config.environments.get? name = none) :
    config.effective (name :: names) = config.effective names := by
  unfold effective
  rw [List.filter_cons_of_neg (by simp [OrderedMap.contains, unknown])]

/-- Once it is applied, an environment is not there any more. -/
private theorem effective_cons_known {name : String} {change : EnvironmentOverride}
    (known : config.environments.get? name = some change) :
    config.effective (name :: names) = name ::
      ({ config with environments := config.environments.erase name } : Config).effective names := by
  unfold effective
  rw [List.filter_cons_of_pos (by simp [OrderedMap.contains, known]), List.eraseDups_cons,
    List.filter_filter]
  congr 2
  refine List.filter_congr fun other _ => ?_
  by_cases same : other = name
  · subst same
    simp [OrderedMap.contains, OrderedMap.get?_erase]
  · simp [OrderedMap.contains, OrderedMap.get?_erase, same, Ne.symm same]

/-- Applying environments comes to applying the overrides of those that have an effect, and these
are used up. -/
theorem withEnvironments_eq :
    config.withEnvironments names =
      { (config.overrides names).foldl override config with
        environments := config.environments.filter fun name _ => name ∉ config.effective names } := by
  induction names generalizing config with
  | nil =>
    have all : config.environments.filter (fun name _ => name ∉ config.effective []) =
        config.environments := OrderedMap.ext (List.filter_eq_self.2 (by simp [effective]))
    rw [all]
    rfl
  | cons name rest ih =>
    have first : config.withEnvironments (name :: rest) =
        (config.withEnvironment name).withEnvironments rest := rfl
    rw [first]
    cases found : config.environments.get? name with
    | none =>
      have idle : config.withEnvironment name = config := by simp only [withEnvironment, found]
      rw [idle, ih, overrides, overrides, effective_cons_unknown found]
    | some change =>
      let left : Config := { config with environments := config.environments.erase name }
      have applied : config.withEnvironment name = left.override change := by
        simp only [withEnvironment, found, left]
      have used : config.effective (name :: rest) = name :: left.effective rest :=
        effective_cons_known config rest found
      have others : (left.effective rest).filterMap config.environments.get? =
          left.overrides rest := by
        refine List.filterMap_congr fun other listed => ?_
        have there : left.environments.contains other = true := by
          simpa using (List.mem_filter.1 (List.mem_eraseDups.1 listed)).2
        have unlike : name ≠ other := by
          rintro rfl
          simp [left, OrderedMap.contains, OrderedMap.get?_erase] at there
        rw [OrderedMap.get?_erase, if_neg unlike]
      have overrides : config.overrides (name :: rest) = change :: left.overrides rest := by
        rw [Config.overrides, used, List.filterMap_cons_some found, others]
      have environments : left.environments.filter (fun other _ => other ∉ left.effective rest) =
          config.environments.filter fun other _ => other ∉ name :: left.effective rest := by
        refine OrderedMap.ext (List.filter_filter.trans (List.filter_congr fun entry _ => ?_))
        simp [Bool.and_comm]
      have ran := foldl_override_environments (config.override change) (left.overrides rest)
        left.environments
      rw [applied, ih, overrides, used, ← environments, List.foldl_cons]
      exact congrArg (fun after : Config => { after with
        environments := left.environments.filter fun other _ => other ∉ left.effective rest }) ran

/-- An environment that was applied is not there any more. -/
private theorem get?_environments (name : String) :
    (config.withEnvironments names).environments.get? name =
      if name ∈ names then none else config.environments.get? name := by
  rw [withEnvironments_eq, OrderedMap.get?_filter]
  cases found : config.environments.get? name with
  | none => simp
  | some change =>
    have known : name ∈ config.effective names ↔ name ∈ names := by
      simp [effective, OrderedMap.contains, found]
    by_cases listed : name ∈ names <;> simp [known, listed]

/-- Whatever environments are named, in whatever order and how often, every setting is that of the
last environment in effect that has one, and else what it was: the prefix and the key policy of each
group, the level and the format of the log, and the index settings as a whole. Groups keep their
order, and new ones come after them as they are first mentioned, with defaults for what was not set.
The environments in effect are gone and the others are left. So a name that comes a second time, at
whatever later point, makes no difference. -/
theorem environments_exact :
    config.Overridden (config.effective names) (config.overrides names)
      (config.withEnvironments names) ∧
    ∀ earlier name between later,
      config.withEnvironments (earlier ++ name :: between ++ name :: later) =
        config.withEnvironments (earlier ++ name :: between ++ later) := by
  refine ⟨?_, fun earlier name between later => ?_⟩
  · rw [withEnvironments_eq]
    constructor
    case rawPrefix =>
      intro name
      refine config.foldl_override (fun config => (config.group name).rawPrefix)
        (fun config change => ?_) _
      rw [group_override]
      cases change.groups.get? name <;> rfl
    case autoKey =>
      intro name
      refine config.foldl_override_getD (fun config => (config.group name).autoKey)
        (fun config change => ?_) _
      rw [group_override]
      cases change.groups.get? name <;> rfl
    case groups => exact config.keys_foldl_override _
    case indexes =>
      exact config.foldl_override_getD indexes (fun config change => rfl) _
    case logLevel =>
      refine config.foldl_override (fun config => config.debug.logLevel)
        (fun config change => ?_) _
      unfold override
      cases change.debug <;> rfl
    case logFormat =>
      refine config.foldl_override (fun config => config.debug.logFormat)
        (fun config change => ?_) _
      unfold override
      cases change.debug <;> rfl
    case environments => rfl
  · have used : (config.withEnvironments (earlier ++ name :: between)).environments.get? name =
        none := by
      rw [get?_environments, if_pos (by simp)]
    have split (rest : List String) : config.withEnvironments (earlier ++ name :: between ++ rest) =
        (config.withEnvironments (earlier ++ name :: between)).withEnvironments rest :=
      List.foldl_append
    rw [split, split]
    generalize config.withEnvironments (earlier ++ name :: between) = reached at used ⊢
    have idle : reached.withEnvironment name = reached := by simp only [withEnvironment, used]
    change (reached.withEnvironment name).withEnvironments later = _
    rw [idle]

/-- The second `dev` does not take the prefix back. -/
example :
    let change (text : String) : EnvironmentOverride :=
      { groups := .ofList [("shop", { rawPrefix := some text })] }
    let config : Config :=
      { environments := .ofList [("dev", change "dev_"), ("test", change "test_")] }
    ((config.withEnvironments ["dev", "test", "dev"]).group "shop").rawPrefix = some "test_" := by
  decide

end Config
end SchemaCompiler
