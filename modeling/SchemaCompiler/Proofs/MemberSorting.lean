import SchemaCompiler.Proofs.EffectRuns
import SchemaCompiler.Proofs.SignatureExpansion

/-! Where the members of a description end up. `Placed` lists all that the sorting of one member
can do, so that later statements are read off it without unfolding the sorting again. A sorted
description has in each place what the declarations say alone, in declaration order
(`Description.classify_sorted`): names are distinct, so nothing is filed in the place of another
member. -/
namespace SchemaCompiler

variable {κ : Type}

/-! ## What a description declares -/

/-- The hook that a member declares, with its phase. -/
def Member.hook? (name : String) : Member κ → Option (Phase × Hook κ)
  | .hook declared => (Phase.ofName? name).map fun phase => (phase, declared)
  | _ => none

/-- The table method that a member declares. -/
def Member.tableMethod? (name : String) : Member κ → Option (String × κ)
  | .tableMethod callback => if name = onDefineName then none else some (name, callback)
  | _ => none

/-- The post-definition callback that a member declares. -/
def Member.onDefine? (name : String) : Member κ → Option κ
  | .tableMethod callback => if name = onDefineName then some callback else none
  | _ => none

def Member.index? (name : String) : Member κ → Option (String × Index)
  | .index declared => some (name, declared)
  | _ => none

def Member.option? (name : String) : Member κ → Option (String × Json)
  | .option value => some (name, value)
  | _ => none

section Named

variable {name : String} {member : Member κ}

theorem Member.hook?_named {phase : Phase} {hook : Hook κ}
    (picked : member.hook? name = some (phase, hook)) : phase.name = name := by
  cases member <;> simp only [hook?, reduceCtorEq, Option.map_eq_some_iff] at picked
  obtain ⟨found, named, same⟩ := picked
  cases same
  exact (Phase.ofName?_eq_some_iff.1 named).symm

theorem Member.tableMethod?_named {key : String} {callback : κ}
    (picked : member.tableMethod? name = some (key, callback)) : key = name := by
  cases member <;> simp [tableMethod?] at picked
  exact picked.2.1.symm

theorem Member.index?_named {key : String} {index : Index}
    (picked : member.index? name = some (key, index)) : key = name := by
  cases member <;> simp [index?] at picked
  exact picked.1.symm

theorem Member.option?_named {key : String} {value : Json}
    (picked : member.option? name = some (key, value)) : key = name := by
  cases member <;> simp [option?] at picked
  exact picked.1.symm

end Named

/-- What the unreserved members stand for, in declaration order. -/
def Description.own {α : Type} (pick : String → Member κ → Option α)
    (description : Description κ) : List α :=
  description.members.entries.filterMap fun declared =>
    if isReservedName declared.1 then none else pick declared.1 declared.2

namespace Description

def ownHooks (description : Description κ) : List (Phase × Hook κ) := description.own Member.hook?

def ownMethods (description : Description κ) : List (String × κ) :=
  description.own Member.tableMethod?

def ownIndexes (description : Description κ) : List (String × Index) :=
  description.own Member.index?

/-- The opaque options, those that are meant for the compiler among them. -/
def ownOptions (description : Description κ) : List (String × Json) :=
  description.own Member.option?

/-- The hook that is declared for a phase. -/
def hookAt? (description : Description κ) (phase : Phase) : Option (Hook κ) :=
  match description.members.get? phase.name with
  | some (.hook hook) => some hook
  | _ => none

/-- The declared post-definition callback. -/
def onDefine? (description : Description κ) : Option κ :=
  match description.members.get? onDefineName with
  | some (.tableMethod callback) => some callback
  | _ => none

/-- The value of a declared option. -/
def option? (description : Description κ) (name : String) : Option Json :=
  match description.members.get? name with
  | some (.option value) => if isReservedName name then none else some value
  | _ => none

end Description

/-! ## Picking from entries -/

/-- What a pick takes that looks at one key only. -/
private theorem Entries.filterMap_at {α β γ : Type} [DecidableEq α] (key : α)
    {pick : α × β → Option γ}
    (only : ∀ entry value, pick entry = some value → entry.1 = key) {entries : List (α × β)}
    (distinct : (entries.map Prod.fst).Nodup) :
    entries.filterMap pick =
      ((Entries.get? key entries).bind fun value => pick (key, value)).toList := by
  induction entries with
  | nil => rfl
  | cons entry rest ih =>
    obtain ⟨k, v⟩ := entry
    obtain ⟨fresh, distinct⟩ := List.nodup_cons.1 distinct
    have later := ih distinct
    by_cases same : k = key
    · subst same
      rw [Entries.get?_eq_none_iff.2 fresh] at later
      cases picked : pick (k, v) <;> simp [Entries.get?, picked, later]
    · have passed : pick (k, v) = none :=
        Option.eq_none_iff_forall_ne_some.2 fun value picked => same (only _ value picked)
      simp [Entries.get?, same, passed, later]

/-- Picks under the keys of the members are distinct, since the members are. -/
theorem Entries.nodup_filterMap {α β γ δ : Type} {pick : α × β → Option (γ × δ)} (named : γ → α)
    (keeps : ∀ entry key value, pick entry = some (key, value) → named key = entry.1)
    {entries : List (α × β)} (distinct : (entries.map Prod.fst).Nodup) :
    ((entries.filterMap pick).map Prod.fst).Nodup := by
  induction entries with
  | nil => exact .nil
  | cons entry rest ih =>
    obtain ⟨fresh, distinct⟩ := List.nodup_cons.1 distinct
    cases picked : pick entry with
    | none => simpa [picked] using ih distinct
    | some found =>
      obtain ⟨key, value⟩ := found
      rw [List.filterMap_cons_some picked, List.map_cons, List.nodup_cons]
      refine ⟨fun again => fresh ?_, ih distinct⟩
      obtain ⟨⟨_, other⟩, later, rfl⟩ := List.mem_map.1 again
      obtain ⟨entry', member, picked'⟩ := List.mem_filterMap.1 later
      rw [← keeps entry _ value picked, keeps entry' _ other picked']
      exact List.mem_map_of_mem member

/-! ## Sorting one member -/

namespace Classification

/-- All that sorting one member can do. -/
inductive Placed (lookup : TableLookup) (c : Classification κ) :
    String × Member κ → Classification κ → Prop
  | skipped {name : String} {member : Member κ} (reserved : isReservedName name = true) :
      Placed lookup c (name, member) c
  | hook {name : String} {phase : Phase} {hook : Hook κ} (unreserved : isReservedName name = false)
      (named : Phase.ofName? name = some phase) :
      Placed lookup c (name, .hook hook) { c with hooks := c.hooks.insert phase hook }
  | field {name : String} {field : Field} {validators : List Validator}
      (unreserved : isReservedName name = false)
      (made : Requirement.resolveAll lookup field.requirements = .ok validators) :
      Placed lookup c (name, .field field) { c with
        fields := c.fields ++
          [.plain { name, typeArgs := field.typeArgs, options := field.options, validators }]
        hasIdName := c.hasIdName || name == idColumn
        hasIdType := c.hasIdType || field.hasIdType }
  | virtual {name : String} {getter : Getter} (unreserved : isReservedName name = false) :
      Placed lookup c (name, .virtual getter) { c with fields := c.fields ++ [.virtual name getter] }
  | method {name : String} {call : RowMethod} (unreserved : isReservedName name = false) :
      Placed lookup c (name, .method call) { c with fields := c.fields ++ [.method name call] }
  | onDefine {callback : κ} (unreserved : isReservedName onDefineName = false) :
      Placed lookup c (onDefineName, .tableMethod callback) { c with onDefine := some callback }
  | tableMethod {name : String} {callback : κ} (unreserved : isReservedName name = false)
      (other : name ≠ onDefineName) :
      Placed lookup c (name, .tableMethod callback)
        { c with tableMethods := c.tableMethods.insert name callback }
  | index {name : String} {index : Index} (unreserved : isReservedName name = false) :
      Placed lookup c (name, .index index) { c with indexes := c.indexes.insert name index }
  | option {name : String} {value : Json} (unreserved : isReservedName name = false) :
      Placed lookup c (name, .option value) { c with options := c.options.insert name value }

variable {table : String} {lookup : TableLookup} {c after : Classification κ}
  {declared : String × Member κ}

theorem placed_of_add (placed : c.add table lookup declared = .ok after) :
    Placed lookup c declared after := by
  obtain ⟨name, member⟩ := declared
  simp only [add] at placed
  cases reserved : isReservedName name with
  | true =>
    rw [reserved, if_pos rfl] at placed
    cases placed
    exact .skipped reserved
  | false =>
    rw [reserved, if_neg Bool.false_ne_true] at placed
    cases named : Phase.ofName? name with
    | some phase =>
      cases member <;> simp only [named] at placed <;> cases placed
      exact .hook reserved named
    | none =>
      simp only [named] at placed
      cases member with
      | field field =>
        simp only [addMember, addField] at placed
        split at placed
        · cases placed
        · next made =>
          cases placed
          exact .field reserved made
      | virtual getter =>
        cases placed
        exact .virtual reserved
      | method call =>
        cases placed
        exact .method reserved
      | tableMethod callback =>
        simp only [addMember] at placed
        split at placed
        · next own =>
          cases placed
          subst own
          exact .onDefine reserved
        · next other =>
          cases placed
          exact .tableMethod reserved other
      | index index =>
        cases placed
        exact .index reserved
      | option value =>
        cases placed
        exact .option reserved
      | hook hook => cases placed

/-! ## Sorting all members -/

/-- If each member is filed under what a pick makes of it, so are all of them in turn. -/
private theorem foldlM_filed {α β : Type} [DecidableEq α]
    (place : Classification κ → OrderedMap α β) {pick : String × Member κ → Option (α × β)}
    (step : ∀ c declared after, Placed lookup c declared after →
      place after = (place c).insertAll (pick declared).toList)
    {members : List (String × Member κ)}
    (sorted : members.foldlM (add table lookup) c = .ok after) :
    place after = (place c).insertAll (members.filterMap pick) := by
  induction members generalizing c with
  | nil =>
    cases sorted
    rfl
  | cons declared rest ih =>
    rw [List.foldlM_cons] at sorted
    obtain ⟨middle, first, later⟩ := Effect.bind_eq_ok_iff.1 sorted
    rw [ih later, step c declared middle (placed_of_add first)]
    cases picked : pick declared <;> simp [picked, OrderedMap.insertAll]

/-- What the placing of one member keeps, the placing of many keeps. -/
theorem foldlM_keeps {P : Classification κ → Prop}
    (step : ∀ c declared after, Placed lookup c declared after → P c → P after)
    {members : List (String × Member κ)}
    (sorted : members.foldlM (add table lookup) c = .ok after) (before : P c) : P after := by
  induction members generalizing c with
  | nil =>
    cases sorted
    exact before
  | cons declared rest ih =>
    rw [List.foldlM_cons] at sorted
    obtain ⟨middle, first, later⟩ := Effect.bind_eq_ok_iff.1 sorted
    exact ih later (step c declared middle (placed_of_add first) before)

private theorem foldlM_onDefine {members : List (String × Member κ)}
    (sorted : members.foldlM (add table lookup) c = .ok after) :
    after.onDefine = (members.filterMap fun declared =>
      if isReservedName declared.1 then none
      else declared.2.onDefine? declared.1).getLast?.or c.onDefine := by
  induction members generalizing c with
  | nil =>
    cases sorted
    rfl
  | cons declared rest ih =>
    rw [List.foldlM_cons] at sorted
    obtain ⟨middle, first, later⟩ := Effect.bind_eq_ok_iff.1 sorted
    rw [ih later]
    cases placed_of_add first with
    | onDefine unreserved =>
      simp [unreserved, Member.onDefine?, List.getLast?_cons]
    | tableMethod unreserved other => simp [unreserved, Member.onDefine?, other]
    | _ => simp [Member.onDefine?, *]

end Classification

/-! ## Sorting a description -/

section Own

variable {α : Type} (description : Description κ)

/-- Picks that keep the names of members apart take no two entries of one key. -/
private theorem Description.own_nodup {β : Type} {pick : String → Member κ → Option (α × β)}
    {named : α → String}
    (keeps : ∀ name member key value, pick name member = some (key, value) → named key = name) :
    ((description.own pick).map Prod.fst).Nodup := by
  refine Entries.nodup_filterMap named ?_ description.members.distinct
  intro declared key value picked
  split at picked
  · cases picked
  · exact keeps _ _ key value picked

theorem Description.ownMethods_nodup : (description.ownMethods.map Prod.fst).Nodup :=
  description.own_nodup fun _ _ _ _ picked => Member.tableMethod?_named picked

/-- What a pick takes that looks at one name only. -/
private theorem Description.own_at (pick : String → Member κ → Option α) (name : String)
    (only : ∀ other member value, pick other member = some value → other = name)
    (unreserved : isReservedName name = false) :
    description.own pick = ((description.members.get? name).bind (pick name)).toList := by
  rw [Description.own, Entries.filterMap_at name ?_ description.members.distinct]
  · simp [unreserved, OrderedMap.get?]
  · intro declared value picked
    split at picked
    · cases picked
    · exact only _ _ value picked

end Own

private theorem Phase.name_unreserved (phase : Phase) : isReservedName phase.name = false := by
  cases phase <;> decide

/-- A phase has the hook that is declared under its name, and no other. -/
theorem Description.ownHooks_at (description : Description κ) (phase : Phase) :
    (description.ownHooks.filterMap fun own => if own.1 = phase then some own.2 else none) =
      (description.hookAt? phase).toList := by
  have single := description.own_at (fun name member => (Member.hook? name member).bind fun own =>
    if own.1 = phase then some own.2 else none) phase.name ?_ phase.name_unreserved
  · rw [ownHooks, own, List.filterMap_filterMap]
    refine Eq.trans (congrArg (List.filterMap · _) (funext fun declared => ?_)) (single.trans ?_)
    · split <;> rfl
    · rw [hookAt?]
      cases description.members.get? phase.name with
      | none => rfl
      | some member => cases member <;> simp [Member.hook?, Phase.ofName?_name]
  · intro other member value picked
    obtain ⟨⟨found, own⟩, declared, same⟩ := Option.bind_eq_some_iff.1 picked
    split at same
    · next at_phase =>
      rw [← at_phase]
      exact (Member.hook?_named declared).symm
    · cases same

/-- What is filed in each place by the time all members are sorted: what the declarations say, in
declaration order. -/
structure Classification.Sorts (c : Classification κ) (description : Description κ) : Prop where
  hooks : c.hooks.entries = description.ownHooks
  tableMethods : c.tableMethods.entries = description.ownMethods
  indexes : c.indexes.entries = description.ownIndexes
  options : c.options.entries = description.ownOptions
  onDefine : c.onDefine = description.onDefine?

theorem Description.classify_sorted {description : Description κ} {table : String}
    {lookup : TableLookup} {c : Classification κ}
    (sorted : description.classify table lookup = .ok c) : c.Sorts description := by
  have filed {α β : Type} [DecidableEq α] (place : Classification κ → OrderedMap α β)
      (pick : String → Member κ → Option (α × β)) (named : α → String)
      (unused : place {} = .empty)
      (keeps : ∀ name member key value, pick name member = some (key, value) → named key = name)
      (step : ∀ (c : Classification κ) declared after, Classification.Placed lookup c declared after →
        place after = (place c).insertAll
          (if isReservedName declared.1 then none else pick declared.1 declared.2).toList) :
      (place c).entries = description.own pick := by
    rw [Classification.foldlM_filed place step sorted, unused]
    exact OrderedMap.entries_ofList (description.own_nodup keeps)
  constructor
  · refine filed Classification.hooks Member.hook? Phase.name rfl ?_ ?_
    · exact fun _ _ _ _ picked => Member.hook?_named picked
    · intro c declared after placed
      cases placed <;> simp [Member.hook?, OrderedMap.insertAll, *]
  · refine filed Classification.tableMethods Member.tableMethod? id rfl ?_ ?_
    · exact fun _ _ _ _ picked => Member.tableMethod?_named picked
    · intro c declared after placed
      cases placed <;> simp [Member.tableMethod?, OrderedMap.insertAll, *]
  · refine filed Classification.indexes Member.index? id rfl ?_ ?_
    · exact fun _ _ _ _ picked => Member.index?_named picked
    · intro c declared after placed
      cases placed <;> simp [Member.index?, OrderedMap.insertAll, *]
  · refine filed Classification.options Member.option? id rfl ?_ ?_
    · exact fun _ _ _ _ picked => Member.option?_named picked
    · intro c declared after placed
      cases placed <;> simp [Member.option?, OrderedMap.insertAll, *]
  · have last := Classification.foldlM_onDefine sorted
    have single := description.own_at Member.onDefine? onDefineName ?_ (by decide)
    · rw [Description.own] at single
      rw [last, single, Description.onDefine?]
      cases description.members.get? onDefineName with
      | none => rfl
      | some member => cases member <;> simp [Member.onDefine?]
    · intro other member value picked
      cases member <;> simp [Member.onDefine?] at picked
      exact picked.1

end SchemaCompiler
