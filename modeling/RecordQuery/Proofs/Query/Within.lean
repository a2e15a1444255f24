import RecordQuery.Query.Description

namespace RecordQuery

namespace Filter

mutual

def conditionsWithin : Filter → List Condition
  | ⟨_, conditions, filters⟩ => conditions ++ conditionsWithinAll filters

def conditionsWithinAll : List Filter → List Condition
  | [] => []
  | filter :: rest => filter.conditionsWithin ++ conditionsWithinAll rest

end

mutual

def mapConditions (f : Condition → Condition) : Filter → Filter
  | ⟨connective, conditions, filters⟩ =>
    ⟨connective, conditions.map f, mapConditionsAll f filters⟩

def mapConditionsAll (f : Condition → Condition) : List Filter → List Filter
  | [] => []
  | filter :: rest => filter.mapConditions f :: mapConditionsAll f rest

end

mutual

theorem conditionsWithin_mapConditions (f : Condition → Condition) : (filter : Filter) →
    (filter.mapConditions f).conditionsWithin = filter.conditionsWithin.map f
  | ⟨connective, conditions, filters⟩ => by
    rw [mapConditions, conditionsWithin, conditionsWithin, List.map_append,
      conditionsWithinAll_mapConditionsAll f filters]

theorem conditionsWithinAll_mapConditionsAll (f : Condition → Condition) :
    (filters : List Filter) →
    conditionsWithinAll (mapConditionsAll f filters) = (conditionsWithinAll filters).map f
  | [] => rfl
  | filter :: rest => by
    rw [mapConditionsAll, conditionsWithinAll, conditionsWithinAll, List.map_append,
      conditionsWithin_mapConditions f filter, conditionsWithinAll_mapConditionsAll f rest]

end

end Filter

namespace Link

mutual

def within : Link → List Link
  | ⟨source, entity, target, kind, alias?, columns, filter, orders, links⟩ =>
    ⟨source, entity, target, kind, alias?, columns, filter, orders, links⟩ :: withinAll links

def withinAll : List Link → List Link
  | [] => []
  | link :: rest => link.within ++ withinAll rest

end

theorem within_eq (link : Link) : link.within = link :: withinAll link.links := by
  cases link
  rfl

theorem withinAll_append (links others : List Link) :
    withinAll (links ++ others) = withinAll links ++ withinAll others := by
  induction links with
  | nil => rfl
  | cons link rest ih => rw [List.cons_append, withinAll, withinAll, ih, List.append_assoc]

mutual

theorem explicitAliases_eq : (link : Link) →
    link.explicitAliases = link.within.filterMap (·.alias?)
  | ⟨source, entity, target, kind, alias?, columns, filter, orders, links⟩ => by
    rw [explicitAliases, within, explicitAliasesAll_eq links]
    cases alias? <;> rfl

theorem explicitAliasesAll_eq : (links : List Link) →
    explicitAliasesAll links = (withinAll links).filterMap (·.alias?)
  | [] => rfl
  | link :: rest => by
    rw [explicitAliasesAll, withinAll, List.filterMap_append, explicitAliases_eq link,
      explicitAliasesAll_eq rest]

end

end Link

namespace Query

def filters (query : Query) : List Filter :=
  query.criteria :: (Link.withinAll query.links).map (·.filter)

def conditions (query : Query) : List Condition :=
  query.filters.flatMap Filter.conditionsWithin

end Query

end RecordQuery
