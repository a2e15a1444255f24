import RecordQuery.Proofs.Query.Within
import RecordQuery.Query.Description

namespace RecordQuery

namespace Link

section Revision

variable (f : Filter → Filter) (g : List OrderBy → List OrderBy)

mutual

def revise : Link → Link
  | ⟨source, entity, target, kind, alias?, columns, filter, orders, links⟩ =>
    ⟨source, entity, target, kind, alias?, columns, f filter, g orders, reviseAll links⟩

def reviseAll : List Link → List Link
  | [] => []
  | link :: rest => link.revise :: reviseAll rest

end

theorem alias?_revise (link : Link) : (link.revise f g).alias? = link.alias? := by
  cases link
  rfl

theorem filter_revise (link : Link) : (link.revise f g).filter = f link.filter := by
  cases link
  rfl

theorem columns_revise (link : Link) : (link.revise f g).columns = link.columns := by
  cases link
  rfl

theorem orders_revise (link : Link) : (link.revise f g).orders = g link.orders := by
  cases link
  rfl

mutual

theorem within_revise : (link : Link) →
    (link.revise f g).within = link.within.map (revise f g)
  | ⟨source, entity, target, kind, alias?, columns, filter, orders, links⟩ => by
    rw [within, List.map_cons, ← withinAll_reviseAll links, revise, within]

theorem withinAll_reviseAll : (links : List Link) →
    withinAll (reviseAll f g links) = (withinAll links).map (revise f g)
  | [] => rfl
  | link :: rest => by
    rw [reviseAll, withinAll, withinAll, List.map_append, within_revise link,
      withinAll_reviseAll rest]

end

theorem explicitAliasesAll_reviseAll (links : List Link) :
    explicitAliasesAll (reviseAll f g links) = explicitAliasesAll links := by
  rw [explicitAliasesAll_eq, explicitAliasesAll_eq, withinAll_reviseAll, List.filterMap_map]
  congr 1
  funext link
  exact alias?_revise f g link

variable (f' : Filter → Filter) (g' : List OrderBy → List OrderBy)

mutual

theorem revise_revise : (link : Link) →
    (link.revise f g).revise f' g' = link.revise (fun filter => f' (f filter))
      fun orders => g' (g orders)
  | ⟨source, entity, target, kind, alias?, columns, filter, orders, links⟩ => by
    rw [revise, revise, revise, reviseAll_reviseAll links]

theorem reviseAll_reviseAll : (links : List Link) →
    reviseAll f' g' (reviseAll f g links) = reviseAll (fun filter => f' (f filter))
      (fun orders => g' (g orders)) links
  | [] => rfl
  | link :: rest => by
    rw [reviseAll, reviseAll, reviseAll, revise_revise link, reviseAll_reviseAll rest]

end

variable {f g}

mutual

theorem revise_eq_self : (link : Link) →
    (∀ inner ∈ link.within, f inner.filter = inner.filter ∧ g inner.orders = inner.orders) →
    link.revise f g = link
  | ⟨source, entity, target, kind, alias?, columns, filter, orders, links⟩, h => by
    rw [within] at h
    obtain ⟨hfilter, horders⟩ := h _ List.mem_cons_self
    rw [revise, hfilter, horders,
      reviseAll_eq_self links fun inner hinner => h inner (List.mem_cons_of_mem _ hinner)]

theorem reviseAll_eq_self : (links : List Link) →
    (∀ inner ∈ withinAll links, f inner.filter = inner.filter ∧ g inner.orders = inner.orders) →
    reviseAll f g links = links
  | [], _ => rfl
  | link :: rest, h => by
    simp only [withinAll, List.mem_append] at h
    rw [reviseAll, revise_eq_self link fun inner hinner => h inner (Or.inl hinner),
      reviseAll_eq_self rest fun inner hinner => h inner (Or.inr hinner)]

end

end Revision

end Link

def Query.revise (f : Filter → Filter) (g : List OrderBy → List OrderBy) (query : Query) : Query :=
  { query with
    criteria := f query.criteria
    orders := g query.orders
    links := Link.reviseAll f g query.links }

def OrderBy.kept (aggregate : Bool) (orders : List OrderBy) : List OrderBy :=
  if aggregate then [] else orders

theorem OrderBy.kept_eq_self {aggregate : Bool} {orders : List OrderBy}
    (h : aggregate = true → orders = []) : OrderBy.kept aggregate orders = orders := by
  cases aggregate with
  | true => exact (h rfl).symm
  | false => rfl

def Query.unordered (query : Query) : Query :=
  query.revise id (OrderBy.kept query.aggregate)

end RecordQuery
