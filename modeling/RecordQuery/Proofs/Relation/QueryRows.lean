import RecordQuery.Proofs.Relation.NestedLoop

namespace RecordQuery

open PlannedLink

namespace Record

theorem plain_of_names {record : Record}
    (h : ∀ name ∈ record.attributes.names, isQualified name = false) : record.Plain := by
  intro key hkey
  apply lookup_eq_none
  intro hmem
  rw [h key hmem] at hkey
  contradiction

theorem Plain.set {record : Record} (h : record.Plain) {name : String}
    (hname : isQualified name = false) (value : Value) : (record.set name value).Plain := by
  intro key hkey
  have hne : key ≠ name := by
    rintro rfl
    rw [hname] at hkey
    contradiction
  rw [get?_set, if_neg hne, h key hkey]

end Record

theorem Relation.scan_plain {store : Store} {entity primaryId : String}
    (hstored : ∀ record ∈ store.rows, ∀ name ∈ record.attributes.names,
      Record.isQualified name = false)
    (hid : Record.isQualified primaryId = false) :
    ∀ record ∈ (scan store entity primaryId).records, record.Plain := by
  intro record hrecord
  obtain ⟨stored, hmem, rfl⟩ := List.mem_map.mp hrecord
  have hplain := Record.plain_of_names (hstored stored (List.mem_filter.mp hmem).1)
  unfold identified
  split
  · exact hplain
  · exact hplain.set hid _

mutual

theorem PlannedLink.steps_aliases (parent? : Option String) : (planned : PlannedLink) →
    (planned.steps parent?).map (fun step => (step.aliasName, step.link.entity)) = planned.aliases
  | ⟨aliasName, link, children⟩ => by
    simp only [steps, aliases, List.map_cons, stepsAll_aliases (some aliasName) children]

theorem PlannedLink.stepsAll_aliases (parent? : Option String) : (links : List PlannedLink) →
    (stepsAll parent? links).map (fun step => (step.aliasName, step.link.entity)) =
      aliasesAll links
  | [] => rfl
  | planned :: rest => by
    simp only [stepsAll, aliasesAll, List.map_append, steps_aliases parent? planned,
      stepsAll_aliases parent? rest]

end

theorem PlannedLink.stepsAll_aliasName (parent? : Option String) (links : List PlannedLink) :
    (stepsAll parent? links).map (·.aliasName) = (aliasesAll links).map Prod.fst := by
  rw [← stepsAll_aliases parent? links, List.map_map]
  rfl

namespace Plan

mutual

theorem planLink_steps {catalog : Catalog} {parent : String} {taken after : Aliases}
    {planned : PlannedLink} (parent? : Option String) : (link : Link) →
    planLink catalog parent taken link = .ok (planned, after) →
    (planned.steps parent?).map (·.link) = link.within
  | ⟨source, entity, target, kind, alias?, columns, filter, orders, links⟩, h => by
    obtain ⟨-, -, hlink, hchildren⟩ := planLink_cases h
    obtain ⟨aliasName, planned, children⟩ := planned
    subst hlink
    simp only [steps, Link.within, List.map_cons, planLinks_steps (some aliasName) links hchildren]

theorem planLinks_steps {catalog : Catalog} {parent : String} {taken after : Aliases}
    {planned : List PlannedLink} (parent? : Option String) : (links : List Link) →
    planLinks catalog parent taken links = .ok (planned, after) →
    (stepsAll parent? planned).map (·.link) = Link.withinAll links
  | [], h => by
    unfold planLinks at h
    obtain ⟨rfl, rfl⟩ := Prod.mk.inj (Except.ok.inj h)
    rfl
  | link :: rest, h => by
    obtain ⟨first, middle, others, hfirst, hothers, rfl⟩ := planLinks_cases h
    simp only [stepsAll, Link.withinAll, List.map_append, planLink_steps parent? link hfirst,
      planLinks_steps parent? rest hothers]

end

end Plan

namespace Context

variable {context : Context} {query : Query} {plan : Plan}

theorem matchingRows_eq_nestedLoop {criteria : Predicate} {relation : Relation}
    (hsimple : Simple context (stepsAll none plan.links))
    (hroot : ∀ record ∈ (Relation.scan context.store plan.root plan.primaryId).records,
      record.Plain)
    (h : context.matchingRows plan criteria = .ok relation) :
    context.nestedLoop plan criteria = .ok relation.records := by
  obtain ⟨⟨joined, filters⟩, hjoined, h⟩ := bind_eq_ok_iff.mp h
  obtain ⟨rows, added, waiting, nest, hrows, hfollows⟩ := joinLinks_follows plan.links hsimple hjoined
  obtain ⟨rfl, rfl⟩ := hrows.eq_of_ok hjoined
  have hfresh : ∀ record ∈ (Relation.scan context.store plan.root plan.primaryId).records,
      record.Fresh ((stepsAll none plan.links).map (·.aliasName)) :=
    fun record hrecord => (hroot record hrecord).fresh _
  have hsplit : ∀ row : Record, (Predicate.conjunction ([criteria] ++ waiting)).admits row =
      (criteria.admits row && waiting.all (·.admits row)) := by
    intro row
    rw [Predicate.admits_conjunction, List.all_append, List.all_cons, List.all_nil, Bool.and_true]
  unfold nestedLoop
  rw [hfollows.loop, ok_bind, pure_eq_ok, Relation.filter_records h,
    List.filter_congr fun row _ => hsplit row, ← List.filter_filter,
    hfollows.filter_flatMap hfresh]

theorem exists_of_run {result : QueryResult} (hrun : context.run query = .ok result) :
    ∃ plan criteria shape relation shown, Plan.ofQuery context.catalog query = .ok plan ∧
      query.criteria.compile context plan.aliases (.root query.entity) = .ok criteria ∧
      context.shape query plan = .ok shape ∧ context.matchingRows plan criteria = .ok relation ∧
      context.shaped query relation shape = .ok shown ∧ result = context.paged query shown := by
  unfold run at hrun
  obtain ⟨plan, hplan, hrun⟩ := bind_eq_ok_iff.mp hrun
  obtain ⟨criteria, hcriteria, hrun⟩ := bind_eq_ok_iff.mp hrun
  obtain ⟨shape, hshape, hrun⟩ := bind_eq_ok_iff.mp hrun
  obtain ⟨relation, hrelation, hrun⟩ := bind_eq_ok_iff.mp hrun
  obtain ⟨shown, hshown, hrun⟩ := bind_eq_ok_iff.mp hrun
  exact ⟨plan, criteria, shape, relation, shown, hplan, hcriteria, hshape, hrelation, hshown,
    (Except.ok.inj hrun).symm⟩

theorem run_rows {result : QueryResult} (hplan : Plan.ofQuery context.catalog query = .ok plan)
    (hrun : context.run query = .ok result) (haggregate : query.aggregate = false) :
    ∃ criteria relation keys projection,
      query.criteria.compile context plan.aliases (.root query.entity) = .ok criteria ∧
      context.matchingRows plan criteria = .ok relation ∧
      context.sortKeys query plan = .ok keys ∧ context.projection query plan = .ok projection ∧
      result = context.paged query ((relation.sort keys).project projection) := by
  obtain ⟨plan', criteria, shape, relation, shown, hplan', hcriteria, hshape, hrelation, hshown,
    hresult⟩ := exists_of_run hrun
  obtain rfl := Except.ok.inj (hplan.symm.trans hplan')
  unfold Context.shape at hshape
  rw [haggregate, if_neg Bool.false_ne_true] at hshape
  obtain ⟨keys, hkeys, hshape⟩ := bind_eq_ok_iff.mp hshape
  obtain ⟨projection, hprojection, hshape⟩ := bind_eq_ok_iff.mp hshape
  obtain rfl := Except.ok.inj hshape
  obtain rfl := Except.ok.inj hshown
  exact ⟨criteria, relation, keys, projection, hcriteria, hrelation, hkeys, hprojection, hresult⟩

theorem simple_of_plan (hplan : Plan.ofQuery context.catalog query = .ok plan)
    (hkinds : ∀ link ∈ Link.withinAll query.links, link.kind = .inner ∨ link.kind = .leftOuter)
    (hfilters : ∀ link ∈ Link.withinAll query.links,
      ∀ condition ∈ link.filter.conditionsWithin, condition.Unqualified)
    (hstored : ∀ record ∈ context.store.rows, ∀ name ∈ record.attributes.names,
      Record.isQualified name = false)
    (haliases : ∀ entry ∈ plan.aliases, Record.isQualified entry.1 = false)
    (hids : ∀ link ∈ Link.withinAll query.links, ∀ name,
      context.catalog.primaryId link.entity = .ok name → Record.isQualified name = false) :
    Simple context (stepsAll none plan.links) := by
  obtain ⟨-, -, reserved, after, -, hlinks⟩ := Plan.ofQuery_spec hplan
  have hmem : ∀ step ∈ stepsAll none plan.links, step.link ∈ Link.withinAll query.links := by
    intro step hstep
    rw [← Plan.planLinks_steps none query.links hlinks]
    exact List.mem_map_of_mem hstep
  constructor
  · intro step hstep
    rcases hkinds step.link (hmem step hstep) with hkind | hkind <;> rw [hkind] <;> rfl
  · exact fun step hstep => hfilters step.link (hmem step hstep)
  · intro step hstep right hright
    obtain ⟨primaryId, hid, rfl⟩ := map_eq_ok_iff.mp hright
    exact Relation.scan_plain hstored (hids step.link (hmem step hstep) primaryId hid)
  · intro step hstep
    have halias : step.aliasName ∈ plan.aliases.map Prod.fst := by
      rw [Plan.aliases, ← stepsAll_aliasName none]
      exact List.mem_map_of_mem hstep
    obtain ⟨entry, hentry, hname⟩ := List.mem_map.mp halias
    rw [← hname]
    exact haliases entry hentry
  · rw [stepsAll_aliasName]
    exact Plan.aliases_nodup hplan

/-- The rows that are sorted and projected are those of nested loops over the links, in their order,
for a query whose links merge and have filters on their own columns, if no name of a stored
attribute, of an identifier or of an alias has a point in it. -/
theorem run_eq_nestedLoop {result : QueryResult}
    (hplan : Plan.ofQuery context.catalog query = .ok plan)
    (hrun : context.run query = .ok result) (haggregate : query.aggregate = false)
    (hkinds : ∀ link ∈ Link.withinAll query.links, link.kind = .inner ∨ link.kind = .leftOuter)
    (hfilters : ∀ link ∈ Link.withinAll query.links,
      ∀ condition ∈ link.filter.conditionsWithin, condition.Unqualified)
    (hstored : ∀ record ∈ context.store.rows, ∀ name ∈ record.attributes.names,
      Record.isQualified name = false)
    (haliases : ∀ entry ∈ plan.aliases, Record.isQualified entry.1 = false)
    (hids : ∀ entity ∈ query.entity :: (Link.withinAll query.links).map (·.entity), ∀ name,
      context.catalog.primaryId entity = .ok name → Record.isQualified name = false) :
    ∃ criteria relation keys projection,
      query.criteria.compile context plan.aliases (.root query.entity) = .ok criteria ∧
      context.matchingRows plan criteria = .ok relation ∧
      context.nestedLoop plan criteria = .ok relation.records ∧
      context.sortKeys query plan = .ok keys ∧ context.projection query plan = .ok projection ∧
      result = context.paged query ((relation.sort keys).project projection) := by
  obtain ⟨criteria, relation, keys, projection, hcriteria, hrelation, hkeys, hprojection, hresult⟩ :=
    run_rows hplan hrun haggregate
  obtain ⟨hroot, hid, -⟩ := Plan.ofQuery_spec hplan
  have hsimple := simple_of_plan hplan hkinds hfilters hstored haliases fun link hlink =>
    hids link.entity (List.mem_cons_of_mem _ (List.mem_map_of_mem hlink))
  have hplain : ∀ record ∈ (Relation.scan context.store plan.root plan.primaryId).records,
      record.Plain :=
    Relation.scan_plain hstored (hids query.entity List.mem_cons_self plan.primaryId hid)
  exact ⟨criteria, relation, keys, projection, hcriteria, hrelation,
    matchingRows_eq_nestedLoop hsimple hplain hrelation, hkeys, hprojection, hresult⟩

def accountAndContact : Store :=
  Store.ofList [⟨"account", .ofNat 1, .empty⟩,
    ⟨"contact", .ofNat 2, .ofList [("accountid", .uuid (.ofNat 1))]⟩]

theorem accountAndContact_names : ∀ record ∈ accountAndContact.rows,
    ∀ name ∈ record.attributes.names, Record.isQualified name = false := by
  decide

def contactUnder (idName : String) : Context where
  store := accountAndContact
  catalog := { Catalog.empty with
    entities := [.ofName "account", ⟨"contact", idName,
      [(idName, ⟨idName, .uniqueIdentifier, []⟩), ("accountid", ⟨"accountid", .lookup, []⟩)]⟩] }
  caller := default
  now := default
  pageSize := 0

def toContact (idName : String) : Link :=
  ⟨"accountid", "contact", "accountid", .inner, some "contact", .none,
    ⟨.and, [⟨idName, none, .null true, [], none, false⟩], []⟩, [], []⟩

def withContact (idName : String) : Query :=
  { Query.ofEntity "account" with links := [toContact idName] }

theorem withContact_kinds (idName : String) : ∀ link ∈ Link.withinAll (withContact idName).links,
    link.kind = .inner ∨ link.kind = .leftOuter := by
  intro link hlink
  obtain rfl := List.mem_singleton.mp hlink
  exact Or.inl rfl

theorem withContact_filters (idName : String) : ∀ link ∈ Link.withinAll (withContact idName).links,
    ∀ condition ∈ link.filter.conditionsWithin, condition.Unqualified := by
  intro link hlink condition hcondition
  obtain rfl := List.mem_singleton.mp hlink
  obtain rfl := List.mem_singleton.mp hcondition
  exact ⟨rfl, by simp⟩

def contactPlan (idName : String) : Plan :=
  ⟨"account", "accountid", [⟨"contact", toContact idName, []⟩]⟩

def identifiedAccount : Record := ⟨"account", .ofNat 1, .ofList [("accountid", .uuid (.ofNat 1))]⟩

theorem run_eq_nestedLoop_contact :
    Plan.ofQuery (contactUnder "contactid").catalog (withContact "contactid") =
        .ok (contactPlan "contactid") ∧
      (contactUnder "contactid").run (withContact "contactid") =
        .ok ⟨[identifiedAccount], none, false⟩ ∧
      (withContact "contactid").aggregate = false ∧
      (∀ entry ∈ (contactPlan "contactid").aliases, Record.isQualified entry.1 = false) ∧
      ∃ rows, (contactUnder "contactid").nestedLoop (contactPlan "contactid") (.constant true) =
          .ok rows ∧ rows.length = 1 := by
  have hplan : Plan.ofQuery (contactUnder "contactid").catalog (withContact "contactid") =
      .ok (contactPlan "contactid") := rfl
  have hrun : (contactUnder "contactid").run (withContact "contactid") =
      .ok ⟨[identifiedAccount], none, false⟩ := rfl
  have haliases : ∀ entry ∈ (contactPlan "contactid").aliases,
      Record.isQualified entry.1 = false := by decide
  have hids : ∀ entity ∈ (withContact "contactid").entity ::
        (Link.withinAll (withContact "contactid").links).map (·.entity), ∀ name,
      (contactUnder "contactid").catalog.primaryId entity = .ok name →
        Record.isQualified name = false := by
    intro entity hentity name hname
    rcases List.mem_cons.mp hentity with rfl | hentity
    · obtain rfl : "accountid" = name := Except.ok.inj hname
      decide
    · obtain rfl := List.mem_singleton.mp hentity
      obtain rfl : "contactid" = name := Except.ok.inj hname
      decide
  obtain ⟨criteria, relation, keys, projection, hcriteria, hrelation, hloop, -⟩ :=
    run_eq_nestedLoop hplan hrun rfl (withContact_kinds _) (withContact_filters _)
      accountAndContact_names haliases hids
  obtain rfl : Predicate.constant true = criteria := Except.ok.inj hcriteria
  refine ⟨hplan, hrun, rfl, haliases, _, hloop, ?_⟩
  rw [← Except.ok.inj hrelation]
  rfl

theorem exists_run_ne_nestedLoop :
    ¬ ∀ (context : Context) (query : Query) (plan : Plan) (result : QueryResult),
      Plan.ofQuery context.catalog query = .ok plan → context.run query = .ok result →
      query.aggregate = false →
      (∀ link ∈ Link.withinAll query.links, link.kind = .inner ∨ link.kind = .leftOuter) →
      (∀ link ∈ Link.withinAll query.links,
        ∀ condition ∈ link.filter.conditionsWithin, condition.Unqualified) →
      (∀ record ∈ context.store.rows, ∀ name ∈ record.attributes.names,
        Record.isQualified name = false) →
      (∀ entry ∈ plan.aliases, Record.isQualified entry.1 = false) →
      ∃ criteria relation,
        query.criteria.compile context plan.aliases (.root query.entity) = .ok criteria ∧
        context.matchingRows plan criteria = .ok relation ∧
        context.nestedLoop plan criteria = .ok relation.records := by
  intro h
  obtain ⟨criteria, relation, hcriteria, hrelation, hloop⟩ :=
    h (contactUnder "contact.id") (withContact "contact.id") (contactPlan "contact.id")
      ⟨[], none, false⟩ rfl rfl rfl (withContact_kinds _) (withContact_filters _)
      accountAndContact_names (by decide)
  obtain rfl : Predicate.constant true = criteria := Except.ok.inj hcriteria
  have hnone : relation.records.length = 0 := by
    rw [← Except.ok.inj hrelation]
    rfl
  have hone : relation.records.length = 1 := by
    rw [← Except.ok.inj hloop]
    rfl
  omega

end Context

end RecordQuery
