import RecordQuery.Proofs.Document.Transcripts
import RecordQuery.Proofs.Predicate.Transcripts
import RecordQuery.Proofs.Relation.QueryRows
import RecordQuery.Proofs.Relation.Rerun

namespace RecordQuery

theorem Link.carriesTo_transcript {context : Context} {aliases : AliasMap} {query : Query}
    (haliases : ∀ aliasName entity, aliases.entity aliasName = .ok entity →
      ∃ link ∈ Link.withinAll query.links, link.alias? = some aliasName ∧ entity = link.entity)
    {link : Link} (hwritable : link.Writable)
    (hsurvives : ∀ condition ∈ link.filter.conditionsWithin,
      query.SurvivesAt context.catalog link.entity condition)
    (keep : List OrderBy → List OrderBy) (aliasName : String) :
    link.CarriesTo False context aliases aliases Eq aliasName
      (link.revise Filter.transcript keep) := by
  have hfilter : ∀ scope : Scope, scope.entity = link.entity →
      Carries False (Predicate.Alike Eq) (link.filter.compile context aliases scope)
        (link.filter.transcript.compile context aliases scope) := by
    intro scope hscope
    apply Filter.compile_transcript
    intro condition hcondition
    rw [← hscope] at hsurvives
    exact Condition.compile_transcript (hwritable.conditions condition hcondition).inner haliases
      (hsurvives condition hcondition)
  obtain ⟨source, entity, target, kind, alias?, columns, filter, orders, links⟩ := link
  constructor
  · rfl
  · rfl
  · rfl
  · rfl
  · exact filter.isEmpty_transcript
  · intro _
    exact hfilter (.link entity aliasName) rfl
  · intro _
    exact hfilter (.root entity) rfl

namespace Context

variable {context : Context} {query : Query}

theorem shape_transcript {P : Link → Prop} {plan plan' : Plan}
    (hid : plan'.primaryId = plan.primaryId) (haliases : plan'.aliases = plan.aliases)
    (hlinks : List.Forall₂ (fun first second => second.aliasName = first.aliasName ∧
        second.link.entity = first.link.entity ∧ P first.link ∧
        second.link = first.link.revise Filter.transcript (OrderBy.kept query.aggregate))
      plan.mergedLinks plan'.mergedLinks) :
    context.shape query.transcript.unordered plan' = context.shape query plan := by
  have haggregate : query.transcript.unordered.aggregate = query.aggregate := rfl
  cases hcase : query.aggregate with
  | true =>
    have hselected : List.Forall₂ SelectsAlike plan.mergedLinks plan'.mergedLinks := by
      apply hlinks.imp
      rintro first second ⟨hname, hentity, -, hlink⟩
      exact ⟨hname, hentity, by rw [hlink, Link.columns_revise]⟩
    have hshown : context.aggregateColumns query.transcript.unordered plan' =
        context.aggregateColumns query plan := aggregateColumns_congr rfl rfl hselected
    unfold shape
    rw [haggregate, hcase, if_pos rfl, if_pos rfl, hshown]
  | false =>
    have hkept : ∀ orders, OrderBy.kept query.aggregate orders = orders :=
      fun orders => OrderBy.kept_eq_self (by simp [hcase])
    refine shape_congr rfl ?_ rfl (hkept query.orders) haggregate hid
      fun name => congrArg (AliasMap.entity · name) haliases
    apply hlinks.imp
    rintro first second ⟨hname, hentity, -, hlink⟩
    exact ⟨hname, hentity, by rw [hlink, Link.columns_revise],
      by rw [hlink, Link.orders_revise, hkept]⟩

theorem run_transcript (hwritable : query.Writable) (hsurvives : query.Survives context.catalog) :
    Carries False Eq (context.run query) (context.run query.transcript.unordered) := by
  have hlinks : query.transcript.unordered.links =
      Link.reviseAll Filter.transcript (OrderBy.kept query.aggregate) query.links :=
    Link.reviseAll_reviseAll _ _ _ _ query.links
  have hpairs : Link.PairsAll (fun _ link other => link ∈ Link.withinAll query.links ∧
        other = link.revise Filter.transcript (OrderBy.kept query.aggregate))
      (Link.reserved query.links) query.links query.transcript.unordered.links := by
    rw [hlinks]
    exact Link.pairsAll_revise _ _ _ query.links fun _ hinner => hinner
  have hnamed : ∀ link ∈ Link.withinAll query.links, link.alias?.isSome = true := by
    intro link hlink
    obtain ⟨aliasName, hsome, -⟩ := (hwritable.links link hlink).named
    rw [hsome]
    rfl
  have hentity : query.transcript.unordered.entity = query.entity := rfl
  -- Failures are not carried over: what is refused as an operand may be accepted as a text.
  apply run_carries hentity rfl rfl rfl
  apply (Plan.ofQuery_pairs hentity hpairs).with_ok.answers.imp
  rintro plan plan' ⟨hok, -, hroot, hid, hlinks⟩
  have haliases : plan'.aliases = plan.aliases :=
    PlannedLink.PairsAll.aliasesAll plan.links plan'.links hlinks
  have hknown : ∀ aliasName entity, AliasMap.entity plan.aliases aliasName = .ok entity →
      ∃ link ∈ Link.withinAll query.links, link.alias? = some aliasName ∧ entity = link.entity :=
    fun aliasName entity hentity =>
      Plan.exists_link_of_alias hok hnamed (AliasMap.mem_of_entity_eq_ok hentity)
  rw [haliases]
  refine ⟨hroot, hid, ?_, ?_, ?_⟩
  · apply Filter.compile_transcript
    intro condition hcondition
    exact Condition.compile_transcript (hwritable.conditions condition hcondition).inner hknown
      (hsurvives.criteria condition hcondition)
  · have hkind : ∀ (aliasName : String) (link other : Link),
        (link ∈ Link.withinAll query.links ∧
          other = link.revise Filter.transcript (OrderBy.kept query.aggregate)) →
        other.kind = link.kind := by
      rintro aliasName link other ⟨-, rfl⟩
      cases link
      rfl
    apply Carries.of_eq
    exact shape_transcript hid haliases
      (PlannedLink.PairsAll.mergedAll hkind plan.links plan'.links hlinks)
  · apply PlannedLink.PairsAll.carryAll plan.links plan'.links hlinks
    rintro aliasName link other - ⟨hwithin, rfl⟩ -
    exact Link.carriesTo_transcript hknown (hwritable.links link hwithin)
      (hsurvives.links link hwithin) _ aliasName

/-- A query that has an answer has the same answer as it is read from its document, if the texts of
its operands stand for them. -/
theorem run_ofDocument {result : QueryResult} (hwritable : query.Writable)
    (hsurvives : query.Survives context.catalog) (hrun : context.run query = .ok result) :
    ∃ other, Query.ofDocument query.document = .ok other ∧ context.run other = .ok result := by
  obtain ⟨_, hanswer, rfl⟩ := (run_transcript hwritable hsurvives).ok result hrun
  exact ⟨_, hwritable.ofDocument, hanswer⟩

def ownContacts : Query :=
  { Query.ofEntity "account" with
    criteria := ⟨.and, [⟨"accountid", none, .oneOf false,
      [.list [.uuid (.ofNat 1), .null], .reference ⟨"account", .ofNat 2, none⟩], none, false⟩], []⟩
    links := [⟨"accountid", "contact", "accountid", .inner, some "contact", .none,
      ⟨.and, [⟨"accountid", none, .compare .equal, [.reference ⟨"account", .ofNat 1, some "A"⟩],
        none, false⟩], []⟩, [], []⟩] }

theorem run_ofDocument_ownContacts :
    (contactUnder "contactid").run ownContacts = .ok ⟨[identifiedAccount], none, false⟩ ∧
      ∃ other, Query.ofDocument ownContacts.document = .ok other ∧
        (contactUnder "contactid").run other = .ok ⟨[identifiedAccount], none, false⟩ := by
  have hwritable : ownContacts.Writable := by
    constructor
    · decide
    · exact ⟨by simp [ownContacts, Query.ofEntity, ColumnSet.explicit], by simp [ownContacts,
        Query.ofEntity]⟩
    · intro condition hcondition
      obtain rfl := List.mem_singleton.mp hcondition
      exact ⟨by decide, by simp, by simp, by decide, rfl⟩
    · simp [ownContacts, Query.ofEntity]
    · intro link hlink
      obtain rfl := List.mem_singleton.mp hlink
      refine ⟨by decide, by decide, by decide, ⟨"contact", rfl, by decide⟩,
        ⟨by simp [ColumnSet.explicit], by simp⟩, ?_, by simp⟩
      intro condition hcondition
      obtain rfl := List.mem_singleton.mp hcondition
      exact ⟨by decide, by simp, by simp, by decide, rfl⟩
    · decide
    · simp [ownContacts, Query.ofEntity]
    · simp [ownContacts, Query.ofEntity, Paging.whole]
    · simp [ownContacts, Query.ofEntity, Paging.whole]
  have hsurvives : ownContacts.Survives (contactUnder "contactid").catalog := by
    constructor
    · intro condition hcondition
      obtain rfl := List.mem_singleton.mp hcondition
      refine Or.inr ?_
      rintro _ column rfl hcolumn
      obtain rfl : (⟨"account", "accountid", .uuid, .direct⟩ : ResolvedColumn) = column :=
        Except.ok.inj hcolumn
      refine ⟨rfl, ?_, fun _ _ => Or.inl (Value.namesReference_text_uuid (.ofNat 1))⟩
      intro _ value hvalue
      rcases List.mem_cons.mp hvalue with rfl | hvalue
      · rfl
      · rcases List.mem_pair.mp hvalue with rfl | rfl <;> rfl
    · intro link hlink condition hcondition
      obtain rfl := List.mem_singleton.mp hlink
      obtain rfl := List.mem_singleton.mp hcondition
      refine Or.inr ?_
      rintro _ column rfl hcolumn
      obtain rfl : (⟨"contact", "accountid", .reference, .direct⟩ : ResolvedColumn) = column :=
        Except.ok.inj hcolumn
      refine ⟨rfl, ?_, fun _ _ => Or.inl (Value.namesReference_text_uuid (.ofNat 1))⟩
      intro _ value hvalue
      obtain rfl := List.mem_singleton.mp hvalue
      rfl
  have hrun : (contactUnder "contactid").run ownContacts =
      .ok ⟨[identifiedAccount], none, false⟩ := rfl
  exact ⟨hrun, run_ofDocument hwritable hsurvives hrun⟩

def ownedAccount : Context where
  store := Store.ofList [⟨"account", .ofNat 1, .ofList [("name", .text "5"),
    ("owner", .reference ⟨"user", .ofNat 2, some "ann"⟩)]⟩]
  catalog := { Catalog.empty with
    entities := [((EntityMetadata.ofName "account").withCode "name" .string).withCode "owner"
      .lookup] }
  caller := default
  now := default
  pageSize := 0

def accountsWhere (column : String) (operator : Operator) (values : List Value) : Query :=
  { Query.ofEntity "account" with
    criteria := ⟨.and, [⟨column, none, operator, values, none, false⟩], []⟩ }

theorem writable_accountsWhere {column : String} {operator : Operator} {values : List Value}
    (hcolumn : Markup.isAttributeText column = true)
    (hvalues : ∀ text ∈ Value.operandTextsAll values, Markup.isElementText text = true) :
    (accountsWhere column operator values).Writable := by
  have hentity : Markup.isAttributeText "account" = true := by decide
  constructor
  · exact hentity
  · exact ⟨by simp [accountsWhere, Query.ofEntity, ColumnSet.explicit], by simp [accountsWhere,
      Query.ofEntity]⟩
  · intro condition hcondition
    obtain rfl := List.mem_singleton.mp hcondition
    exact ⟨hcolumn, by simp, by simp, hvalues, rfl⟩
  · simp [accountsWhere, Query.ofEntity]
  · simp [accountsWhere, Query.ofEntity, Link.withinAll]
  · simp [accountsWhere, Query.ofEntity, Link.explicitAliasesAll]
  · simp [accountsWhere, Query.ofEntity]
  · simp [accountsWhere, Query.ofEntity, Paging.whole]
  · simp [accountsWhere, Query.ofEntity, Paging.whole]

def shownCount? (context : Context) (query : Query) : Option Nat :=
  (context.run query).toOption.map (·.records.length)

theorem exists_run_of_shownCount? {n : Nat} (h : context.shownCount? query = some n) :
    ∃ result, context.run query = .ok result ∧ result.records.length = n := by
  unfold shownCount? at h
  cases hrun : context.run query with
  | error fault =>
    rw [hrun] at h
    contradiction
  | ok result =>
    rw [hrun] at h
    exact ⟨result, rfl, Option.some.inj h⟩

theorem exists_answers_ne {column : String} {operator : Operator} {values : List Value} {n m : Nat}
    (hcolumn : Markup.isAttributeText column = true)
    (hvalues : ∀ text ∈ Value.operandTextsAll values, Markup.isElementText text = true)
    (hn : context.shownCount? (accountsWhere column operator values) = some n)
    (hm : context.shownCount? (accountsWhere column operator values).transcript.unordered = some m)
    (hne : m ≠ n) :
    (accountsWhere column operator values).Writable ∧ ∃ result other answer,
      context.run (accountsWhere column operator values) = .ok result ∧
      Query.ofDocument (accountsWhere column operator values).document = .ok other ∧
      context.run other = .ok answer ∧ answer.records.length ≠ result.records.length := by
  have hwritable : (accountsWhere column operator values).Writable :=
    writable_accountsWhere hcolumn hvalues
  obtain ⟨result, hresult, rfl⟩ := exists_run_of_shownCount? hn
  obtain ⟨answer, hanswer, rfl⟩ := exists_run_of_shownCount? hm
  exact ⟨hwritable, result, _, answer, hresult, hwritable.ofDocument, hanswer, hne⟩

theorem exists_run_ne_ofDocument :
    (¬ ∀ (context : Context) (query : Query) (result : QueryResult), query.Writable →
      context.run query = .ok result →
      ∃ other, Query.ofDocument query.document = .ok other ∧ context.run other = .ok result) ∧
    ∀ query ∈ [accountsWhere "name" (.compare .equal) [.int 5],
        accountsWhere "name" (.text .like false) [.reference ⟨"user", .ofNat 2, some "5"⟩],
        accountsWhere "owner" (.oneOf false) [.null, .text "ann"]],
      query.Writable ∧ ∃ result other answer, ownedAccount.run query = .ok result ∧
        Query.ofDocument query.document = .ok other ∧ ownedAccount.run other = .ok answer ∧
        answer.records.length ≠ result.records.length := by
  constructor
  · intro h
    have hwritable : (accountsWhere "name" (.compare .equal) [.null]).Writable :=
      writable_accountsWhere (by decide) (by decide)
    have hrun : ownedAccount.run (accountsWhere "name" (.compare .equal) [.null]) =
        .ok ⟨[], none, false⟩ := rfl
    obtain ⟨other, hother, hanswer⟩ := h _ _ _ hwritable hrun
    rw [hwritable.ofDocument] at hother
    obtain rfl := Except.ok.inj hother
    have hrefused : ownedAccount.shownCount?
        (accountsWhere "name" (.compare .equal) [.null]).transcript.unordered = none := by decide
    unfold shownCount? at hrefused
    rw [hanswer] at hrefused
    contradiction
  · intro query hquery
    simp only [List.mem_cons, List.not_mem_nil, or_false] at hquery
    rcases hquery with rfl | rfl | rfl
    · exact exists_answers_ne (n := 0) (m := 1) (by decide) (by decide) (by decide) (by decide)
        (by decide)
    · exact exists_answers_ne (n := 1) (m := 0) (by decide) (by decide) (by decide) (by decide)
        (by decide)
    · exact exists_answers_ne (n := 0) (m := 1) (by decide) (by decide) (by decide) (by decide)
        (by decide)

end Context

end RecordQuery
