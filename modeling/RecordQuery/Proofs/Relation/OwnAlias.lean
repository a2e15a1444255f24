import RecordQuery.Proofs.Predicate.Congruence
import RecordQuery.Proofs.Relation.QueryRows
import RecordQuery.Proofs.Relation.Rerun

/-!
Conditions in the filter of a link that name the alias of that link. Where the filter waits for the
merged rows, as under `inner`, such a condition speaks of the same column as without the alias.
Under the other kinds the filter is applied to the target records alone, which hold nothing under
the alias.
-/

namespace RecordQuery

def Condition.Requalified (allowed : Bool → Prop) (aliasName : String)
    (condition other : Condition) : Prop :=
  other = condition ∨ allowed condition.outer ∧ condition.alias? = none ∧
    other = { condition with alias? := some aliasName }

namespace Filter

variable (allowed : Bool → Prop) (aliasName : String)

mutual

def Requalified : Filter → Filter → Prop
  | ⟨connective, conditions, filters⟩, other =>
    other.connective = connective ∧
      List.Forall₂ (Condition.Requalified allowed aliasName) conditions other.conditions ∧
      RequalifiedAll filters other.filters

def RequalifiedAll : List Filter → List Filter → Prop
  | [], others => others = []
  | filter :: rest, others => ∃ other tail, others = other :: tail ∧
      filter.Requalified other ∧ RequalifiedAll rest tail

end

end Filter

/-- Only the filter may differ, and the links inside: conditions of the filter may name the alias,
as far as the kind of the link and their outer mark allow it. -/
def Link.Requalified (allowed : JoinKind → Bool → Prop) (aliasName : String) (link other : Link) :
    Prop :=
  other = { link with filter := other.filter, links := other.links } ∧
    link.filter.Requalified (allowed link.kind) aliasName other.filter

namespace Condition

variable {context : Context} {aliases : AliasMap} {allowed : Bool → Prop} {aliasName : String}
  {condition other : Condition}

theorem Requalified.compile_outer (h : condition.Requalified allowed aliasName other)
    (hallowed : ∀ outer, allowed outer → outer = true) (scope : Scope) :
    other.compile context aliases scope = condition.compile context aliases scope := by
  rcases h with rfl | ⟨houter, -, rfl⟩
  · rfl
  · have hmark := hallowed _ houter
    simp only [compile, hmark, if_true]

theorem Requalified.compile_merged {entity : String}
    (h : condition.Requalified allowed aliasName other)
    (hentity : aliases.entity aliasName = .ok entity) :
    other.compile context aliases (.link entity aliasName) =
      condition.compile context aliases (.link entity aliasName) := by
  rcases h with rfl | ⟨-, halias, rfl⟩
  · rfl
  · have htarget : (Scope.link entity aliasName).aliased aliases (some aliasName) =
        (Scope.link entity aliasName).aliased aliases none := by
      simp only [Scope.aliased, hentity, Except.map]
    have hcolumns : ∀ scope left column,
        compileColumns { condition with alias? := some aliasName } context.catalog aliases scope
            left column =
          condition.compileColumns context.catalog aliases scope left column :=
      compileColumns_congr rfl rfl context.catalog aliases
    have hoperands : ∀ scope accessor,
        compileOperands { condition with alias? := some aliasName } context scope accessor =
          condition.compileOperands context scope accessor := by
      intro scope accessor
      apply compileOperands_congr <;> rfl
    simp only [compile, halias, htarget, hcolumns, hoperands]

end Condition

namespace Filter

variable {context : Context} {aliases : AliasMap} {allowed : Bool → Prop} {aliasName : String}

theorem isEmpty_conditions {conditions others : List Condition}
    (h : List.Forall₂ (Condition.Requalified allowed aliasName) conditions others) :
    others.isEmpty = conditions.isEmpty := by
  cases h <;> rfl

mutual

theorem Requalified.isEmpty : (filter other : Filter) → filter.Requalified allowed aliasName other →
    other.isEmpty = filter.isEmpty
  | ⟨connective, conditions, filters⟩, ⟨_, others, inner⟩, ⟨_, hconditions, hfilters⟩ => by
    rw [Filter.isEmpty, Filter.isEmpty, isEmpty_conditions hconditions,
      RequalifiedAll.allEmpty filters inner hfilters]

theorem RequalifiedAll.allEmpty : (filters others : List Filter) →
    RequalifiedAll allowed aliasName filters others → allEmpty others = allEmpty filters
  | [], _, h => by
    rw [show _ = [] from h]
  | filter :: rest, _, ⟨other, tail, hcons, hfirst, hrest⟩ => by
    rw [hcons, Filter.allEmpty, Filter.allEmpty, Requalified.isEmpty filter other hfirst,
      RequalifiedAll.allEmpty rest tail hrest]

end

mutual

theorem Requalified.compile {scope : Scope}
    (hscope : ∀ condition other : Condition, condition.Requalified allowed aliasName other →
      other.compile context aliases scope = condition.compile context aliases scope) :
    (filter other : Filter) → filter.Requalified allowed aliasName other →
    other.compile context aliases scope = filter.compile context aliases scope
  | ⟨connective, conditions, filters⟩, ⟨_, others, inner⟩, ⟨rfl, hconditions, hfilters⟩ => by
    rw [Filter.compile, Filter.compile, mapM_eq_of_forall₂ (hconditions.imp hscope),
      RequalifiedAll.compileAll hscope filters inner hfilters]

theorem RequalifiedAll.compileAll {scope : Scope}
    (hscope : ∀ condition other : Condition, condition.Requalified allowed aliasName other →
      other.compile context aliases scope = condition.compile context aliases scope) :
    (filters others : List Filter) → RequalifiedAll allowed aliasName filters others →
    compileAll context aliases scope others = compileAll context aliases scope filters
  | [], _, h => by
    rw [show _ = [] from h]
  | filter :: rest, _, ⟨other, tail, hcons, hfirst, hrest⟩ => by
    rw [hcons, Filter.compileAll, Filter.compileAll, Requalified.compile hscope filter other hfirst,
      RequalifiedAll.compileAll hscope rest tail hrest]

end

end Filter

theorem Link.Requalified.carriesTo {context : Context} {aliases : AliasMap}
    {allowed : JoinKind → Bool → Prop} {aliasName : String} {link other : Link}
    (hallowed : ∀ kind outer, allowed kind outer → kind = .inner ∨ outer = true)
    (hentity : aliases.entity aliasName = .ok link.entity)
    (h : link.Requalified allowed aliasName other) :
    link.CarriesTo True context aliases aliases Eq aliasName other := by
  obtain ⟨heq, hfilter⟩ := h
  have hmerged : link.kind = .inner →
      other.filter.compile context aliases (.link link.entity aliasName) =
        link.filter.compile context aliases (.link link.entity aliasName) :=
    fun _ => Filter.Requalified.compile (fun _ _ hcondition => hcondition.compile_merged hentity)
      link.filter other.filter hfilter
  have halone : link.kind ≠ .inner →
      other.filter.compile context aliases (.root link.entity) =
        link.filter.compile context aliases (.root link.entity) := by
    intro hkind
    have houter : ∀ outer, allowed link.kind outer → outer = true :=
      fun outer h => (hallowed link.kind outer h).resolve_left hkind
    exact Filter.Requalified.compile (fun _ _ hcondition => hcondition.compile_outer houter _)
      link.filter other.filter hfilter
  constructor
  · rw [heq]
  · rw [heq]
  · rw [heq]
  · rw [heq]
  · exact Filter.Requalified.isEmpty link.filter other.filter hfilter
  · intro hkind
    exact (Carries.of_eq (hmerged hkind)).imp fun p q hpq => hpq ▸ Predicate.Alike.refl p
  · intro hkind
    exact (Carries.of_eq (halone hkind)).imp fun p q hpq => hpq ▸ Predicate.Alike.refl p

namespace Context

theorem run_of_requalified {context : Context} {query : Query} {links : List Link}
    {allowed : JoinKind → Bool → Prop}
    (hallowed : ∀ kind outer, allowed kind outer → kind = .inner ∨ outer = true)
    (h : Link.PairsAll (Link.Requalified allowed) (Link.reserved query.links) query.links links) :
    context.run { query with links := links } = context.run query := by
  apply Carries.eq
  have hentity : ({ query with links := links } : Query).entity = query.entity := rfl
  apply run_carries hentity rfl rfl rfl
  apply (Plan.ofQuery_pairs hentity h).with_ok.imp
  rintro plan plan' ⟨hok, -, hroot, hid, hlinks⟩
  have haliases : plan'.aliases = plan.aliases :=
    PlannedLink.PairsAll.aliasesAll plan.links plan'.links hlinks
  rw [haliases]
  refine ⟨hroot, hid, ?_, ?_, ?_⟩
  · exact (Carries.of_eq rfl).imp fun p q hpq => hpq ▸ Predicate.Alike.refl p
  · have hkind : ∀ aliasName link other, Link.Requalified allowed aliasName link other →
        other.kind = link.kind := by
      rintro aliasName link other ⟨heq, -⟩
      rw [heq]
    apply Carries.of_eq
    refine shape_congr hentity ?_ rfl rfl rfl hid
      fun name => congrArg (AliasMap.entity · name) haliases
    apply (PlannedLink.PairsAll.mergedAll hkind plan.links plan'.links hlinks).imp
    rintro first second ⟨hname, hlink, heq, -⟩
    exact ⟨hname, hlink, by rw [heq], by rw [heq]⟩
  · apply PlannedLink.PairsAll.carryAll plan.links plan'.links hlinks
    intro aliasName link other hmem hlink _
    exact hlink.carriesTo hallowed (AliasMap.entity_eq_ok (Plan.aliases_nodup hok) hmem)

def toIdentified (kind : JoinKind) (alias? : Option String) : Link :=
  ⟨"accountid", "contact", "accountid", kind, some "contact", .all,
    ⟨.and, [⟨"contactid", alias?, .null true, [], none, false⟩], []⟩, [], []⟩

def withIdentified (kind : JoinKind) (alias? : Option String) : Query :=
  { Query.ofEntity "account" with links := [toIdentified kind alias?] }

theorem toIdentified_pairs {allowed : JoinKind → Bool → Prop} {kind : JoinKind}
    (h : allowed kind false) :
    Link.PairsAll (Link.Requalified allowed) (Link.reserved (withIdentified kind none).links)
      (withIdentified kind none).links [toIdentified kind (some "contact")] := by
  have hcondition : Condition.Requalified (allowed kind) "contact"
      ⟨"contactid", none, .null true, [], none, false⟩
      ⟨"contactid", some "contact", .null true, [], none, false⟩ := Or.inr ⟨h, rfl, rfl⟩
  exact ⟨_, [], rfl, ⟨rfl, rfl, rfl, rfl, ⟨rfl, rfl, .cons hcondition .nil, rfl⟩, rfl⟩, rfl⟩

theorem run_withIdentified_ne {kind : JoinKind} (h : kind ≠ .inner) :
    (contactUnder "contactid").run (withIdentified kind (some "contact")) ≠
      (contactUnder "contactid").run (withIdentified kind none) := by
  intro heq
  have hshown := congrArg
    (fun answer => answer.toOption.map fun result => result.records.map (·.attributes.size)) heq
  cases kind with
  | inner => contradiction
  | _ =>
    revert hshown
    decide

/-- Conditions of links may name the alias of their link without a difference to any query, as long
as they stand in inner links or are outer, and no longer than that. -/
theorem run_requalified_iff (allowed : JoinKind → Bool → Prop) :
    (∀ (context : Context) (query : Query) (links : List Link),
      Link.PairsAll (Link.Requalified allowed) (Link.reserved query.links) query.links links →
      context.run { query with links := links } = context.run query) ↔
    ∀ kind outer, allowed kind outer → kind = .inner ∨ outer = true := by
  constructor
  · intro h kind outer hallowed
    by_contra hnot
    rw [not_or, Bool.not_eq_true] at hnot
    obtain ⟨hkind, rfl⟩ := hnot
    exact run_withIdentified_ne hkind (h (contactUnder "contactid") (withIdentified kind none)
      [toIdentified kind (some "contact")] (toIdentified_pairs hallowed))
  · intro hallowed context query links hlinks
    exact run_of_requalified hallowed hlinks

theorem run_requalified_iff_inner :
    (contactUnder "contactid").run (withIdentified .inner (some "contact")) =
      (contactUnder "contactid").run (withIdentified .inner none) := by
  have hinner : ∀ (kind : JoinKind) (outer : Bool), kind = .inner → kind = .inner ∨ outer = true :=
    fun kind outer h => Or.inl h
  exact (run_requalified_iff fun kind _ => kind = .inner).mpr hinner (contactUnder "contactid")
    (withIdentified .inner none) [toIdentified .inner (some "contact")] (toIdentified_pairs rfl)

theorem exists_run_ne_requalified :
    ¬ ∀ (context : Context) (query : Query) (links : List Link),
      Link.PairsAll (Link.Requalified fun _ _ => True) (Link.reserved query.links) query.links
        links →
      context.run { query with links := links } = context.run query := by
  intro h
  have hany : JoinKind.any ≠ .inner := by decide
  exact run_withIdentified_ne hany (h (contactUnder "contactid") (withIdentified .any none)
    [toIdentified .any (some "contact")] (toIdentified_pairs trivial))

end Context

end RecordQuery
