import RecordQuery.Proofs.Predicate.Reading
import RecordQuery.Proofs.Relation.Likeness
import RecordQuery.Proofs.Relation.Opposite

namespace RecordQuery

open PlannedLink

theorem Value.key?_unwrap (value : Value) : value.unwrap.key? = value.key? := by
  unfold key?
  rw [unwrap_unwrap]

namespace Record

theorem keyAt?_eq (record : Record) (column : String) :
    record.keyAt? column = (record.getUnwrapped? column).bind Value.key? := by
  unfold keyAt? getUnwrapped?
  cases record.get? column with
  | none => rfl
  | some value => exact (Value.key?_unwrap value).symm

def Finds (f : String → String) (K : String → Prop) (row other : Record) : Prop :=
  ∀ key, K key → row.getUnwrapped? (f key) = other.getUnwrapped? key

namespace Finds

variable {f : String → String} {K : String → Prop} {row other : Record}

theorem keyAt? (h : Finds f K row other) {key : String} (hkey : K key) :
    other.keyAt? key = row.keyAt? (f key) := by
  rw [keyAt?_eq, keyAt?_eq, h key hkey]

end Finds

theorem getUnwrapped?_merge_of_ne {record target : Record} {aliasName key : String}
    (h : ∀ name, key ≠ qualify aliasName name) :
    (record.merge aliasName target).getUnwrapped? key = record.getUnwrapped? key := by
  unfold getUnwrapped?
  rw [get?_merge_of_ne aliasName record target key h]

theorem getUnwrapped?_merge_congr {record other target : Record} {aliasName name : String}
    (h : record.getUnwrapped? (qualify aliasName name) =
      other.getUnwrapped? (qualify aliasName name)) :
    (record.merge aliasName target).getUnwrapped? (qualify aliasName name) =
      (other.merge aliasName target).getUnwrapped? (qualify aliasName name) := by
  unfold getUnwrapped? at h ⊢
  rw [get?_merge_qualify, get?_merge_qualify]
  cases if isQualified name then none else target.get? name with
  | none => exact h
  | some value => rfl

end Record

structure Settled (names : List String) (f : String → String) (K : String → Prop) : Prop where
  fixed : ∀ aliasName ∈ names, ∀ name, K (Record.qualify aliasName name) ∧
    f (Record.qualify aliasName name) = Record.qualify aliasName name
  unmoved : ∀ aliasName ∈ names, ∀ key, K key → ∀ name,
    f key = Record.qualify aliasName name → key = Record.qualify aliasName name

namespace Settled

variable {names others : List String} {f : String → String} {K : String → Prop}

theorem mono (h : Settled names f K) (hsubset : others ⊆ names) : Settled others f K where
  fixed aliasName hmem := h.fixed aliasName (hsubset hmem)
  unmoved aliasName hmem := h.unmoved aliasName (hsubset hmem)

theorem likeness (h : Settled names f K) : Likeness names (Record.Finds f K) where
  keys aliasName hmem column row other hS := by
    obtain ⟨hkey, hfixed⟩ := h.fixed aliasName hmem column
    rw [hS.keyAt? hkey, hfixed]
  merge aliasName hmem target row other hS := by
    intro key hkey
    by_cases hunder : ∃ name, key = Record.qualify aliasName name
    · obtain ⟨name, rfl⟩ := hunder
      obtain ⟨-, hfixed⟩ := h.fixed aliasName hmem name
      have hsame := hS _ hkey
      rw [hfixed] at hsame ⊢
      exact Record.getUnwrapped?_merge_congr hsame
    · have hother : ∀ name, key ≠ Record.qualify aliasName name := not_exists.mp hunder
      have hrow : ∀ name, f key ≠ Record.qualify aliasName name :=
        fun name heq => hother name (h.unmoved aliasName hmem key hkey name heq)
      rw [Record.getUnwrapped?_merge_of_ne hrow, Record.getUnwrapped?_merge_of_ne hother]
      exact hS key hkey

end Settled

namespace Record

def Visible (names : List String) (key : String) : Prop :=
  isQualified key = false ∨ ∃ aliasName ∈ names, ∃ name, key = qualify aliasName name

def lift (aliasName key : String) : String :=
  if isQualified key then key else qualify aliasName key

abbrev Holds (aliasName : String) (names : List String) : Record → Record → Prop :=
  Finds (lift aliasName) (Visible names)

theorem lift_under {names : List String} {key : String} (aliasName : String)
    (hkey : Visible names key) :
    ∃ other ∈ aliasName :: names, ∃ name, lift aliasName key = qualify other name := by
  unfold lift
  cases hqualified : isQualified key with
  | false => exact ⟨aliasName, List.mem_cons_self, key, rfl⟩
  | true =>
    rcases hkey with hkey | ⟨other, hmem, name, rfl⟩
    · rw [hqualified] at hkey
      contradiction
    · exact ⟨other, List.mem_cons_of_mem _ hmem, name, rfl⟩

def Outside (names : List String) (key : String) : Prop :=
  ∀ aliasName ∈ names, ∀ name, key ≠ qualify aliasName name

abbrev AgreesOutside (names : List String) : Record → Record → Prop :=
  Finds (fun key => key) (Outside names)

theorem outside_of_plain {key : String} (h : isQualified key = false) (names : List String) :
    Outside names key := by
  rintro aliasName _ name rfl
  rw [isQualified_qualify] at h
  contradiction

end Record

theorem Settled.outside {names hidden : List String} (h : Apart names hidden) :
    Settled names (fun key => key) (Record.Outside hidden) where
  fixed aliasName hmem name := ⟨fun other hother key => h aliasName hmem other hother name key, rfl⟩
  unmoved _ _ _ _ _ heq := heq

structure Nested (aliasName : String) (names : List String) : Prop where
  plain : ∀ name ∈ aliasName :: names, Record.isQualified name = false
  fresh : aliasName ∉ names

namespace Nested

variable {aliasName : String} {names : List String} (h : Nested aliasName names)

include h

theorem ne_qualify {other : String} (hother : other ∈ names) (key name : String) :
    Record.qualify aliasName key ≠ Record.qualify other name := by
  intro heq
  have hsame := Record.qualify_left_injective (h.plain aliasName List.mem_cons_self)
    (h.plain other (List.mem_cons_of_mem _ hother)) heq
  exact h.fresh (hsame ▸ hother)

theorem settled : Settled names (Record.lift aliasName) (Record.Visible names) := by
  have hqualified : ∀ other name, Record.lift aliasName (Record.qualify other name) =
      Record.qualify other name :=
    fun other name => if_pos (Record.isQualified_qualify other name)
  constructor
  · exact fun other hmem name => ⟨Or.inr ⟨other, hmem, name, rfl⟩, hqualified other name⟩
  · rintro other hmem key (hkey | ⟨within, -, inner, rfl⟩) name heq
    · rw [Record.lift, hkey, if_neg Bool.false_ne_true] at heq
      exact absurd heq (h.ne_qualify hmem key name)
    · rwa [hqualified] at heq

theorem holds_merge {record target : Record} (hfresh : record.Fresh (aliasName :: names))
    (hplain : target.Plain) :
    Record.Holds aliasName names (record.merge aliasName target) target := by
  have hown : record.Fresh [aliasName] := by
    intro other hmem
    exact hfresh other (List.mem_singleton.mp hmem ▸ List.mem_cons_self)
  rintro key (hkey | ⟨other, hmem, name, rfl⟩)
  · rw [Record.lift, hkey, if_neg Bool.false_ne_true]
    exact Record.getUnwrapped?_merge hown hplain key
  · rw [Record.lift, Record.isQualified_qualify, if_pos rfl,
      Record.getUnwrapped?_merge_of_ne fun key => (h.ne_qualify hmem key name).symm]
    unfold Record.getUnwrapped?
    rw [hfresh other (List.mem_cons_of_mem _ hmem) name,
      hplain _ (Record.isQualified_qualify other name)]

end Nested

theorem Record.Finds.of_frame {aliasName : String} {names others : List String}
    {rows : Record → List Record} (hframe : Frame others rows)
    (hapart : Apart (aliasName :: names) others) {row last target : Record}
    (hlast : last ∈ rows row) (hholds : Record.Holds aliasName names row target) :
    Record.Holds aliasName names last target := by
  intro key hkey
  obtain ⟨other, hother, name, hlift⟩ := Record.lift_under aliasName hkey
  rw [← hholds key hkey, hlift]
  unfold Record.getUnwrapped?
  rw [hframe row last hlast _ fun second hsecond inner =>
    hapart other hother second hsecond name inner]

theorem Frame.agreesOutside {names : List String} {rows : Record → List Record}
    (hframe : Frame names rows) {hidden : List String} (hsubset : names ⊆ hidden)
    {record row : Record} (hrow : row ∈ rows record) : Record.AgreesOutside hidden row record := by
  intro key hkey
  unfold Record.getUnwrapped?
  rw [hframe record row hrow key fun aliasName hmem => hkey aliasName (hsubset hmem)]

def Filter.Reads (aliases : AliasMap) (names : List String) (filter : Filter) : Prop :=
  ∀ condition ∈ filter.conditionsWithin, Record.isQualified condition.column = false ∧
    ∀ aliasName ∈ condition.mentions, ∀ entity, aliases.entity aliasName = .ok entity →
      aliasName ∈ names

namespace Filter.Reads

variable {context : Context} {aliases : AliasMap} {names : List String} {filter : Filter}
  {f : String → String} {K : String → Prop} {predicate : Predicate}

theorem within (h : filter.Reads aliases names) (hnames : Settled names f K) {scope : Scope}
    (hscope : ∀ name, Record.isQualified name = false →
      K (Accessor.qualifiedBy scope.alias? name) ∧
        f (Accessor.qualifiedBy scope.alias? name) = Accessor.qualifiedBy scope.alias? name) :
    ∀ condition ∈ filter.conditionsWithin,
      condition.Within aliases scope fun key => K key ∧ f key = key := by
  intro condition hcondition
  obtain ⟨hcolumn, hmentioned⟩ := h condition hcondition
  exact ⟨hcolumn, hscope, fun aliasName hmem entity hentity name =>
    hnames.fixed aliasName (hmentioned aliasName hmem entity hentity) name⟩

theorem alike (h : filter.Reads aliases names) (hnames : Settled names f K) {scope : Scope}
    (hscope : ∀ name, Record.isQualified name = false →
      K (Accessor.qualifiedBy scope.alias? name) ∧
        f (Accessor.qualifiedBy scope.alias? name) = Accessor.qualifiedBy scope.alias? name)
    (hcompile : filter.compile context aliases scope = .ok predicate) :
    Predicate.Alike (Record.Finds f K) predicate predicate := by
  have hreads := Filter.compile_readsOnly filter (h.within hnames hscope) hcompile
  have hfixed : predicate.mapKeys f = predicate := hreads f fun key hkey => hkey.2
  have halike := hreads.alike _ (hscope "" rfl) (S := Record.Finds f K) (f := f)
    (g := fun key => key) fun row other hS key hkey => hS key hkey.1
  rwa [hfixed, Predicate.mapKeys_id] at halike

end Filter.Reads

namespace PlannedLink

variable {strict : Prop} {context : Context} {aliases : AliasMap} {names : List String}
  {f : String → String} {K : String → Prop}

theorem carriesTo_finds {link : Link} {aliasName : String} (hnames : Settled names f K)
    (halias : aliasName ∈ names) (hfilter : link.filter.Reads aliases names) :
    link.CarriesTo strict context aliases aliases (Record.Finds f K) aliasName link := by
  constructor
  · rfl
  · rfl
  · rfl
  · rfl
  · rfl
  · intro _
    cases hcompile : link.filter.compile context aliases (.link link.entity aliasName) with
    | error fault => exact Carries.of_error fault
    | ok predicate =>
      refine Carries.of_ok (hfilter.alike hnames ?_ hcompile)
      exact fun name _ => hnames.fixed aliasName halias name
  · intro _
    exact (Carries.of_eq rfl).imp fun p q hpq => hpq ▸ Predicate.Alike.refl p

mutual

theorem carriesTo_self_finds (hnames : Settled names f K) (parent? : Option String) :
    (planned : PlannedLink) →
    (∀ step ∈ planned.steps parent?,
      step.aliasName ∈ names ∧ step.link.filter.Reads aliases names) →
    planned.CarriesTo strict context aliases aliases (Record.Finds f K) planned
  | ⟨aliasName, link, children⟩, h => by
    rw [steps] at h
    obtain ⟨halias, hfilter⟩ := h _ List.mem_cons_self
    refine ⟨rfl, carriesTo_finds hnames halias hfilter, ?_⟩
    split
    · exact carryAll_self (some aliasName) children fun _ _ _ _ => rfl
    · exact carryAll_self_finds hnames (some aliasName) children
        fun step hstep => h step (List.mem_cons_of_mem _ hstep)

theorem carryAll_self_finds (hnames : Settled names f K) (parent? : Option String) :
    (links : List PlannedLink) →
    (∀ step ∈ stepsAll parent? links,
      step.aliasName ∈ names ∧ step.link.filter.Reads aliases names) →
    CarryAll strict context aliases aliases (Record.Finds f K) links links
  | [], _ => trivial
  | planned :: rest, h => by
    rw [stepsAll] at h
    exact ⟨carriesTo_self_finds hnames parent? planned
        fun step hstep => h step (List.mem_append_left _ hstep),
      carryAll_self_finds hnames parent? rest
        fun step hstep => h step (List.mem_append_right _ hstep)⟩

end

end PlannedLink

end RecordQuery
