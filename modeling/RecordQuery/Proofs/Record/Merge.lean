import Mathlib.Logic.Function.Basic
import RecordQuery.Record

namespace RecordQuery

theorem Value.unwrap_unwrap (value : Value) : value.unwrap.unwrap = value.unwrap := by
  fun_induction unwrap value with
  | case1 aliasName column inner ih => exact ih
  | case2 plain hplain => exact unwrap.eq_2 plain hplain

namespace Record

theorem toList_qualify (aliasName name : String) :
    (qualify aliasName name).toList = aliasName.toList ++ '.' :: name.toList := by
  simp [qualify]

theorem isQualified_qualify (aliasName name : String) :
    isQualified (qualify aliasName name) = true := by
  simp [isQualified, toList_qualify]

theorem qualify_right_injective (aliasName : String) : Function.Injective (qualify aliasName) := by
  intro name other h
  have hlist := congrArg String.toList h
  rw [toList_qualify, toList_qualify] at hlist
  exact String.toList_inj.mp (List.cons.inj (List.append_cancel_left hlist)).2

theorem takeWhile_point (chars rest : List Char) (h : '.' ∉ chars) :
    (chars ++ '.' :: rest).takeWhile (· != '.') = chars := by
  rw [List.takeWhile_append_of_pos]
  · simp
  · intro c hc
    have hne : c ≠ '.' := by
      rintro rfl
      contradiction
    simpa using hne

theorem not_mem_of_not_isQualified {name : String} (h : isQualified name = false) :
    '.' ∉ name.toList := by
  simpa [isQualified] using h

theorem qualify_left_injective {aliasName otherAlias name other : String}
    (halias : isQualified aliasName = false) (hother : isQualified otherAlias = false)
    (h : qualify aliasName name = qualify otherAlias other) : aliasName = otherAlias := by
  have hlist := congrArg String.toList h
  rw [toList_qualify, toList_qualify] at hlist
  have htake := congrArg (List.takeWhile (· != '.')) hlist
  rw [takeWhile_point _ _ (not_mem_of_not_isQualified halias),
    takeWhile_point _ _ (not_mem_of_not_isQualified hother)] at htake
  exact String.toList_inj.mp htake

theorem qualify_left_of_plain {aliasName otherAlias name other : String}
    (halias : isQualified aliasName = false) (hname : isQualified name = false)
    (h : qualify aliasName name = qualify otherAlias other) : aliasName = otherAlias := by
  have hlist := congrArg String.toList h
  rw [toList_qualify, toList_qualify] at hlist
  rcases List.append_eq_append_iff.mp hlist with ⟨rest, hother, hrest⟩ | ⟨rest, hown, hrest⟩
  · rcases List.cons_eq_append_iff.mp hrest with ⟨rfl, -⟩ | ⟨tail, -, hmem⟩
    · rw [List.append_nil] at hother
      exact String.toList_inj.mp hother.symm
    · exact absurd (by simp [hmem]) (not_mem_of_not_isQualified hname)
  · rcases List.cons_eq_append_iff.mp hrest with ⟨rfl, -⟩ | ⟨tail, hpoint, -⟩
    · rw [List.append_nil] at hown
      exact String.toList_inj.mp hown
    · exact absurd (by simp [hown, hpoint]) (not_mem_of_not_isQualified halias)

theorem qualify_injective {aliasName otherAlias name other : String}
    (hname : isQualified name = false) (hother : isQualified other = false)
    (h : qualify aliasName name = qualify otherAlias other) :
    aliasName = otherAlias ∧ name = other := by
  have hlast : ∀ {name : String}, isQualified name = false → '.' ∉ name.toList.reverse :=
    fun h hmem => not_mem_of_not_isQualified h (List.mem_reverse.mp hmem)
  have hlist := congrArg (fun key : String => key.toList.reverse) h
  simp only [toList_qualify, List.reverse_append, List.reverse_cons, List.append_assoc,
    List.singleton_append] at hlist
  have htake := congrArg (List.takeWhile (· != '.')) hlist
  rw [takeWhile_point _ _ (hlast hname), takeWhile_point _ _ (hlast hother),
    List.reverse_inj] at htake
  obtain rfl := String.toList_inj.mp htake
  have halias := congrArg String.toList h
  rw [toList_qualify, toList_qualify, List.append_left_inj] at halias
  exact ⟨String.toList_inj.mp halias, rfl⟩

@[simp] theorem get?_set (record : Record) (name : String) (value : Value) (key : String) :
    (record.set name value).get? key = if key = name then some value else record.get? key :=
  Attributes.get?_set record.attributes name value key

theorem lookup_eq_none {α : Type} {entries : List (String × α)} {name : String}
    (h : name ∉ entries.map Prod.fst) : entries.lookup name = none := by
  rw [List.lookup_eq_none_iff]
  intro entry hentry
  have hne : name ≠ entry.1 := by
    rintro rfl
    exact h (List.mem_map_of_mem hentry)
  simpa using hne

section Merge

variable (aliasName : String)

abbrev mergeEntries (record : Record) (entries : List (String × Value)) : Record :=
  entries.foldl (fun merged entry =>
    merged.set (qualify aliasName entry.1) (.aliased aliasName entry.1 entry.2.unwrap)) record

theorem get?_mergeEntries_of_ne (entries : List (String × Value)) (record : Record) (key : String)
    (h : ∀ name, key ≠ qualify aliasName name) :
    (mergeEntries aliasName record entries).get? key = record.get? key := by
  induction entries generalizing record with
  | nil => rfl
  | cons entry rest ih =>
    rw [mergeEntries, List.foldl_cons, ih, get?_set, if_neg (h entry.1)]

theorem get?_mergeEntries_qualify (entries : List (String × Value)) (record : Record) (name : String)
    (h : (entries.map Prod.fst).Nodup) :
    (mergeEntries aliasName record entries).get? (qualify aliasName name) =
      match entries.lookup name with
      | some value => some (.aliased aliasName name value.unwrap)
      | none => record.get? (qualify aliasName name) := by
  induction entries generalizing record with
  | nil => rfl
  | cons entry rest ih =>
    obtain ⟨first, value⟩ := entry
    obtain ⟨hfirst, hrest⟩ := List.nodup_cons.mp h
    rw [mergeEntries, List.foldl_cons, ih _ hrest, get?_set, List.lookup_cons]
    by_cases heq : name = first
    · subst heq
      simp [lookup_eq_none hfirst]
    · have hkey : qualify aliasName name ≠ qualify aliasName first :=
        fun hq => heq (qualify_right_injective aliasName hq)
      rw [if_neg hkey, beq_false_of_ne heq]

theorem lookup_filter (entries : List (String × Value)) (keep : String → Bool) (name : String) :
    (entries.filter fun entry => keep entry.1).lookup name =
      if keep name then entries.lookup name else none := by
  induction entries with
  | nil => simp
  | cons entry rest ih =>
    obtain ⟨first, value⟩ := entry
    by_cases heq : name = first
    · subst heq
      cases hname : keep name with
      | false =>
        rw [hname, if_neg Bool.false_ne_true] at ih
        simp only [List.filter_cons, hname, Bool.false_eq_true, if_false, ih]
      | true => simp [hname]
    · have hbeq := beq_false_of_ne heq
      cases hfirst : keep first <;> simp [hfirst, List.lookup_cons, hbeq, ih]

theorem nodup_filter (record : Record) (keep : String → Bool) :
    ((record.attributes.entries.filter fun entry => keep entry.1).map Prod.fst).Nodup := by
  rw [List.Nodup, List.pairwise_map]
  refine (record.attributes.ascending.filter _).imp ?_
  intro a b hlt heq
  exact String.lt_irrefl _ (heq ▸ hlt)

theorem get?_merge_of_ne (record other : Record) (key : String)
    (h : ∀ name, key ≠ qualify aliasName name) :
    (record.merge aliasName other).get? key = record.get? key :=
  get?_mergeEntries_of_ne aliasName _ record key h

theorem get?_merge_qualify (record other : Record) (name : String) :
    (record.merge aliasName other).get? (qualify aliasName name) =
      match if isQualified name then none else other.get? name with
      | some value => some (.aliased aliasName name value.unwrap)
      | none => record.get? (qualify aliasName name) := by
  rw [merge, get?_mergeEntries_qualify aliasName _ record name
    (other.nodup_filter fun key => !isQualified key), lookup_filter _ fun key => !isQualified key]
  cases isQualified name <;> rfl

end Merge

end Record

end RecordQuery
