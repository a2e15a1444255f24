import Mathlib.Data.Set.Finite.Lattice
import Mathlib.Order.Bounds.Basic
import RecordQuery.Proofs.Plan.Reassignment
import RecordQuery.Proofs.Text.Names

namespace RecordQuery.Aliases

def Passes (aliases : Aliases) (entity : String) (n next : Nat) : Prop :=
  candidate entity n ∈ aliases.taken ∧ next = n + 1

section Search

variable (aliases : Aliases) (entity : String)

theorem exists_bound : ∃ bound, ∀ n, candidate entity n ∈ aliases.taken → n ≤ bound := by
  have hfinite : {n | candidate entity n ∈ aliases.taken}.Finite :=
    aliases.taken.finite_toSet.preimage (candidate_injective entity).injOn
  obtain ⟨bound, hbound⟩ := hfinite.bddAbove
  exact ⟨bound, fun n hn => hbound hn⟩

theorem wellFounded_passes : WellFounded fun next n => aliases.Passes entity n next := by
  obtain ⟨bound, hbound⟩ := exists_bound aliases entity
  refine Subrelation.wf ?_ (measure fun n => bound + 1 - n).wf
  rintro _ n ⟨htaken, rfl⟩
  have hle := hbound n htaken
  change bound + 1 - (n + 1) < bound + 1 - n
  omega

theorem reaches_of_taken (n : Nat) (h : ∀ m < n, candidate entity m ∈ aliases.taken) :
    Relation.ReflTransGen (aliases.Passes entity) 0 n := by
  induction n with
  | zero => exact .refl
  | succ n ih => exact (ih fun m hm => h m (by omega)).tail ⟨h n (by omega), rfl⟩

end Search

theorem exists_reserve_iff (aliases : Aliases) (aliasName : String) :
    (∃ reserved, aliases.reserve aliasName = .ok reserved) ↔
      IsName aliasName ∧ aliasName ∉ aliases.taken := by
  rw [← isValid_iff]
  constructor
  · rintro ⟨reserved, h⟩
    obtain ⟨hvalid, hfree, -⟩ := reserve_spec h
    exact ⟨hvalid, hfree⟩
  · rintro ⟨hvalid, hfree⟩
    exact ⟨⟨aliasName :: aliases.taken⟩, by simp [reserve, hvalid, hfree]⟩

inductive Call where
  | reserve (aliasName : String)
  | allocate (entity : String)
  | assign (links : List Link)

def reservedAmong (aliases : Aliases) : List String → List String
  | [] => []
  | aliasName :: rest =>
    match aliases.reserve aliasName with
    | .ok reserved => aliasName :: reserved.reservedAmong rest
    | .error _ => []

def answer (aliases : Aliases) : Call → List String × Aliases
  | .reserve aliasName =>
    match aliases.reserve aliasName with
    | .ok reserved => ([aliasName], reserved)
    | .error _ => ([], aliases)
  | .allocate entity =>
    let (aliasName, after) := aliases.allocate entity
    ([aliasName], after)
  | .assign links =>
    match aliases.assign links with
    | (after, .ok named) => (Link.explicitAliasesAll named, after)
    | (after, .error _) => (aliases.reservedAmong (Link.explicitAliasesAll links), after)

def answers (aliases : Aliases) : List Call → List String × Aliases
  | [] => ([], aliases)
  | call :: rest =>
    let (handed, middle) := aliases.answer call
    let (others, after) := middle.answers rest
    (handed ++ others, after)

structure HandsOut (aliases after : Aliases) (handed : List String) : Prop where
  nodup : handed.Nodup
  free : ∀ aliasName ∈ handed, aliasName ∉ aliases.taken
  taken : after.taken.Perm (handed ++ aliases.taken)

namespace HandsOut

variable {aliases middle after : Aliases} {handed others : List String}

theorem nil (aliases : Aliases) : HandsOut aliases aliases [] :=
  ⟨List.nodup_nil, by simp, .refl _⟩

theorem single {aliasName : String} (h : aliasName ∉ aliases.taken) :
    HandsOut aliases ⟨aliasName :: aliases.taken⟩ [aliasName] :=
  ⟨List.nodup_singleton _, by simpa using h, .refl _⟩

theorem append (h : HandsOut aliases middle handed) (h' : HandsOut middle after others) :
    HandsOut aliases after (handed ++ others) := by
  have hfree : ∀ aliasName ∈ others, aliasName ∉ handed ++ aliases.taken :=
    fun aliasName hother hmem => h'.free aliasName hother (h.taken.mem_iff.mpr hmem)
  refine ⟨List.nodup_append.mpr ⟨h.nodup, h'.nodup, ?_⟩, ?_, ?_⟩
  · rintro aliasName hhanded _ hother rfl
    exact hfree aliasName hother (List.mem_append_left _ hhanded)
  · intro aliasName hmem htaken
    rcases List.mem_append.mp hmem with hhanded | hother
    · exact h.free aliasName hhanded htaken
    · exact hfree aliasName hother (List.mem_append_right _ htaken)
  · have hswap : (others ++ (handed ++ aliases.taken)).Perm (handed ++ others ++ aliases.taken) := by
      rw [← List.append_assoc]
      exact List.perm_append_comm.append_right _
    exact (h'.taken.trans (h.taken.append_left others)).trans hswap

theorem perm (h : HandsOut aliases after handed) (hperm : others.Perm handed) :
    HandsOut aliases after others :=
  ⟨hperm.nodup_iff.mpr h.nodup, fun aliasName hmem => h.free aliasName (hperm.mem_iff.mp hmem),
    h.taken.trans (hperm.symm.append_right _)⟩

end HandsOut

variable {aliases : Aliases}

theorem handsOut_reserve {reserved : Aliases} {aliasName : String}
    (h : aliases.reserve aliasName = .ok reserved) : HandsOut aliases reserved [aliasName] := by
  obtain ⟨-, hfree, htaken⟩ := reserve_spec h
  obtain ⟨taken⟩ := reserved
  obtain rfl := htaken
  exact .single hfree

theorem handsOut_reserveAll (aliases : Aliases) (names : List String) :
    HandsOut aliases (aliases.reserveAll names).1 (aliases.reservedAmong names) := by
  induction names generalizing aliases with
  | nil => exact .nil aliases
  | cons aliasName rest ih =>
    unfold reserveAll reservedAmong
    cases hreserve : aliases.reserve aliasName with
    | error fault => exact .nil aliases
    | ok reserved => exact (handsOut_reserve hreserve).append (ih reserved)

theorem reservedAmong_eq_self {names : List String} (h : (aliases.reserveAll names).2 = .ok ()) :
    aliases.reservedAmong names = names := by
  induction names generalizing aliases with
  | nil => rfl
  | cons aliasName rest ih =>
    unfold reserveAll at h
    unfold reservedAmong
    cases hreserve : aliases.reserve aliasName with
    | error fault =>
      rw [hreserve] at h
      contradiction
    | ok reserved =>
      rw [hreserve] at h
      exact congrArg (aliasName :: ·) (ih h)

theorem handsOut_nameLinks (aliases : Aliases) (links : List Link) :
    ∃ fresh, HandsOut aliases (aliases.nameLinks links).2 fresh ∧
      (Link.explicitAliasesAll (aliases.nameLinks links).1).Perm
        (Link.explicitAliasesAll links ++ fresh) := by
  obtain ⟨fresh, htaken, hnodup, hfree, hperm⟩ := nameLinks_extends aliases links
  exact ⟨fresh, ⟨hnodup, hfree, .of_eq htaken⟩, hperm⟩

theorem handsOut_assign (aliases : Aliases) (links : List Link) :
    HandsOut aliases (aliases.answer (.assign links)).2 (aliases.answer (.assign links)).1 := by
  have hreserved := handsOut_reserveAll aliases (Link.explicitAliasesAll links)
  cases hall : aliases.reserveAll (Link.explicitAliasesAll links) with
  | mk reserved outcome =>
    rw [hall] at hreserved
    cases outcome with
    | error fault => simpa only [answer, assign, hall] using hreserved
    | ok =>
      -- the given aliases were all reserved, and those of the other links come after them
      rw [reservedAmong_eq_self (by rw [hall])] at hreserved
      obtain ⟨fresh, hfresh, hperm⟩ := handsOut_nameLinks reserved links
      simpa only [answer, assign, hall] using (hreserved.append hfresh).perm hperm

theorem handsOut_answer (aliases : Aliases) (call : Call) :
    HandsOut aliases (aliases.answer call).2 (aliases.answer call).1 := by
  cases call with
  | reserve aliasName =>
    cases hreserve : aliases.reserve aliasName with
    | error fault => simpa only [answer, hreserve] using HandsOut.nil aliases
    | ok reserved => simpa only [answer, hreserve] using handsOut_reserve hreserve
  | allocate entity => exact .single (aliases.free_not_mem entity)
  | assign links => exact handsOut_assign aliases links

theorem handsOut_answers (aliases : Aliases) (calls : List Call) :
    HandsOut aliases (aliases.answers calls).2 (aliases.answers calls).1 := by
  induction calls generalizing aliases with
  | nil => exact .nil aliases
  | cons call rest ih => exact (handsOut_answer aliases call).append (ih _)

/-- All aliases that are handed out are different, whatever is asked for in whatever order. The
search for a free alias ends, at the first candidate that is not taken. A given alias is reserved
if and only if it is a name and not taken. -/
theorem hands_out_once :
    (∀ calls : List Call, (empty.answers calls).1.Nodup ∧
      (empty.answers calls).2.taken.Perm (empty.answers calls).1) ∧
    (∀ (aliases : Aliases) (entity : String),
      (WellFounded fun next n => aliases.Passes entity n next) ∧
      ∃ n ≤ aliases.taken.length, Relation.ReflTransGen (aliases.Passes entity) 0 n ∧
        (aliases.allocate entity).1 = candidate entity n ∧
        candidate entity n ∉ aliases.taken ∧ ∀ m < n, candidate entity m ∈ aliases.taken) ∧
    ∀ (aliases : Aliases) (aliasName : String),
      (∃ reserved, aliases.reserve aliasName = .ok reserved) ↔
        IsName aliasName ∧ aliasName ∉ aliases.taken := by
  refine ⟨fun calls => ?_, fun aliases entity => ⟨wellFounded_passes aliases entity, ?_⟩,
    exists_reserve_iff⟩
  · have h := handsOut_answers empty calls
    exact ⟨h.nodup, by simpa [empty] using h.taken⟩
  · obtain ⟨n, hn, heq, hfree, htaken⟩ := aliases.free_spec entity
    exact ⟨n, hn, reaches_of_taken aliases entity n htaken, heq, hfree, htaken⟩

example : (empty.answers [.reserve "contact2", .allocate "contact", .reserve "contact",
    .allocate "contact", .allocate "contact2"]).1 =
    ["contact2", "contact", "contact3", "contact22"] := by decide

end RecordQuery.Aliases
