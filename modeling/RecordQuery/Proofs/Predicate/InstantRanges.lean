import RecordQuery.Proofs.Calendar.DateTexts
import RecordQuery.Proofs.Predicate.CompileSafety

namespace RecordQuery

namespace Value

def NamesInstant (operand : Value) (t : Instant) : Prop :=
  operand.scalar? .dateTime none = some (.dateTime t)

theorem namesInstant_dateTime (t : Instant) : (dateTime t).NamesInstant t := rfl

theorem namesInstant_text_iff {content : String} {t : Instant} :
    (text content).NamesInstant t ↔ Calendar.readInstant? content = some t := by
  change some (scalarOfText content .dateTime) = some (.dateTime t) ↔
    Calendar.readChars? (Text.trimChars content.toList) = some t
  unfold scalarOfText
  dsimp only
  cases Calendar.readChars? (Text.trimChars content.toList) <;> simp

end Value

namespace Instant

variable {t : Instant}

theorem eq_of_nanoseconds {a b : Instant} (h : a.nanoseconds = b.nanoseconds) (ha : ¬ a.IsLeap)
    (hb : ¬ b.IsLeap) : a = b := by
  unfold nanoseconds at h
  unfold IsLeap at ha hb
  exact eq_of_seconds (by omega) (by omega)

/-- The upper end that a written range up to an instant has: a day later, less a millisecond, if the
instant is a midnight, and else the instant itself. -/
structure Widens (t last : Instant) : Prop where
  midnight : t.isMidnight = true →
    last.nanoseconds = t.nanoseconds + 86400 * 1000000000 - 1000000 ∧ ¬ last.IsLeap
  other : t.isMidnight = false → last = t

theorem exists_widens (h : t ≠ .midnight .greatest) :
    ∃ last, t.Widens last ∧ Condition.wholeDay (.dateTime t) = .ok (.dateTime last) := by
  unfold Condition.wholeDay
  dsimp only
  cases hmidnight : t.isMidnight with
  | false => exact ⟨t, ⟨fun hother => by rw [hmidnight] at hother; contradiction, fun _ => rfl⟩, rfl⟩
  | true =>
    have ht := eq_midnight hmidnight
    rw [if_pos rfl, ht]
    cases hend : ((Instant.midnight t.date).addSeconds? 86400).bind subMillisecond? with
    | none =>
      rw [endOf_midnight_eq_none_iff] at hend
      exact absurd (hend ▸ ht) h
    | some last =>
      obtain ⟨next, hnext, hlast⟩ := Option.bind_eq_some_iff.mp hend
      obtain ⟨hs, hn⟩ := midnight_addSeconds?_eq_some_iff.mp hnext
      obtain ⟨hs', hn'⟩ := (subMillisecond?_eq_some_iff hn).mp hlast
      refine ⟨last, ⟨fun _ => ?_, fun hother => ?_⟩, rfl⟩
      · have hbegin : (Instant.midnight t.date).nanoseconds =
            t.date.number * 86400 * 1000000000 := by
          simp only [nanoseconds, seconds, Instant.midnight]
          omega
        rw [hbegin, nanoseconds, IsLeap]
        omega
      · rw [← ht, hmidnight] at hother
        contradiction

end Instant

def Operator.comparesInstants : Operator → Bool
  | .between _ | .on _ | .onOrAfter | .onOrBefore => true
  | _ => false

namespace Condition

variable {condition derived : Condition} {context : Context} {aliases : AliasMap} {scope : Scope}
variable {accessor : Accessor} {low high : Value} {a b : Instant}

namespace ReachesOperands

theorem compile_eq (reaches : condition.ReachesOperands context aliases scope accessor)
    (htype : accessor.type = .dateTime)
    (hoptions : ∀ negated, condition.operator ≠ .containValues negated)
    (hkin : ∀ kinship, condition.operator ≠ .kin kinship) :
    condition.compile context aliases scope = (do
      match ← condition.window? (Value.flattenAll condition.values) context.present with
      | some derived =>
        derived.compileOperator context accessor (Value.flattenAll derived.values) true
      | none =>
        condition.compileOperator context accessor (Value.flattenAll condition.values) false) := by
  obtain ⟨target, htarget, haccessor⟩ := reaches.resolves
  rw [Condition.compile_eq reaches.outer_eq reaches.other_eq htarget haccessor, compileOperands_eq,
    if_pos reaches.accepts, if_neg reaches.type_ne, compileAttribute_eq,
    suits_of_operator hoptions (fun _ => by rw [htype]; rfl), ok_bind]
  split
  · rename_i kinship hoperator
    exact absurd hoperator (hkin kinship)
  · rfl

theorem compile_window (reaches : condition.ReachesOperands context aliases scope accessor)
    (htype : accessor.type = .dateTime)
    (hwindow : condition.window? (Value.flattenAll condition.values) context.present =
      .ok (some derived)) :
    condition.compile context aliases scope =
      derived.compileOperator context accessor (Value.flattenAll derived.values) true := by
  have hdate := isDate_of_window? hwindow
  rw [reaches.compile_eq htype (fun negated hoperator => ?_) (fun kinship hoperator => ?_), hwindow]
  · rfl
  all_goals
    rw [hoperator] at hdate
    contradiction

theorem compile_operator (reaches : condition.ReachesOperands context aliases scope accessor)
    (htype : accessor.type = .dateTime) (h : condition.operator.comparesInstants = true) :
    condition.compile context aliases scope = context.present.today >>= fun _ =>
      condition.compileOperator context accessor (Value.flattenAll condition.values) false := by
  have hnames : condition.operator.namesWindow = false := by
    cases hoperator : condition.operator with
    | between _ | on _ | onOrAfter | onOrBefore => rfl
    | _ =>
      rw [hoperator] at h
      contradiction
  rw [reaches.compile_eq htype (fun negated hoperator => ?_) (fun kinship hoperator => ?_),
    window?_of_not_namesWindow hnames]
  · cases context.present.today <;> rfl
  all_goals
    rw [hoperator] at h
    contradiction

end ReachesOperands

theorem compileOperator_between (context : Context) (accessor : Accessor)
    (htype : accessor.type = .dateTime) (hoperator : condition.operator = .between false)
    (hlow : low.NamesInstant a) (hhigh : high.NamesInstant b) (hb : b ≠ .midnight .greatest) :
    ∃ last, b.Widens last ∧ condition.compileOperator context accessor [low, high] false =
      .ok (.value accessor (Window.between a last).test false (some low)) := by
  obtain ⟨last, hwidens, hday⟩ := Instant.exists_widens hb
  refine ⟨last, hwidens, ?_⟩
  have hlower : low.scalar? accessor.type (some low) = some (.dateTime a) := by
    rw [htype, Value.scalar?_eq_dateTime_iff]
    exact hlow
  have hupper : high.scalar? accessor.type (some high) = some (.dateTime b) := by
    rw [htype, Value.scalar?_eq_dateTime_iff]
    exact hhigh
  unfold compileOperator
  rw [hoperator]
  change compileRange accessor false true low high = _
  simp only [compileRange, hlower, hupper, if_true, hday]
  rfl

theorem compile_between (reaches : condition.ReachesOperands context aliases scope accessor)
    (htype : accessor.type = .dateTime) (hoperator : condition.operator = .between false)
    (hvalues : Value.flattenAll condition.values = [low, high]) (hlow : low.NamesInstant a)
    (hhigh : high.NamesInstant b) (hb : b ≠ .midnight .greatest) :
    (context.now.localDate? context.catalog.offset ≠ none → ∃ last p, b.Widens last ∧
      condition.compile context aliases scope = .ok p ∧
      ∀ row, p.Accepts row ↔ ∃ v, accessor.ReadsInstant row v ∧ a ≤ v ∧ v ≤ last) ∧
    (context.now.localDate? context.catalog.offset = none →
      condition.compile context aliases scope = .error .overflow) := by
  rw [reaches.compile_operator htype (by rw [hoperator]; rfl), hvalues]
  obtain ⟨last, hwidens, hcompile⟩ :=
    compileOperator_between context accessor htype hoperator hlow hhigh hb
  constructor
  · intro hnow
    obtain ⟨today, htoday⟩ := Option.ne_none_iff_exists'.mp hnow
    rw [show context.present.today = .ok today from Present.today_eq_ok_iff.mpr htoday, ok_bind]
    exact ⟨last, _, hwidens, hcompile, fun row => Window.accepts_test_iff _ accessor _ row⟩
  · intro hnow
    have htoday : context.present.today = .error .overflow := by
      unfold Present.today
      rw [show context.present.now.localDate? context.present.offset = none from hnow]
    rw [htoday, error_bind]

theorem compile_windowRange (reaches : condition.ReachesOperands context aliases scope accessor)
    (htype : accessor.type = .dateTime)
    (hwindow : condition.window? (Value.flattenAll condition.values) context.present =
      .ok (some derived))
    (hoperator : derived.operator = .between false) :
    ∃ first last p, derived = condition.betweenInstants first last ∧
      condition.compile context aliases scope = .ok p ∧
      ∀ row, p.Accepts row ↔ ∃ v, accessor.ReadsInstant row v ∧ first ≤ v ∧ v ≤ last := by
  rw [reaches.compile_window htype hwindow]
  rcases eq_of_window? hwindow with ⟨turn, day, -, rfl⟩ | ⟨window, rfl⟩
  · contradiction
  · cases window with
    | before cutoff => contradiction
    | between first last =>
      obtain ⟨sample, hcompile⟩ :=
        (Window.between first last).compileOperator_said condition context accessor
      exact ⟨first, last, _, rfl, hcompile, fun row => Window.accepts_test_iff _ accessor _ row⟩

/-- A written range takes in the instants from the one end to the other, and the day that begins
with the upper end if that is a midnight; it is compiled as long as the present has a local day.
The range of a window takes in the instants between its bounds, whatever they are. -/
theorem compile_instantRange
    (reaches : condition.ReachesOperands context aliases scope accessor)
    (htype : accessor.type = .dateTime) :
    (∀ low high a b, condition.operator = .between false →
      Value.flattenAll condition.values = [low, high] → low.NamesInstant a →
      high.NamesInstant b → b ≠ .midnight .greatest →
      (context.now.localDate? context.catalog.offset ≠ none → ∃ last p, b.Widens last ∧
        condition.compile context aliases scope = .ok p ∧
        ∀ row, p.Accepts row ↔ ∃ v, accessor.ReadsInstant row v ∧ a ≤ v ∧ v ≤ last) ∧
      (context.now.localDate? context.catalog.offset = none →
        condition.compile context aliases scope = .error .overflow)) ∧
    (∀ derived, condition.window? (Value.flattenAll condition.values) context.present =
        .ok (some derived) → derived.operator = .between false →
      ∃ first last p, derived = condition.betweenInstants first last ∧
        condition.compile context aliases scope = .ok p ∧
        ∀ row, p.Accepts row ↔ ∃ v, accessor.ReadsInstant row v ∧ first ≤ v ∧ v ≤ last) :=
  ⟨fun _ _ _ _ hoperator hvalues hlow hhigh hb =>
      compile_between reaches htype hoperator hvalues hlow hhigh hb,
    fun _ hwindow hoperator => compile_windowRange reaches htype hwindow hoperator⟩

def eastward (now : Instant) : Context :=
  { westward with
    catalog := { westward.catalog with offset := ⟨3600, by decide⟩ }
    now }

theorem readsInstant_accountSince {s t : Instant} :
    sinceAccessor.ReadsInstant (accountSince s) t ↔ s = t :=
  ⟨fun h => Scalar.dateTime.inj (Option.some.inj h), fun h => h ▸ rfl⟩

def sinceJanuary : Condition :=
  ⟨"since", none, .between false,
    [.text "2024-01-01", .dateTime (.midnight ⟨2024, 1, 31, by decide⟩)], none, false⟩

theorem reaches_sinceJanuary (now : Instant) :
    sinceJanuary.ReachesOperands (eastward now) [] (.root "account") sinceAccessor :=
  ⟨rfl, rfl, ⟨_, rfl, rfl⟩, by decide, rfl⟩

theorem names_firstOfJanuary :
    (Value.text "2024-01-01").NamesInstant (.midnight ⟨2024, 1, 1, by decide⟩) := by
  have htext : Date.text ⟨2024, 1, 1, by decide⟩ = "2024-01-01" := rfl
  rw [Value.namesInstant_text_iff, ← htext, Calendar.readInstant?_text]

theorem compile_instantRange_january :
    let now : Instant := .midnight ⟨2024, 2, 1, by decide⟩
    let late : Instant := ⟨⟨2024, 1, 31, by decide⟩, 54000, 0, by decide, by decide⟩
    let later : Instant := ⟨⟨2024, 2, 1, by decide⟩, 54000, 0, by decide, by decide⟩
    let lastDays : Condition := ⟨"since", none, .sevenDays .last, [], none, false⟩
    (∃ p, sinceJanuary.compile (eastward now) [] (.root "account") = .ok p ∧
      p.Accepts (accountSince late) ∧ ¬ p.Accepts (accountSince later)) ∧
    ∃ p, lastDays.compile (eastward now) [] (.root "account") = .ok p ∧
      p.Accepts (accountSince now) ∧ ¬ p.Accepts (accountSince later) := by
  intro now late later lastDays
  constructor
  · obtain ⟨last, p, hwidens, hok, hiff⟩ := ((compile_instantRange (reaches_sinceJanuary now) rfl).1
      _ _ _ _ rfl rfl names_firstOfJanuary (Value.namesInstant_dateTime _) (by decide)).1
        (by decide)
    obtain ⟨hend, hleap⟩ := hwidens.midnight rfl
    obtain rfl : last = ⟨⟨2024, 1, 31, by decide⟩, 86399, 999000000, by decide, by decide⟩ :=
      Instant.eq_of_nanoseconds (hend.trans (by decide)) hleap (by decide)
    refine ⟨p, hok, (hiff _).mpr ⟨late, rfl, by decide, by decide⟩, fun haccepts => ?_⟩
    obtain ⟨v, hv, -, hle⟩ := (hiff _).mp haccepts
    obtain rfl := readsInstant_accountSince.mp hv
    exact absurd hle (by decide)
  · have hreaches : lastDays.ReachesOperands (eastward now) [] (.root "account") sinceAccessor :=
      ⟨rfl, rfl, ⟨_, rfl, rfl⟩, by decide, rfl⟩
    have htoday : (eastward now).present.today = .ok ⟨2024, 2, 1, by decide⟩ := by decide
    have hshift : shiftInstant? now (.span .days) (-7) =
        some (.midnight ⟨2024, 1, 25, by decide⟩) := by decide
    have hwindow : lastDays.window? [] (eastward now).present =
        .ok (some (lastDays.betweenInstants (.midnight ⟨2024, 1, 25, by decide⟩) now)) :=
      bind_eq_ok_iff.mpr ⟨_, htoday,
        bind_eq_ok_iff.mpr ⟨_, inCalendar_eq_ok_iff.mpr hshift, rfl⟩⟩
    obtain ⟨first, last, p, hsaid, hok, hiff⟩ :=
      (compile_instantRange hreaches rfl).2 _ hwindow rfl
    obtain ⟨hfirst, hlast⟩ : .midnight ⟨2024, 1, 25, by decide⟩ = first ∧ now = last := by
      simpa [betweenInstants, derive] using congrArg Condition.values hsaid
    refine ⟨p, hok, (hiff _).mpr ⟨now, rfl, ?_⟩, fun haccepts => ?_⟩
    · rw [← hfirst, ← hlast]
      decide
    · obtain ⟨v, hv, -, hle⟩ := (hiff _).mp haccepts
      rw [← readsInstant_accountSince.mp hv, ← hlast] at hle
      exact absurd hle (by decide)

theorem exists_between_overflow :
    ¬ ∀ (condition : Condition) (context : Context) (aliases : AliasMap) (scope : Scope)
      (accessor : Accessor) (low high : Value) (a b : Instant),
      condition.ReachesOperands context aliases scope accessor → accessor.type = .dateTime →
      condition.operator = .between false → Value.flattenAll condition.values = [low, high] →
      low.NamesInstant a → high.NamesInstant b → b.addSeconds? 86400 ≠ none →
      ∃ last p, b.Widens last ∧ condition.compile context aliases scope = .ok p ∧
        ∀ row, p.Accepts row ↔ ∃ v, accessor.ReadsInstant row v ∧ a ≤ v ∧ v ≤ last := by
  intro h
  have hreaches := reaches_sinceJanuary .greatest
  have hhigh := Value.namesInstant_dateTime (.midnight ⟨2024, 1, 31, by decide⟩)
  obtain ⟨_, p, -, hok, -⟩ := h sinceJanuary (eastward .greatest) [] (.root "account")
    sinceAccessor _ _ _ _ hreaches rfl rfl rfl names_firstOfJanuary hhigh (by decide)
  rw [(compile_between hreaches rfl rfl rfl names_firstOfJanuary hhigh (by decide)).2
    (by decide)] at hok
  contradiction

end Condition

end RecordQuery
