import RecordQuery.Proofs.Predicate.InstantRanges

namespace RecordQuery

namespace Operator

def comparesDays : Operator → Bool
  | .on _ | .onOrAfter | .onOrBefore => true
  | _ => false

def RelatesDays : Operator → (held asked : Date) → Prop
  | .on false, held, asked => held = asked
  | .on true, held, asked => held ≠ asked
  | .onOrAfter, held, asked => asked ≤ held
  | .onOrBefore, held, asked => held ≤ asked
  | _, _, _ => False

theorem comparesInstants_of_comparesDays {operator : Operator}
    (h : operator.comparesDays = true) : operator.comparesInstants = true := by
  cases operator with
  | on _ | onOrAfter | onOrBefore => rfl
  | _ => contradiction

end Operator

theorem Predicate.accepts_day_iff {accessor : Accessor} {row : Record} {s : Instant} {day : Date}
    {offset : UtcOffset} (hreads : accessor.ReadsInstant row s)
    (hday : s.localDate? offset = some day) (test : DayTest) (date : Date) (negated : Bool) :
    (Predicate.value accessor (.day test date offset) negated none).Accepts row ↔
      (test.holds day date != negated) = true := by
  have hscalar : scalarOf accessor none row = some (.dateTime s) := hreads
  simp [accepts_iff, faults, admits, hscalar, ValueTest.faults, ValueTest.holds, hday]

namespace Condition

variable {condition : Condition} {context : Context} {aliases : AliasMap} {scope : Scope}
variable {accessor : Accessor} {operand : Value} {t : Instant} {today : Date}

theorem compileOperator_comparesDays (context : Context) (accessor : Accessor) (isWindow : Bool)
    (hdays : condition.operator.comparesDays = true) (hnames : operand.NamesInstant t) :
    ∃ test negated, condition.compileOperator context accessor [operand] isWindow =
        .ok (.value accessor (.day test t.date context.catalog.offset) negated none) ∧
      ∀ day, (DayTest.holds test day t.date != negated) = true ↔
        condition.operator.RelatesDays day t.date := by
  have hday : ∀ test negated, condition.compileDay context.catalog.offset accessor test negated
      operand = .ok (.value accessor (.day test t.date context.catalog.offset) negated none) := by
    intro test negated
    rw [compileDay, show operand.scalar? .dateTime none = some (.dateTime t) from hnames]
  unfold compileOperator
  cases hoperator : condition.operator with
  | on negated =>
    refine ⟨.on, negated, hday _ _, fun day => ?_⟩
    cases negated <;> simp [DayTest.holds, Operator.RelatesDays]
  | onOrAfter =>
    exact ⟨.onOrAfter, false, hday _ _, fun day => by simp [DayTest.holds, Operator.RelatesDays]⟩
  | onOrBefore =>
    exact ⟨.onOrBefore, false, hday _ _, fun day => by simp [DayTest.holds, Operator.RelatesDays]⟩
  | _ =>
    rw [hoperator] at hdays
    contradiction

theorem compile_relatesDays (reaches : condition.ReachesOperands context aliases scope accessor)
    (htype : accessor.type = .dateTime) (hdays : condition.operator.comparesDays = true)
    (hvalues : Value.flattenAll condition.values = [operand]) (hnames : operand.NamesInstant t)
    (htoday : context.now.localDate? context.catalog.offset = some today) :
    ∃ p, condition.compile context aliases scope = .ok p ∧
      ∀ row s day, accessor.ReadsInstant row s →
        s.localDate? context.catalog.offset = some day →
        (p.Accepts row ↔ condition.operator.RelatesDays day t.date) := by
  have hpresent : context.present.today = .ok today := Present.today_eq_ok_iff.mpr htoday
  obtain ⟨test, negated, hcompile, hrelates⟩ :=
    compileOperator_comparesDays context accessor false hdays hnames
  have hok : condition.compile context aliases scope =
      .ok (.value accessor (.day test t.date context.catalog.offset) negated none) := by
    rw [reaches.compile_operator htype (Operator.comparesInstants_of_comparesDays hdays), hpresent,
      ok_bind, hvalues, hcompile]
  refine ⟨_, hok, fun row s day hreads hday => ?_⟩
  rw [Predicate.accepts_day_iff hreads hday, hrelates]

theorem compile_relatesDays_midnight :
    let now : Instant := .midnight ⟨2024, 2, 1, by decide⟩
    let asked : Instant := ⟨⟨2024, 1, 15, by decide⟩, 43200, 0, by decide, by decide⟩
    let held : Instant := ⟨⟨2024, 1, 14, by decide⟩, 84600, 0, by decide, by decide⟩
    let condition : Condition := ⟨"since", none, .on false, [.dateTime asked], none, false⟩
    ∃ p, condition.compile (eastward now) [] (.root "account") = .ok p ∧
      p.Accepts (accountSince held) ∧ ¬ p.Accepts (accountSince now) := by
  intro now asked held condition
  have hreaches : condition.ReachesOperands (eastward now) [] (.root "account") sinceAccessor :=
    ⟨rfl, rfl, ⟨_, rfl, rfl⟩, by decide, rfl⟩
  have htoday : now.localDate? (eastward now).catalog.offset = some ⟨2024, 2, 1, by decide⟩ := by
    decide
  obtain ⟨p, hok, hiff⟩ := compile_relatesDays hreaches rfl rfl rfl
    (Value.namesInstant_dateTime asked) htoday
  have hother : (⟨2024, 2, 1, by decide⟩ : Date) ≠ asked.date := by decide
  exact ⟨p, hok, (hiff (accountSince held) held ⟨2024, 1, 15, by decide⟩ rfl (by decide)).mpr rfl,
    fun haccepts => hother ((hiff (accountSince now) now _ rfl htoday).mp haccepts)⟩

theorem exists_not_relatesDays :
    ¬ ∀ (condition : Condition) (context : Context) (aliases : AliasMap) (scope : Scope)
      (accessor : Accessor) (p : Predicate) (row : Record) (s t : Instant) (held asked : Date),
      condition.ReachesOperands context aliases scope accessor → accessor.type = .dateTime →
      condition.operator.comparesDays = true →
      Value.flattenAll condition.values = [.dateTime t] →
      condition.compile context aliases scope = .ok p → accessor.ReadsInstant row s →
      s.localDate? context.catalog.offset = some held →
      t.localDate? context.catalog.offset = some asked →
      (p.Accepts row ↔ condition.operator.RelatesDays held asked) := by
  intro h
  let late : Instant := ⟨⟨2024, 1, 15, by decide⟩, 84600, 0, by decide, by decide⟩
  let condition : Condition := ⟨"since", none, .on false, [.dateTime late], none, false⟩
  have hday : late.localDate? (eastward late).catalog.offset = some ⟨2024, 1, 16, by decide⟩ := by
    decide
  have hreaches : condition.ReachesOperands (eastward late) [] (.root "account") sinceAccessor :=
    ⟨rfl, rfl, ⟨_, rfl, rfl⟩, by decide, rfl⟩
  have hpresent : (eastward late).present.today = .ok ⟨2024, 1, 16, by decide⟩ :=
    Present.today_eq_ok_iff.mpr hday
  have hok : condition.compile (eastward late) [] (.root "account") =
      .ok (.value sinceAccessor (.day .on late.date (eastward late).catalog.offset) false none) := by
    rw [hreaches.compile_operator rfl rfl, hpresent]
    rfl
  have hreads : sinceAccessor.ReadsInstant (accountSince late) late := rfl
  have haccepts := (h condition (eastward late) [] (.root "account") sinceAccessor _
    (accountSince late) late late _ _ hreaches rfl rfl rfl hok hreads hday hday).mpr rfl
  exact absurd ((Predicate.accepts_day_iff hreads hday _ _ _).mp haccepts) (by decide)

theorem compile_turn {turn : Turn}
    (reaches : condition.ReachesOperands context aliases scope accessor)
    (htype : accessor.type = .dateTime) (hoperator : condition.operator = .day turn)
    (htoday : context.now.localDate? context.catalog.offset = some today) :
    (∀ day, today.addDays? turn.shift = some day →
      ∃ p, condition.compile context aliases scope = .ok p ∧
        ∀ row v held, accessor.ReadsInstant row v →
          v.localDate? context.catalog.offset = some held → (p.Accepts row ↔ held = day)) ∧
    (today.addDays? turn.shift = none →
      condition.compile context aliases scope = .error condition.beyondCalendar) := by
  have hwindow : condition.window? (Value.flattenAll condition.values) context.present =
      (condition.inCalendar (today.addDays? turn.shift)).map
        fun day => some (condition.onDay day) := by
    have hpresent : context.present.today = .ok today := Present.today_eq_ok_iff.mpr htoday
    rw [window?, hpresent, ok_bind, hoperator]
    rfl
  constructor
  · intro day hday
    rw [hday] at hwindow
    obtain ⟨test, negated, hcompile, hrelates⟩ :=
      compileOperator_comparesDays context accessor true
        (show (condition.onDay day).operator.comparesDays = true from rfl)
        (Value.namesInstant_text_iff.mpr (Calendar.readInstant?_text day))
    refine ⟨_, (reaches.compile_window htype hwindow).trans hcompile,
      fun row v held hreads hheld => ?_⟩
    rw [Predicate.accepts_day_iff hreads hheld, hrelates]
    rfl
  · intro hnone
    rw [hnone] at hwindow
    rw [reaches.compile_eq htype (by simp [hoperator]) (by simp [hoperator]), hwindow]
    rfl

theorem compile_turn_yesterday :
    let now : Instant := ⟨⟨-5, 3, 1, by decide⟩, 1800, 0, by decide, by decide⟩
    let yesterday : Instant := ⟨⟨-5, 2, 28, by decide⟩, 1800, 0, by decide, by decide⟩
    let condition : Condition := ⟨"since", none, .day .last, [], none, false⟩
    ∃ p, condition.compile { westward with now } [] (.root "account") = .ok p ∧
      p.Accepts (accountSince yesterday) ∧ ¬ p.Accepts (accountSince now) := by
  intro now yesterday condition
  have hreaches : condition.ReachesOperands { westward with now } [] (.root "account")
      sinceAccessor := ⟨rfl, rfl, ⟨_, rfl, rfl⟩, by decide, rfl⟩
  have htoday : now.localDate? westward.catalog.offset = some ⟨-5, 2, 28, by decide⟩ := by decide
  obtain ⟨p, hok, hiff⟩ := (compile_turn hreaches rfl rfl htoday).1 ⟨-5, 2, 27, by decide⟩
    (by decide)
  refine ⟨p, hok, (hiff (accountSince yesterday) yesterday _ rfl (by decide)).mpr rfl,
    fun haccepts => ?_⟩
  exact absurd ((hiff (accountSince now) now _ rfl htoday).mp haccepts) (by decide)

end Condition

end RecordQuery
